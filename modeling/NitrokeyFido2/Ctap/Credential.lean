import NitrokeyFido2.Ctap.Device

/-!
Credential ids: how they are made, recognised and protected, and what is
signed and encoded for them.
-/

namespace NitrokeyFido2.Ctap

variable (env : Env)

/-! ### Tags and metadata -/

/-- The mask of the metadata: four bytes of the HMAC of the random part of the
nonce. -/
def metadataMask (s : Secrets) (id : CredentialId) : UInt32 :=
  Bytes.le32 (cryptoSha256Hmac env s .transport (CredentialId.noncePad id)).bytes

/-- `add_masked_metadata_for_credential`. -/
def addMaskedMetadataForCredential (s : Secrets) (id : CredentialId) (credProtect : UInt32) :
    CredentialId :=
  CredentialId.setMetadata id (metadataMask env s id ^^^ credProtect)

/-- `read_metadata_from_masked_credential`. -/
def readMetadataFromMaskedCredential (s : Secrets) (id : CredentialId) : UInt32 :=
  CredentialId.metadata id ^^^ metadataMask env s id

/-- `check_credential_metadata(..) == 0`. -/
def checkCredentialMetadata (s : Secrets) (id : CredentialId) (isVerified isFromCredidList : Bool) :
    Bool :=
  let credProtect := readMetadataFromMaskedCredential env s id
  if credProtect = extCredProtectOptionalWithCredid then isFromCredidList || isVerified
  else if credProtect = extCredProtectRequired then isVerified
  else true

/-- `make_auth_tag`. -/
def makeAuthTag (s : Secrets) (rpIdHash nonce : List UInt8) (count : UInt32) : List UInt8 :=
  (cryptoSha256Hmac env s .transport (rpIdHash ++ nonce ++ Bytes.toLe32 count)).slice 0
    credentialTagSize

/-- `u2f_make_auth_tag`. -/
def u2fMakeAuthTag (s : Secrets) (key appid : List UInt8) : List UInt8 :=
  (cryptoSha256Hmac env s .master (key ++ appid)).slice 0 credentialTagSize

/-- A 70-byte id with this rpIdHash that carries the tag it was made with. -/
def isAuthenticId (s : Secrets) (rpIdHash : List UInt8) (id : CredentialId) : Bool :=
  CredentialId.rpIdHash id = rpIdHash &&
    CredentialId.tag id =
      makeAuthTag env s rpIdHash (CredentialId.nonce id) (CredentialId.count id)

/-- A 48-byte key handle that carries the tag it was made with. -/
def isAuthenticKeyHandle (s : Secrets) (appid kh : List UInt8) : Bool :=
  kh.take 16 = u2fMakeAuthTag env s ((kh.drop 16).take 32) appid

/-- `u2f_authenticate_credential`; `kh` is the memory from the key handle
on. -/
def u2fAuthenticateCredential (s : Secrets) (kh : List UInt8) (keyHandleLen : ℕ)
    (appid : List UInt8) : Bool :=
  if keyHandleLen = credentialIdSize then
    isAuthenticId env s appid (Buf.ofList credentialIdSize (kh.take credentialIdSize))
  else if keyHandleLen = u2fKeyHandleSize then
    isAuthenticKeyHandle env s appid kh
  else false

/-- `is_extension_request`. -/
def isExtensionRequest (kh : List UInt8) (len : ℕ) : Bool :=
  24 ≤ len && (kh.drop 4).take 4 = [0x8C, 0x27, 0x90, 0xf6]

/-- `ctap_authenticate_credential`. -/
def ctapAuthenticateCredential (s : Secrets) (custom : CustomCred) (rp : RpId)
    (desc : CredentialDescriptor) : Bool :=
  let rpIdHash := (env.sha256 rp.bytes).bytes
  if desc.type = pubKeyCredPubKey then isAuthenticId env s rpIdHash desc.credential.id
  else if desc.type = pubKeyCredCtap1 then
    u2fAuthenticateCredential env s desc.credential.id.bytes u2fKeyHandleSize rpIdHash
  else if desc.type = pubKeyCredCustom then
    isExtensionRequest custom.id.bytes custom.size.toNat
  else false

/-- `get_credential_id_size`. -/
def getCredentialIdSize (custom : CustomCred) (type : UInt8) : ℕ :=
  if type = pubKeyCredCtap1 then u2fKeyHandleSize
  else if type = pubKeyCredCustom then custom.size.toNat
  else credentialIdSize

/-- The first `n` bytes from `&cred->id` on; the user entity follows the
id. -/
def Credential.prefixBytes (c : Credential) (n : ℕ) : List UInt8 :=
  (c.id.bytes ++ c.user.toBytes).take n

/-- `verify_pin_auth_ex(..) == 0`. -/
def verifyPinAuthEx (a : Authenticator) (pinAuth : Buf 16) (buf : List UInt8) : Bool :=
  pinAuth.bytes = (cryptoSha256Hmac env a.secrets (.bytes a.pinToken.bytes) buf).slice 0 16

/-- `verify_pin_auth`, as a step of a request. -/
def verifyPinAuth (pinAuth : Buf 16) (clientDataHash : Buf clientDataHashSize) : Device Unit := do
  let a ← Proc.get
  failIf (verifyPinAuthEx env a pinAuth clientDataHash.bytes = false) ctap2ErrPinAuthInvalid
  note .pinAuthVerified

/-! ### Signatures -/

/-- The number of zeros at the start. -/
def leadingZeros (b : List UInt8) : ℕ := (b.takeWhile (· = 0)).length

/-- `ctap_encode_der_sig`: the 72-byte buffer and the length of the
encoding. -/
def ctapEncodeDerSig (sig : Buf 64) : Buf 72 × ℕ :=
  let leadR := leadingZeros (sig.slice 0 32)
  let leadS := leadingZeros (sig.slice 32 32)
  let padS := if sig.byte (32 + leadS) &&& 0x80 = 0x80 then 1 else 0
  let padR := if sig.byte leadR &&& 0x80 = 0x80 then 1 else 0
  let out := (Buf.zero 72).write 0 [0x30]
  let out := out.write 1 [UInt8.ofNat (0x44 + padS + padR - leadS - leadR)]
  let out := out.write 2 [0x02]
  let out := out.write (3 + padR) [0]
  let out := out.write 3 [UInt8.ofNat (0x20 + padR - leadR)]
  let out := out.write (4 + padR) (sig.slice leadR (32 - leadR))
  let out := out.write (4 + 32 + padR - leadR) [0x02]
  let out := out.write (5 + 32 + padR + padS - leadR) [0]
  let out := out.write (5 + 32 + padR - leadR) [UInt8.ofNat (0x20 + padS - leadS)]
  let out := out.write (6 + 32 + padR + padS - leadR) (sig.slice (32 + leadS) (32 - leadS))
  (out, 0x46 + padS + padR - leadR - leadS)

/-- `crypto_ecc256_sign` with the loaded key. -/
def cryptoEcc256Sign (hash : List UInt8) : Device (Buf 64) := do
  let a ← Proc.get
  let (sig, drawn) ← orHalt (env.sign a.signingKey.key hash fun i => env.random (a.rngPos + i))
  Proc.modify fun a => { a with rngPos := a.rngPos + drawn }
  note (.signed a.signingKey.source hash)
  pure sig

/-- `ctap_calculate_signature`: the hash left in `hashbuf` and the DER
encoding. -/
def ctapCalculateSignature (data : List UInt8) (clientDataHash : Buf clientDataHashSize) :
    Device (Buf 32 × List UInt8) := do
  let a ← Proc.get
  let hash := env.sha256 (data ++ clientDataHash.bytes)
  note (.assertion a.signingKey.source data clientDataHash.bytes)
  let sig ← cryptoEcc256Sign env hash.bytes
  let (sigder, len) := ctapEncodeDerSig sig
  pure (hash, sigder.slice 0 len)

def loadKey (k : SigningKey) : Device Unit := Proc.modify fun a => { a with signingKey := k }

/-! ### COSE keys and descriptors -/

/-- `ctap_add_cose_key`. -/
def ctapAddCoseKey (pubkey : Buf 64) (algtype : ℤ) : Encode Unit :=
  env.writer.emitAll [.createMap 5, .int 1, .int 2, .int 3, .int algtype, .int (-1), .int 1,
    .int (-2), .byteString (pubkey.slice 0 32), .int (-3), .byteString (pubkey.slice 32 32),
    .closeContainer]

/-- `ctap_generate_cose_key`. -/
def ctapGenerateCoseKey (s : Secrets) (hmacInput : List UInt8) (credtype : UInt8) (algtype : ℤ) :
    Encode Unit :=
  if credtype ≠ pubKeyCredPubKey ∨ algtype ≠ coseAlgEs256 then Proc.stop 0xff
  else ctapAddCoseKey env (cryptoEcc256DerivePublicKey env s hmacInput) algtype

/-- `ctap_add_credential_descriptor`. -/
def ctapAddCredentialDescriptor (custom : CustomCred) (cred : Credential) (type : UInt8) :
    Encode Unit :=
  env.writer.emitAll [.createMap 2, .text "id",
    .byteString (cred.prefixBytes (getCredentialIdSize custom type)), .text "type",
    .text "public-key", .closeContainer]

/-- `ctap_add_user_entity`. -/
def ctapAddUserEntity (user : UserEntity) (isVerified : Bool) : Encode Unit :=
  let dispname := user.name.byte 0 ≠ 0 && isVerified
  let hasIcon := decide (0 < (Bytes.cString user.icon.bytes).length)
  env.writer.emitAll (
    [.createMap (if dispname then (if hasIcon then 4 else 3) else 1), .text "id",
      .byteString user.idBytes] ++
    (if dispname then
      (if hasIcon then [.text "icon", .stringz user.icon] else []) ++
        [.text "name", .stringz user.name, .text "displayName", .stringz user.displayName]
    else []) ++
    [.closeContainer])

/-! ### Extensions -/

/-- The destination of `ctap_make_extensions`: a buffer and the size
variable. -/
structure ExtBuf (n : ℕ) where
  buf : Buf n
  size : ℕ

/-- The id that `hmac_secret.credential` leads to. -/
def CredentialPtr.deref (a : Authenticator) : CredentialPtr → CredentialId
  | .null => env.memoryAtNull
  | .firstCred => (a.gas.creds.getD 0 default).credential.id

/-- The output of the hmac-secret extension, or the error of its salt
check. -/
def hmacSecretOutput (a : Authenticator) (hs : HmacSecret) : Except Stop (List UInt8) :=
  let saltEnc := hs.saltEnc.slice 0 hs.saltLen.toNat
  match env.sharedSecret hs.keyAgreement.pubkey a.keyAgreementPriv with
  | none => .error .halted
  | some shared =>
      let sharedSecret := (env.sha256 shared.bytes).bytes
      if hs.saltAuth.slice 0 16 ≠
          (cryptoSha256Hmac env a.secrets (.bytes sharedSecret) saltEnc).slice 0 16 then
        .error (.status ctap2ErrExtensionFirst)
      else
        let credRandom := (cryptoSha256Hmac env a.secrets .transport2
          ((hs.credential.deref env a).bytes ++ [a.gas.userVerified])).bytes
        let salt := hs.saltEnc.write 0 (env.aesCbcDecrypt sharedSecret saltEnc)
        let output := (cryptoSha256Hmac env a.secrets (.bytes credRandom) (salt.slice 0 32)).bytes ++
          if hs.saltLen = 64 then
            (cryptoSha256Hmac env a.secrets (.bytes credRandom) (salt.slice 32 32)).bytes
          else []
        .ok (env.aesCbcEncrypt sharedSecret (output.take hs.saltLen.toNat))

/-- The items of the extension map. -/
def extensionOps (ext : Extensions) (hmacSecret : Option (List UInt8)) : List EncOp :=
  let requested := ext.hmacSecretPresent = extHmacSecretRequested
  let credProtect := ext.credProtect = extCredProtectOptional ∨
    ext.credProtect = extCredProtectOptionalWithCredid ∨ ext.credProtect = extCredProtectRequired
  let used := (if hmacSecret.isSome ∨ requested then 1 else 0) + (if credProtect then 1 else 0)
  if used = 0 then []
  else
    [.createMap used] ++
      (match hmacSecret with
        | some output => [.text "hmac-secret", .byteString output]
        | none => []) ++
      (if credProtect then [.text "credProtect", .int ext.credProtect.toNat] else []) ++
      (if requested then [.text "hmac-secret", .boolean true] else []) ++
      [.closeContainer]

/-- Encode the extension map; the size variable is only set when all of it
was accepted. -/
def encodeExtensions {n : ℕ} (ops : List EncOp) : Proc (ExtBuf n) Stop Unit := ⟨fun b =>
  match env.writer.emitAll ops (Writer.init b.size) with
  | (.ok (), w) =>
      let bytes := if ops = [] then [] else env.writer.buffer w
      (.ok (), ⟨b.buf.write 0 bytes, bytes.length⟩)
  | (.error c, w) => (.error (.status c), { b with buf := b.buf.write 0 (env.writer.buffer w) })⟩

/-- `ctap_make_extensions`. -/
def ctapMakeExtensions {n : ℕ} (a : Authenticator) (ext : Extensions) :
    Proc (ExtBuf n) Stop Unit :=
  if ext.hmacSecretPresent = extHmacSecretParsed then do
    let output ← Proc.ofExcept (hmacSecretOutput env a ext.hmacSecret)
    encodeExtensions env (extensionOps ext (some output))
  else encodeExtensions env (extensionOps ext none)

/-! ### The list of an assertion -/

/-- `cred_cmp_func`: the difference of the counts as an `int`. -/
def credCmpFunc (a b : CredentialDescriptor) : ℤ :=
  Int.bmod ((CredentialId.count b.credential.id).toNat -
    (CredentialId.count a.credential.id).toNat) (2 ^ 32)

/-- `add_existing_user_info`, from the `i`-th valid resident key on. -/
def addExistingUserInfoFrom (a : Authenticator) (cred : CredentialDescriptor) :
    ℕ → ℕ → ResidentKey → CredentialDescriptor
  | 0, _, _ => cred
  | fuel + 1, i, rk =>
      let rk := (loadNthValidRk a i rk).2
      if isMatchingRk rk.credential cred.credential then
        { cred with credential := { cred.credential with user := rk.user } }
      else addExistingUserInfoFrom a cred fuel (i + 1) rk

/-- `add_existing_user_info`. -/
def addExistingUserInfo (a : Authenticator) (cred : CredentialDescriptor) : CredentialDescriptor :=
  addExistingUserInfoFrom a cred a.state.rkStored.toNat 0 default

/-- One entry of the allowList: whether it counts, and what becomes of it. -/
def filterEntry (a : Authenticator) (rp : RpId) (cred : CredentialDescriptor) :
    Bool × CredentialDescriptor :=
  if ctapAuthenticateCredential env a.secrets a.gas.custom rp cred then
    if checkCredentialMetadata env a.secrets cred.credential.id (a.gas.userVerified ≠ 0) true then
      (true, addExistingUserInfo a cred)
    else (false, cred.invalidate)
  else if isExtensionRequest cred.credential.id.bytes credentialIdSize then (true, cred)
  else (false, cred.invalidate)

/-- A resident key that is listed when there is no allowList. -/
def rkIsListed (a : Authenticator) (rpIdHash : List UInt8) (rk : ResidentKey) : Bool :=
  ctapRkIsValid rk && checkCredentialMetadata env a.secrets rk.id (a.gas.userVerified ≠ 0) false &&
    CredentialId.rpIdHash rk.id = rpIdHash

/-- The resident keys that are listed, the first 20 of them. -/
def listedRks (a : Authenticator) (rp : RpId) : List CredentialDescriptor :=
  ((a.rks.filter (rkIsListed env a (env.sha256 rp.bytes).bytes)).take allowListMaxSize).map
    fun rk => ⟨pubKeyCredPubKey, rk.credential⟩

/-- The entries that the filter goes through. -/
def offeredCredentials (a : Authenticator) (ga : GetAssertion) : List CredentialDescriptor :=
  if ga.credLen = 0 then listedRks env a ga.rp else a.gas.creds.take ga.credLen

/-- A credential of ours for the relying party, which the request may see. -/
def isAccepted (a : Authenticator) (ga : GetAssertion) (cred : CredentialDescriptor) : Bool :=
  ctapAuthenticateCredential env a.secrets a.gas.custom ga.rp cred &&
    checkCredentialMetadata env a.secrets cred.credential.id (a.gas.userVerified ≠ 0)
      (ga.credLen ≠ 0)

/-- `ctap_filter_invalid_credentials`: the number of entries that count, the
length of the list and the list itself. -/
def ctapFilterInvalidCredentials (a : Authenticator) (ga : GetAssertion) :
    ℕ × ℕ × List CredentialDescriptor :=
  let creds := a.gas.creds
  if ga.credLen = 0 then
    let listed := listedRks env a ga.rp
    (listed.length, listed.length, env.qsort credCmpFunc listed ++ creds.drop listed.length)
  else
    let entries := (creds.take ga.credLen).map (filterEntry env a ga.rp)
    (entries.countP (·.1), ga.credLen,
      env.qsort credCmpFunc (entries.map (·.2)) ++ creds.drop ga.credLen)

end NitrokeyFido2.Ctap
