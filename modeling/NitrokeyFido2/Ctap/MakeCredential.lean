import NitrokeyFido2.Ctap.Credential

/-!
`ctap_make_credential`.
-/

namespace NitrokeyFido2.Ctap

variable (env : Env)

/-- `check_retr` on a status. -/
def checkRetr (status : UInt8) : Device Unit := failIf (status ≠ 0) status

/-- Encode, and go on with the encoder. -/
def encode (w : Writer) (m : Encode Unit) : Device Writer := ofStatus (encodeInto w m)

/-- Run a parser that writes the custom credential id of the assertion state,
and look at its outcome. -/
def withCustom {τ α : Type} (m : Parse (WithCustom τ) α) (t : τ) :
    Device (Except UInt8 α × τ) := ⟨fun a =>
  (.ok ((m ⟨t, a.gas.custom⟩).1, (m ⟨t, a.gas.custom⟩).2.val),
    { a with gas := { a.gas with custom := (m ⟨t, a.gas.custom⟩).2.custom } })⟩

/-- `if (ret != 0) return ret` behind a call of such a parser. -/
def parsedWithCustom {τ : Type} (m : Parse (WithCustom τ) Unit) (t : τ) : Device τ := do
  let (r, t) ← withCustom m t
  match r with
  | .ok () => pure t
  | .error c => do
      checkRetr c
      pure t

/-! ### Authenticator data -/

/-- `auth_data_update_count`; zero is left to mark an unusable id. -/
def authDataUpdateCount : Device UInt32 := do
  let count ← ctapAtomicCount env
  if count = 0 then ctapAtomicCount env else pure count

/-- The header as `ctap_make_auth_data` makes it; `update` writes the buffer
it is made in. -/
def ctapMakeAuthDataHeader (update : (AuthDataHeader → AuthDataHeader) → Device Unit)
    (rp : RpId) : CtapM AuthDataHeader := do
  let rpIdHash := env.sha256 rp.bytes
  update fun h => { h with rpIdHash := rpIdHash }
  let count ← authDataUpdateCount env
  update fun h => { h with signCount := count }
  let but ← ctap2UserPresenceTest .request
  let flags ← (
    if but = ctap2ErrProcessing then pure 0
    else do
      checkRetr but
      pure (1 : UInt8) : Device UInt8)
  update fun h => { h with flags := flags }
  deviceSetStatus .processing
  let a ← (Proc.get : Device Authenticator)
  let pinFlag : UInt8 := if ctapIsPinSet a then 4 else 0
  update fun h => { h with flags := h.flags ||| pinFlag }
  pure ⟨rpIdHash, flags ||| pinFlag, count⟩

/-- The credential id made from a nonce. -/
def newCredentialId (s : Secrets) (nonce : Buf credentialNonceSize) (h : AuthDataHeader)
    (credProtect : UInt32) : CredentialId :=
  let id := CredentialId.setNonce (Buf.zero _) nonce.bytes
  let id := addMaskedMetadataForCredential env s id credProtect
  let id := CredentialId.setCount id h.signCount
  let id := CredentialId.setRpIdHash id h.rpIdHash.bytes
  CredentialId.setTag id (makeAuthTag env s h.rpIdHash.bytes (CredentialId.nonce id) h.signCount)

/-- The credential id of a new credential. -/
def makeCredentialId (h : AuthDataHeader) (credProtect : UInt32) : Device CredentialId := do
  let nonce ← ctapGenerateRng env credentialNonceSize
  let a ← Proc.get
  note (.created a.secrets (newCredentialId env a.secrets nonce h credProtect) credProtect)
  pure (newCredentialId env a.secrets nonce h credProtect)

/-- The resident key made of a new credential; its rpId may be cropped. -/
def makeResidentKey (id : CredentialId) (user : UserEntity) (rp : RpId) : ResidentKey :=
  let rpIdSize := min rp.size rpidLimit
  { id, user, rpId := (Buf.zero _).write 0 (rp.bytes.take rpIdSize),
    rpIdSize := UInt8.ofNat rpIdSize }

/-- The valid resident key of the same user, from the `i`-th one on. -/
def findMatchingRk (a : Authenticator) (rk : ResidentKey) : ℕ → ℕ → ResidentKey → Option ℤ
  | 0, _, _ => none
  | fuel + 1, i, rk2 =>
      let (rawI, rk2) := loadNthValidRk a i rk2
      if isMatchingRk rk.credential rk2.credential then some rawI
      else findMatchingRk a rk fuel (i + 1) rk2

/-- The first slot without a valid resident key. -/
def findFreeRk (a : Authenticator) : Option ℕ :=
  (List.range ctapRkSize).find? fun i => !ctapRkIsValid (ctapLoadRk a i default)

def storeResidentKey (rk : ResidentKey) : Device Unit := do
  let a ← Proc.get
  match findMatchingRk a rk a.state.rkStored.toNat 0 default with
  | some rawI => ctapOverwriteRk rawI rk
  | none =>
      match findFreeRk a with
      | some i => do
          ctapIncrementRkStore
          ctapOverwriteRk i rk
      | none => fail ctap2ErrKeyStoreFull

/-- The encoder of the COSE key behind the attested credential data; that it
may fail is not looked at. -/
def coseKeyBytes (a : Authenticator) (id : CredentialId) (credInfo : CredInfo) : List UInt8 :=
  env.writer.buffer (ctapGenerateCoseKey env a.secrets id.bytes credInfo.publicKeyCredentialType
    credInfo.coseAlgorithmIdentifier (Writer.init (310 - 125))).2

/-- The attested credential data. -/
def attestedCredentialData (id : CredentialId) (coseKey : List UInt8) : List UInt8 :=
  env.aaguid.bytes ++ [0, UInt8.ofNat credentialIdSize] ++ id.bytes ++ coseKey

/-- `ctap_make_auth_data` with credential information: the header and what
follows it. -/
def ctapMakeAuthData (rp : RpId) (credInfo : CredInfo) (extensions : Extensions) :
    CtapM (AuthDataHeader × List UInt8) := do
  let h ← ctapMakeAuthDataHeader env (fun _ => pure ()) rp
  let id ← makeCredentialId env h extensions.credProtect
  (if credInfo.rk ≠ 0 then storeResidentKey (makeResidentKey id credInfo.user rp)
    else pure () : Device Unit)
  let a ← (Proc.get : Device Authenticator)
  pure ({ h with flags := h.flags ||| 0x40 },
    attestedCredentialData env id (coseKeyBytes env a id credInfo))

/-- `ctap_add_attest_statement`. -/
def ctapAddAttestStatement (sigder : List UInt8) : Encode Unit :=
  if env.attestationCertDer.length > 1024 then Proc.stop ctap2ErrProcessing
  else env.writer.emitAll [.int 3, .createMap 3, .text "alg", .int coseAlgEs256, .text "sig",
    .byteString sigder, .text "x5c", .createArray 1, .byteString env.attestationCertDer,
    .closeContainer, .closeContainer]

/-! ### The request -/

/-- The exclude list: a credential of ours that the request may see ends it,
after a touch. -/
def checkExcludeList (rp : RpId) (pinAuthPresent : Bool) :
    ℕ → env.reader.Cursor → CredentialDescriptor → CtapM Unit
  | 0, _, _ => pure ()
  | n + 1, arr, exclCred => do
      let (r, exclCred) ← withCustom (parseCredentialDescriptor env arr) exclCred
      match r with
      | .error c =>
          if c = ctap2ErrCborUnexpectedType then
            checkExcludeList rp pinAuthPresent n arr exclCred
          else fail c
      | .ok () => do
          let a ← (Proc.get : Device Authenticator)
          if ctapAuthenticateCredential env a.secrets a.gas.custom rp exclCred ∧
              checkCredentialMetadata env a.secrets exclCred.credential.id pinAuthPresent true then do
            let ret ← ctap2UserPresenceTest .request
            checkRetr ret
            fail ctap2ErrCredentialExcluded
          else
            match env.reader.advance arr with
            | .ok arr => checkExcludeList rp pinAuthPresent n arr exclCred
            | .error _ => fail ctap2ErrCborParsing

/-- The blocking touch that an empty pinAuth asks for. -/
def emptyPinAuth : CtapM Unit := do
  let ret ← ctap2UserPresenceTest .request
  checkRetr ret
  let a ← (Proc.get : Device Authenticator)
  fail (if ctapIsPinSet a then ctap2ErrPinAuthInvalid else ctap2ErrPinNotSet)

/-- The attestation signature. -/
def signAttestation (authData : List UInt8) (clientDataHash : Buf clientDataHashSize) :
    Device (List UInt8) := do
  loadKey (cryptoEcc256LoadAttestationKey env)
  let (_, sigder) ← ctapCalculateSignature env authData clientDataHash
  pure sigder

/-- The checks of `ctap_make_credential` before anything is encoded. -/
def checkMakeCredential (mc : MakeCredential env.reader.Cursor) : CtapM Unit := do
  (if mc.pinAuthEmpty ≠ 0 then emptyPinAuth else pure () : CtapM Unit)
  failIf (mc.paramsParsed &&& mcRequiredMask ≠ mcRequiredMask) ctap2ErrMissingParameter
  let a ← (Proc.get : Device Authenticator)
  failIf (ctapIsPinSet a ∧ mc.pinAuthPresent = 0) ctap2ErrPinRequired
  (if ctapIsPinSet a ∨ mc.pinAuthPresent ≠ 0 then verifyPinAuth env mc.pinAuth mc.clientDataHash
    else pure () : Device Unit)
  failIf (mc.up = 1 ∨ mc.up = 0) ctap2ErrInvalidOption
  match mc.excludeList with
  | some arr =>
      checkExcludeList env mc.rp (mc.pinAuthPresent ≠ 0) mc.excludeListSize arr
        (uninitDescriptor env .excludedCredential)
  | none => pure ()

/-- The extension output appended to the authenticator data in its 310-byte
buffer. -/
def appendExtensions (extensions : Extensions) (h : AuthDataHeader) (attested : List UInt8) :
    Device (List UInt8) := do
  let a ← Proc.get
  let n := 310 - (37 + attested.length)
  let ext ← Proc.ofExcept
    (match ctapMakeExtensions env a extensions ⟨env.uninit .extensions n, n⟩ with
      | (.ok (), ext) => .ok (ext.buf.slice 0 ext.size)
      | (.error e, _) => .error e)
  let h := if ext = [] then h else { h with flags := h.flags ||| 0x80 }
  pure (h.toBytes ++ attested ++ ext)

/-- `ctap_make_credential`. -/
def ctapMakeCredential (w : Writer) (request : List UInt8) : CtapM Writer := do
  let mc ← parsedWithCustom (ctapParseMakeCredential env request) default
  checkMakeCredential env mc
  let w ← encode w (env.writer.emitAll [.createMap 3, .int 1, .text "packed"])
  let (h, attested) ← ctapMakeAuthData env mc.rp mc.credInfo mc.extensions
  let authData ← appendExtensions env mc.extensions h attested
  let w ← encode w (env.writer.emitAll [.int 2, .byteString authData])
  let sigder ← signAttestation env authData mc.clientDataHash
  encode w (do
    ctapAddAttestStatement env sigder
    env.writer.emit .closeContainer)

end NitrokeyFido2.Ctap
