import NitrokeyFido2.Ctap.Crypto

/-!
`ctap_parse.c`: the parsers of the request parameters.

Each parser is a procedure on the structure it fills. The parsers of credential
descriptors also write the custom credential id of the assertion state, which
therefore travels with the descriptor.
-/

namespace NitrokeyFido2.Ctap

variable (env : Env)

/-- `CTAP_makeCredential`. -/
structure MakeCredential (Cursor : Type) where
  paramsParsed : UInt32
  clientDataHash : Buf clientDataHashSize
  rp : RpId
  credInfo : CredInfo
  excludeList : Option Cursor
  excludeListSize : ℕ
  uv : UInt8
  up : UInt8
  pinAuth : Buf 16
  pinAuthPresent : UInt8
  pinAuthEmpty : UInt8
  pinProtocol : ℤ
  extensions : Extensions
  deriving Inhabited

/-- A parsed structure together with the custom credential id. -/
structure WithCustom (τ : Type) where
  val : τ
  custom : CustomCred
  deriving Inhabited

section

variable {τ α γ : Type}

/-- Fill a part of the structure. -/
def onVal (m : Parse τ α) : Parse (WithCustom τ) α :=
  Proc.zoom WithCustom.val (fun s v => { s with val := v }) m

def checkErr (e : CborError) : Parse τ Unit := Proc.stopIf (e ≠ 0) ctap2ErrCborParsing

theorem checkRet_ok {r : Except CborError α} {a : α} {s t : τ} :
    (checkRet r : Parse τ α) s = (.ok a, t) ↔ r = .ok a ∧ s = t := by
  rw [checkRet, Proc.ofExcept_ok]
  cases r with
  | error e => simp [Except.mapError]
  | ok b => rw [Except.mapError, Except.ok.injEq, Except.ok.injEq]

/-- `strncmp(key, s, strlen(s)) == 0`. -/
def startsWith {n : ℕ} (key : Buf n) (s : String) : Bool :=
  (Bytes.cString key.bytes).take s.length == Bytes.ascii s

/-- `strcmp(key, s) == 0`. -/
def isString {n : ℕ} (key : Buf n) (s : String) : Bool :=
  Bytes.cString key.bytes == Bytes.ascii s

/-- Enter a map or an array and read its length. -/
def enterMap (val : env.reader.Cursor) : Parse τ (env.reader.Cursor × ℕ) := do
  let map ← checkRet (env.reader.enterContainer val)
  let length ← checkRet (env.reader.getMapLength val)
  pure (map, length)

def enterArray (val : env.reader.Cursor) : Parse τ (env.reader.Cursor × ℕ) := do
  let arr ← checkRet (env.reader.enterContainer val)
  let length ← checkRet (env.reader.getArrayLength val)
  pure (arr, length)

/-- Read the text key of a map entry into a local buffer and move to the
value. -/
def textKey {n : ℕ} (map : env.reader.Cursor) (key : Buf n) :
    Parse τ (env.reader.Cursor × Buf n) := do
  Proc.stopIf (env.reader.getType map ≠ .textString) ctap2ErrInvalidCborType
  let copied := env.reader.copyTextString map n
  Proc.stopIf (copied.err = cborErrorOutOfMemory) ctap2ErrLimitExceeded
  checkErr copied.err
  let map ← checkRet (env.reader.advance map)
  pure (map, (key.write 0 copied.written).write (n - 1) [0])

/-- Read the integer key of a map entry and move to the value. -/
def intKey (unexpected : UInt8) (map : env.reader.Cursor) :
    Parse τ (ℤ × env.reader.Cursor) := do
  Proc.stopIf (env.reader.getType map ≠ .integer) unexpected
  let key ← checkRet (env.reader.getIntChecked map)
  let map ← checkRet (env.reader.advance map)
  pure (key, map)

/-- An integer value. -/
def parseInt (map : env.reader.Cursor) : Parse τ ℤ := do
  Proc.stopIf (env.reader.getType map ≠ .integer) ctap2ErrInvalidCborType
  checkRet (env.reader.getIntChecked map)

def parseBool (map : env.reader.Cursor) : Parse τ Bool := do
  Proc.stopIf (env.reader.getType map ≠ .boolean) ctap2ErrInvalidCborType
  checkRet (env.reader.getBoolean map)

/-- The parameter map of a request. -/
def requestMap (initError : CborError → UInt8) (unexpected : UInt8) (request : List UInt8) :
    Parse τ (env.reader.Cursor × ℕ) := do
  let it ← Proc.ofExcept ((env.reader.parserInit request).mapError initError)
  Proc.stopIf (env.reader.getType it ≠ .map) unexpected
  enterMap env it

end

def parseFixedByteString {n : ℕ} (map : env.reader.Cursor) : Parse (Buf n) Unit := do
  Proc.stopIf (env.reader.getType map ≠ .byteString) ctap2ErrInvalidCborType
  let copied := env.reader.copyByteString map n
  Proc.modify (·.write 0 copied.written)
  checkErr copied.err
  Proc.stopIf (copied.buflen ≠ n) ctap1ErrInvalidLength

/-! ### Relying party, user, algorithms -/

/-- A text value of the user entity, truncated where it does not fit. -/
def copyTruncated {n : ℕ} (map : env.reader.Cursor) : Parse (Buf n) Unit := do
  Proc.stopIf (env.reader.getType map ≠ .textString) ctap2ErrInvalidCborType
  let copied := env.reader.copyTextString map n
  Proc.modify (·.write 0 copied.written)
  Proc.stopIf (copied.err ≠ cborErrorOutOfMemory ∧ copied.err ≠ 0) ctap2ErrCborParsing
  Proc.modify (·.write (n - 1) [0])

def parseUserId (map : env.reader.Cursor) : Parse UserEntity Unit := do
  Proc.stopIf (env.reader.getType map ≠ .byteString) ctap2ErrInvalidCborType
  let copied := env.reader.copyByteString map userIdMaxSize
  Proc.modify fun u => { u with id := u.id.write 0 copied.written }
  Proc.stopIf (copied.err = cborErrorOutOfMemory) ctap2ErrLimitExceeded
  Proc.modify fun u => { u with idSize := UInt8.ofNat copied.buflen }
  checkErr copied.err

def parseUserField (key : Buf 24) (map : env.reader.Cursor) : Parse UserEntity Unit :=
  if isString key "id" then
    parseUserId env map
  else if isString key "name" then
    Proc.zoom UserEntity.name (fun u v => { u with name := v }) (copyTruncated env map)
  else if isString key "displayName" then
    Proc.zoom UserEntity.displayName (fun u v => { u with displayName := v })
      (copyTruncated env map)
  else if isString key "icon" then
    Proc.zoom UserEntity.icon (fun u v => { u with icon := v }) (copyTruncated env map)
  else
    pure ()

def parseUserEntry (s : env.reader.Cursor × Buf 24) :
    Parse UserEntity (env.reader.Cursor × Buf 24) := do
  let (map, key) ← textKey env s.1 s.2
  parseUserField env key map
  let map ← checkRet (env.reader.advance map)
  pure (map, key)

def parseUser (val : env.reader.Cursor) : Parse (MakeCredential env.reader.Cursor) Unit := do
  Proc.stopIf (env.reader.getType val ≠ .map) ctap2ErrInvalidCborType
  let (map, length) ← enterMap env val
  let _ ← Proc.zoom (fun mc : MakeCredential _ => mc.credInfo.user)
    (fun mc u => { mc with credInfo := { mc.credInfo with user := u } })
    (forEntries length (parseUserEntry env) (map, env.uninit .textKey 24))
  Proc.modify fun mc => { mc with paramsParsed := mc.paramsParsed ||| paramUser }

def parsePubKeyCredParam (val : env.reader.Cursor) : Parse Unit (UInt8 × ℤ) := do
  Proc.stopIf (env.reader.getType val ≠ .map) ctap2ErrInvalidCborType
  let cred ← checkRet (env.reader.mapFindValue val (Bytes.ascii "type"))
  let alg ← checkRet (env.reader.mapFindValue val (Bytes.ascii "alg"))
  Proc.stopIf (env.reader.getType cred ≠ .textString) ctap2ErrMissingParameter
  Proc.stopIf (env.reader.getType alg ≠ .integer) ctap2ErrMissingParameter
  let copied := env.reader.copyTextString cred 16
  checkErr copied.err
  let typeStr := ((env.uninit .textKey 16).write 0 copied.written).write 15 [0]
  let algType ← checkRet (env.reader.getIntChecked alg)
  pure (if isString typeStr "public-key" then pubKeyCredPubKey else pubKeyCredUnknown, algType)

def pubKeyCredParamSupported (cred : UInt8) (alg : ℤ) : Bool :=
  cred = pubKeyCredPubKey && alg = coseAlgEs256

/-- The second pass over the algorithms: the first supported one counts. -/
def findPubKeyCredParam :
    ℕ → env.reader.Cursor → Parse (MakeCredential env.reader.Cursor) Unit
  | 0, _ => Proc.stop ctap2ErrUnsupportedAlgorithm
  | n + 1, arr =>
      match (parsePubKeyCredParam env arr ()).1 with
      | .ok (credType, algType) =>
          if pubKeyCredParamSupported credType algType then
            Proc.modify fun mc =>
              { mc with
                credInfo := { mc.credInfo with
                  publicKeyCredentialType := credType
                  coseAlgorithmIdentifier := algType }
                paramsParsed := mc.paramsParsed ||| paramPubKeyCredParams }
          else do
            let arr ← checkRet (env.reader.advance arr)
            findPubKeyCredParam n arr
      | .error _ => do
          let arr ← checkRet (env.reader.advance arr)
          findPubKeyCredParam n arr

def parsePubKeyCredParams (val : env.reader.Cursor) :
    Parse (MakeCredential env.reader.Cursor) Unit := do
  Proc.stopIf (env.reader.getType val ≠ .array) ctap2ErrInvalidCborType
  let (arr, length) ← enterArray env val
  let _ ← forEntries length (fun arr => do
    let _ ← Proc.ofExcept (parsePubKeyCredParam env arr ()).1
    checkRet (env.reader.advance arr)) arr
  let arr ← checkRet (env.reader.enterContainer val)
  findPubKeyCredParam env length arr

def parseRpId (val : env.reader.Cursor) : Parse RpId Unit := do
  Proc.stopIf (env.reader.getType val ≠ .textString) ctap2ErrInvalidCborType
  let copied := env.reader.copyTextString val domainNameMaxSize
  Proc.modify fun rp => { rp with id := rp.id.write 0 copied.written }
  Proc.stopIf (copied.err = cborErrorOutOfMemory) ctap2ErrLimitExceeded
  checkErr copied.err
  Proc.modify fun rp =>
    { rp with id := rp.id.write domainNameMaxSize [0], size := copied.buflen }

def parseRpField (key : Buf 8) (map : env.reader.Cursor) : Parse RpId Unit :=
  if isString key "id" then
    parseRpId env map
  else if isString key "name" then
    Proc.zoom RpId.name (fun rp v => { rp with name := v }) (copyTruncated env map)
  else
    pure ()

def parseRpEntry (s : env.reader.Cursor × Buf 8) : Parse RpId (env.reader.Cursor × Buf 8) := do
  let (map, key) ← textKey env s.1 s.2
  Proc.stopIf (env.reader.getType map ≠ .textString) ctap2ErrInvalidCborType
  parseRpField env key map
  let map ← checkRet (env.reader.advance map)
  pure (map, key)

def parseRp (val : env.reader.Cursor) : Parse RpId Unit := do
  Proc.stopIf (env.reader.getType val ≠ .map) ctap2ErrInvalidCborType
  let (map, length) ← enterMap env val
  Proc.modify fun rp => { rp with size := 0 }
  let _ ← forEntries length (parseRpEntry env) (map, env.uninit .textKey 8)
  let rp ← Proc.get
  Proc.stopIf (rp.size = 0) ctap2ErrMissingParameter

/-! ### Options and extensions -/

/-- The option flags; each parser passes its own. -/
structure Options where
  rk : UInt8
  uv : UInt8
  up : UInt8

def ofBool (b : Bool) : UInt8 := if b then 1 else 0

def parseOptionField (key : Buf 8) (map : env.reader.Cursor) : Parse Options Unit :=
  if startsWith key "rk" then do
    let b ← checkRet (env.reader.getBoolean map)
    Proc.modify fun o => { o with rk := ofBool b }
  else if startsWith key "uv" then do
    let b ← checkRet (env.reader.getBoolean map)
    Proc.modify fun o => { o with uv := ofBool b }
  else if startsWith key "up" then do
    let b ← checkRet (env.reader.getBoolean map)
    Proc.modify fun o => { o with up := ofBool b }
  else
    pure ()

def parseOption (s : env.reader.Cursor × Buf 8) :
    Parse Options (env.reader.Cursor × Buf 8) := do
  let (map, key) ← textKey env s.1 s.2
  Proc.stopIf (env.reader.getType map ≠ .boolean) ctap2ErrInvalidCborType
  parseOptionField env key map
  let map ← checkRet (env.reader.advance map)
  pure (map, key)

def parseOptions (val : env.reader.Cursor) : Parse Options Unit := do
  Proc.stopIf (env.reader.getType val ≠ .map) ctap2ErrInvalidCborType
  let (map, length) ← enterMap env val
  let _ ← forEntries length (parseOption env) (map, env.uninit .textKey 8)

def parseCoseKeyEntry (s : env.reader.Cursor × Bool × Bool) :
    Parse CoseKey (env.reader.Cursor × Bool × Bool) := do
  let (key, map) ← intKey env ctap2ErrInvalidCborType s.1
  let (xkey, ykey) ← (
    if key = 1 then do
      let v ← parseInt env map
      Proc.modify fun k => { k with kty := v }
      pure s.2
    else if key = -1 then do
      let v ← parseInt env map
      Proc.modify fun k => { k with crv := v }
      pure s.2
    else if key = -2 then do
      Proc.zoom CoseKey.x (fun k v => { k with x := v }) (parseFixedByteString env map)
      pure (true, s.2.2)
    else if key = -3 then do
      Proc.zoom CoseKey.y (fun k v => { k with y := v }) (parseFixedByteString env map)
      pure (s.2.1, true)
    else
      pure s.2)
  let map ← checkRet (env.reader.advance map)
  pure (map, xkey, ykey)

def parseCoseKey (it : env.reader.Cursor) : Parse CoseKey Unit := do
  Proc.modify fun k => { k with kty := 0, crv := 0 }
  Proc.stopIf (env.reader.getType it ≠ .map) ctap2ErrInvalidCborType
  let (map, length) ← enterMap env it
  let (_, xkey, ykey) ← forEntries length (parseCoseKeyEntry env) (map, false, false)
  let k ← Proc.get
  Proc.stopIf (xkey = false ∨ ykey = false ∨ k.kty = 0 ∨ k.crv = 0) ctap2ErrMissingParameter

def parseHmacSecretEntry (s : env.reader.Cursor × UInt8) :
    Parse HmacSecret (env.reader.Cursor × UInt8) := do
  Proc.stopIf (env.reader.getType s.1 ≠ .integer) ctap2ErrInvalidCborType
  let key := env.reader.getInt s.1
  let map ← checkRet (env.reader.advance s.1)
  let parsedCount ← (
    if key = 1 then do
      Proc.zoom HmacSecret.keyAgreement (fun hs v => { hs with keyAgreement := v })
        (parseCoseKey env map)
      pure (s.2 + 1)
    else if key = 2 then do
      let copied := env.reader.copyByteString map 64
      Proc.modify fun hs => { hs with saltEnc := hs.saltEnc.write 0 copied.written }
      Proc.stopIf ((copied.buflen ≠ 32 ∧ copied.buflen ≠ 64) ∨
        copied.err = cborErrorOutOfMemory) ctap1ErrInvalidLength
      checkErr copied.err
      Proc.modify fun hs => { hs with saltLen := UInt8.ofNat copied.buflen }
      pure (s.2 + 1)
    else if key = 3 then do
      let copied := env.reader.copyByteString map 32
      Proc.modify fun hs => { hs with saltAuth := hs.saltAuth.write 0 copied.written }
      checkErr copied.err
      pure (s.2 + 1)
    else
      pure s.2)
  let map ← checkRet (env.reader.advance map)
  pure (map, parsedCount)

def ctapParseHmacSecret (val : env.reader.Cursor) : Parse HmacSecret Unit := do
  Proc.stopIf (env.reader.getType val ≠ .map) ctap2ErrInvalidCborType
  let (map, length) ← enterMap env val
  let (_, parsedCount) ← forEntries length (parseHmacSecretEntry env) (map, 0)
  Proc.stopIf (parsedCount ≠ 3) ctap2ErrMissingParameter

/-- The value of an extension entry. -/
def parseExtensionValue (key : Buf 16) (map : env.reader.Cursor) : Parse Extensions Unit :=
  if startsWith key "hmac-secret" then
    if env.reader.getType map = .boolean then do
      let b ← checkRet (env.reader.getBoolean map)
      if b then
        Proc.modify fun ext => { ext with hmacSecretPresent := extHmacSecretRequested }
      else
        pure ()
    else if env.reader.getType map = .map then do
      Proc.zoom Extensions.hmacSecret (fun ext v => { ext with hmacSecret := v })
        (ctapParseHmacSecret env map)
      Proc.modify fun ext => { ext with hmacSecretPresent := extHmacSecretParsed }
    else
      pure ()
  else if startsWith key "credProtect" then
    if env.reader.getType map = .integer then
      Proc.modify fun ext => { ext with credProtect := UInt32.ofInt (env.reader.getInt map) }
    else
      pure ()
  else
    pure ()

def parseExtension (s : env.reader.Cursor × Buf 16) :
    Parse Extensions (env.reader.Cursor × Buf 16) := do
  Proc.stopIf (env.reader.getType s.1 ≠ .textString) ctap2ErrInvalidCborType
  let copied := env.reader.copyTextString s.1 16
  let key := s.2.write 0 copied.written
  if copied.err = cborErrorOutOfMemory then do
    -- A key that does not fit is skipped with its value.
    let map ← checkRet (env.reader.advance s.1)
    let map ← checkRet (env.reader.advance map)
    pure (map, key)
  else do
    checkErr copied.err
    let key := key.write 15 [0]
    let map ← checkRet (env.reader.advance s.1)
    parseExtensionValue env key map
    let map ← checkRet (env.reader.advance map)
    pure (map, key)

def ctapParseExtensions (val : env.reader.Cursor) : Parse Extensions Unit := do
  Proc.stopIf (env.reader.getType val ≠ .map) ctap2ErrInvalidCborType
  let (map, length) ← enterMap env val
  let _ ← forEntries length (parseExtension env) (map, env.uninit .textKey 16)

/-! ### Credential descriptors -/

/-- `cred->type` from the length of the id that was copied. A custom id is
copied once more, into the assertion state. -/
def parseCredentialId (val : env.reader.Cursor) : Parse (WithCustom CredentialDescriptor) Unit := do
  let copied := env.reader.copyByteString val credentialIdSize
  Proc.modify fun s =>
    { s with val := { s.val with credential :=
      { s.val.credential with id := s.val.credential.id.write 0 copied.written } } }
  if copied.buflen = u2fKeyHandleSize then do
    Proc.modify fun s => { s with val := { s.val with type := pubKeyCredCtap1 } }
    checkErr copied.err
  else if copied.buflen ≠ credentialIdSize then do
    let custom := env.reader.copyByteString val 256
    Proc.modify fun s =>
      { val := { s.val with type := pubKeyCredCustom }
        custom := ⟨s.custom.id.write 0 custom.written, UInt8.ofNat custom.buflen⟩ }
    checkErr custom.err
  else
    checkErr copied.err

/-- `cred->type` once the type string is known: a descriptor of another type
than `public-key` keeps nothing of what its id told. -/
def classifyDescriptor (type : Buf 12) (d : CredentialDescriptor) : CredentialDescriptor :=
  if isString type "public-key" then
    if d.type = 0 then { d with type := pubKeyCredPubKey } else d
  else
    { d with type := pubKeyCredUnknown }

def parseCredentialType (val : env.reader.Cursor) : Parse CredentialDescriptor Unit :=
  let copied := env.reader.copyTextString val 12
  let type := (env.uninit .textKey 12).write 0 copied.written
  if copied.err = cborErrorOutOfMemory then
    Proc.modify fun d => classifyDescriptor type { d with type := pubKeyCredUnknown }
  else do
    checkErr copied.err
    Proc.modify (classifyDescriptor type)

def parseCredentialDescriptor (arr : env.reader.Cursor) :
    Parse (WithCustom CredentialDescriptor) Unit := do
  onVal (Proc.modify fun d => { d with type := 0 })
  Proc.stopIf (env.reader.getType arr ≠ .map) ctap2ErrInvalidCborType
  let val ← checkRet (env.reader.mapFindValue arr (Bytes.ascii "id"))
  Proc.stopIf (env.reader.getType val ≠ .byteString) ctap2ErrMissingParameter
  parseCredentialId env val
  let val ← checkRet (env.reader.mapFindValue arr (Bytes.ascii "type"))
  Proc.stopIf (env.reader.getType val ≠ .textString) ctap2ErrMissingParameter
  onVal (parseCredentialType env val)

/-- A local descriptor before anything is parsed into it. -/
def uninitDescriptor (v : StackBuffer) : CredentialDescriptor :=
  { type := 0, credential := { id := env.uninit v credentialIdSize, user := default } }

def parseVerifyExcludeList (val : env.reader.Cursor) :
    Parse (WithCustom CredentialDescriptor) Unit := do
  Proc.stopIf (env.reader.getType val ≠ .array) ctap2ErrInvalidCborType
  let size ← checkRet (env.reader.getArrayLength val)
  let arr ← checkRet (env.reader.enterContainer val)
  let _ ← forEntries size (fun arr => do
    Proc.mapStop (fun _ => ctap2ErrCborParsing) (parseCredentialDescriptor env arr)
    checkRet (env.reader.advance arr)) arr

/-! ### makeCredential -/

/-- The pinAuth parameter: an empty string is only a request for a touch, and
a string of another length counts as present. -/
def parsePinAuth (map : env.reader.Cursor) : Parse (Buf 16) Bool :=
  if env.reader.getType map = .byteString ∧ env.reader.getStringLength map = .ok 0 then
    pure true
  else
    ⟨fun pinAuth =>
      match parseFixedByteString env map pinAuth with
      | (.error c, pinAuth) =>
          if c = ctap1ErrInvalidLength then (.ok false, pinAuth) else (.error c, pinAuth)
      | (.ok (), pinAuth) => (.ok false, pinAuth)⟩

instance : DecidableEq (Except CborError ℕ) := fun a b =>
  match a, b with
  | .ok x, .ok y => decidable_of_iff (x = y) (by simp)
  | .error x, .error y => decidable_of_iff (x = y) (by simp)
  | .ok _, .error _ => isFalse (by simp)
  | .error _, .ok _ => isFalse (by simp)

def parseMcParameter (key : ℤ) (map : env.reader.Cursor) :
    Parse (WithCustom (MakeCredential env.reader.Cursor)) Unit :=
  if key = 1 then onVal do
    Proc.zoom MakeCredential.clientDataHash (fun mc v => { mc with clientDataHash := v })
      (parseFixedByteString env map)
    Proc.modify fun mc => { mc with paramsParsed := mc.paramsParsed ||| paramClientDataHash }
  else if key = 2 then onVal do
    Proc.zoom MakeCredential.rp (fun mc v => { mc with rp := v }) (parseRp env map)
    Proc.modify fun mc => { mc with paramsParsed := mc.paramsParsed ||| paramRp }
  else if key = 3 then onVal (parseUser env map)
  else if key = 4 then onVal (parsePubKeyCredParams env map)
  else if key = 5 then do
    Proc.mapStop (fun _ => ctap2ErrCborParsing)
      (Proc.zoom (fun s => ⟨uninitDescriptor env .excludedCredential, s.custom⟩)
        (fun s v => { s with custom := v.custom }) (parseVerifyExcludeList env map))
    let (arr, size) ← enterArray env map
    onVal (Proc.modify fun mc => { mc with excludeList := some arr, excludeListSize := size })
  else if key = 6 then onVal do
    Proc.stopIf (env.reader.getType map ≠ .map) ctap2ErrInvalidCborType
    Proc.zoom MakeCredential.extensions (fun mc v => { mc with extensions := v })
      (ctapParseExtensions env map)
  else if key = 7 then onVal <|
    Proc.zoom (fun mc => (⟨mc.credInfo.rk, mc.uv, mc.up⟩ : Options))
      (fun mc o => { mc with credInfo := { mc.credInfo with rk := o.rk }, uv := o.uv, up := o.up })
      (parseOptions env map)
  else if key = 8 then onVal do
    let empty ← Proc.zoom MakeCredential.pinAuth (fun mc v => { mc with pinAuth := v })
      (parsePinAuth env map)
    Proc.modify fun mc =>
      if empty then { mc with pinAuthEmpty := 1 } else { mc with pinAuthPresent := 1 }
  else if key = 9 then onVal do
    let v ← parseInt env map
    Proc.modify fun mc => { mc with pinProtocol := v }
  else
    pure ()

def ctapParseMakeCredential (request : List UInt8) :
    Parse (WithCustom (MakeCredential env.reader.Cursor)) Unit := do
  onVal (Proc.modify fun _ => { (default : MakeCredential env.reader.Cursor) with up := 0xff })
  let (map, length) ← requestMap env UInt32.toUInt8 ctap2ErrCborUnexpectedType request
  let _ ← forEntries length (fun map => do
    let (key, map) ← intKey env ctap2ErrCborUnexpectedType map
    parseMcParameter env key map
    checkRet (env.reader.advance map)) map

/-! ### getAssertion -/

/-- What parsing a getAssertion request fills: the request itself, and the
credential list and custom id in the assertion state. -/
structure GetAssertionParse where
  ga : GetAssertion
  creds : List CredentialDescriptor
  custom : CustomCred

def onGa {α : Type} (m : Parse GetAssertion α) : Parse GetAssertionParse α :=
  Proc.zoom GetAssertionParse.ga (fun s v => { s with ga := v }) m

def parseAllowListEntry (s : env.reader.Cursor × ℕ) :
    Parse GetAssertionParse (env.reader.Cursor × ℕ) := do
  Proc.stopIf (s.2 ≥ allowListMaxSize) ctap2ErrTooManyElements
  onGa (Proc.modify fun ga => { ga with credLen := ga.credLen + 1 })
  Proc.zoom (fun p => ⟨p.creds.getD s.2 default, p.custom⟩)
    (fun p v => { p with creds := p.creds.set s.2 v.val, custom := v.custom })
    (parseCredentialDescriptor env s.1)
  let arr ← checkRet (env.reader.advance s.1)
  pure (arr, s.2 + 1)

def parseAllowList (it : env.reader.Cursor) : Parse GetAssertionParse Unit := do
  Proc.stopIf (env.reader.getType it ≠ .array) ctap2ErrInvalidCborType
  let (arr, length) ← enterArray env it
  onGa (Proc.modify fun ga => { ga with credLen := 0 })
  let _ ← forEntries length (parseAllowListEntry env) (arr, 0)

def parseGaParameter (key : ℤ) (map : env.reader.Cursor) : Parse GetAssertionParse Unit :=
  if key = 2 then onGa do
    Proc.zoom GetAssertion.clientDataHash (fun ga v => { ga with clientDataHash := v })
      (parseFixedByteString env map)
    Proc.modify fun ga => { ga with clientDataHashPresent := 1 }
  else if key = 1 then onGa <|
    Proc.zoom GetAssertion.rp (fun ga v => { ga with rp := v }) (parseRpId env map)
  else if key = 3 then do
    Proc.mapStop (fun _ => ctap2ErrCborParsing) (parseAllowList env map)
    onGa (Proc.modify fun ga => { ga with allowListPresent := 1 })
  else if key = 4 then onGa <|
    Proc.zoom GetAssertion.extensions (fun ga v => { ga with extensions := v })
      (ctapParseExtensions env map)
  else if key = 5 then onGa <|
    Proc.zoom (fun ga => (⟨ga.rk, ga.uv, ga.up⟩ : Options))
      (fun ga o => { ga with rk := o.rk, uv := o.uv, up := o.up }) (parseOptions env map)
  else if key = 6 then onGa do
    let empty ← Proc.zoom GetAssertion.pinAuth (fun ga v => { ga with pinAuth := v })
      (parsePinAuth env map)
    Proc.modify fun ga =>
      if empty then { ga with pinAuthEmpty := 1 } else { ga with pinAuthPresent := 1 }
  else if key = 7 then onGa do
    let v ← parseInt env map
    Proc.modify fun ga => { ga with pinProtocol := v }
  else
    pure ()

def ctapParseGetAssertion (request : List UInt8) : Parse GetAssertionParse Unit := do
  onGa (Proc.modify fun _ => { (default : GetAssertion) with up := 0xff })
  let (map, length) ← requestMap env (fun _ => ctap2ErrCborParsing) ctap2ErrInvalidCborType request
  let _ ← forEntries length (fun map => do
    let (key, map) ← intKey env ctap2ErrInvalidCborType map
    parseGaParameter env key map
    checkRet (env.reader.advance map)) map

/-! ### Credential management -/

/-- The buffer size passed for the rpIdHash is only set once, so a repeated
parameter may use no more than the first one did. -/
def parseSubCommandParam (s : env.reader.Cursor × ℕ) :
    Parse (WithCustom CredMgmt) (env.reader.Cursor × ℕ) := do
  Proc.stopIf (env.reader.getType s.1 ≠ .integer) ctap2ErrInvalidCborType
  let key := env.reader.getInt s.1
  let map ← checkRet (env.reader.advance s.1)
  let sz ← (
    if key = 1 then do
      let copied := env.reader.copyByteString map s.2
      onVal (Proc.modify fun cm => { cm with rpIdHash := cm.rpIdHash.write 0 copied.written })
      Proc.stopIf (copied.err = cborErrorOutOfMemory) ctap2ErrLimitExceeded
      checkErr copied.err
      pure copied.buflen
    else if key = 2 then do
      Proc.mapStop (fun _ => ctap2ErrCborParsing)
        (Proc.zoom (fun p => ⟨p.val.credentialDescriptor, p.custom⟩)
          (fun p v => ⟨{ p.val with credentialDescriptor := v.val }, v.custom⟩)
          (parseCredentialDescriptor env map))
      pure s.2
    else
      Proc.stop ctap2ErrInvalidOption)
  let map ← checkRet (env.reader.advance map)
  pure (map, sz)

def parseCredMgmtSubcommandparams (request : List UInt8) (val : env.reader.Cursor) :
    Parse (WithCustom CredMgmt) Unit := do
  Proc.stopIf (env.reader.getType val ≠ .map) ctap2ErrInvalidCborType
  let map ← checkRet (env.reader.enterContainer val)
  let startByte := env.reader.getNextByte map - 1
  let length ← checkRet (env.reader.getMapLength val)
  let (map, _) ← forEntries length (parseSubCommandParam env) (map, 32)
  let size := env.reader.getNextByte map - startByte
  Proc.stopIf (size > 377) ctap2ErrLimitExceeded
  onVal <| Proc.modify fun cm =>
    { cm with
      subCommandParamsCborCopy :=
        cm.subCommandParamsCborCopy.write 0 ((request.drop startByte).take size)
      subCommandParamsCborSize := size }

def parseCmParameter (request : List UInt8) (key : ℤ) (map : env.reader.Cursor) :
    Parse (WithCustom CredMgmt) Unit :=
  if key = 1 then onVal do
    let v ← parseInt env map
    Proc.modify fun cm => { cm with cmd := v, hashedCmd := UInt8.ofInt v }
  else if key = 2 then
    Proc.mapStop (fun _ => ctap2ErrCborParsing) (parseCredMgmtSubcommandparams env request map)
  else if key = 3 then onVal do
    let v ← parseInt env map
    Proc.modify fun cm => { cm with pinProtocol := v }
  else if key = 4 then onVal do
    Proc.zoom CredMgmt.pinAuth (fun cm v => { cm with pinAuth := v })
      (parseFixedByteString env map)
    Proc.modify fun cm => { cm with pinAuthPresent := 1 }
  else
    pure ()

def ctapParseCredMgmt (request : List UInt8) : Parse (WithCustom CredMgmt) Unit := do
  onVal (Proc.modify fun _ => default)
  let (map, length) ← requestMap env (fun _ => ctap2ErrCborParsing) ctap2ErrInvalidCborType request
  let _ ← forEntries length (fun map => do
    let (key, map) ← intKey env ctap2ErrInvalidCborType map
    parseCmParameter env request key map
    checkRet (env.reader.advance map)) map

/-! ### clientPIN -/

/-- An integer whose range error is not looked at: then nothing is written. -/
def parseIntUnchecked (map : env.reader.Cursor) (put : ℤ → ClientPin → ClientPin) :
    Parse ClientPin Unit := do
  Proc.stopIf (env.reader.getType map ≠ .integer) ctap2ErrInvalidCborType
  match env.reader.getIntChecked map with
  | .ok v => Proc.modify (put v)
  | .error _ => pure ()

def parseNewPinEnc (map : env.reader.Cursor) : Parse ClientPin Unit := do
  Proc.stopIf (env.reader.getType map ≠ .byteString) ctap2ErrInvalidCborType
  let sz ← checkRet (env.reader.calculateStringLength map)
  Proc.stopIf (sz > newPinEncMaxSize ∨ sz < newPinEncMinSize) ctap2ErrPinPolicyViolation
  let copied := env.reader.copyByteString map newPinEncMaxSize
  Proc.modify fun cp =>
    { cp with newPinEncSize := sz, newPinEnc := cp.newPinEnc.write 0 copied.written }
  checkErr copied.err

def parseCpParameter (key : ℤ) (map : env.reader.Cursor) : Parse ClientPin Unit :=
  if key = 1 then
    parseIntUnchecked env map fun v cp => { cp with pinProtocol := v }
  else if key = 2 then
    parseIntUnchecked env map fun v cp => { cp with subCommand := v }
  else if key = 3 then do
    Proc.zoom ClientPin.keyAgreement (fun cp v => { cp with keyAgreement := v })
      (parseCoseKey env map)
    Proc.modify fun cp => { cp with keyAgreementPresent := 1 }
  else if key = 4 then do
    Proc.zoom ClientPin.pinAuth (fun cp v => { cp with pinAuth := v })
      (parseFixedByteString env map)
    Proc.modify fun cp => { cp with pinAuthPresent := 1 }
  else if key = 5 then
    parseNewPinEnc env map
  else if key = 6 then do
    Proc.zoom ClientPin.pinHashEnc (fun cp v => { cp with pinHashEnc := v })
      (parseFixedByteString env map)
    Proc.modify fun cp => { cp with pinHashEncPresent := 1 }
  else if key = 7 then do
    let b ← parseBool env map
    Proc.modify fun cp => { cp with getKeyAgreement := b }
  else if key = 8 then do
    let b ← parseBool env map
    Proc.modify fun cp => { cp with getRetries := b }
  else
    pure ()

def ctapParseClientPin (request : List UInt8) : Parse ClientPin Unit := do
  Proc.modify fun _ => default
  let (map, length) ← requestMap env (fun _ => ctap2ErrCborParsing) ctap2ErrInvalidCborType request
  let _ ← forEntries length (fun map => do
    let (key, map) ← intKey env ctap2ErrInvalidCborType map
    parseCpParameter env key map
    checkRet (env.reader.advance map)) map

end NitrokeyFido2.Ctap
