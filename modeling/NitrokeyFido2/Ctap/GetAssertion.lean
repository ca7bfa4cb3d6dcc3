import NitrokeyFido2.Ctap.MakeCredential

/-!
`ctap_get_assertion` and `ctap_get_next_assertion`.

The list of credentials lives in the assertion state: the parser fills it in
place, the first entry is answered at once, and the rest is saved, shifted by
one, for the getNextAssertion requests that follow.
-/

namespace NitrokeyFido2.Ctap

variable (env : Env)

/-! ### Extension requests -/

/-- `bridge_u2f_to_solo`: the return value and the 71-byte output. -/
def bridgeU2fToSolo (output : Buf 71) (keyh : List UInt8) : CtapM (UInt8 × Buf 71) :=
  match keyh.getD 0 0 with
  | 0x14 => pure (0, output.write 0 env.soloVersion.bytes)
  | 0x20 => do
      let a ← (Proc.get : Device Authenticator)
      let feedback : Bool ← (
        match a.requestSource with
        | .u2f => do
            let ret ← ctapUserPresenceTestExtended 10000
            pure (decide (ret = 1))
        | .fido2 => do
            let ret ← ctap2UserPresenceTest .bootloader
            pure (decide (ret = 0))
        | .unknown => pure false : CtapM Bool)
      if feedback then do
        note .bootloader
        pure (0, output)
      else
        pure (ctap2ErrOperationDenied, output)
  | 0x15 => do
      let rng ← ctapGenerateRng env 71
      pure (0, rng)
  | _ => pure (ctap1ErrInvalidCommand, output)

/-- `extend_fido2`: the 72 bytes that take the place of the signature, if the
id is an extension request. -/
def extendFido2 (id : CredentialId) (output : Buf 72) : CtapM (Option (List UInt8)) :=
  if isExtensionRequest id.bytes credentialIdSize then do
    (Proc.modify fun a : Authenticator => { a with requestSource := .fido2 } : Proc _ Stop Unit)
    let (ret, out) ← bridgeU2fToSolo env (Buf.ofList 71 (output.slice 1 71)) id.bytes
    pure (some (ret :: out.bytes))
  else pure none

/-! ### The assertion -/

def modifyGas (f : GetAssertionState → GetAssertionState) : Device Unit :=
  Proc.modify fun a => { a with gas := f a.gas }

def updateAuthData (f : AuthDataHeader → AuthDataHeader) : Device Unit :=
  modifyGas fun g => { g with authData := f g.authData }

/-- Change an entry of the credential list. -/
def modifyCred (i : ℕ) (f : CredentialDescriptor → CredentialDescriptor) : Device Unit :=
  modifyGas fun g => { g with creds := g.creds.set i (f (g.creds.getD i default)) }

/-- `memset(cred->credential.user.name, 0, USER_NAME_LIMIT)`. -/
def CredentialDescriptor.clearName (d : CredentialDescriptor) : CredentialDescriptor :=
  { d with credential := { d.credential with user :=
    { d.credential.user with name := Buf.zero _ } } }

/-- The signature of an assertion over the first `size` bytes of the buffer
that holds the authenticator data; its hash is left at the start of that
buffer. -/
def signAssertion (size : ℕ) (clientDataHash : Buf clientDataHashSize) : Device (List UInt8) := do
  let a ← Proc.get
  let authData := (a.gas.authData.toBytes ++ a.gas.bufExtensions.bytes).take size
  let (hash, sigder) ← ctapCalculateSignature env authData clientDataHash
  updateAuthData fun h => { h with rpIdHash := hash }
  pure sigder

/-- `ctap_end_get_assertion` on the first `size` bytes of the buffer that
holds the authenticator data. -/
def ctapEndGetAssertion (w : Writer) (cred : CredentialDescriptor) (size : ℕ)
    (clientDataHash : Buf clientDataHashSize) : CtapM Writer := do
  let a ← (Proc.get : Device Authenticator)
  let authData := (a.gas.authData.toBytes ++ a.gas.bufExtensions.bytes).take size
  let w ← encode w (do
    env.writer.emit (.int 1)
    ctapAddCredentialDescriptor env a.gas.custom cred.credential cred.type
    env.writer.emitAll [.int 2, .byteString authData])
  loadKey (cryptoEcc256LoadKey env a.secrets
    (cred.credential.prefixBytes (getCredentialIdSize a.gas.custom cred.type)))
  let ext ← extendFido2 env cred.credential.id (env.uninit .signature 72)
  let sigder ← (
    match ext with
    | some out => pure out
    | none => signAssertion env size clientDataHash : Device (List UInt8))
  let w ← encode w (env.writer.emitAll [.int 3, .byteString sigder])
  let a ← (Proc.get : Device Authenticator)
  encode w (
    if cred.credential.user.idSize ≠ 0 then do
      env.writer.emit (.int 4)
      ctapAddUserEntity env cred.credential.user (a.gas.userVerified ≠ 0)
    else pure ())

/-- `ctap_make_extensions` into the buffer behind the authenticator data of
the assertion state: the status and the size. -/
def makeAssertionExtensions (ext : Extensions) : Device (UInt8 × ℕ) := ⟨fun a =>
  match ctapMakeExtensions env a ext ⟨a.gas.bufExtensions, 80⟩ with
  | (.ok (), b) => (.ok (0, b.size), { a with gas := { a.gas with bufExtensions := b.buf } })
  | (.error (.status c), b) =>
      (.ok (c, b.size), { a with gas := { a.gas with bufExtensions := b.buf } })
  | (.error .halted, b) =>
      (.error .halted, { a with gas := { a.gas with bufExtensions := b.buf } })⟩

/-- `save_credential_list` of the entries behind the first one. -/
def saveCredentialList (clientDataHash : Buf clientDataHashSize) (count : ℕ)
    (extensions : Extensions) : Device Unit := do
  failIf (count > allowListMaxSize - 1) ctap2ErrTooManyElements
  modifyGas fun g =>
    if count = 0 then { g with count := 0, index := 0 }
    else { g with
      clientDataHash := clientDataHash
      creds := (g.creds.drop 1).take count ++ g.creds.drop count
      extensions := extensions
      count := count
      index := 0 }

/-- `pop_credential`: the index of the entry. -/
def popCredential : Device (Option ℕ) := do
  let a ← Proc.get
  if 0 < a.gas.count ∧ a.gas.index < a.gas.count then do
    modifyGas fun g => { g with index := g.index + 1 }
    pure (some a.gas.index)
  else pure none

/-- Parse a getAssertion request; the credential list and the custom id are
written in place. -/
def parseGetAssertion (request : List UInt8) : Device GetAssertion := do
  let a ← Proc.get
  let m := ctapParseGetAssertion env request ⟨default, a.gas.creds, a.gas.custom⟩
  modifyGas fun g => { g with creds := m.2.creds, custom := m.2.custom }
  ofStatus (match m.1 with
    | .ok () => .ok m.2.ga
    | .error c => if c = 0 then .ok m.2.ga else .error c)

/-- The pinAuth check of `ctap_get_assertion`. -/
def verifyUser (ga : GetAssertion) : Device Unit :=
  if ga.pinAuthPresent ≠ 0 then do
    verifyPinAuth env ga.pinAuth ga.clientDataHash
    modifyGas fun g => { g with userVerified := 1 }
  else
    modifyGas fun g => { g with userVerified := 0 }

/-- Filter and sort the list; the number of entries that count, and the
request with the length of its list. -/
def filterCredentials (ga : GetAssertion) : Device (ℕ × GetAssertion) := do
  let a ← Proc.get
  let r := ctapFilterInvalidCredentials env a ga
  note (.listed ga.clientDataHash.bytes (offeredCredentials env a ga)
    ((offeredCredentials env a ga).filter (isAccepted env a ga)))
  modifyGas fun g => { g with creds := r.2.2 }
  failIf (r.1 = 0) ctap2ErrNoCredentials
  pure (r.1, { ga with credLen := r.2.1 })

/-- The authenticator data of the first entry when it is an extension request:
no presence test, both flags set. -/
def extensionAuthData (rp : RpId) : Device ℕ := do
  updateAuthData fun h => { h with rpIdHash := env.sha256 rp.bytes }
  updateAuthData fun h => { h with flags := 1 }
  updateAuthData fun h => { h with flags := h.flags ||| 4 }
  note (.flagsWritten true)
  pure 37

/-- `device_disable_up`. -/
def deviceDisableUp (disable : Bool) : Device Unit :=
  Proc.modify fun a => { a with upDisabled := disable }

/-- The authenticator data of an ordinary assertion, and its size with the
extensions. -/
def assertionAuthData (ga : GetAssertion) : CtapM ℕ := do
  deviceDisableUp (ga.up = 0)
  let ret ← attempt (ctapMakeAuthDataHeader env updateAuthData ga.rp)
  deviceDisableUp false
  let _ ← ofStatus ret
  note (.flagsWritten false)
  let a ← (Proc.get : Device Authenticator)
  updateAuthData fun h => { h with flags := h.flags &&& 0xfb }
  updateAuthData fun h => { h with flags := h.flags ||| (a.gas.userVerified <<< 2) }
  let (ret, size) ← makeAssertionExtensions env ga.extensions
  checkRetr ret
  (if size ≠ 0 then updateAuthData fun h => { h with flags := h.flags ||| 0x80 }
    else pure () : Device Unit)
  pure (37 + size)

/-- The checks of `ctap_get_assertion` and the list they leave: the number of
entries that count, and the request. -/
def selectCredentials (request : List UInt8) : CtapM (ℕ × GetAssertion) := do
  let ga ← parseGetAssertion env request
  (if ga.pinAuthEmpty ≠ 0 then emptyPinAuth else pure () : CtapM Unit)
  verifyUser env ga
  failIf (ga.rp.size = 0 ∨ ga.clientDataHashPresent = 0) ctap2ErrMissingParameter
  filterCredentials env ga

/-- `ctap_get_assertion`. -/
def ctapGetAssertion (w : Writer) (request : List UInt8) : CtapM Writer := do
  let (validCredCount, ga) ← selectCredentials env request
  let a ← (Proc.get : Device Authenticator)
  let last := a.gas.creds.getD (validCredCount - 1) default
  let w ← encode w (env.writer.emit (.createMap (3 + (if validCredCount > 1 then 1 else 0) +
    (if last.credential.user.idSize ≠ 0 then 1 else 0))))
  (if validCredCount < 2 ∨ a.gas.userVerified = 0 then modifyCred 0 .clearName
    else pure () : Device Unit)
  let ga := { ga with extensions :=
    { ga.extensions with hmacSecret := { ga.extensions.hmacSecret with credential := .firstCred } } }
  let cred := (a.gas.creds.getD 0 default).credential
  let size ← (
    if isExtensionRequest cred.id.bytes credentialIdSize then
      (extensionAuthData env ga.rp : Device ℕ)
    else assertionAuthData env ga : CtapM ℕ)
  let a ← (Proc.get : Device Authenticator)
  let w ← ctapEndGetAssertion env w (a.gas.creds.getD 0 default) size ga.clientDataHash
  let w ← encode w (do
    env.writer.emitAll (if validCredCount > 1 then [.int 5, .int validCredCount] else [])
    env.writer.emit .closeContainer)
  saveCredentialList ga.clientDataHash (validCredCount - 1) ga.extensions
  pure w

/-- `ctap_get_next_assertion`. -/
def ctapGetNextAssertion (w : Writer) : CtapM Writer := do
  let popped ← popCredential
  match popped with
  | none => fail ctap2ErrNotAllowed
  | some i => do
      let count ← authDataUpdateCount env
      let a ← (Proc.get : Device Authenticator)
      let cred := a.gas.creds.getD i default
      updateAuthData fun h =>
        { h with
          signCount := count
          rpIdHash := Buf.ofList 32 (CredentialId.rpIdHash cred.credential.id) }
      let w ← encode w (env.writer.emit
        (.createMap (if cred.credential.user.idSize ≠ 0 then 4 else 3)))
      (if a.gas.userVerified = 0 then modifyCred i .clearName else pure () : Device Unit)
      let (ret, size) ← makeAssertionExtensions env a.gas.extensions
      (if ret = 0 then
        updateAuthData fun h =>
          { h with flags := if size ≠ 0 then h.flags ||| 0x80 else h.flags &&& 0x7f }
        else pure () : Device Unit)
      let a ← (Proc.get : Device Authenticator)
      let w ← ctapEndGetAssertion env w (a.gas.creds.getD i default) (37 + size)
        a.gas.clientDataHash
      encode w (env.writer.emit .closeContainer)

end NitrokeyFido2.Ctap
