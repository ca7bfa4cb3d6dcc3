import NitrokeyFido2.Ctap.ClientPin
import NitrokeyFido2.Ctap.CredMgmt
import NitrokeyFido2.Ctap.GetAssertion

/-!
`ctap_request`, the reset and the power-up.
-/

namespace NitrokeyFido2.Ctap

variable (env : Env)

/-! ### getInfo -/

/-- `ctap_get_info`. -/
def ctapGetInfo (a : Authenticator) : Encode Unit :=
  env.writer.emitAll [.createMap 8,
    .uint 1, .createArray 3, .text "U2F_V2", .text "FIDO_2_0", .text "FIDO_2_1_PRE",
      .closeContainer,
    .uint 2, .createArray 2, .text "credProtect", .text "hmac-secret", .closeContainer,
    .uint 3, .byteString env.aaguid.bytes,
    .uint 4, .createMap 5, .text "rk", .boolean true, .text "up", .boolean true,
      .text "plat", .boolean false, .text "clientPin", .boolean (ctapIsPinSet a),
      .text "credentialMgmtPreview", .boolean true, .closeContainer,
    .uint 5, .int ctapMaxMessageSize,
    .uint 6, .createArray 1, .int 1, .closeContainer,
    .uint 7, .uint allowListMaxSize,
    .uint 8, .uint maxCredentialIdLength,
    .closeContainer]

/-! ### Initialisation and reset -/

/-- `ctap_state_init`. -/
def ctapStateInit : Device Unit := do
  modifyState fun _ => AuthenticatorState.erased
  let key ← ctapGenerateRng env keySpaceBytes
  modifyState fun s =>
    { s with
      keySpace := key
      isInitialized := initializedMarker
      remainingTries := pinLockoutAttempts
      isPinSet := 0
      rkStored := 0
      dataVersion := stateVersion }
  ctapResetRk
  let salt ← ctapGenerateRng env 32
  modifyState fun s => { s with pinSalt := salt }

/-- `crypto_load_master_secret(STATE.key_space)`. -/
def loadMasterSecret : Device Unit :=
  Proc.modify fun a => { a with secrets := cryptoLoadMasterSecret a.state.keySpace }

def renewPinToken : Device Unit := do
  let token ← ctapGenerateRng env pinTokenSize
  Proc.modify fun a => { a with pinToken := token }

/-- `ctap_reset`. -/
def ctapReset : Device Unit := do
  ctapStateInit env
  ctapFlushState
  renewPinToken env
  modifyGas fun _ => GetAssertionState.zero
  ctapResetKeyAgreement env
  loadMasterSecret

/-- `migrate_from_FF_to_01`; the PIN and its length are where the hash, the
salt and the reserved word are now. -/
def migrateFromFFTo01 (previous : AuthenticatorState) : Device AuthenticatorState := do
  let salt ← ctapGenerateRng env 32
  let pinCode := previous.pinCodeHash.bytes ++ previous.pinSalt.bytes
  let hash := saltedPinHash env salt
    ((env.sha256 (pinCode.take previous.reserved.toNat)).slice 0 16)
  pure { previous with
    pinSalt := salt
    pinCodeHash := if previous.isPinSet ≠ 0 then hash else previous.pinCodeHash
    reserved := 0xff
    dataVersion := 1 }

/-- `save_migrated_state`. -/
def saveMigratedState (s : AuthenticatorState) : Device Unit := do
  modifyState fun _ => s
  authenticatorWriteState s

/-- `do_migration_if_required(&STATE)`. -/
def doMigrationIfRequired : Device Unit := do
  let a ← Proc.get
  if a.state.isInitialized = 0 ∨ a.state.dataVersion = stateVersion then pure ()
  else do
    (if a.state.dataVersion = 0xff then do
      let s ← migrateFromFFTo01 env a.stored
      saveMigratedState s
    else if a.state.dataVersion = 1 then do
      ctapResetRk
      saveMigratedState { a.state with dataVersion := 2 }
    else pure () : Device Unit)
    let a ← Proc.get
    Proc.stopIf (a.state.dataVersion ≠ stateVersion) .halted

/-- `ctap_init`. -/
def ctapInit : Device Unit := do
  let isInit ← authenticatorReadState
  (if isInit then pure ()
  else do
    ctapStateInit env
    ctapFlushState : Device Unit)
  doMigrationIfRequired env
  loadMasterSecret
  renewPinToken env
  ctapResetKeyAgreement env

/-- What a power cycle leaves: flash, the counter and the random numbers go
on, the static variables start again. -/
def powerCycle (a : Authenticator) : Authenticator where
  state := default
  stored := a.stored
  pinBootAttemptsLeft := pinBootAttempts
  pinToken := Buf.zero _
  keyAgreementPub := Buf.zero _
  keyAgreementPriv := Buf.zero _
  gas := GetAssertionState.zero
  credMgmt := ⟨0, 0, false, false⟩
  rks := a.rks
  secrets := ⟨Buf.zero _, Buf.zero _⟩
  signingKey := ⟨Buf.zero _, .none⟩
  counter := a.counter
  sc := 0
  rngPos := a.rngPos
  upDisabled := false
  nfcActive := a.nfcActive
  requestSource := .unknown
  trace := []

/-! ### Requests -/

/-- The commands that a device without attempts refuses. -/
def isGated (cmd : UInt8) : Bool :=
  cmd = ctapMakeCredentialCmd || cmd = ctapGetAssertionCmd || cmd = ctapCborCredMgmtCmd ||
    cmd = ctapCborCredMgmtPreCmd

/-- The second switch of `ctap_request`: the encoder, where the response
length is taken from it. -/
def ctapDispatch (cmd : UInt8) (request : List UInt8) : CtapM (Option Writer) :=
  let w := Writer.init ctapResponseBufferSize
  if cmd = ctapMakeCredentialCmd then do
    let w ← ctapMakeCredential env w request
    pure (some w)
  else if cmd = ctapGetAssertionCmd then do
    let w ← ctapGetAssertion env w request
    pure (some w)
  else if cmd = ctapCancelCmd then pure none
  else if cmd = ctapGetInfoCmd then do
    let a ← (Proc.get : Device Authenticator)
    let w ← encode w (ctapGetInfo env a)
    pure (some w)
  else if cmd = ctapClientPinCmd then do
    let w ← ctapClientPin env w request
    pure (some w)
  else if cmd = ctapResetCmd then do
    let status ← ctap2UserPresenceTest .reset
    checkRetr status
    ctapReset env
    pure none
  else if cmd = getNextAssertionCmd then do
    let a ← (Proc.get : Device Authenticator)
    failIf (a.gas.lastcmd ≠ ctapGetAssertionCmd) ctap2ErrNotAllowed
    let w ← ctapGetNextAssertion env w
    pure (some w)
  else if cmd = ctapCborCredMgmtCmd ∨ cmd = ctapCborCredMgmtPreCmd then do
    let w ← ctapCredMgmt env w request
    pure (some w)
  else fail ctap1ErrInvalidCommand

/-- Both switches of `ctap_request`. -/
def ctapGatedDispatch (cmd : UInt8) (request : List UInt8) : CtapM (Option Writer) := do
  (if isGated cmd then failIfLocked else pure () : Device Unit)
  ctapDispatch env cmd request

/-- The status of a request and the bytes behind it. -/
structure CtapResult where
  status : UInt8
  data : List UInt8
  deriving DecidableEq

def CtapResult.of (r : Except UInt8 (Option Writer)) : CtapResult :=
  match r with
  | .ok (some w) => ⟨0, env.writer.buffer w⟩
  | .ok none => ⟨0, []⟩
  | .error c => ⟨c, []⟩

/-- What `lastcmd` becomes: a getNextAssertion that succeeds allows another
one. -/
def nextLastcmd (cmd : UInt8) (r : Except UInt8 (Option Writer)) : UInt8 :=
  match r with
  | .ok _ => if cmd = getNextAssertionCmd then ctapGetAssertionCmd else cmd
  | .error _ => cmd

/-- `ctap_request`. -/
def ctapRequest (request : List UInt8) : CtapM CtapResult := do
  let cmd := request.getD 0 0
  let r ← attempt (ctapGatedDispatch env cmd request.tail)
  deviceSetStatus .idle
  modifyGas fun g => { g with lastcmd := nextLastcmd cmd r }
  pure (CtapResult.of env r)

end NitrokeyFido2.Ctap
