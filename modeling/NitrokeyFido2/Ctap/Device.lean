import NitrokeyFido2.Ctap.Parse
import NitrokeyFido2.Ctap.Response
import NitrokeyFido2.Lib.Resumption

/-!
The state of the authenticator and the services of the device it runs on:
random numbers, the persistent state, the resident keys, the signature
counter and the PIN attempts.

A request ends with a status or halts the device (`exit`, a failed assertion
or an endless loop). While it waits for the user it is suspended and hands
its state to whatever runs meanwhile.
-/

namespace NitrokeyFido2.Ctap

/-! ### State -/

/-- `CTAPHID_STATUS_IDLE`, `_PROCESSING` and `_UPNEEDED`. -/
inductive HidStatus
  | idle | processing | upneeded
  deriving DecidableEq

/-- `REQ_SRC_UNKNOWN`, `REQ_SRC_U2F` and `REQ_SRC_FIDO2`. -/
inductive ReqSrc
  | unknown | u2f | fido2
  deriving DecidableEq, Inhabited

/-- `CTAP_authDataHeader`; the count is stored big-endian. -/
structure AuthDataHeader where
  rpIdHash : Buf 32
  flags : UInt8
  signCount : UInt32
  deriving Inhabited

def AuthDataHeader.toBytes (h : AuthDataHeader) : List UInt8 :=
  h.rpIdHash.bytes ++ [h.flags] ++ Bytes.toBe32 h.signCount

/-- `struct _getAssertionState`. -/
structure GetAssertionState where
  authData : AuthDataHeader
  bufExtensions : Buf 80
  extensions : Extensions
  clientDataHash : Buf clientDataHashSize
  creds : List CredentialDescriptor
  lastcmd : UInt8
  count : ℕ
  index : ℕ
  userVerified : UInt8
  custom : CustomCred

/-- All zero. -/
def GetAssertionState.zero : GetAssertionState where
  authData := ⟨Buf.zero _, 0, 0⟩
  bufExtensions := Buf.zero _
  extensions := default
  clientDataHash := default
  creds := List.replicate allowListMaxSize default
  lastcmd := 0
  count := 0
  index := 0
  userVerified := 0
  custom := default

/-- The static variables of `ctap_cred_mgmt`. -/
structure CredMgmtState where
  currRpInd : ℤ
  currRkInd : ℤ
  rpAuth : Bool
  rkAuth : Bool

/-- The counter pages: the counts written since page 1 was last erased, and
the erase count kept in page 2. -/
structure CounterPages where
  counts : List UInt32
  erases : UInt32

/-- What waits for a touch, in the U2F protocol and below it. -/
inductive Operation
  | register
  /-- An authentication with this user presence byte. -/
  | authenticate (up : UInt8)
  | enterboot | reboot
  deriving DecidableEq

/-- What a request did, for the properties to speak about; no code reads
it. -/
inductive Trace
  /-- A presence test that was not disabled ended with this result. -/
  | presence (result : ℤ)
  | pinAuthVerified
  /-- A presented PIN hash was compared with the stored one. -/
  | pinCompared (pinHash : List UInt8) (matched : Bool)
  | pinUpdated (pin : List UInt8)
  | created (secrets : Secrets) (id : CredentialId) (credProtect : UInt32)
  /-- A getAssertion with this hash went through these entries, and accepted
  some of them. -/
  | listed (clientDataHash : List UInt8) (offered accepted : List CredentialDescriptor)
  /-- The flags of the assertion state were written. -/
  | flagsWritten (viaExtension : Bool)
  | signed (key : KeySource) (hash : List UInt8)
  | assertion (key : KeySource) (authData : List UInt8) (clientDataHash : List UInt8)
  | bootloader
  | carriedOut (op : Operation)
  deriving DecidableEq

structure Authenticator where
  /-- `STATE`. -/
  state : AuthenticatorState
  /-- The persistent state in flash. -/
  stored : AuthenticatorState
  pinBootAttemptsLeft : ℤ
  pinToken : Buf pinTokenSize
  keyAgreementPub : Buf 64
  keyAgreementPriv : Buf 32
  gas : GetAssertionState
  credMgmt : CredMgmtState
  rks : List ResidentKey
  secrets : Secrets
  signingKey : SigningKey
  counter : CounterPages
  /-- The static `sc` of `ctap_atomic_count`. -/
  sc : UInt32
  rngPos : ℕ
  upDisabled : Bool
  nfcActive : Bool
  requestSource : ReqSrc
  trace : List Trace

/-- Why a request ended before its last step. -/
inductive Stop
  | status (code : UInt8)
  | halted
  deriving DecidableEq

/-- What a waiting request asks of the device. -/
inductive Call
  /-- The loop of `ctap_user_presence_test_feedback`; the long press is asked
  for a reset or a configuration change. -/
  | presence (upDelay : ℕ) (extendedWipe : Bool)
  | setStatus (status : HidStatus)
  | isInFirst10Seconds
  deriving DecidableEq

/-- How a presence loop ends. -/
inductive PresenceResult
  | confirmed | timeout | cancelled
  deriving DecidableEq

/-- The value that `ctap_user_presence_test_feedback` returns. -/
def PresenceResult.code : PresenceResult → ℤ
  | .confirmed => 1
  | .timeout => 0
  | .cancelled => -1

/-- The answers to the calls. -/
def Ret : Call → Type
  | .presence _ _ => PresenceResult
  | .setStatus _ => Unit
  | .isInFirst10Seconds => Bool

/-- Functions of the authenticator that do not wait. -/
abbrev Device := Proc Authenticator Stop

/-- Functions of the authenticator that may wait for the user. -/
abbrev CtapM := Resumption.Routine Call Ret Authenticator Stop

/-- `return code`. -/
def fail {α : Type} (code : UInt8) : Device α := Proc.stop (.status code)

/-- `if (c) return code`. -/
def failIf (c : Prop) [Decidable c] (code : UInt8) : Device Unit := Proc.stopIf c (.status code)

/-- A pure computation that may return an error code. -/
def ofStatus {α : Type} (r : Except UInt8 α) : Device α :=
  Proc.ofExcept (r.mapError Stop.status)

/-- A computation that may halt the device. -/
def orHalt {α : Type} : Option α → Device α
  | some a => pure a
  | none => Proc.stop .halted

/-- Go on with the status a routine ended with. -/
def attempt {α : Type} (m : CtapM α) : CtapM (Except UInt8 α) := fun s =>
  (m s).bind fun
    | (.ok a, t) => .ret (.ok (.ok a), t)
    | (.error (.status c), t) => .ret (.ok (.error c), t)
    | (.error .halted, t) => .ret (.error .halted, t)

def note (t : Trace) : Device Unit := Proc.modify fun a => { a with trace := a.trace ++ [t] }

variable (env : Env)

/-! ### Random numbers -/

/-- The random bytes that come next. -/
def Authenticator.drawn (a : Authenticator) (n : ℕ) : Buf n :=
  ⟨(List.range n).map fun i => env.random (a.rngPos + i), by simp⟩

/-- `ctap_generate_rng`, which on the device always succeeds. -/
def ctapGenerateRng (n : ℕ) : Device (Buf n) :=
  ⟨fun a => (.ok (a.drawn env n), { a with rngPos := a.rngPos + n })⟩

/-! ### Persistent state -/

/-- `authenticator_write_state`. -/
def authenticatorWriteState (s : AuthenticatorState) : Device Unit :=
  Proc.modify fun a => { a with stored := s }

/-- `ctap_flush_state`. -/
def ctapFlushState : Device Unit := do
  let a ← Proc.get
  authenticatorWriteState a.state

/-- `authenticator_read_state`: whether the stored state is initialised. -/
def authenticatorReadState : Device Bool := do
  let a ← Proc.get
  Proc.modify fun a => { a with state := a.stored }
  pure (decide (a.stored.isInitialized = initializedMarker))

def modifyState (f : AuthenticatorState → AuthenticatorState) : Device Unit :=
  Proc.modify fun a => { a with state := f a.state }

/-- `ctap_is_pin_set`. -/
def ctapIsPinSet (a : Authenticator) : Bool := a.state.isPinSet = 1

/-- `ctap_device_locked`. -/
def ctapDeviceLocked (a : Authenticator) : Bool := a.state.remainingTries ≤ 0

/-- `ctap_device_boot_locked`. -/
def ctapDeviceBootLocked (a : Authenticator) : Bool := a.pinBootAttemptsLeft ≤ 0

/-- `if (ctap_device_boot_locked()) return CTAP2_ERR_PIN_AUTH_BLOCKED; return
code`. -/
def blockedOr (a : Authenticator) (code : UInt8) : UInt8 :=
  if ctapDeviceBootLocked a then ctap2ErrPinAuthBlocked else code

/-- `lock_device_permanently`. -/
def lockDevicePermanently : Device Unit := do
  Proc.modify fun a =>
    { a with pinToken := Buf.zero _, state := { a.state with pinCodeHash := Buf.zero _ } }
  ctapFlushState

/-- `ctap_decrement_pin_attempts`. -/
def ctapDecrementPinAttempts : Device Unit := do
  Proc.modify fun a =>
    if a.pinBootAttemptsLeft > 0 then { a with pinBootAttemptsLeft := a.pinBootAttemptsLeft - 1 }
    else a
  let a ← Proc.get
  if ctapDeviceLocked a then
    pure ()
  else do
    modifyState fun s => { s with remainingTries := s.remainingTries - 1 }
    ctapFlushState
    let a ← Proc.get
    if ctapDeviceLocked a then lockDevicePermanently else pure ()

/-- `ctap_reset_pin_attempts`. -/
def ctapResetPinAttempts : Device Unit := do
  modifyState fun s => { s with remainingTries := pinLockoutAttempts }
  Proc.modify fun a => { a with pinBootAttemptsLeft := pinBootAttempts }
  ctapFlushState

/-- `ctap_reset_key_agreement`. -/
def ctapResetKeyAgreement : Device Unit := do
  let key ← ctapGenerateRng env 32
  Proc.modify fun a => { a with keyAgreementPriv := key }

/-! ### Resident keys -/

/-- `ctap_rk_size`. -/
def ctapRkSize : ℕ := 50

/-- `ctap_load_rk`; out of bounds the destination is left as it is. -/
def ctapLoadRk (a : Authenticator) (index : ℤ) (rk : ResidentKey) : ResidentKey :=
  if index < 0 then rk else a.rks.getD index.toNat rk

/-- `ctap_overwrite_rk`, and `ctap_store_rk`. -/
def ctapOverwriteRk (index : ℤ) (rk : ResidentKey) : Device Unit :=
  Proc.modify fun a => if index < 0 then a else { a with rks := a.rks.set index.toNat rk }

/-- `ctap_delete_rk`. -/
def ctapDeleteRk (index : ℤ) : Device Unit := ctapOverwriteRk index ResidentKey.erased

/-- `ctap_reset_rk`. -/
def ctapResetRk : Device Unit :=
  Proc.modify fun a => { a with rks := List.replicate ctapRkSize ResidentKey.erased }

/-- `ctap_rk_is_valid`. -/
def ctapRkIsValid (rk : ResidentKey) : Bool :=
  CredentialId.count rk.id > 0 && CredentialId.count rk.id ≠ 0xffffffff

/-- `load_nth_valid_rk` from slot `i` on, with `n` valid slots still to be
passed over: the slot found, or -1, and what was loaded last. -/
def loadNthValidRkFrom (a : Authenticator) : ℕ → ℕ → ℕ → ResidentKey → ℤ × ResidentKey
  | 0, _, _, rk => (-1, rk)
  | fuel + 1, i, n, rk =>
      let rk := ctapLoadRk a i rk
      if ctapRkIsValid rk then
        if n = 0 then (i, rk) else loadNthValidRkFrom a fuel (i + 1) (n - 1) rk
      else loadNthValidRkFrom a fuel (i + 1) n rk

/-- `load_nth_valid_rk`. -/
def loadNthValidRk (a : Authenticator) (n : ℕ) (rk : ResidentKey) : ℤ × ResidentKey :=
  loadNthValidRkFrom a ctapRkSize 0 n rk

/-- `is_matching_rk`. -/
def isMatchingRk (rk rk2 : Credential) : Bool :=
  CredentialId.rpIdHash rk.id = CredentialId.rpIdHash rk2.id &&
    rk.user.idBytes = rk2.user.toBytes.take rk.user.idSize.toNat &&
    rk.user.idSize = rk2.user.idSize

/-- `ctap_increment_rk_store`. -/
def ctapIncrementRkStore : Device Unit := do
  modifyState fun s => { s with rkStored := s.rkStored + 1 }
  ctapFlushState

/-- `ctap_decrement_rk_store`. -/
def ctapDecrementRkStore : Device Unit := do
  modifyState fun s => { s with rkStored := s.rkStored - 1 }
  ctapFlushState

/-! ### The signature counter -/

/-- Words that page 1 holds: every other one is used. -/
def countsPerPage : ℕ := 256

/-- Append to page 1, which is erased first when it is full. A word of ones
is not told from an erased one. -/
def CounterPages.push (c : CounterPages) (v : UInt32) : CounterPages :=
  let word := if v = 0xffffffff then [] else [v]
  if c.counts.length = countsPerPage then ⟨word, v / 256 + 1⟩
  else ⟨c.counts ++ word, if v / 256 > c.erases then v / 256 else c.erases⟩

/-- `ctap_atomic_count(0)`. -/
def ctapAtomicCount : Device UInt32 := do
  Proc.modify fun a =>
    if a.counter.erases = 0xffffffff then { a with counter := { a.counter with erases := 1 } } else a
  let rng ← ctapGenerateRng env 1
  let amount : UInt32 := ((rng.byte 0) &&& 0x0f).toUInt32 + 1
  let a ← Proc.get
  let lastc := a.counter.counts.getLastD 0
  if lastc = 0 then do
    -- An interrupted count, and the very first one: this path keeps no `sc`.
    let lastc := a.counter.erases * 256 + 1
    Proc.modify fun a => { a with counter := ⟨[lastc], a.counter.erases + 1⟩ }
    pure lastc
  else do
    let lastc := lastc + amount
    Proc.modify fun a => { a with counter := a.counter.push lastc }
    Proc.stopIf (lastc = a.sc) .halted
    Proc.modify fun a => { a with sc := lastc }
    pure lastc

/-! ### Presence -/

/-- The presence loop of the device. -/
def waitForPresence (upDelay : ℕ) (extendedWipe : Bool) : CtapM PresenceResult :=
  Resumption.Routine.perform (Call.presence upDelay extendedWipe)

/-- `device_set_status`. -/
def deviceSetStatus (s : HidStatus) : CtapM Unit :=
  Resumption.Routine.perform (Call.setStatus s)

/-- `is_in_first_10_seconds`. -/
def isInFirst10Seconds : CtapM Bool := Resumption.Routine.perform Call.isInFirst10Seconds

/-- `ctap_user_presence_test_feedback`. -/
def ctapUserPresenceTestFeedback (upDelay : ℕ) (extendedWipe : Bool) : CtapM ℤ := do
  let a ← (Proc.get : Device Authenticator)
  if a.nfcActive then
    pure 1
  else if a.upDisabled then
    pure 2
  else do
    let r ← waitForPresence upDelay extendedWipe
    note (.presence (PresenceResult.code r))
    pure (PresenceResult.code r)

/-- `ctap_user_presence_test`. -/
def ctapUserPresenceTest (upDelay : ℕ) : CtapM ℤ := ctapUserPresenceTestFeedback upDelay false

/-- `ctap_user_presence_test_reset` and `ctap_user_presence_test_config`. -/
def ctapUserPresenceTestExtended (upDelay : ℕ) : CtapM ℤ :=
  ctapUserPresenceTestFeedback upDelay true

/-- The status that `ctap2_user_presence_test` makes of a presence test. -/
def presenceStatus (ret : ℤ) : UInt8 :=
  if ret > 1 then ctap2ErrProcessing
  else if ret > 0 then ctap1ErrSuccess
  else if ret < 0 then ctap2ErrKeepaliveCancel
  else ctap2ErrActionTimeout

def testWithStatus (feedback : CtapM ℤ) : CtapM UInt8 := do
  deviceSetStatus .upneeded
  let ret ← feedback
  deviceSetStatus .idle
  pure (presenceStatus ret)

/-- The command `ctap2_user_presence_test` is called for, as far as it makes
a difference. -/
inductive PresencePurpose
  | request | reset | bootloader
  deriving DecidableEq

/-- `ctap2_user_presence_test`. -/
def ctap2UserPresenceTest : PresencePurpose → CtapM UInt8
  | .request => testWithStatus (ctapUserPresenceTest 29000)
  | .reset => do
      let early ← isInFirst10Seconds
      if early then testWithStatus (ctapUserPresenceTestExtended 10000)
      else pure ctap2ErrNotAllowed
  | .bootloader => testWithStatus (ctapUserPresenceTestExtended 10000)

end NitrokeyFido2.Ctap
