import NitrokeyFido2.Ctap.Request
import NitrokeyFido2.Lib.Transition

/-!
Runs of the authenticator: CTAP2 requests and power cycles, one after the
other.

A request that waits is given its answers with the event that carries it, and
nothing else happens meanwhile; what packets can do during the wait is the
subject of the HID modules. A device that halted stays so until it is powered
up again.
-/

namespace NitrokeyFido2.Ctap

open Proc Resumption

/-- The answers to the calls of one request. -/
structure Answers where
  presence : PresenceResult
  early : Bool
  deriving DecidableEq

def Answers.answer (h : Answers) : (c : Call) → Ret c
  | .presence _ _ => h.presence
  | .setStatus _ => ()
  | .isInFirst10Seconds => h.early

/-- A routine under fixed answers. -/
abbrev CtapM.answered {α : Type} (h : Answers) (m : CtapM α) : Device α :=
  Routine.answered h.answer m

section Answered

variable {α : Type} (h : (c : Call) → Ret c)

/-- Go on with the status a procedure ended with. -/
def Device.attempt (m : Device α) : Device (Except UInt8 α) := ⟨fun s =>
  match m s with
  | (.ok a, t) => (.ok (.ok a), t)
  | (.error (.status c), t) => (.ok (.error c), t)
  | (.error .halted, t) => (.error .halted, t)⟩

theorem Device.attempt_apply (m : Device α) (s : Authenticator) :
    Device.attempt m s =
      match m s with
      | (.ok a, t) => (.ok (.ok a), t)
      | (.error (.status c), t) => (.ok (.error c), t)
      | (.error .halted, t) => (.error .halted, t) := rfl

@[simp] theorem answered_attempt (m : CtapM α) :
    Routine.answered h (attempt m) = Device.attempt (Routine.answered h m) := by
  ext1
  funext s
  show ((m s).bind _).answer h = _
  rw [Prog.answer_bind]
  simp only [Device.attempt, Routine.answered]
  rcases (m s).answer h with ⟨(_ | _) | _, t⟩ <;> rfl

@[simp] theorem answered_deviceSetStatus (st : HidStatus) :
    Routine.answered h (deviceSetStatus st) = pure () := rfl

/-- The answers, at the types they have. -/
def presenceAnswer (upDelay : ℕ) (extendedWipe : Bool) : PresenceResult :=
  h (.presence upDelay extendedWipe)

def earlyAnswer : Bool := h .isInFirst10Seconds

@[simp] theorem answered_waitForPresence (upDelay : ℕ) (extendedWipe : Bool) :
    Routine.answered h (waitForPresence upDelay extendedWipe) =
      pure (presenceAnswer h upDelay extendedWipe) := rfl

@[simp] theorem answered_isInFirst10Seconds :
    Routine.answered h isInFirst10Seconds = pure (earlyAnswer h) := rfl

end Answered

/-! ### Presence tests -/

/-- The result of a presence test. -/
def Authenticator.presence (a : Authenticator) (h : Answers) : ℤ :=
  if a.nfcActive then 1 else if a.upDisabled then 2 else h.presence.code

/-- The device behind a presence test. -/
def Authenticator.waited (a : Authenticator) (h : Answers) : Authenticator :=
  if a.nfcActive then a else if a.upDisabled then a
  else { a with trace := a.trace ++ [.presence h.presence.code] }

theorem answered_feedback (upDelay : ℕ) (extendedWipe : Bool) (h : Answers) (a : Authenticator) :
    CtapM.answered h (ctapUserPresenceTestFeedback upDelay extendedWipe) a =
      (.ok (a.presence h), a.waited h) := by
  unfold ctapUserPresenceTestFeedback CtapM.answered Authenticator.presence Authenticator.waited
  simp only [Routine.answered_bind, Routine.answered_liftM, Routine.answered_ite,
    answered_waitForPresence, get_bind]
  split_ifs <;> rfl

/-- The device was left alone or has made a presence test. -/
def Authenticator.tested (t a : Authenticator) (h : Answers) : Prop := t = a ∨ t = a.waited h

theorem answered_testWithStatus (upDelay : ℕ) (extendedWipe : Bool) (h : Answers)
    (a : Authenticator) :
    CtapM.answered h (testWithStatus (ctapUserPresenceTestFeedback upDelay extendedWipe)) a =
      (.ok (presenceStatus (a.presence h)), a.waited h) := by
  unfold testWithStatus
  simp only [CtapM.answered, Routine.answered_bind, answered_deviceSetStatus]
  rw [bind_of_ok rfl, bind_of_ok (answered_feedback upDelay extendedWipe h a)]
  rfl

theorem answered_requestTest (h : Answers) (a : Authenticator) :
    CtapM.answered h (ctap2UserPresenceTest .request) a =
      (.ok (presenceStatus (a.presence h)), a.waited h) :=
  answered_testWithStatus 29000 false h a

theorem answered_ctap2UserPresenceTest (purpose : PresencePurpose) (h : Answers)
    (a : Authenticator) :
    ∃ status t, t.tested a h ∧
      CtapM.answered h (ctap2UserPresenceTest purpose) a = (.ok status, t) := by
  cases purpose with
  | request => exact ⟨_, _, .inr rfl, answered_requestTest h a⟩
  | bootloader => exact ⟨_, _, .inr rfl, answered_testWithStatus 10000 true h a⟩
  | reset =>
      unfold ctap2UserPresenceTest
      simp only [CtapM.answered, Routine.answered_bind, answered_isInFirst10Seconds,
        Routine.answered_ite]
      rw [bind_of_ok rfl]
      split
      · exact ⟨_, _, .inr rfl, answered_testWithStatus 10000 true h a⟩
      · exact ⟨_, _, .inl rfl, rfl⟩

/-! ### The machine -/

variable (env : Env)

inductive Event
  | request (bytes : List UInt8) (answers : Answers)
  | reboot
  deriving DecidableEq

structure Machine where
  auth : Authenticator
  running : Bool

/-- One CTAP2 request, with an empty trace to begin with. -/
def Authenticator.request (a : Authenticator) (bytes : List UInt8) (h : Answers) :
    Except Stop CtapResult × Authenticator :=
  CtapM.answered h (ctapRequest env bytes) { a with trace := [] }

/-- A power cycle and `ctap_init`. -/
def Authenticator.reboot (a : Authenticator) : Except Stop Unit × Authenticator :=
  ctapInit env (powerCycle a)

def Machine.of {α : Type} (r : Except Stop α × Authenticator) : Machine :=
  ⟨r.2, r.1.isOk⟩

def Machine.step (m : Machine) : Event → Machine
  | .request bytes h =>
      if m.running then .of (m.auth.request env bytes h)
      else { m with auth := { m.auth with trace := [] } }
  | .reboot => .of (m.auth.reboot env)

/-- What the host gets for a request. -/
def Machine.reply (m : Machine) : Event → Option CtapResult
  | .request bytes h =>
      if m.running then (m.auth.request env bytes h).1.toOption else none
  | .reboot => none

/-- What a step did. -/
def Machine.traceOf (m : Machine) (e : Event) : List Trace := (m.step env e).auth.trace

/-- A device at power-up, whatever its flash holds. -/
def Machine.powerUp (a : Authenticator) : Machine := .of (a.reboot env)

/-! ### Power-up -/

/-- The persistent state of a device that was never initialised, made from the
random bytes that come next. -/
def Authenticator.freshState (a : Authenticator) : AuthenticatorState :=
  { AuthenticatorState.erased with
    keySpace := a.drawn env keySpaceBytes
    isInitialized := initializedMarker
    remainingTries := pinLockoutAttempts
    isPinSet := 0
    rkStored := 0
    dataVersion := stateVersion
    pinSalt := { a with rngPos := a.rngPos + keySpaceBytes }.drawn env 32 }

/-- A power-up with this persistent state and these resident keys, at a
position of the random numbers. -/
def Authenticator.started (a : Authenticator) (st : AuthenticatorState) (rks : List ResidentKey)
    (pos : ℕ) : Authenticator :=
  { powerCycle a with
    state := st
    stored := st
    rks := rks
    secrets := cryptoLoadMasterSecret st.keySpace
    pinToken := { a with rngPos := pos }.drawn env pinTokenSize
    keyAgreementPriv := { a with rngPos := pos + pinTokenSize }.drawn env 32
    rngPos := pos + pinTokenSize + 32 }

theorem reboot_of_initialized {a : Authenticator} (h₁ : a.stored.isInitialized = initializedMarker)
    (h₂ : a.stored.dataVersion = stateVersion) :
    a.reboot env = (.ok (), a.started env a.stored a.rks a.rngPos) := by
  have hread : authenticatorReadState (powerCycle a) =
      (.ok true, { powerCycle a with state := a.stored }) := by
    show (Except.ok (decide (a.stored.isInitialized = initializedMarker)), _) = _
    rw [h₁]
    rfl
  have hmigrate : doMigrationIfRequired env { powerCycle a with state := a.stored } =
      (.ok (), { powerCycle a with state := a.stored }) := by
    rw [doMigrationIfRequired, get_bind, if_pos (.inr h₂)]
    rfl
  rw [Authenticator.reboot, ctapInit, bind_of_ok hread, if_pos rfl, pure_bind,
    bind_of_ok hmigrate]
  rfl

theorem reboot_of_not_initialized {a : Authenticator}
    (h : a.stored.isInitialized ≠ initializedMarker) :
    a.reboot env = (.ok (), a.started env (a.freshState env)
      (List.replicate ctapRkSize ResidentKey.erased) (a.rngPos + keySpaceBytes + 32)) := by
  have hread : authenticatorReadState (powerCycle a) =
      (.ok false, { powerCycle a with state := a.stored }) := by
    show (Except.ok (decide (a.stored.isInitialized = initializedMarker)), _) = _
    rw [decide_eq_false h]
    rfl
  rw [Authenticator.reboot, ctapInit, bind_of_ok hread, if_neg Bool.false_ne_true, bind_assoc,
    bind_of_ok rfl, bind_of_ok rfl]
  rfl

/-- What a reset leaves; the attempts of the power-up are not given back. -/
def Authenticator.wasReset (a : Authenticator) : Authenticator :=
  let pos := a.rngPos + keySpaceBytes + 32
  { a with
    state := a.freshState env
    stored := a.freshState env
    rks := List.replicate ctapRkSize ResidentKey.erased
    pinToken := { a with rngPos := pos }.drawn env pinTokenSize
    gas := GetAssertionState.zero
    keyAgreementPriv := { a with rngPos := pos + pinTokenSize }.drawn env 32
    secrets := cryptoLoadMasterSecret (a.freshState env).keySpace
    rngPos := pos + pinTokenSize + 32 }

theorem ctapReset_apply (a : Authenticator) : ctapReset env a = (.ok (), a.wasReset env) := rfl

/-! ### A request and its command -/

def Authenticator.setLastcmd (a : Authenticator) (c : UInt8) : Authenticator :=
  { a with gas := { a.gas with lastcmd := c } }

/-- What the second switch of a request did, under fixed answers. -/
def Authenticator.dispatch (a : Authenticator) (bytes : List UInt8) (h : Answers) :
    Except Stop (Option Writer) × Authenticator :=
  CtapM.answered h (ctapGatedDispatch env (bytes.getD 0 0) bytes.tail) { a with trace := [] }

/-- A request is its command, and `lastcmd` behind it unless the device
halts. -/
theorem Authenticator.request_eq (a : Authenticator) (bytes : List UInt8) (h : Answers) :
    a.request env bytes h =
      match a.dispatch env bytes h with
      | (.ok w, t) =>
          (.ok (.of env (.ok w)), t.setLastcmd (nextLastcmd (bytes.getD 0 0) (.ok w)))
      | (.error (.status c), t) => (.ok (.of env (.error c)), t.setLastcmd (bytes.getD 0 0))
      | (.error .halted, t) => (.error .halted, t) := by
  unfold Authenticator.request Authenticator.dispatch ctapRequest
  simp only [Routine.answered_bind, answered_attempt, answered_deviceSetStatus,
    Routine.answered_liftM, Routine.answered_pure]
  rw [Proc.bind_apply, Device.attempt_apply]
  rcases (Routine.answered h.answer
    (ctapGatedDispatch env (bytes.getD 0 0) bytes.tail)) { a with trace := [] } with
    ⟨(_ | _) | _, t⟩ <;> rfl

section Dispatch

variable {a : Authenticator} {bytes : List UInt8} {h : Answers}

theorem dispatch_eq :
    a.dispatch env bytes h =
      ((if isGated (bytes.getD 0 0) then failIfLocked else pure () : Device Unit) >>= fun _ =>
        CtapM.answered h (ctapDispatch env (bytes.getD 0 0) bytes.tail)) { a with trace := [] } := by
  rw [Authenticator.dispatch, ctapGatedDispatch, CtapM.answered, Routine.answered_bind]
  rfl

theorem dispatch_makeCredential (hcmd : bytes.getD 0 0 = ctapMakeCredentialCmd) :
    a.dispatch env bytes h =
      (failIfLocked >>= fun _ =>
        CtapM.answered h (ctapMakeCredential env (Writer.init ctapResponseBufferSize) bytes.tail)
          >>= fun w => pure (some w)) { a with trace := [] } := by
  rw [dispatch_eq, hcmd]
  simp +decide [ctapDispatch]

theorem dispatch_getAssertion (hcmd : bytes.getD 0 0 = ctapGetAssertionCmd) :
    a.dispatch env bytes h =
      (failIfLocked >>= fun _ =>
        CtapM.answered h (ctapGetAssertion env (Writer.init ctapResponseBufferSize) bytes.tail)
          >>= fun w => pure (some w)) { a with trace := [] } := by
  rw [dispatch_eq, hcmd]
  simp +decide [ctapDispatch]

theorem dispatch_credMgmt (hcmd : bytes.getD 0 0 = ctapCborCredMgmtCmd ∨
    bytes.getD 0 0 = ctapCborCredMgmtPreCmd) :
    a.dispatch env bytes h =
      (failIfLocked >>= fun _ =>
        ctapCredMgmt env (Writer.init ctapResponseBufferSize) bytes.tail >>= fun w =>
          pure (some w)) { a with trace := [] } := by
  rw [dispatch_eq]
  rcases hcmd with hcmd | hcmd <;> rw [hcmd] <;> simp +decide [ctapDispatch]

theorem dispatch_getInfo (hcmd : bytes.getD 0 0 = ctapGetInfoCmd) :
    a.dispatch env bytes h =
      (Proc.get >>= fun a => encode (Writer.init ctapResponseBufferSize) (ctapGetInfo env a)
        >>= fun w => pure (some w)) { a with trace := [] } := by
  rw [dispatch_eq, hcmd]
  simp +decide [ctapDispatch]

theorem dispatch_clientPin (hcmd : bytes.getD 0 0 = ctapClientPinCmd) :
    a.dispatch env bytes h =
      (ctapClientPin env (Writer.init ctapResponseBufferSize) bytes.tail >>= fun w =>
        pure (some w)) { a with trace := [] } := by
  rw [dispatch_eq, hcmd]
  simp +decide [ctapDispatch]

theorem dispatch_reset (hcmd : bytes.getD 0 0 = ctapResetCmd) :
    a.dispatch env bytes h =
      (CtapM.answered h (ctap2UserPresenceTest .reset) >>= fun status => checkRetr status >>= fun _ =>
        ctapReset env >>= fun _ => pure none) { a with trace := [] } := by
  rw [dispatch_eq, hcmd]
  simp +decide [ctapDispatch]

theorem dispatch_getNextAssertion (hcmd : bytes.getD 0 0 = getNextAssertionCmd) :
    a.dispatch env bytes h =
      (failIf (a.gas.lastcmd ≠ ctapGetAssertionCmd) ctap2ErrNotAllowed >>= fun _ =>
        CtapM.answered h (ctapGetNextAssertion env (Writer.init ctapResponseBufferSize))
          >>= fun w => pure (some w)) { a with trace := [] } := by
  rw [dispatch_eq, hcmd]
  simp +decide [ctapDispatch]

/-- A reset happens behind a presence test, or not at all. -/
theorem dispatch_reset_cases (hcmd : bytes.getD 0 0 = ctapResetCmd) :
    ∃ t : Authenticator, t.tested { a with trace := [] } h ∧
      (a.dispatch env bytes h = (.ok none, t.wasReset env) ∨
        ∃ c, c ≠ 0 ∧ a.dispatch env bytes h = (.error (.status c), t)) := by
  rw [dispatch_reset env hcmd]
  obtain ⟨status, t, ht, hrun⟩ := answered_ctap2UserPresenceTest .reset h { a with trace := [] }
  rw [CtapM.answered, bind_of_ok hrun, checkRetr, failIf, stopIf]
  by_cases hs : status = 0
  · rw [if_neg (not_not.mpr hs)]
    exact ⟨t, ht, .inl rfl⟩
  · rw [if_pos hs]
    exact ⟨t, ht, .inr ⟨status, hs, rfl⟩⟩

/-- The other commands do nothing. -/
theorem dispatch_other (hcmd : bytes.getD 0 0 ∉ [ctapMakeCredentialCmd, ctapGetAssertionCmd,
    ctapCborCredMgmtCmd, ctapCborCredMgmtPreCmd, ctapGetInfoCmd, ctapClientPinCmd, ctapResetCmd,
    getNextAssertionCmd]) : (a.dispatch env bytes h).2 = { a with trace := [] } := by
  rw [dispatch_eq]
  generalize bytes.getD 0 0 = cmd at *
  simp only [List.mem_cons, List.not_mem_nil, or_false, not_or] at hcmd
  obtain ⟨h₁, h₂, h₃, h₄, h₅, h₆, h₇, h₈⟩ := hcmd
  by_cases hc : cmd = ctapCancelCmd
  · subst hc
    simp +decide [ctapDispatch, pure_apply]
  · simp [ctapDispatch, isGated, h₁, h₂, h₃, h₄, h₅, h₆, h₇, h₈, hc, fail, stop]

end Dispatch

/-- What does not depend on `lastcmd` holds behind a request if it holds
behind its command. -/
theorem Authenticator.request_state {P : Authenticator → Prop} {a : Authenticator}
    {bytes : List UInt8} {h : Answers} (hlast : ∀ t c, P t → P (t.setLastcmd c))
    (hP : P (a.dispatch env bytes h).2) : P (a.request env bytes h).2 := by
  rw [Authenticator.request_eq]
  rcases hd : a.dispatch env bytes h with ⟨(_ | _) | w, t⟩ <;> rw [hd] at hP
  · exact hlast t _ hP
  · exact hP
  · exact hlast t _ hP

end NitrokeyFido2.Ctap
