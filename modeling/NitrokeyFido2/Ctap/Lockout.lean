import NitrokeyFido2.Ctap.PinRefinement
import NitrokeyFido2.Ctap.Sample

/-!
What a device without PIN attempts still does.

The gate of `ctap_request` refuses the commands it covers, and the gate of
`ctap_client_pin` the subcommands that use the PIN. A getNextAssertion is not
gated: it is refused because the command before it was no getAssertion, or
because no credential is pending. A getAssertion that the gate refuses is
remembered all the same, so a list that was pending when the attempts ran out
is served after it. Without such a request, the device keeps to the rule.
-/

namespace NitrokeyFido2.Ctap

open Proc Resumption

variable (env : Env)

/-! ### The rule -/

/-- No attempts are left, in this power-up or at all. -/
def Locked (a : Authenticator) : Prop := a.state.remainingTries ≤ 0 ∨ a.pinBootAttemptsLeft ≤ 0

instance (a : Authenticator) : Decidable (Locked a) := inferInstanceAs (Decidable (_ ∨ _))

/-- A getNextAssertion would find a credential. -/
def Pending (a : Authenticator) : Prop := 0 < a.gas.count ∧ a.gas.index < a.gas.count

instance (a : Authenticator) : Decidable (Pending a) := inferInstanceAs (Decidable (_ ∧ _))

theorem popCredential_none {a : Authenticator} (h : ¬ Pending a) :
    popCredential a = (.ok none, a) := by
  have hnot : ¬ (0 < a.gas.count ∧ a.gas.index < a.gas.count) := h
  rw [popCredential, get_bind, if_neg hnot]
  rfl

/-- The requests that the PIN protects. -/
def pinProtected (bytes : List UInt8) : Prop :=
  let cmd := bytes.getD 0 0
  cmd = ctapMakeCredentialCmd ∨ cmd = ctapGetAssertionCmd ∨ cmd = getNextAssertionCmd ∨
    (cmd = ctapCborCredMgmtCmd ∨ cmd = ctapCborCredMgmtPreCmd) ∨
    (cmd = ctapClientPinCmd ∧ usesPin (requestedSubCommand env bytes.tail))

instance (bytes : List UInt8) : Decidable (pinProtected env bytes) :=
  inferInstanceAs (Decidable (_ ∨ _ ∨ _ ∨ _ ∨ _))

/-- The PIN is what it was. -/
def SamePin (a t : Authenticator) : Prop :=
  t.state.pinCodeHash = a.state.pinCodeHash ∧ t.state.isPinSet = a.state.isPinSet

/-- A locked device serves nothing that the PIN protects, and keeps its PIN
unless it is reset. -/
def RefusesWhenLocked (m : Machine) (e : Event) : Prop :=
  m.running = true → Locked m.auth →
    match e with
    | .request bytes h =>
        (pinProtected env bytes → ∀ r, m.reply env (.request bytes h) = some r → r.status ≠ 0) ∧
          (bytes.getD 0 0 ≠ ctapResetCmd → SamePin m.auth (m.step env (.request bytes h)).auth)
    | .reboot => SamePin m.auth (m.step env .reboot).auth

/-- No getAssertion comes while the device is locked with a list pending. -/
def NoLateAssertion (m : Machine) : Event → Prop
  | .request bytes _ =>
      m.running = true → bytes.getD 0 0 = ctapGetAssertionCmd → Locked m.auth → ¬ Pending m.auth
  | .reboot => True

instance (m : Machine) (e : Event) : Decidable (NoLateAssertion m e) := by
  cases e <;> unfold NoLateAssertion <;> infer_instance

/-! ### The gates -/

section Gates

variable {env} {a : Authenticator}

theorem failIfLocked_of_locked (h : Locked a) :
    ∃ c, c ≠ 0 ∧ failIfLocked a = (.error (.status c), a) := by
  rw [failIfLocked, get_bind]
  by_cases htries : a.state.remainingTries ≤ 0
  · have hlocked : ctapDeviceLocked a = true := decide_eq_true htries
    rw [failIf_pos hlocked]
    exact ⟨ctap2ErrPinBlocked, by decide, rfl⟩
  · have hopen : ¬ ctapDeviceLocked a = true := fun h => htries (of_decide_eq_true h)
    have hboots : ctapDeviceBootLocked a = true := decide_eq_true (h.resolve_left htries)
    rw [failIf_neg hopen, failIf_pos hboots]
    exact ⟨ctap2ErrPinAuthBlocked, by decide, rfl⟩

/-- Behind the gate, nothing is reached. -/
theorem failIfLocked_of_not_locked (h : ¬ Locked a) : failIfLocked a = (.ok (), a) := by
  obtain ⟨htries, hboots⟩ := not_or.mp h
  have hopen : ¬ ctapDeviceLocked a = true := by simpa [ctapDeviceLocked] using htries
  have hbootOpen : ¬ ctapDeviceBootLocked a = true := by simpa [ctapDeviceBootLocked] using hboots
  rw [failIfLocked, get_bind, failIf_neg hopen, failIf_neg hbootOpen]
  rfl

theorem bind_failIfLocked {α : Type} {f : Unit → Device α} (h : Locked a) :
    ∃ c, c ≠ 0 ∧ (failIfLocked >>= f) a = (.error (.status c), a) := by
  obtain ⟨c, hc, hfail⟩ := failIfLocked_of_locked h
  exact ⟨c, hc, bind_of_error hfail⟩

variable (env) in
/-- A locked device keeps everything through a clientPIN request, and refuses
the subcommands that use the PIN. -/
theorem ctapClientPin_locked (w : Writer) (request : List UInt8) (h : Locked a) :
    Changed [] a (ctapClientPin env w request a).2 ∧
      (usesPin (requestedSubCommand env request) →
        ∃ c, c ≠ 0 ∧ ctapClientPin env w request a = (.error (.status c), a)) := by
  unfold ctapClientPin requestedSubCommand
  obtain ⟨r, cp⟩ := (ctapParseClientPin env request).run default
  dsimp only
  by_cases huses : usesPin cp.subCommand
  · obtain ⟨c, hc, hfail⟩ := bind_failIfLocked h
    rw [if_pos huses, hfail]
    exact ⟨refl_of (Changed []) a, fun _ => ⟨c, hc, rfl⟩⟩
  · refine ⟨?_, fun hu => absurd hu huses⟩
    rw [if_neg huses, pure_bind]
    have hsub : Keeps (Changed []) (clientPinSubCommand env w cp) := by
      simp only [usesPin, not_or] at huses
      unfold clientPinSubCommand
      dsimp only
      rw [if_neg huses.1, if_neg huses.2.1, if_neg huses.2.2]
      infer_instance
    exact (inferInstance : Keeps (Changed []) _).state a

end Gates

/-! ### One step -/

/-- The stored state is the one in use, and initialised. -/
def Persisted (a : Authenticator) : Prop :=
  a.stored = a.state ∧ a.state.isInitialized = initializedMarker ∧
    a.state.dataVersion = stateVersion

/-- What is kept as long as no getAssertion comes too late. -/
structure LockInv (m : Machine) : Prop where
  persisted : Persisted m.auth
  notPending : m.running = true → Locked m.auth → m.auth.gas.lastcmd = ctapGetAssertionCmd →
    ¬ Pending m.auth

section Step

variable {env} {a : Authenticator} {bytes : List UInt8} {h : Answers}

theorem Persisted.changed {may : List Aspect} {t : Authenticator} (ha : Persisted a)
    (hchanged : Changed may a t) (h₁ : Aspect.stored ∉ may) (h₂ : Aspect.version ∉ may) :
    Persisted t := by
  obtain ⟨hstored, hinit, hversion⟩ := ha
  have hsame := Prod.mk.inj (hchanged .version h₂)
  exact ⟨hchanged .stored h₁ hstored, hsame.1.trans hinit, hsame.2.trans hversion⟩

theorem Persisted.dispatch (ha : Persisted a) : Persisted (a.dispatch env bytes h).2 := by
  by_cases hc : bytes.getD 0 0 = ctapResetCmd
  · obtain ⟨t, ht, hrun⟩ := dispatch_reset_cases env (a := a) (h := h) hc
    rcases hrun with hrun | ⟨c, -, hrun⟩
    · rw [hrun]
      exact ⟨rfl, rfl, rfl⟩
    · rw [hrun]
      have hchanged : Changed [.events .presence] { a with trace := [] } t := ht.changed
      exact Persisted.changed (a := { a with trace := [] }) ha hchanged (by decide) (by decide)
  · exact Persisted.changed (a := { a with trace := [] }) ha (dispatch_changed hc) (by decide)
      (by decide)

/-- A gated command is refused by a locked device. -/
theorem dispatch_locked (hgated : isGated (bytes.getD 0 0) = true) (hlocked : Locked a) :
    ∃ c, c ≠ 0 ∧ a.dispatch env bytes h = (.error (.status c), { a with trace := [] }) := by
  rw [dispatch_eq, if_pos hgated]
  exact bind_failIfLocked hlocked

/-- A getNextAssertion with nothing to serve is refused. -/
theorem getNextAssertion_refused (hcmd : bytes.getD 0 0 = getNextAssertionCmd)
    (hnone : a.gas.lastcmd = ctapGetAssertionCmd → ¬ Pending a) :
    a.dispatch env bytes h = (.error (.status ctap2ErrNotAllowed), { a with trace := [] }) := by
  rw [dispatch_getNextAssertion env hcmd]
  by_cases hlast : a.gas.lastcmd = ctapGetAssertionCmd
  · rw [failIf, stopIf, if_neg (not_not.mpr hlast), pure_bind]
    have hpop : popCredential { a with trace := [] } = (.ok none, { a with trace := [] }) :=
      popCredential_none (hnone hlast)
    simp only [CtapM.answered, ctapGetNextAssertion, Routine.answered_bind,
      Routine.answered_liftM, bind_assoc]
    rw [bind_of_ok hpop]
    rfl
  · rw [failIf_pos hlast]
    rfl

theorem Persisted.request (ha : Persisted a) : Persisted (a.request env bytes h).2 :=
  Authenticator.request_state env (fun _ _ ht => ht) ha.dispatch

theorem Persisted.reboot (ha : Persisted a) :
    a.reboot env = (.ok (), a.started env a.state a.rks a.rngPos) := by
  obtain ⟨hstored, hinit, hversion⟩ := ha
  rw [reboot_of_initialized env (hstored ▸ hinit) (hstored ▸ hversion), hstored]

/-- The status of a request whose command failed. -/
theorem request_of_error {c : UInt8} {t : Authenticator}
    (hd : a.dispatch env bytes h = (.error (.status c), t)) :
    a.request env bytes h = (.ok ⟨c, []⟩, t.setLastcmd (bytes.getD 0 0)) := by
  rw [Authenticator.request_eq, hd]
  rfl

variable (env) in
/-- A locked device refuses what the PIN protects. -/
theorem dispatch_pinProtected (hlocked : Locked a) (hprotected : pinProtected env bytes)
    (hnone : a.gas.lastcmd = ctapGetAssertionCmd → ¬ Pending a) :
    ∃ c, c ≠ 0 ∧ a.dispatch env bytes h = (.error (.status c), { a with trace := [] }) := by
  rcases hprotected with hc | hc | hc | hc | ⟨hc, huses⟩
  · exact dispatch_locked (by rw [hc]; decide) hlocked
  · exact dispatch_locked (by rw [hc]; decide) hlocked
  · exact ⟨ctap2ErrNotAllowed, by decide, getNextAssertion_refused hc hnone⟩
  · exact dispatch_locked (by rcases hc with hc | hc <;> rw [hc] <;> decide) hlocked
  · obtain ⟨c, hne, hrun⟩ := (ctapClientPin_locked env (a := { a with trace := [] })
      (Writer.init ctapResponseBufferSize) bytes.tail hlocked).2 huses
    refine ⟨c, hne, ?_⟩
    rw [dispatch_clientPin env hc, bind_of_error hrun]

/-- A locked device keeps its PIN through everything but a reset. -/
theorem dispatch_samePin (hlocked : Locked a) (hreset : bytes.getD 0 0 ≠ ctapResetCmd)
    (hnone : a.gas.lastcmd = ctapGetAssertionCmd → ¬ Pending a) :
    SamePin a (a.dispatch env bytes h).2 := by
  have hsame : ∀ t, Changed [] { a with trace := [] } t → SamePin a t := by
    intro t ht
    have hpin := ht .pin (by decide)
    simp only [Aspect.Same, Prod.mk.injEq] at hpin
    exact ⟨hpin.2.1, hpin.1⟩
  rcases command_cases (bytes.getD 0 0) with hc | hc | hc | hc | hc | hc | hc | hc
  · obtain ⟨c, -, hrun⟩ := dispatch_pinProtected env (h := h) hlocked (.inl hc) hnone
    rw [hrun]
    exact ⟨rfl, rfl⟩
  · obtain ⟨c, -, hrun⟩ :=
      dispatch_pinProtected env (h := h) hlocked (.inr (.inl hc)) hnone
    rw [hrun]
    exact ⟨rfl, rfl⟩
  · obtain ⟨c, -, hrun⟩ :=
      dispatch_pinProtected env (h := h) hlocked (.inr (.inr (.inr (.inl hc)))) hnone
    rw [hrun]
    exact ⟨rfl, rfl⟩
  · rw [dispatch_getInfo env hc]
    exact hsame _ (changed_of_keeps inferInstance)
  · rw [dispatch_clientPin env hc, bind_state_of_reads]
    exact hsame _ (ctapClientPin_locked env (a := { a with trace := [] }) _ _ hlocked).1
  · exact absurd hc hreset
  · rw [getNextAssertion_refused hc hnone]
    exact ⟨rfl, rfl⟩
  · rw [dispatch_other env hc]
    exact ⟨rfl, rfl⟩

/-- In a state of the invariant, a locked device keeps to the rule. -/
theorem LockInv.refuses {m : Machine} (hm : LockInv m) (e : Event) : RefusesWhenLocked env m e := by
  intro hrun hlocked
  have hnone := hm.notPending hrun hlocked
  cases e with
  | reboot =>
      have hstep : m.step env .reboot = .of (m.auth.reboot env) := rfl
      rw [hstep, hm.persisted.reboot]
      exact ⟨rfl, rfl⟩
  | request bytes h =>
      have hstep : m.step env (.request bytes h) = .of (m.auth.request env bytes h) := if_pos hrun
      have hreply : m.reply env (.request bytes h) = (m.auth.request env bytes h).1.toOption :=
        if_pos hrun
      refine ⟨fun hprotected r hr => ?_, fun hreset => ?_⟩
      · obtain ⟨c, hc, hd⟩ := dispatch_pinProtected env (h := h) hlocked hprotected hnone
        rw [hreply, request_of_error hd] at hr
        obtain rfl := Option.some.inj hr
        exact hc
      · rw [hstep]
        exact Authenticator.request_state env (fun _ _ ht => ht)
          (dispatch_samePin hlocked hreset hnone)

variable (env bytes h) in
/-- An assertion takes no attempts. -/
theorem locked_of_dispatch
    (hcmd : bytes.getD 0 0 = ctapGetAssertionCmd ∨ bytes.getD 0 0 = getNextAssertionCmd)
    (hlocked : Locked (a.dispatch env bytes h).2) : Locked a := by
  have hsame := dispatch_assertion_changed env (a := a) (h := h) hcmd .attempts (by decide)
  simp only [Aspect.Same, Prod.mk.injEq] at hsame
  unfold Locked at *
  rw [hsame.1, hsame.2] at hlocked
  exact hlocked

/-- When a getAssertion is remembered behind a request, and the device is
locked, then it was locked before and refused it. -/
theorem dispatch_notPending {m : Machine} (hm : LockInv m) (hrun : m.running = true)
    (he : NoLateAssertion m (.request bytes h)) {r : Except Stop (Option Writer)}
    {t : Authenticator} (hd : m.auth.dispatch env bytes h = (r, t)) (hlocked : Locked t)
    (hlast : bytes.getD 0 0 = ctapGetAssertionCmd ∨
      (bytes.getD 0 0 = getNextAssertionCmd ∧ ∃ w, r = .ok w)) : ¬ Pending t := by
  have hbefore : Locked m.auth := by
    refine locked_of_dispatch env bytes h ?_ (by rw [hd]; exact hlocked)
    exact hlast.imp_right And.left
  rcases hlast with hc | ⟨hc, w, rfl⟩
  · obtain ⟨c, -, hrefused⟩ := dispatch_pinProtected env (h := h) hbefore
      (.inr (.inl hc)) (hm.notPending hrun hbefore)
    rw [hrefused] at hd
    obtain rfl := (Prod.mk.inj hd).2
    exact he hrun hc hbefore
  · rw [getNextAssertion_refused hc (hm.notPending hrun hbefore)] at hd
    exact absurd (Prod.mk.inj hd).1 (by simp)

/-- The invariant is kept by every step that is no late getAssertion. -/
theorem LockInv.step {m : Machine} (hm : LockInv m) {e : Event} (he : NoLateAssertion m e) :
    LockInv (m.step env e) := by
  cases e with
  | reboot =>
      have hstep : m.step env .reboot = .of (m.auth.reboot env) := rfl
      rw [hstep, hm.persisted.reboot]
      exact
        { persisted := ⟨rfl, hm.persisted.2⟩
          notPending := fun _ _ hlast =>
            absurd (show (0 : UInt8) = ctapGetAssertionCmd from hlast) (by decide) }
  | request bytes h =>
      by_cases hrun : m.running = true
      · have hstep : m.step env (.request bytes h) = .of (m.auth.request env bytes h) :=
          if_pos hrun
        rw [hstep]
        refine ⟨hm.persisted.request, fun hgoes hlocked hlast => ?_⟩
        rw [Authenticator.request_eq] at hgoes hlocked hlast ⊢
        rcases hd : m.auth.dispatch env bytes h with ⟨(c | _) | w, t⟩ <;>
          rw [hd] at hgoes hlocked hlast
        · exact dispatch_notPending (t := t) hm hrun he hd hlocked (.inl hlast)
        · exact absurd hgoes (by simp [Machine.of, Except.isOk, Except.toBool])
        · refine dispatch_notPending (t := t) hm hrun he hd hlocked ?_
          have hnext : nextLastcmd (bytes.getD 0 0) (.ok w) = ctapGetAssertionCmd := hlast
          dsimp only [nextLastcmd] at hnext
          split_ifs at hnext with hc
          · exact .inr ⟨hc, w, rfl⟩
          · exact .inl hnext
      · have hstep : m.step env (.request bytes h) =
            { m with auth := { m.auth with trace := [] } } := if_neg hrun
        rw [hstep]
        exact ⟨hm.persisted, fun hgoes => absurd hgoes hrun⟩

/-- A device that was never initialised starts with nothing pending. -/
theorem LockInv.powerUp (ha : a.stored.isInitialized ≠ initializedMarker) :
    LockInv (Machine.powerUp env a) := by
  rw [Machine.powerUp, reboot_of_not_initialized env ha]
  exact
    { persisted := ⟨rfl, rfl, rfl⟩
      notPending := fun _ _ hlast =>
        absurd (show (0 : UInt8) = ctapGetAssertionCmd from hlast) (by decide) }

end Step

/-- In every run from the first power-up in which no getAssertion comes while
the device is locked with a list pending, a locked device serves nothing that
the PIN protects, and keeps its PIN unless it is reset. -/
theorem locked_refuses (a : Authenticator) (ha : a.stored.isInitialized ≠ initializedMarker)
    (es : List Event)
    (hes : Transition.Along (Machine.step env) NoLateAssertion (Machine.powerUp env a) es) :
    Transition.Along (Machine.step env) (RefusesWhenLocked env) (Machine.powerUp env a) es := by
  have hinv : LockInv (Machine.powerUp env a) := .powerUp ha
  generalize Machine.powerUp env a = m at *
  induction es generalizing m with
  | nil => trivial
  | cons e es ih => exact ⟨hinv.refuses e, ih _ hes.2 (hinv.step hes.1)⟩

/-- An assertion over two credentials, a PIN, and three wrong guesses at it. -/
def demoLocked : List Event :=
  Sample.twoCredentials ++
    [Sample.request ctapGetAssertionCmd (Sample.assertOps 6 Sample.twoIds),
      Sample.request ctapClientPinCmd (Sample.setPinOps demoPin)] ++
    List.replicate 3 (Sample.request ctapClientPinCmd (Sample.getPinTokenOps [1]))

/-- No getAssertion comes any more. -/
def demoRefused : List Event :=
  demoLocked ++ [Sample.request getNextAssertionCmd [],
    Sample.request ctapClientPinCmd (Sample.getPinTokenOps demoPin), .reboot]

/-- The getAssertion that is refused opens the pending list again. -/
def demoLate : List Event :=
  demoLocked ++ [Sample.request ctapGetAssertionCmd (Sample.assertOps 6 Sample.twoIds),
    Sample.request getNextAssertionCmd []]

set_option maxRecDepth 100000 in
theorem locked_refuses_demo :
    Transition.Along (Machine.step Sample.env) (RefusesWhenLocked Sample.env)
      (Machine.powerUp Sample.env Sample.device) demoRefused :=
  locked_refuses Sample.env Sample.device (by decide) demoRefused (by decide +kernel)

set_option maxRecDepth 100000 in
theorem locked_refuses_counterexample :
    ¬ Transition.Along (Machine.step Sample.env) (RefusesWhenLocked Sample.env)
      (Machine.powerUp Sample.env Sample.device) demoLate := by
  intro hes
  rw [demoLate, Transition.along_append] at hes
  obtain ⟨-, -, hlast, -⟩ := hes
  have hserved : ∀ m, m = Machine.step Sample.env (Transition.run (Machine.step Sample.env)
      (Machine.powerUp Sample.env Sample.device) demoLocked)
        (Sample.request ctapGetAssertionCmd (Sample.assertOps 6 Sample.twoIds)) →
      m.running = true ∧ Locked m.auth ∧
        (m.reply Sample.env (Sample.request getNextAssertionCmd [])).map (·.status) = some 0 := by
    intro m hm
    rw [hm]
    decide +kernel
  obtain ⟨hrun, hlocked, hreply⟩ := hserved _ rfl
  obtain ⟨r, hr, hstatus⟩ := Option.map_eq_some_iff.mp hreply
  exact (hlast hrun hlocked).1 (by decide) r hr hstatus

end NitrokeyFido2.Ctap
