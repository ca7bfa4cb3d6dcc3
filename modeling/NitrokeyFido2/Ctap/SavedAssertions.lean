import NitrokeyFido2.Ctap.Chain

/-!
The assertion state over whole runs.

What a getNextAssertion finds was left by the last getAssertion and by the
getNextAssertion requests behind it: `lastcmd` lets no other request come between,
and a power cycle and a reset clear the state.
-/

namespace NitrokeyFido2.Ctap

open Proc Resumption Transition

variable (env : Env)

/-- A getAssertion, answered or refused. -/
def Asserts (m : Machine) : Event → Prop
  | .request bytes h =>
      m.running = true ∧ bytes.getD 0 0 = ctapGetAssertionCmd ∧
        (m.step env (.request bytes h)).running = true
  | .reboot => False

/-- A getNextAssertion that is answered. -/
def GoesOn (m : Machine) : Event → Prop
  | .request bytes h =>
      m.running = true ∧ bytes.getD 0 0 = getNextAssertionCmd ∧
        ∃ w t, m.auth.dispatch env bytes h = (.ok (some w), t)
  | .reboot => False

/-- A getNextAssertion would not be refused for the command before it. -/
def Machine.Open (m : Machine) : Prop :=
  m.running = true ∧ m.auth.gas.lastcmd = ctapGetAssertionCmd

variable {env} {m : Machine} {e : Event} {bytes : List UInt8} {h : Answers}

theorem step_running (hrun : m.running = true) :
    m.step env (.request bytes h) = .of (m.auth.request env bytes h) := if_pos hrun

theorem step_halted (hrun : m.running ≠ true) :
    m.step env (.request bytes h) = { m with auth := { m.auth with trace := [] } } := if_neg hrun

/-- An answered getNextAssertion, as the machine takes it. -/
theorem step_answered {w : Writer} {t : Authenticator} (hrun : m.running = true)
    (hcmd : bytes.getD 0 0 = getNextAssertionCmd)
    (hd : m.auth.dispatch env bytes h = (.ok (some w), t)) :
    m.step env (.request bytes h) = ⟨t.setLastcmd ctapGetAssertionCmd, true⟩ := by
  rw [step_running hrun, Authenticator.request_eq, hd, hcmd]
  rfl

/-- A getAssertion and a getNextAssertion are answered with a response. -/
theorem answered_some {a t : Authenticator} {w : Option Writer}
    (hcmd : bytes.getD 0 0 = ctapGetAssertionCmd ∨ bytes.getD 0 0 = getNextAssertionCmd)
    (hd : a.dispatch env bytes h = (.ok w, t)) : ∃ w', w = some w' := by
  rcases hcmd with hcmd | hcmd
  · rw [dispatch_getAssertion env hcmd] at hd
    obtain ⟨_, _, -, hrest⟩ := bind_ok.mp hd
    obtain ⟨w', _, -, hret⟩ := bind_ok.mp hrest
    exact ⟨w', (pure_ok.mp hret).1.symm⟩
  · rw [dispatch_getNextAssertion env hcmd] at hd
    obtain ⟨_, _, -, hrest⟩ := bind_ok.mp hd
    obtain ⟨w', _, -, hret⟩ := bind_ok.mp hrest
    exact ⟨w', (pure_ok.mp hret).1.symm⟩

theorem open_step (hopen : (m.step env e).Open) :
    Asserts env m e ∨ (m.Open ∧ GoesOn env m e) := by
  obtain ⟨hrunning, hlast⟩ := hopen
  cases e with
  | reboot =>
      have hzero : (m.step env .reboot).auth.gas = GetAssertionState.zero :=
        (reboot_leaves env m.auth).1
      rw [hzero] at hlast
      exact absurd hlast (by decide)
  | request bytes h =>
      by_cases hrun : m.running = true
      · by_cases hget : bytes.getD 0 0 = ctapGetAssertionCmd
        · exact .inl ⟨hrun, hget, hrunning⟩
        rw [step_running hrun, Authenticator.request_eq] at hlast hrunning
        rcases hd : m.auth.dispatch env bytes h with ⟨(c | _) | w, t⟩ <;> rw [hd] at hlast hrunning
        · exact absurd hlast hget
        · exact absurd hrunning Bool.false_ne_true
        · by_cases hnext : bytes.getD 0 0 = getNextAssertionCmd
          · obtain ⟨w', rfl⟩ := answered_some (.inr hnext) hd
            exact .inr ⟨⟨hrun, (dispatch_getNextAssertion_ok hnext hd).1⟩, hrun, hnext, w', t, hd⟩
          · have hcmd : nextLastcmd (bytes.getD 0 0) (.ok w) = bytes.getD 0 0 := if_neg hnext
            exact absurd (hcmd.symm.trans hlast) hget
      · rw [step_halted hrun] at hrunning
        exact absurd hrunning hrun

/-- Where a getNextAssertion may be answered, there was a getAssertion before, and
nothing but answered getNextAssertion requests came behind it. -/
theorem opened {a : Authenticator} {es : List Event}
    (hopen : (run (Machine.step env) (Machine.powerUp env a) es).Open) :
    Since (Machine.step env) (Asserts env) (GoesOn env) (Machine.powerUp env a) es := by
  refine @since_run _ _ _ Machine.Open _ _ (fun _ _ => open_step) _ _ ?_ hopen
  rintro ⟨-, hlast⟩
  have hzero : (Machine.powerUp env a).auth.gas = GetAssertionState.zero := (reboot_leaves env a).1
  rw [hzero] at hlast
  exact absurd hlast (by decide)

/-! ### What is saved -/

/-- What a getAssertion that is refused may change: all but what is saved for the
getNextAssertion requests. -/
abbrev refusedMayChange : List Aspect :=
  [.creds, .custom, .flags, .userVerified, .events .presence, .events .verified,
    .events .listed, .events .flags, .events .derived, .events .otherKey, .events .bootloader]

variable (env) in
theorem ctapGetAssertion_refused (w : Writer) (request : List UInt8) (h : Answers) (a : Authenticator) :
    Ends (CtapM.answered h (ctapGetAssertion env w request)) a
      fun r t => ∀ e, r = .error e → Changed refusedMayChange a t := by
  have hsave (hash : Buf clientDataHashSize) (count : ℕ) (ext : Extensions) (s : Authenticator) :
      Ends (saveCredentialList hash count ext) s
        fun r t => ∀ e, r = .error e → Changed refusedMayChange s t := by
    unfold saveCredentialList
    by_cases hmany : count > allowListMaxSize - 1
    · rw [failIf_pos hmany, fail_bind]
      exact fun _ _ => refl_of (Changed refusedMayChange) s
    · rw [failIf_neg hmany, pure_bind]
      rintro _ ⟨⟩
  unfold ctapGetAssertion
  refine Routine.ends_error_seq inferInstance fun p s₁ => ?_
  obtain ⟨n, ga⟩ := p
  refine Routine.ends_error_seq inferInstance fun b s₂ => ?_
  refine Routine.ends_error_seq inferInstance fun w s₃ => ?_
  refine Routine.ends_error_seq inferInstance fun _ s₄ => ?_
  refine Routine.ends_error_seq inferInstance fun size s₅ => ?_
  refine Routine.ends_error_seq inferInstance fun c s₆ => ?_
  refine Routine.ends_error_seq inferInstance fun w s₇ => ?_
  refine Routine.ends_error_seq inferInstance fun w s₈ => ?_
  refine Routine.ends_seq (Routine.ends_liftM (hsave _ _ _ _)) ?_ fun e t ht e' _ => ht e rfl
  rintro _ _ - _ ⟨⟩

theorem dispatch_getAssertion_refused {a t : Authenticator} {r : Stop}
    (hcmd : bytes.getD 0 0 = ctapGetAssertionCmd) (hrun : a.dispatch env bytes h = (.error r, t)) :
    Changed refusedMayChange { a with trace := [] } t := by
  rw [dispatch_getAssertion env hcmd] at hrun
  have hlocked : Keeps (Changed refusedMayChange) (failIfLocked : Device Unit) := inferInstance
  have hends : Ends (failIfLocked >>= fun _ => CtapM.answered h (ctapGetAssertion env freshWriter
      bytes.tail) >>= fun w => pure (some w)) { a with trace := [] }
      fun r t => ∀ e, r = .error e → Changed refusedMayChange { a with trace := [] } t := by
    refine Ends.seq (Ends.keeps hlocked) (fun _ s hs => ?_) fun e s hs _ _ => hs
    refine Ends.seq (ctapGetAssertion_refused env freshWriter bytes.tail h s)
      (fun w u _ e he => nomatch he) fun e u hu e' _ => ?_
    exact trans_of (Changed refusedMayChange) hs (hu e rfl)
  exact hends.elim hrun r rfl

/-- What is saved, but for the index. -/
def SavedKept (a t : Authenticator) : Prop :=
  (t.gas.clientDataHash, t.gas.extensions, t.gas.count) =
    (a.gas.clientDataHash, a.gas.extensions, a.gas.count)

instance : IsPreorder Authenticator SavedKept where
  refl _ := rfl
  trans _ _ _ h₁ h₂ := Eq.trans h₂ h₁

theorem SavedKept.of_changed {may : List Aspect} {a t : Authenticator} (h : Changed may a t)
    (hsaved : Aspect.saved ∉ may) : SavedKept a t := by
  have hall : (t.gas.clientDataHash, t.gas.extensions, t.gas.count, t.gas.index) =
      (a.gas.clientDataHash, a.gas.extensions, a.gas.count, a.gas.index) := h .saved hsaved
  simp only [Prod.mk.injEq] at hall
  obtain ⟨hhash, hext, hcount, -⟩ := hall
  rw [SavedKept, hhash, hext, hcount]

instance (priority := low) {α : Type} (m : Device α) [hm : Keeps (Changed refusedMayChange) m] :
    Keeps SavedKept m := hm.mono fun _ _ h => .of_changed h (by decide)

instance : Keeps SavedKept popCredential := by
  have hindex : Keeps SavedKept (modifyGas fun g => { g with index := g.index + 1 }) := ⟨fun _ => rfl⟩
  unfold popCredential
  infer_instance

/-- A getNextAssertion, however it ends, takes an entry at most. -/
theorem ctapGetNextAssertion_saved (w : Writer) :
    Keeps SavedKept (CtapM.answered h (ctapGetNextAssertion env w)) := by
  have hbegin : Keeps SavedKept (beginNextAssertion env w) := by
    unfold beginNextAssertion
    refine Keeps.seq inferInstance fun popped => ?_
    rcases popped with _ | i <;> infer_instance
  have hextend (ext : Extensions) : Keeps SavedKept (extendNextAssertion env ext) := by
    unfold extendNextAssertion
    infer_instance
  rw [answered_ctapGetNextAssertion]
  refine Keeps.seq hbegin fun ⟨i, ext, w⟩ => Keeps.seq (hextend ext) fun size =>
    Keeps.seq inferInstance fun a => ?_
  have hend := (inferInstance : Routine.Keeps (Changed refusedMayChange) (ctapEndGetAssertion env w
    (a.gas.creds.getD i default) size a.gas.clientDataHash)).answered h.answer
  exact Keeps.seq inferInstance fun _ => inferInstance

theorem dispatch_getNextAssertion_saved (a : Authenticator)
    (hcmd : bytes.getD 0 0 = getNextAssertionCmd) : SavedKept a (a.dispatch env bytes h).2 := by
  have hnext : Keeps SavedKept (CtapM.answered h (ctapGetNextAssertion env freshWriter)) :=
    ctapGetNextAssertion_saved freshWriter
  have hall : Keeps SavedKept (failIf (a.gas.lastcmd ≠ ctapGetAssertionCmd) ctap2ErrNotAllowed >>=
    fun _ => CtapM.answered h (ctapGetNextAssertion env freshWriter) >>= fun w =>
      pure (some w)) := inferInstance
  rw [dispatch_getNextAssertion env hcmd]
  exact hall.state { a with trace := [] }

end NitrokeyFido2.Ctap
