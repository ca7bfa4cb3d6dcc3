import NitrokeyFido2.Ctap.Management

/-!
The attempts of a device without a PIN.

Three commands count attempts down, and each finds out in its own way whether
there is a PIN to be guessed; a reset takes the PIN away, but gives only one of
the two counters back.
-/

namespace NitrokeyFido2.Ctap

open Proc Resumption Transition

variable (env : Env)

/-! ### The rule -/

/-- Without a PIN, the device has lost no attempts. -/
def NotLockedOut (a : Authenticator) : Prop :=
  ctapIsPinSet a = false →
    a.state.remainingTries = pinLockoutAttempts ∧ a.pinBootAttemptsLeft = pinBootAttempts

/-- The device is not locked out behind the step, and a makeCredential or a
getAssertion that comes while there is no PIN is not answered as if it were. -/
structure KeepsAttempts (m : Machine) (e : Event) : Prop where
  after : NotLockedOut (m.step env e).auth
  answer : ∀ bytes h, e = .request bytes h →
    bytes.getD 0 0 = ctapMakeCredentialCmd ∨ bytes.getD 0 0 = ctapGetAssertionCmd →
    ctapIsPinSet m.auth = false → ∀ r, m.reply env e = some r →
      r.status ≠ ctap2ErrPinBlocked ∧ r.status ≠ ctap2ErrPinAuthBlocked

/-- The user confirms the reset. -/
def ResetConfirmed (a : Authenticator) (h : Answers) : Prop :=
  (CtapM.answered h (ctap2UserPresenceTest .reset) { a with trace := [] }).1 = .ok 0

instance (a : Authenticator) (h : Answers) : Decidable (ResetConfirmed a h) :=
  inferInstanceAs (Decidable (_ = _))

/-- Credential management without a PIN comes with the right pinAuth, and no
reset is confirmed after an attempt was lost in this power-up. -/
def CostsNoAttempt (m : Machine) : Event → Prop
  | .request bytes h => m.running = true →
      (isManagement bytes → ctapIsPinSet m.auth = false →
        ∀ cm, parsedManagement env m.auth bytes.tail = some cm → cm.NeedsPinAuth →
          cm.Verified env m.auth) ∧
      (bytes.getD 0 0 = ctapResetCmd → ResetConfirmed m.auth h →
        m.auth.pinBootAttemptsLeft = pinBootAttempts)
  | .reboot => True

theorem all_verified_iff (a : Authenticator) (request : List UInt8) :
    ((parsedManagement env a request).all fun cm => decide (cm.NeedsPinAuth → cm.Verified env a)) = true ↔
      ∀ cm, parsedManagement env a request = some cm → cm.NeedsPinAuth → cm.Verified env a := by
  simp only [Option.all_eq_true, decide_eq_true_eq]

instance (m : Machine) : (e : Event) → Decidable (CostsNoAttempt env m e)
  | .reboot => isTrue trivial
  | .request bytes h =>
      have := decidable_of_iff _ (all_verified_iff env m.auth bytes.tail)
      inferInstanceAs (Decidable (m.running = true →
        (isManagement bytes → ctapIsPinSet m.auth = false → _) ∧
          (bytes.getD 0 0 = ctapResetCmd → ResetConfirmed m.auth h →
            m.auth.pinBootAttemptsLeft = pinBootAttempts)))

/-! ### Relations between the states before and after -/

/-- A PIN that is set stays set. -/
def StaysSet (a t : Authenticator) : Prop := ctapIsPinSet a = true → ctapIsPinSet t = true

instance : IsPreorder Authenticator StaysSet where
  refl _ h := h
  trans _ _ _ h₁ h₂ h := h₂ (h₁ h)

/-- Attempts are only lost while a PIN is set. -/
def SparesAttempts (a t : Authenticator) : Prop :=
  ctapIsPinSet t = true ∨ (ctapIsPinSet t = ctapIsPinSet a ∧
    t.state.remainingTries = a.state.remainingTries ∧ t.pinBootAttemptsLeft = a.pinBootAttemptsLeft)

instance : IsPreorder Authenticator SparesAttempts where
  refl _ := .inr ⟨rfl, rfl, rfl⟩
  trans a b c h₁ h₂ := by
    rcases h₂ with hset | ⟨hpin, htries, hboots⟩
    · exact .inl hset
    · refine h₁.imp (fun hset => hpin.trans hset) ?_
      rintro ⟨hpin', htries', hboots'⟩
      exact ⟨hpin.trans hpin', htries.trans htries', hboots.trans hboots'⟩

section Relations

variable {env} {a t : Authenticator} {may : List Aspect}

theorem SparesAttempts.of_changed (h : Changed may a t) (hpin : Aspect.pin ∉ may)
    (hattempts : Aspect.attempts ∉ may) : SparesAttempts a t := by
  have h₁ := (Prod.mk.inj (h .pin hpin)).1
  have h₂ := Prod.mk.inj (h .attempts hattempts)
  exact .inr ⟨by rw [ctapIsPinSet, h₁, ctapIsPinSet], h₂.1, h₂.2⟩

theorem StaysSet.of_changed (h : Changed may a t) (hpin : Aspect.pin ∉ may) : StaysSet a t := by
  intro hset
  rw [ctapIsPinSet, (Prod.mk.inj (h .pin hpin)).1]
  exact hset

theorem SparesAttempts.notLockedOut (h : SparesAttempts a t) (ha : NotLockedOut a) :
    NotLockedOut t := by
  intro hnone
  rcases h with hset | ⟨hpin, htries, hboots⟩
  · rw [hnone] at hset
    exact nomatch hset
  · rw [htries, hboots]
    exact ha (hpin.symm.trans hnone)

/-! ### clientPIN -/

theorem staysSet_modify {f : Authenticator → Authenticator}
    (h : ∀ a, (f a).state.isPinSet = a.state.isPinSet) :
    Keeps StaysSet (Proc.modify f : Device Unit) := by
  refine Keeps.modify fun a hset => ?_
  rw [ctapIsPinSet, h]
  exact hset

instance (t : Trace) : Keeps StaysSet (note t) := staysSet_modify fun _ => rfl

instance : Keeps StaysSet ctapFlushState := ⟨fun _ hset => hset⟩

instance : Keeps StaysSet ctapResetPinAttempts := ⟨fun _ hset => hset⟩

instance : Keeps StaysSet (ctapResetKeyAgreement env) := ⟨fun _ hset => hset⟩

instance : Keeps StaysSet ctapDecrementPinAttempts := by
  have hlock : Keeps StaysSet lockDevicePermanently := ⟨fun _ hset => hset⟩
  have hlose : Keeps StaysSet (modifyState fun s => { s with remainingTries := s.remainingTries - 1 }) :=
    staysSet_modify fun _ => rfl
  unfold ctapDecrementPinAttempts
  refine Keeps.seq (staysSet_modify fun a => ?_) fun _ => inferInstance
  split <;> rfl

instance : Keeps StaysSet (wrongPin env) := by
  unfold wrongPin
  infer_instance

instance (pinHash : List UInt8) : Keeps StaysSet (comparePinHash env pinHash) := by
  unfold comparePinHash
  infer_instance

/-- What is refused without a PIN spares the attempts. -/
theorem sparesAttempts_of_refused {α : Type} {m : Device α} (hm : Keeps StaysSet m)
    (h : ∀ s, ctapIsPinSet s = false → (m s).2 = s) : Keeps SparesAttempts m := by
  refine ⟨fun s => ?_⟩
  rcases hset : ctapIsPinSet s with _ | _
  · rw [h s hset]
    exact refl_of SparesAttempts s
  · exact .inl (hm.state s hset)

instance (sharedSecret : List UInt8) (pinHashEnc : Option (Buf 16)) :
    Keeps SparesAttempts (verifyCurrentPin env sharedSecret pinHashEnc) := by
  have hkeeps : Keeps StaysSet (verifyCurrentPin env sharedSecret pinHashEnc) := by
    unfold verifyCurrentPin
    infer_instance
  refine sparesAttempts_of_refused hkeeps fun s hnone => ?_
  rw [verifyCurrentPin, get_bind, if_neg (by rw [hnone]; decide)]
  rfl

instance (pin : List UInt8) (len : ℕ) : Keeps SparesAttempts (ctapUpdatePin env pin len) := by
  unfold ctapUpdatePin
  refine Keeps.seq inferInstance fun _ => ⟨fun s => .inl rfl⟩

instance (pinEnc : Buf newPinEncMaxSize) (len : ℕ) (platformPubkey : List UInt8) (pinAuth : Buf 16)
    (pinHashEnc : Option (Buf 16)) : Keeps SparesAttempts
      (ctapUpdatePinIfVerified env pinEnc len platformPubkey pinAuth pinHashEnc) := by
  unfold ctapUpdatePinIfVerified
  dsimp only
  repeat first | infer_instance | refine Keeps.seq inferInstance fun _ => ?_

instance (platformPubkey : List UInt8) (pinHashEnc : Buf 16) :
    Keeps StaysSet (ctapAddPinIfVerified env platformPubkey pinHashEnc) := by
  unfold ctapAddPinIfVerified
  repeat first | infer_instance | refine Keeps.seq inferInstance fun _ => ?_

instance (w : Writer) (cp : ClientPin) (numMap : ℕ) :
    Keeps SparesAttempts (clientPinGetPinToken env w cp numMap) := by
  have hkeeps : Keeps StaysSet (clientPinGetPinToken env w cp numMap) := by
    unfold clientPinGetPinToken
    repeat first | infer_instance | refine Keeps.seq inferInstance fun _ => ?_
  refine sparesAttempts_of_refused hkeeps fun s hnone => ?_
  rw [clientPinGetPinToken, get_bind, failIf_pos hnone]
  rfl

instance (w : Writer) (numMap : ℕ) : Keeps SparesAttempts (clientPinGetKeyAgreement env w numMap) :=
  Keeps.mono (fun _ _ h => .of_changed h List.not_mem_nil List.not_mem_nil)
    (inferInstance : Keeps (Changed []) _)

variable (env) in
theorem ctapClientPin_spares (w : Writer) (request : List UInt8) :
    Keeps SparesAttempts (ctapClientPin env w request) := by
  unfold ctapClientPin
  obtain ⟨r, cp⟩ := (ctapParseClientPin env request).run default
  dsimp only
  have hset : Keeps SparesAttempts (clientPinSetPin env cp) := by
    unfold clientPinSetPin
    infer_instance
  have hchange : Keeps SparesAttempts (clientPinChangePin env cp) := by
    unfold clientPinChangePin
    infer_instance
  have hsub : Keeps SparesAttempts (clientPinSubCommand env w cp) := by
    unfold clientPinSubCommand
    dsimp only
    infer_instance
  infer_instance

/-! ### Credential management -/

variable (env) in
theorem credMgmtCarriedOut_spares (w : Writer) (cm : CredMgmt) :
    Keeps (Changed [.rks, .rkStored, .cursors]) (credMgmtCarriedOut env w cm) := by
  unfold credMgmtCarriedOut
  refine Keeps.seq inferInstance fun counts => ?_
  obtain ⟨rpCount, rkCount⟩ := counts
  dsimp only
  infer_instance

/-- The part behind the parser and the check of the pinAuth. -/
theorem credMgmtBehind_spares (w : Writer) (cm : CredMgmt) :
    Keeps (Changed [.rks, .rkStored, .cursors]) (Proc.get >>= fun a : Authenticator =>
      if a.state.rkStored = 0 ∧ cm.cmd ≠ cmCmdMetadata then pure w else credMgmtCarriedOut env w cm) := by
  have hcarried := credMgmtCarriedOut_spares env w cm
  infer_instance

theorem ctapCredMgmt_staysSet (w : Writer) (request : List UInt8) :
    Keeps StaysSet (ctapCredMgmt env w request) := by
  have hparse : Keeps StaysSet (parsedWithCustom (ctapParseCredMgmt env request) default) :=
    Keeps.mono (R := Changed [.custom]) (fun _ _ h => .of_changed h (by decide)) inferInstance
  have hpin (cm : CredMgmt) : Keeps StaysSet (ctapCredMgmtPinauth env cm) := by
    unfold ctapCredMgmtPinauth
    infer_instance
  unfold ctapCredMgmt
  refine Keeps.seq hparse fun cm => Keeps.seq (hpin cm) fun _ => ?_
  exact Keeps.mono (fun _ _ h => .of_changed h (by decide)) (credMgmtBehind_spares w cm)

/-- A wrong pinAuth costs an attempt, PIN or not. -/
theorem ctapDecrementPinAttempts_boots (hboots : 0 < a.pinBootAttemptsLeft) :
    (ctapDecrementPinAttempts a).2.pinBootAttemptsLeft = a.pinBootAttemptsLeft - 1 ∧
      ctapIsPinSet (ctapDecrementPinAttempts a).2 = ctapIsPinSet a := by
  unfold ctapDecrementPinAttempts
  rw [bind_of_ok rfl, get_bind]
  simp only [if_pos hboots]
  split
  · exact ⟨rfl, rfl⟩
  · rw [bind_of_ok rfl, bind_of_ok rfl, get_bind]
    split <;> exact ⟨rfl, rfl⟩

/-- Without a PIN, credential management keeps the attempts if and only if the
pinAuth is right. -/
theorem ctapCredMgmt_notLockedOut_iff (hnone : ctapIsPinSet a = false) (ha : NotLockedOut a)
    (w : Writer) (request : List UInt8) :
    NotLockedOut (ctapCredMgmt env w request a).2 ↔
      ∀ cm, parsedManagement env a request = some cm → cm.NeedsPinAuth → cm.Verified env a := by
  obtain ⟨custom, hafter⟩ := @afterParser_eq env a request
  have hbefore : NotLockedOut (a.afterParser env request) := by
    rw [hafter]
    exact ha
  rcases hparsed : parsedManagement env a request with _ | cm
  · obtain ⟨e, he⟩ := ctapCredMgmt_of_none (w := w) hparsed
    rw [he]
    exact iff_of_true hbefore fun _ h => nomatch h
  have hbehind (u : Authenticator) (hu : NotLockedOut u) : NotLockedOut
      ((Proc.get >>= fun a : Authenticator => if a.state.rkStored = 0 ∧ cm.cmd ≠ cmCmdMetadata
        then pure w else credMgmtCarriedOut env w cm) u).2 :=
    (SparesAttempts.of_changed ((credMgmtBehind_spares w cm).state u) (by decide)
      (by decide)).notLockedOut hu
  rw [ctapCredMgmt_of_some hparsed]
  by_cases hneeds : cm.NeedsPinAuth
  · have hpin := @ctapCredMgmtPinauth_of_needed env (a.afterParser env request) _ hneeds
    by_cases hv : cm.Verified env a
    · rw [if_pos (CredMgmt.verified_afterParser.mpr hv)] at hpin
      rw [bind_of_ok hpin]
      refine iff_of_true (hbehind _ fun _ => ⟨rfl, rfl⟩) fun cm' hcm' _ => ?_
      rwa [← Option.some.inj hcm']
    · rw [if_neg fun h => hv (CredMgmt.verified_afterParser.mp h)] at hpin
      rw [bind_of_error hpin]
      refine iff_of_false (fun h => ?_) fun h => hv (h cm rfl hneeds)
      have hfull : (a.afterParser env request).pinBootAttemptsLeft = pinBootAttempts := by
        rw [hafter]
        exact (ha hnone).2
      obtain ⟨hboots, hset⟩ := ctapDecrementPinAttempts_boots (a := a.afterParser env request)
        (by rw [hfull]; decide)
      have hlost := (h (hset.trans (by rw [hafter]; exact hnone))).2
      rw [hboots, hfull] at hlost
      exact absurd hlost (by decide)
  · rw [bind_of_ok (ctapCredMgmtPinauth_of_not_needed hneeds)]
    refine iff_of_true (hbehind _ hbefore) fun cm' hcm' hneeds' => ?_
    rw [← Option.some.inj hcm'] at hneeds'
    exact absurd hneeds' hneeds

end Relations

/-! ### Requests -/

section Requests

variable {env} {a t : Authenticator} {bytes : List UInt8} {h : Answers}

/-- What a makeCredential may change. -/
abbrev creationMayChange : List Aspect :=
  [.rks, .rkStored, .custom, .flags, .events .presence, .events .verified, .events .created,
    .events .flags, .events .derived, .events .otherKey]

/-- No other request costs an attempt while there is no PIN. -/
theorem dispatch_spares (hreset : bytes.getD 0 0 ≠ ctapResetCmd) (hmanage : ¬ isManagement bytes) :
    SparesAttempts { a with trace := [] } (a.dispatch env bytes h).2 := by
  rcases command_cases (bytes.getD 0 0) with hc | hc | hc | hc | hc | hc | hc | hc
  · rw [dispatch_makeCredential env hc]
    have hm := (inferInstance : Routine.Keeps (Changed creationMayChange)
      (ctapMakeCredential env (Writer.init ctapResponseBufferSize) bytes.tail)).answered h.answer
    have hsome := @changed_of_keeps a creationMayChange _ (failIfLocked >>= fun _ =>
      CtapM.answered h (ctapMakeCredential env (Writer.init ctapResponseBufferSize) bytes.tail)
        >>= fun w => pure (some w)) inferInstance
    exact .of_changed hsome (by decide) (by decide)
  · exact .of_changed (dispatch_assertion_changed env (.inl hc)) (by decide) (by decide)
  · exact absurd hc hmanage
  · rw [dispatch_getInfo env hc]
    have hm := (inferInstance : Keeps SparesAttempts (Proc.get >>= fun a =>
      encode (Writer.init ctapResponseBufferSize) (ctapGetInfo env a) >>= fun w => pure (some w)))
    exact hm.state _
  · rw [dispatch_clientPin env hc]
    have hm := ctapClientPin_spares env (Writer.init ctapResponseBufferSize) bytes.tail
    have hsome : Keeps SparesAttempts (ctapClientPin env (Writer.init ctapResponseBufferSize)
      bytes.tail >>= fun w => pure (some w)) := inferInstance
    exact hsome.state _
  · exact absurd hc hreset
  · exact .of_changed (dispatch_assertion_changed env (.inr hc)) (by decide) (by decide)
  · rw [dispatch_other env hc]
    exact refl_of SparesAttempts _

/-- Credential management never takes the PIN away. -/
theorem dispatch_management_staysSet (hmanage : isManagement bytes) :
    StaysSet { a with trace := [] } (a.dispatch env bytes h).2 := by
  have hm : Keeps StaysSet (failIfLocked >>= fun _ =>
      ctapCredMgmt env (Writer.init ctapResponseBufferSize) bytes.tail >>= fun w =>
        pure (some w)) := by
    have hmgmt := @ctapCredMgmt_staysSet env (Writer.init ctapResponseBufferSize) bytes.tail
    infer_instance
  rw [dispatch_credMgmt env hmanage]
  exact hm.state _

/-- The part of the condition that is about credential management. -/
def RightPinAuth (env : Env) (a : Authenticator) (bytes : List UInt8) : Prop :=
  ctapIsPinSet a = false → ∀ cm, parsedManagement env a bytes.tail = some cm → cm.NeedsPinAuth →
    cm.Verified env a

theorem dispatch_management_iff (ha : NotLockedOut a) (hmanage : isManagement bytes) :
    NotLockedOut (a.dispatch env bytes h).2 ↔ RightPinAuth env a bytes := by
  rcases hset : ctapIsPinSet a with _ | _
  · obtain ⟨htries, hboots⟩ := ha hset
    have hopen : ¬ Locked a := by
      rw [Locked, htries, hboots]
      decide
    have hiff := @ctapCredMgmt_notLockedOut_iff env { a with trace := [] } hset ha
      (Writer.init ctapResponseBufferSize) bytes.tail
    have hparsed : parsedManagement env { a with trace := [] } bytes.tail =
        parsedManagement env a bytes.tail := parsedManagement_congr (by rfl) _
    rw [hparsed] at hiff
    rcases hr : ctapCredMgmt env (Writer.init ctapResponseBufferSize) bytes.tail
      { a with trace := [] } with ⟨r, t⟩
    rw [dispatch_management hmanage hopen hr]
    rw [hr] at hiff
    exact hiff.trans ⟨fun hv _ => hv, fun hv => hv hset⟩
  · -- the PIN is still there behind the request
    have hset' := @dispatch_management_staysSet env a _ h hmanage hset
    refine iff_of_true (fun hnone => ?_) fun hnone => ?_
    · rw [hset'] at hnone
      exact nomatch hnone
    · rw [hset] at hnone
      exact nomatch hnone

theorem dispatch_reset_iff (hcmd : bytes.getD 0 0 = ctapResetCmd) (ha : NotLockedOut a) :
    NotLockedOut (a.dispatch env bytes h).2 ↔
      (ResetConfirmed a h → a.pinBootAttemptsLeft = pinBootAttempts) := by
  obtain ⟨status, t, ht, hrun⟩ := answered_ctap2UserPresenceTest .reset h { a with trace := [] }
  have hchanged : Changed [.events .presence] { a with trace := [] } t := ht.changed
  have hconfirmed : ResetConfirmed a h ↔ status = 0 := by
    rw [ResetConfirmed, hrun]
    exact ⟨Except.ok.inj, congrArg _⟩
  rw [dispatch_reset env hcmd, bind_of_ok hrun, hconfirmed]
  by_cases hs : status = 0
  · rw [hs, checkRetr, failIf_neg (fun h => h rfl), pure_bind]
    have hboots : t.pinBootAttemptsLeft = a.pinBootAttemptsLeft :=
      (Prod.mk.inj (hchanged .attempts (by decide))).2
    rw [← hboots]
    exact ⟨fun hkept _ => (hkept rfl).2, fun hfull _ => ⟨rfl, hfull rfl⟩⟩
  · rw [checkRetr, failIf_pos hs]
    refine iff_of_true ?_ fun h => absurd h hs
    exact (SparesAttempts.of_changed hchanged (by decide) (by decide)).notLockedOut ha

/-- What one request leaves. -/
theorem request_notLockedOut_iff (ha : NotLockedOut a) :
    NotLockedOut (a.request env bytes h).2 ↔
      (isManagement bytes → RightPinAuth env a bytes) ∧
        (bytes.getD 0 0 = ctapResetCmd → ResetConfirmed a h →
          a.pinBootAttemptsLeft = pinBootAttempts) := by
  have hsame : NotLockedOut (a.request env bytes h).2 ↔ NotLockedOut (a.dispatch env bytes h).2 := by
    rw [Authenticator.request_eq]
    rcases a.dispatch env bytes h with ⟨(_ | _) | _, t⟩ <;> exact Iff.rfl
  rw [hsame]
  by_cases hmanage : isManagement bytes
  · have hreset : bytes.getD 0 0 ≠ ctapResetCmd := by
      rcases hmanage with hc | hc <;> rw [hc] <;> decide
    rw [dispatch_management_iff ha hmanage]
    exact ⟨fun hv => ⟨fun _ => hv, fun hc => absurd hc hreset⟩, fun hv => hv.1 hmanage⟩
  by_cases hreset : bytes.getD 0 0 = ctapResetCmd
  · rw [dispatch_reset_iff hreset ha]
    exact ⟨fun hv => ⟨fun hc => absurd hc hmanage, fun _ => hv⟩, fun hv => hv.2 hreset⟩
  · exact iff_of_true ((dispatch_spares hreset hmanage).notLockedOut ha)
      ⟨fun hc => absurd hc hmanage, fun hc => absurd hc hreset⟩

/-! ### Answers -/

instance : Foreign ctap2ErrPinBlocked := ⟨by decide +kernel⟩

instance : Foreign ctap2ErrPinAuthBlocked := ⟨by decide +kernel⟩

/-- The parser stops with neither code. -/
def Env.InitNeverBlocked (env : Env) : Prop :=
  env.InitNeverSays ctap2ErrPinBlocked ∧ env.InitNeverSays ctap2ErrPinAuthBlocked

/-- Behind the gate, neither a makeCredential nor a getAssertion stops with a
code of its own that is foreign to it. -/
theorem request_status_ne {code : UInt8} [Foreign code] [Fact (ctap2ErrKeyStoreFull ≠ code)]
    (hinit : env.InitNeverSays code) (hzero : code ≠ 0)
    (hcmd : bytes.getD 0 0 = ctapMakeCredentialCmd ∨ bytes.getD 0 0 = ctapGetAssertionCmd)
    (hopen : ¬ Locked a) (r : CtapResult) (hr : (a.request env bytes h).1.toOption = some r) :
    r.status ≠ code := by
  have hgate : failIfLocked { a with trace := [] } = (.ok (), { a with trace := [] }) :=
    failIfLocked_of_not_locked hopen
  have hnever : (a.dispatch env bytes h).1 ≠ .error (.status code) := by
    rcases hcmd with hc | hc
    · have hmake := (ctapMakeCredential_never env (.inl (neverSays_ctapParseMakeCredential hinit
        bytes.tail)) (Writer.init ctapResponseBufferSize)).answered h.answer
      have hsome : StepNeverSays code (CtapM.answered h (ctapMakeCredential env
        (Writer.init ctapResponseBufferSize) bytes.tail) >>= fun w => pure (some w)) := inferInstance
      rw [dispatch_makeCredential env hc, bind_of_ok hgate]
      exact hsome.ne _
    · have hget := (inferInstance : RoutineNeverSays code (ctapGetAssertion env
        (Writer.init ctapResponseBufferSize) bytes.tail)).answered h.answer
      have hsome : StepNeverSays code (CtapM.answered h (ctapGetAssertion env
        (Writer.init ctapResponseBufferSize) bytes.tail) >>= fun w => pure (some w)) := inferInstance
      rw [dispatch_getAssertion env hc, bind_of_ok hgate]
      exact hsome.ne _
  rw [Authenticator.request_eq] at hr
  rcases hd : a.dispatch env bytes h with ⟨(c | _) | w, t⟩ <;> rw [hd] at hr hnever
  · obtain rfl := Option.some.inj hr
    exact fun hc => hnever (congrArg (fun c => Except.error (Stop.status c)) hc)
  · exact nomatch hr
  · obtain rfl := Option.some.inj hr
    rcases w with _ | w <;> exact hzero.symm

end Requests

/-! ### Runs -/

section Run

variable {env}

/-- What holds in every state that is reached without losing an attempt. -/
structure AttemptsInv (m : Machine) : Prop where
  persisted : Persisted m.auth
  notLockedOut : NotLockedOut m.auth

theorem AttemptsInv.powerUp {a : Authenticator} (ha : a.stored.isInitialized ≠ initializedMarker) :
    AttemptsInv (Machine.powerUp env a) := by
  rw [Machine.powerUp, reboot_of_not_initialized env ha]
  exact ⟨⟨rfl, rfl, rfl⟩, fun _ => ⟨rfl, rfl⟩⟩

theorem Persisted.step {m : Machine} (hm : Persisted m.auth) (e : Event) :
    Persisted (m.step env e).auth := by
  cases e with
  | reboot =>
      rw [Machine.step, hm.reboot]
      exact ⟨rfl, hm.2⟩
  | request bytes h =>
      by_cases hrun : m.running = true
      · rw [Machine.step_of_running hrun]
        exact hm.request
      · rw [Machine.step, if_neg hrun]
        exact hm

theorem notLockedOut_step_iff {m : Machine} (hm : AttemptsInv m) (e : Event) :
    NotLockedOut (m.step env e).auth ↔ CostsNoAttempt env m e := by
  obtain ⟨hpersisted, hkept⟩ := hm
  cases e with
  | reboot =>
      -- the stored attempts are those in use, and the others start again
      rw [Machine.step, hpersisted.reboot]
      exact iff_of_true (fun hnone => ⟨(hkept hnone).1, rfl⟩) trivial
  | request bytes h =>
      by_cases hrun : m.running = true
      · rw [Machine.step_of_running hrun, request_notLockedOut_iff hkept]
        exact ⟨fun hv _ => hv, fun hv => hv hrun⟩
      · rw [Machine.step, if_neg hrun]
        exact iff_of_true hkept fun h => absurd h hrun

theorem keepsAttempts_iff (hinit : env.InitNeverBlocked) {m : Machine} (hm : AttemptsInv m)
    (e : Event) : KeepsAttempts env m e ↔ CostsNoAttempt env m e := by
  rw [← notLockedOut_step_iff hm e]
  refine ⟨KeepsAttempts.after, fun hafter => ⟨hafter, ?_⟩⟩
  rintro bytes h rfl hcmd hnone r hr
  obtain ⟨htries, hboots⟩ := hm.notLockedOut hnone
  have hopen : ¬ Locked m.auth := by
    rw [Locked, htries, hboots]
    decide
  have hrun : m.running = true := by
    by_contra hrun
    rw [Machine.reply, if_neg hrun] at hr
    exact nomatch hr
  rw [Machine.reply_of_running hrun] at hr
  have : Fact (ctap2ErrKeyStoreFull ≠ ctap2ErrPinBlocked) := ⟨by decide⟩
  have : Fact (ctap2ErrKeyStoreFull ≠ ctap2ErrPinAuthBlocked) := ⟨by decide⟩
  exact ⟨request_status_ne hinit.1 (by decide) hcmd hopen r hr,
    request_status_ne hinit.2 (by decide) hcmd hopen r hr⟩

theorem AttemptsInv.step {m : Machine} (hm : AttemptsInv m) {e : Event}
    (he : CostsNoAttempt env m e) : AttemptsInv (m.step env e) :=
  ⟨hm.persisted.step e, (notLockedOut_step_iff hm e).mpr he⟩

end Run

/-- In every run from the first power-up, a device without a PIN keeps its
attempts if and only if no credential management without a PIN comes with a
wrong pinAuth, and no reset is confirmed after an attempt was lost. -/
theorem attempts_kept_iff (hinit : env.InitNeverBlocked) (a : Authenticator)
    (ha : a.stored.isInitialized ≠ initializedMarker) (es : List Event) :
    NotLockedOut (Machine.powerUp env a).auth ∧
      (Along (Machine.step env) (KeepsAttempts env) (Machine.powerUp env a) es ↔
        Along (Machine.step env) (CostsNoAttempt env) (Machine.powerUp env a) es) := by
  have hinv : AttemptsInv (Machine.powerUp env a) := .powerUp ha
  refine ⟨hinv.notLockedOut, ?_, ?_⟩
  · exact .of_invariant (fun m e hm he => hm.step ((keepsAttempts_iff hinit hm e).mp he))
      (fun m e hm he => (keepsAttempts_iff hinit hm e).mp he) hinv
  · exact .of_invariant (fun m e hm he => hm.step he)
      (fun m e hm he => (keepsAttempts_iff hinit hm e).mpr he) hinv

theorem initNeverBlocked_sample : Sample.env.InitNeverBlocked := by
  have herr (request : List UInt8) (e : CborError)
      (he : Sample.env.reader.parserInit request = .error e) : e = 1 := by
    simp only [Sample.env, Sample.reader] at he
    split at he
    · exact (Except.error.inj he).symm
    · cases he
  constructor <;> intro request e he <;> rw [herr request e he] <;> decide

/-- A PIN, a wrong guess at it, a power cycle and a reset. -/
def demoGuessThenReset : List Event :=
  [Sample.request ctapClientPinCmd (Sample.setPinOps demoPin),
    Sample.request ctapClientPinCmd (Sample.getPinTokenOps [1]), .reboot,
    Sample.request ctapResetCmd []]

theorem attempts_kept_iff_demo :
    Along (Machine.step Sample.env) (KeepsAttempts Sample.env)
      (Machine.powerUp Sample.env Sample.device) demoGuessThenReset :=
  (attempts_kept_iff Sample.env initNeverBlocked_sample Sample.device (by decide)
    demoGuessThenReset).2.mpr (by decide +kernel)

/-- Three requests for metadata with a pinAuth that nobody made. -/
def demoWrongPinAuths : List Event :=
  List.replicate 3 (Sample.request ctapCborCredMgmtPreCmd
    [.createMap 2, .int 1, .int cmCmdMetadata, .int 4, .byteString (List.replicate 16 0)])

set_option maxRecDepth 100000 in
theorem attempts_kept_counterexample :
    ¬ Along (Machine.step Sample.env) (KeepsAttempts Sample.env)
      (Machine.powerUp Sample.env Sample.device)
      (demoWrongPinAuths ++ [Sample.request ctapMakeCredentialCmd (Sample.createOps [1])]) := by
  intro hes
  obtain ⟨-, hlast, -⟩ := (along_append ..).mp hes
  have hreached : ∀ m, m = Transition.run (Machine.step Sample.env)
      (Machine.powerUp Sample.env Sample.device) demoWrongPinAuths →
      ctapIsPinSet m.auth = false ∧
        (m.reply Sample.env (Sample.request ctapMakeCredentialCmd (Sample.createOps [1]))).map
          (·.status) = some ctap2ErrPinAuthBlocked := by
    intro m hm
    rw [hm]
    decide +kernel
  obtain ⟨hnone, hreply⟩ := hreached _ rfl
  obtain ⟨r, hr, hstatus⟩ := Option.map_eq_some_iff.mp hreply
  exact (hlast.answer _ _ rfl (.inl rfl) hnone r hr).2 hstatus

end NitrokeyFido2.Ctap
