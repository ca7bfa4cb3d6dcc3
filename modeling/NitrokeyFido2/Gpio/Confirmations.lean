import NitrokeyFido2.Ctap.Run
import NitrokeyFido2.Gpio.Presses

/-!
Which confirmations a press of the button can give.

A request for an extended press is confirmed by a fresh press that was held for
five seconds, once, and a reset of the device waits for one. A touch that has
confirmed a request should not become such a press; it does if it was there when
the request came, because only a touch that was waited for is marked as used.
-/

namespace NitrokeyFido2.Gpio

open Proc

section Run

variable {b t u : Board} {calls : List Call}

theorem enough_apply {α : Type} (f : ℕ → Driver α) (b : Board) :
    enough f b = f (b.readings.length + 1) b := rfl

theorem tracks_run {readings : List Reading}
    (hclock : readings.Pairwise fun r r' => r.now ≤ r'.now)
    (h : run calls (Board.powerUp readings) = (.ok (), b)) : Tracks b :=
  Keeps.apply (R := fun b t => Tracks b → Tracks t) inferInstance h (.powerUp hclock)

theorem SeenReleased.trans_left (h : SeenReleased u t) (hb : StaysSpent b u) : SeenReleased b t := by
  obtain ⟨new, hu, -⟩ := hb
  obtain ⟨new', ht, hmem⟩ := h
  exact ⟨new' ++ new, by rw [ht, hu, List.append_assoc], List.mem_append_left _ hmem⟩

theorem SeenReleased.trans_right (h : SeenReleased b u) (ht : StaysSpent u t) : SeenReleased b t := by
  obtain ⟨new, hu, hmem⟩ := h
  obtain ⟨new', ht, -⟩ := ht
  exact ⟨new' ++ new, by rw [ht, hu, List.append_assoc], List.mem_append_right _ hmem⟩

/-- Behind a press that is used up, an extended request is confirmed by
another press. -/
theorem run_seenReleased (hb : Spent b) (hrun : run calls b = (.ok (), u))
    (h : userFeedbackExtendedWipe u = (.ok 0, t)) : SeenReleased b t := by
  have hkeeps : Keeps StaysSpent (run calls) := inferInstance
  have hlast : Keeps StaysSpent userFeedbackExtendedWipe := by
    unfold userFeedbackExtendedWipe
    infer_instance
  have hafter : StaysSpent u t := hlast.apply h
  by_cases hu : Spent u
  · rw [userFeedbackExtendedWipe, enough_apply] at h
    exact (extended_seenReleased hu h).trans_left (hkeeps.apply hrun)
  · exact ((hkeeps.apply hrun).seenReleased hb hu).trans_right hafter

end Run

/-! ### The presence test of a reset -/

section PresenceTest

variable {rounds : ℕ} {upDelay : UInt32} {b t : Board}

theorem handlePackets_ok {ret : ℤ} (h : handlePackets rounds b = (.ok ret, t)) :
    ret = -1 ∨ ret = 0 := by
  unfold handlePackets at h
  obtain ⟨r, c, -, hrest⟩ := bind_ok.mp h
  obtain ⟨_, d, -, hret⟩ := bind_ok.mp hrest
  rw [← (pure_ok.mp hret).1]
  split
  · exact .inl rfl
  · exact .inr rfl

/-- The presence loop succeeds right behind a confirmation. -/
theorem presenceTest_heldFor (hb : Tracks b)
    (h : ctapUserPresenceTestFeedback rounds upDelay .pressedRegisteredExt b = (.ok 1, t)) :
    HeldFor buttonMinPressTMsExt.toNat t.history := by
  unfold ctapUserPresenceTestFeedback at h
  obtain ⟨timer, c, htimer, hloop⟩ := bind_ok.mp h
  have hkeeps : Preserves Tracks (timerWaitFor upDelay) := inferInstance
  obtain ⟨u, hu, hround⟩ := untilSome_ok (R := fun b t => Tracks b → Tracks t) hloop
  have htracks : Tracks u := hu (hkeeps.apply htimer hb)
  unfold presenceRound at hround
  obtain ⟨active, v, hactive, hrest⟩ := bind_ok.mp hround
  have hkeeps : Preserves Tracks (timerIsActive timer) := inferInstance
  have hv : Tracks v := hkeeps.apply hactive htracks
  split at hrest
  case isFalse => cases (pure_ok.mp hrest).1
  case isTrue =>
    obtain ⟨ret, w, hfeedback, hrest⟩ := bind_ok.mp hrest
    split at hrest
    case isTrue hzero =>
      obtain ⟨-, rfl⟩ := pure_ok.mp hrest
      exact extended_heldFor hv (hzero ▸ hfeedback)
    case isFalse =>
      -- packets end the loop with another result
      obtain ⟨ret', x, hpackets, hrest⟩ := bind_ok.mp hrest
      split at hrest
      case isTrue =>
        have hone : ret' = 1 := Option.some.inj (pure_ok.mp hrest).1
        rcases handlePackets_ok hpackets with h | h <;> rw [hone] at h <;> cases h
      case isFalse =>
        obtain ⟨_, y, -, hrest⟩ := bind_ok.mp hrest
        obtain ⟨_, z, -, hret⟩ := bind_ok.mp hrest
        cases (pure_ok.mp hret).1

end PresenceTest

/-- The command comes to `ctap_reset`. -/
def ReachesReset (env : Ctap.Env) (a : Ctap.Authenticator) (bytes : List UInt8) (h : Ctap.Answers) :
    Prop :=
  ∃ t : Ctap.Authenticator, a.dispatch env bytes h = (.ok none, t.wasReset env)

section Reset

variable {env : Ctap.Env} {a : Ctap.Authenticator} {bytes : List UInt8} {h : Ctap.Answers}

/-- A reset wants the first ten seconds and a presence test that succeeds. -/
theorem reset_wants (hcmd : bytes.getD 0 0 = Ctap.ctapResetCmd) (hnfc : a.nfcActive = false)
    (hup : a.upDisabled = false) (hreset : ReachesReset env a bytes h) :
    h.early = true ∧ h.presence.code = 1 := by
  obtain ⟨t, hreset⟩ := hreset
  rw [Ctap.dispatch_reset env hcmd] at hreset
  obtain ⟨status, u, htest, hrest⟩ := bind_ok.mp hreset
  obtain ⟨_, v, hretr, -⟩ := bind_ok.mp hrest
  rw [Ctap.checkRetr, Ctap.failIf, stopIf_ok, not_not] at hretr
  obtain ⟨rfl, -⟩ := hretr
  have hpresence : ({ a with trace := [] } : Ctap.Authenticator).presence h = h.presence.code := by
    simp [Ctap.Authenticator.presence, hnfc, hup]
  unfold Ctap.ctap2UserPresenceTest Ctap.CtapM.answered at htest
  simp only [Resumption.Routine.answered_bind, Ctap.answered_isInFirst10Seconds, pure_bind,
    Resumption.Routine.answered_ite] at htest
  have hearly : Ctap.earlyAnswer h.answer = h.early := rfl
  rw [hearly] at htest
  split at htest
  case isFalse => cases (pure_ok.mp htest).1
  case isTrue htrue =>
    refine ⟨htrue, ?_⟩
    have hstatus := htest.symm.trans (Ctap.answered_testWithStatus 10000 true h { a with trace := [] })
    rw [hpresence] at hstatus
    have hzero : (0 : UInt8) = Ctap.presenceStatus h.presence.code :=
      Except.ok.inj (Prod.mk.inj hstatus).1
    revert hzero
    cases h.presence <;> decide

end Reset

/-- A confirmation of an extended request comes from a fresh press of five
seconds, and a press gives one; neither the grace after power-up nor that after a
touch does. A reset of the device over USB is behind such a press, and in the
first ten seconds. -/
theorem extended_needs_press {readings : List Reading} {calls : List Call} {b : Board}
    (hclock : readings.Pairwise fun r r' => r.now ≤ r'.now)
    (hrun : run calls (Board.powerUp readings) = (.ok (), b)) :
    (∀ t, userFeedbackExtendedWipe b = (.ok 0, t) →
      HeldFor buttonMinPressTMsExt.toNat t.history ∧
        ∃ u : Board, u.buttonState = .pressedRegisteredExt ∧
          t = u.setConsumed .pressedRegisteredExt) ∧
    (∀ t mid u v, userFeedbackExtendedWipe b = (.ok 0, t) → run mid t = (.ok (), u) →
      userFeedbackExtendedWipe u = (.ok 0, v) → SeenReleased t v) ∧
    (∀ t, b.buttonState = .pressedConsumedActive → userFeedbackExtendedWipe b = (.ok 0, t) →
      SeenReleased b t) ∧
    ∀ (env : Ctap.Env) (a : Ctap.Authenticator) (bytes : List UInt8) (h : Ctap.Answers) (t : Board),
      bytes.getD 0 0 = Ctap.ctapResetCmd → a.nfcActive = false → a.upDisabled = false →
        h.early = b.first10Seconds →
          (h.early = true → ctapUserPresenceTestReset 10000 b = (.ok h.presence.code, t)) →
            ReachesReset env a bytes h →
              b.first10Seconds = true ∧ HeldFor buttonMinPressTMsExt.toNat t.history := by
  have hb : Tracks b := tracks_run hclock hrun
  refine ⟨fun t ht => ?_, fun t mid u v ht hmid hv => ?_, fun t hactive ht => ?_, ?_⟩
  · rw [userFeedbackExtendedWipe, enough_apply] at ht
    obtain ⟨u, -, hstate, hu⟩ := extended_zero (R := fun _ _ => True) ht
    exact ⟨extended_heldFor hb ht, u, hstate, hu⟩
  · rw [userFeedbackExtendedWipe, enough_apply] at ht
    obtain ⟨w, -, -, rfl⟩ := extended_zero (R := fun _ _ => True) ht
    exact run_seenReleased (.inr rfl) hmid hv
  · rw [userFeedbackExtendedWipe, enough_apply] at ht
    exact extended_seenReleased (.inl hactive) ht
  · intro env a bytes h t hcmd hnfc hup hearly htest hreset
    obtain ⟨htrue, hcode⟩ := reset_wants hcmd hnfc hup hreset
    have ht := htest htrue
    rw [hcode, ctapUserPresenceTestReset, enough_apply] at ht
    exact ⟨hearly ▸ htrue, presenceTest_heldFor hb ht⟩

/-- A reading without a packet. -/
def seen (now : UInt32) (pressed : Bool) : Reading := ⟨now, pressed, [], false⟩

/-- A call of the button manager in the first ten seconds. -/
def look (now : UInt32) (pressed : Bool) : List Reading := List.replicate 3 (seen now pressed)

/-- The button is seen released, and pressed from 3000 to 8000 ms. -/
def demoPress : List Reading :=
  [seen 10 false, seen 10 false] ++ look 600 false ++ look 700 false ++ look 3000 true ++
    look 4000 true ++ [seen 4100 true] ++ look 6000 true ++ look 8000 true ++
    [seen 8100 true, seen 8100 true]

theorem of_ok_unit {m : Driver Unit} {b : Board} (h : (m b).1.isOk = true) :
    m b = (.ok (), (m b).2) := by
  rcases hm : m b with ⟨e | u, t⟩
  · rw [hm] at h
    cases h
  · rfl

theorem of_zero {m : Driver ℤ} {b : Board} (h : (m b).1.toOption = some 0) :
    m b = (.ok 0, (m b).2) := by
  rcases hm : m b with ⟨e | n, t⟩ <;> rw [hm] at h
  · cases h
  · rw [Option.some.inj (show some n = some 0 from h)]

/-- The board behind seven looks at the button. -/
def demoExtended : Board := (run (List.replicate 7 .buttonManager) (Board.powerUp demoPress)).2

theorem extended_needs_press_demo :
    HeldFor buttonMinPressTMsExt.toNat (userFeedbackExtendedWipe demoExtended).2.history := by
  have hclock : demoPress.Pairwise fun r r' => r.now ≤ r'.now := by decide +kernel
  have hlooks : (run (List.replicate 7 .buttonManager) (Board.powerUp demoPress)).1.isOk = true := by
    decide +kernel
  have hext : (userFeedbackExtendedWipe demoExtended).1.toOption = some 0 := by decide +kernel
  exact ((extended_needs_press hclock (of_ok_unit hlooks)).1 _ (of_zero hext)).1

/-! ### A touch is used up -/

/-- Whenever a short request was confirmed by a press, the button is seen
released before an extended request is confirmed. -/
def TouchesUsedUp (readings : List Reading) (calls : List Call) : Prop :=
  ∀ pre mid post b t u v, calls = pre ++ .userFeedback :: mid ++ .userFeedbackExtendedWipe :: post →
    run pre (Board.powerUp readings) = (.ok (), b) → userFeedback b = (.ok 0, t) →
      t.firstRequestAccepted = b.firstRequestAccepted → run mid t = (.ok (), u) →
        userFeedbackExtendedWipe u = (.ok 0, v) → SeenReleased t v

/-- No short request comes while the touch for it is there already, unless it is
accepted for being the first one. -/
def NoTouchBefore (readings : List Reading) (calls : List Call) : Prop :=
  ∀ pre post b, calls = pre ++ .userFeedback :: post →
    run pre (Board.powerUp readings) = (.ok (), b) →
      b.buttonState = .pressedRegistered → b.acceptsFirst = true

/-- A short request that is confirmed by a press leaves it used up, unless the
touch was there before. -/
theorem userFeedback_spent {b t : Board} (h : userFeedback b = (.ok 0, t))
    (hsame : t.firstRequestAccepted = b.firstRequestAccepted)
    (hb : b.buttonState = .pressedRegistered → b.acceptsFirst = true) : Spent t := by
  rw [userFeedback, enough_apply] at h
  rcases u2fGetUserFeedback_zero (R := StaysSpent) h with
    ⟨-, -, hbefore, hafter⟩ | ⟨-, hfirst, hpress, hstate⟩ | ⟨u, -, -, rfl⟩
  · rw [hbefore, hafter] at hsame
    cases hsame
  · rw [Spent, hstate]
    unfold Board.getPress at hpress
    rcases of_decide_eq_true hpress with hregistered | hactive
    · exact absurd (hb hregistered) hfirst
    · exact .inl hactive
  · exact .inl rfl

theorem touches_used_up {readings : List Reading} {calls : List Call}
    (h : NoTouchBefore readings calls) : TouchesUsedUp readings calls := by
  intro pre mid post b t u v hcalls hpre hzero hsame hmid hext
  refine run_seenReleased (userFeedback_spent hzero hsame fun hregistered => ?_) hmid hext
  exact h pre (mid ++ .userFeedbackExtendedWipe :: post) b (by rw [hcalls]; simp) hpre hregistered

/-! ### A touch that is used twice -/

/-- The short request comes when the touch is registered. -/
def demoBefore : List Call := List.replicate 5 .buttonManager

def demoBetween : List Call := [.buttonManager, .buttonManager]

theorem SeenReleased.mem_take {b t : Board} (h : SeenReleased b t) :
    .level false ∈ t.history.take (t.history.length - b.history.length) := by
  obtain ⟨new, ht, hmem⟩ := h
  have hlen : t.history.length - b.history.length = new.length := by
    rw [ht, List.length_append]
    omega
  rw [hlen, ht, List.take_left]
  exact hmem

/-- The board when the short request comes, and behind each of the calls. -/
def demoBoard : Board := (run demoBefore (Board.powerUp demoPress)).2

def demoConfirmed : Board := (userFeedback demoBoard).2

def demoHeld : Board := (run demoBetween demoConfirmed).2

/-- The short request comes while the button is pressed, and waits. -/
def demoWaiting : List Call :=
  List.replicate 4 .buttonManager ++ [.userFeedback, .userFeedbackExtendedWipe]

theorem demoWaiting_noTouchBefore : NoTouchBefore demoPress demoWaiting := by
  intro pre post b hcalls hrun hregistered
  have hget : demoWaiting[pre.length]? = some .userFeedback := by
    rw [hcalls, List.getElem?_append_right (le_refl _), Nat.sub_self]
    rfl
  have hlen : pre.length < 6 := by
    have := congrArg List.length hcalls
    simp [demoWaiting] at this
    omega
  have hfour : ∀ i < 6, demoWaiting[i]? = some .userFeedback → i = 4 := by decide
  have hpre : pre = List.replicate 4 .buttonManager := by
    have htake : demoWaiting.take pre.length = pre := by rw [hcalls, List.take_left]
    rw [← htake, hfour _ hlen hget]
    rfl
  have hstate : (run (List.replicate 4 .buttonManager) (Board.powerUp demoPress)).2.buttonState =
      .pressedRecently := by decide +kernel
  rw [← hpre, hrun] at hstate
  rw [hstate] at hregistered
  cases hregistered

theorem touches_used_up_waiting : TouchesUsedUp demoPress demoWaiting :=
  touches_used_up demoWaiting_noTouchBefore

/-- The press that has confirmed the short request confirms the extended one. -/
theorem touches_used_up_counterexample :
    (demoPress.Pairwise fun r r' => r.now ≤ r'.now) ∧ (∀ r ∈ demoPress, 0 < r.now) ∧
      ¬ TouchesUsedUp demoPress
        (demoBefore ++ .userFeedback :: demoBetween ++ .userFeedbackExtendedWipe :: []) := by
  refine ⟨by decide +kernel, by decide +kernel, fun hused => ?_⟩
  have hbefore : (run demoBefore (Board.powerUp demoPress)).1.isOk = true := by decide +kernel
  have hshort : (userFeedback demoBoard).1.toOption = some 0 := by decide +kernel
  have hsame : demoConfirmed.firstRequestAccepted = demoBoard.firstRequestAccepted := by decide +kernel
  have hbetween : (run demoBetween demoConfirmed).1.isOk = true := by decide +kernel
  have hext : (userFeedbackExtendedWipe demoHeld).1.toOption = some 0 := by decide +kernel
  have hheld : .level false ∉ (userFeedbackExtendedWipe demoHeld).2.history.take
      ((userFeedbackExtendedWipe demoHeld).2.history.length - demoConfirmed.history.length) := by
    decide +kernel
  exact hheld (hused demoBefore demoBetween [] _ _ _ _ rfl (of_ok_unit hbefore) (of_zero hshort) hsame
    (of_ok_unit hbetween) (of_zero hext)).mem_take

end NitrokeyFido2.Gpio
