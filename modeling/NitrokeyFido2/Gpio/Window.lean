import NitrokeyFido2.Gpio.Frames

/-!
The window of a presence test.

A timer keeps the clock value at which it ends, and both that value and the clock
are 32 bits wide. They are compared by plain order, which is right as long as the
clock and the end have passed the same number of multiples of 2^32.
-/

namespace NitrokeyFido2.Gpio

open Proc

/-- What the next reading of the clock gives. -/
def Board.Shows (b : Board) (now : UInt32) : Prop := b.readings.head?.map (·.now) = some now

/-- A timer of `d` ms that was made when the clock showed `s` is right when `e`
ms have elapsed: it is active within the window and not behind it, and so the
presence loop polls in one more round or times out. -/
structure WindowRight (s d : UInt32) (e : ℕ) : Prop where
  timer : ∀ (b c t : Board) timer, b.Shows s → timerWaitFor d b = (.ok timer, t) →
    c.Shows (s + .ofNat e) → ((timerIsActive timer c).1 = .ok true ↔ e < d.toNat)
  loop : ∀ (b c t : Board) timer rounds target, b.Shows s → timerWaitFor d b = (.ok timer, t) →
    c.Shows (s + .ofNat e) →
      ((presenceRound rounds target timer c).1 = .ok (some 0) ↔ d.toNat ≤ e)

/-- The clock has wrapped as often as the end of the window, or more often and
shows a value that is not before the end. -/
def InStep (s d : UInt32) (e : ℕ) : Prop :=
  (s.toNat + d.toNat) / 2 ^ 32 = (s.toNat + e) / 2 ^ 32 ∨
    (s.toNat + d.toNat) / 2 ^ 32 < (s.toNat + e) / 2 ^ 32 ∧
      (s.toNat + d.toNat) % 2 ^ 32 ≤ (s.toNat + e) % 2 ^ 32

section Window

variable {s d now : UInt32} {e rounds : ℕ} {target : ButtonState} {timer : NKTimer} {b c t : Board}

theorem timerWaitFor_ok (hb : b.Shows s) (h : timerWaitFor d b = (.ok timer, t)) :
    timer.waitUntilT = s + d := by
  rcases hr : b.readings with _ | ⟨r, rest⟩ <;> rw [Board.Shows, hr] at hb
  · cases hb
  · unfold timerWaitFor at h
    rw [bind_of_ok (getMs_of_cons hr)] at h
    rw [← (pure_ok.mp h).1, ← Option.some.inj hb]

theorem timerIsActive_of_shows (hc : c.Shows now) :
    ∃ u, timerIsActive timer c = (.ok (decide (now < timer.waitUntilT)), u) := by
  rcases hr : c.readings with _ | ⟨r, rest⟩ <;> rw [Board.Shows, hr] at hc
  · cases hc
  · unfold timerIsActive
    rw [bind_of_ok (getMs_of_cons hr), ← Option.some.inj hc]
    exact ⟨_, rfl⟩

/-- A round that polls does not time out. -/
theorem presenceRound_zero_iff (hc : c.Shows now) :
    (presenceRound rounds target timer c).1 = .ok (some 0) ↔ ¬ now < timer.waitUntilT := by
  obtain ⟨u, hactive⟩ := @timerIsActive_of_shows _ timer _ hc
  unfold presenceRound
  rw [bind_of_ok hactive]
  by_cases hnow : now < timer.waitUntilT
  · rw [decide_eq_true hnow, if_pos rfl]
    refine iff_of_false (fun hzero => ?_) (not_not.mpr hnow)
    have hround : (_ : Driver (Option ℤ)) u = (.ok (some 0), _) := Prod.ext hzero rfl
    obtain ⟨ret, v, -, hrest⟩ := bind_ok.mp hround
    split at hrest
    case isTrue => cases (pure_ok.mp hrest).1
    case isFalse =>
      obtain ⟨ret', w, -, hrest⟩ := bind_ok.mp hrest
      split at hrest
      case isTrue hne => exact hne (Option.some.inj (pure_ok.mp hrest).1)
      case isFalse =>
        obtain ⟨_, x, -, hrest⟩ := bind_ok.mp hrest
        obtain ⟨_, y, -, hret⟩ := bind_ok.mp hrest
        cases (pure_ok.mp hret).1
  · rw [decide_eq_false hnow, if_neg (by decide)]
    exact iff_of_true rfl hnow

/-- The comparison of the clock and the end, on numbers without a bound. -/
theorem shows_lt_iff (s d : UInt32) (e : ℕ) :
    s + .ofNat e < s + d ↔ (s.toNat + e) % 2 ^ 32 < (s.toNat + d.toNat) % 2 ^ 32 := by
  rw [UInt32.lt_iff_toNat_lt, UInt32.toNat_add, UInt32.toNat_add, UInt32.toNat_ofNat',
    Nat.add_mod_mod]

theorem lt_iff_inStep (s d : UInt32) (e : ℕ) :
    (s + .ofNat e < s + d ↔ e < d.toNat) ↔ InStep s d e := by
  rw [shows_lt_iff, InStep]
  have hs := s.toNat_lt
  have hd := d.toNat_lt
  omega

theorem WindowRight.inStep (h : WindowRight s d e) : InStep s d e := by
  -- a board for each of the two times
  have hshows (now : UInt32) : (Board.powerUp [⟨now, false, [], false⟩]).Shows now := rfl
  have htimer := h.timer _ _ _ ⟨s + d⟩ (hshows s) rfl (hshows (s + .ofNat e))
  obtain ⟨u, hactive⟩ := @timerIsActive_of_shows _ ⟨s + d⟩ _ (hshows (s + .ofNat e))
  rw [hactive] at htimer
  rw [← lt_iff_inStep, ← htimer]
  simp

theorem InStep.windowRight (h : InStep s d e) : WindowRight s d e := by
  rw [← lt_iff_inStep] at h
  refine ⟨fun b c t timer hb hwait hc => ?_, fun b c t timer rounds target hb hwait hc => ?_⟩
  · obtain ⟨u, hactive⟩ := @timerIsActive_of_shows _ timer _ hc
    rw [hactive, timerWaitFor_ok hb hwait, ← h]
    simp
  · rw [presenceRound_zero_iff hc, timerWaitFor_ok hb hwait, h, not_lt]

end Window

theorem window_right_iff (s d : UInt32) (e : ℕ) : WindowRight s d e ↔ InStep s d e :=
  ⟨WindowRight.inStep, InStep.windowRight⟩

/-- A window that reaches over the wrap is over at once. -/
theorem window_right_counterexample : ¬ WindowRight 0xfffffff0 10000 0 := by
  intro h
  have hstep := h.inStep
  unfold InStep at hstep
  revert hstep
  decide

end NitrokeyFido2.Gpio
