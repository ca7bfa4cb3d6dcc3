import NitrokeyFido2.Gpio.Frames

/-!
What a confirmation says about the button.

The history of what was read tells how long the button is held: since the last
level that was not a press. The state machine is right about it as long as the
clock does not go back, and a confirmation of the extended kind rests on its
state alone. A press that has been marked as used stays so until the button is
seen released.
-/

namespace NitrokeyFido2.Gpio

open Proc

/-! ### Presses in the history -/

/-- The last level that the state machine has seen. -/
def lastLevel : List Event → Option Bool
  | [] => none
  | .level p :: _ => some p
  | _ :: history => lastLevel history

/-- The levels between are all pressed, and the one before is released. -/
structure Press (during before : List Event) : Prop where
  held : ∀ p, Event.level p ∈ during → p = true
  fresh : lastLevel before = some false

/-- The button was pressed after the clock showed this time, and at every look
since. -/
def PressedSince (t₀ : UInt32) (history : List Event) : Prop :=
  ∃ during before, history = during ++ .level true :: .clock t₀ :: before ∧ Press during before

/-- A fresh press has lasted that long, by the clock. -/
def HeldFor (ms : ℕ) (history : List Event) : Prop :=
  ∃ t₀ during before, history = during ++ .level true :: .clock t₀ :: before ∧
    Press during before ∧ ∃ t, .clock t ∈ during ∧ t₀.toNat + ms ≤ t.toNat

theorem clock_ne (now : UInt32) : Event.clock now ≠ .level false := fun h => by cases h

theorem pressed_ne : Event.level true ≠ .level false := by decide

section History

variable {e : Event} {t₀ : UInt32} {ms : ℕ} {history : List Event}

theorem lastLevel_cons (he : ∀ p, e ≠ .level p) : lastLevel (e :: history) = lastLevel history := by
  cases e with
  | level p => exact absurd rfl (he p)
  | clock now => rfl
  | polled p => rfl
  | packet c => rfl

theorem Press.cons {during before : List Event} (h : Press during before) (he : e ≠ .level false) :
    Press (e :: during) before := by
  refine ⟨fun p hp => ?_, h.fresh⟩
  rcases List.mem_cons.mp hp with rfl | hp
  · exact Bool.eq_true_of_not_eq_false fun hf => he (by rw [hf])
  · exact h.held p hp

theorem PressedSince.cons (h : PressedSince t₀ history) (he : e ≠ .level false) :
    PressedSince t₀ (e :: history) := by
  obtain ⟨during, before, rfl, hpress⟩ := h
  exact ⟨e :: during, before, rfl, hpress.cons he⟩

theorem HeldFor.cons (h : HeldFor ms history) (he : e ≠ .level false) : HeldFor ms (e :: history) := by
  obtain ⟨t₀, during, before, rfl, hpress, t, ht, hlong⟩ := h
  exact ⟨t₀, e :: during, before, rfl, hpress.cons he, t, List.mem_cons_of_mem e ht, hlong⟩

theorem PressedSince.mem (h : PressedSince t₀ history) : .clock t₀ ∈ history := by
  obtain ⟨during, before, rfl, -⟩ := h
  simp

/-- A press gets older with the clock. -/
theorem PressedSince.heldFor {t : UInt32} (h : PressedSince t₀ history) (hlong : t₀.toNat + ms ≤ t.toNat) :
    HeldFor ms (.clock t :: history) := by
  obtain ⟨during, before, rfl, hpress⟩ := h
  exact ⟨t₀, .clock t :: during, before, rfl, hpress.cons (clock_ne t), t, List.mem_cons_self, hlong⟩

end History

/-! ### The state machine is right about the press -/

/-- The clock does not go back. -/
structure InTime (readings : List Reading) (history : List Event) : Prop where
  sorted : readings.Pairwise fun r r' => r.now ≤ r'.now
  past : ∀ t, .clock t ∈ history → ∀ r ∈ readings, t ≤ r.now

theorem InTime.read {r : Reading} {rest : List Reading} {history : List Event}
    (h : InTime (r :: rest) history) {e : Event} (he : ∀ t, e = .clock t → t = r.now) :
    InTime rest (e :: history) := by
  obtain ⟨hfirst, hrest⟩ := List.pairwise_cons.mp h.sorted
  refine ⟨hrest, fun t ht r' hr' => ?_⟩
  rcases List.mem_cons.mp ht with hclock | ht
  · rw [he t hclock.symm]
    exact hfirst r' hr'
  · exact h.past t ht r' (List.mem_cons_of_mem r hr')

/-- The state of the button fits the history. -/
structure Tracks (b : Board) : Prop where
  inTime : InTime b.readings b.history
  unpressed : b.buttonState = .unpressed → lastLevel b.history = some false
  pressed : b.buttonState = .pressedRecently ∨ b.buttonState = .pressedRegistered ∨
    b.buttonState = .pressedRegisteredTransitional → PressedSince b.buttonPressT b.history
  extended : b.buttonState = .pressedRegisteredExt →
    HeldFor buttonMinPressTMsExt.toNat b.history

section Tracks

variable {b u t : Board}

theorem Tracks.powerUp {readings : List Reading}
    (h : readings.Pairwise fun r r' => r.now ≤ r'.now) : Tracks (Board.powerUp readings) where
  inTime := ⟨h, fun _ ht => absurd ht List.not_mem_nil⟩
  unpressed h := by cases h
  pressed h := by rcases h with h | h | h <;> cases h
  extended h := by cases h

/-- A state that says nothing about a press fits every history. -/
theorem Tracks.of_silent (htime : InTime t.readings t.history)
    (hstate : t.buttonState.num < 3 ∨ 8 ≤ t.buttonState.num) : Tracks t := by
  refine ⟨htime, fun h => ?_, fun h => ?_, fun h => ?_⟩
  · rw [h] at hstate
    exact absurd hstate (by decide)
  · rcases h with h | h | h <;> rw [h] at hstate <;> exact absurd hstate (by decide)
  · rw [h] at hstate
    exact absurd hstate (by decide)

/-- One reading more, which is not a look at the button. -/
theorem Tracks.read {event : Reading → Event} (hevent : Plain event) {r : Reading}
    {rest : List Reading} (hb : Tracks b) (h : b.readings = r :: rest) :
    Tracks { b with readings := rest, history := event r :: b.history } := by
  have hne : event r ≠ .level false := hevent.not_level r false
  have htime := hb.inTime
  rw [h] at htime
  exact ⟨htime.read (hevent.clock r),
    fun hs => (lastLevel_cons (hevent.not_level r)).trans (hb.unpressed hs),
    fun hs => (hb.pressed hs).cons hne, fun hs => (hb.extended hs).cons hne⟩

theorem ReadsClock.history {P : List Event → Prop} (h : ReadsClock u t) (hu : P u.history)
    (hcons : ∀ now, P u.history → P (.clock now :: u.history)) : P t.history := by
  rcases h with ⟨-, hh⟩ | ⟨r, -, hh⟩ <;> rw [hh]
  · exact hu
  · exact hcons r.now hu

theorem ReadsClock.inTime (h : ReadsClock u t) (hu : InTime u.readings u.history) :
    InTime t.readings t.history := by
  rcases h with ⟨hr, hh⟩ | ⟨r, hr, hh⟩
  · rwa [hr, hh]
  · rw [hh]
    rw [hr] at hu
    exact hu.read fun t ht => (Event.clock.inj ht).symm

/-- What a pressed button does keeps the state right. -/
theorem Tracks.moves {r r' : Reading} {rest : List Reading} (hb : Tracks b)
    (h : b.readings = r :: r' :: rest) (hmoves : Moves r.now b t)
    (hclock : ReadsClock
      { b with readings := rest, history := .level true :: .clock r.now :: b.history } t) :
    Tracks t := by
  have hread := hb.inTime
  rw [h] at hread
  have htime : InTime t.readings t.history :=
    hclock.inTime ((hread.read fun t ht => (Event.clock.inj ht).symm).read fun t ht => by cases ht)
  -- a press that goes on, and one that is long, reach to the end of the history
  have hsince {t₀ : UInt32} (hp : PressedSince t₀ b.history) : PressedSince t₀ t.history :=
    hclock.history (P := PressedSince t₀) ((hp.cons (clock_ne r.now)).cons pressed_ne)
      fun now hu => hu.cons (clock_ne now)
  have hheld (hp : HeldFor buttonMinPressTMsExt.toNat (.clock r.now :: b.history)) :
      HeldFor buttonMinPressTMsExt.toNat t.history :=
    hclock.history (P := HeldFor _) (hp.cons pressed_ne) fun now hu => hu.cons (clock_ne now)
  cases hmoves with
  | start hs ht hpress =>
      have hnew : PressedSince r.now t.history :=
        hclock.history (P := PressedSince r.now)
          ⟨[], b.history, rfl, ⟨fun p hp => absurd hp List.not_mem_nil, hb.unpressed hs⟩⟩
          fun now hu => hu.cons (clock_ne now)
      refine ⟨htime, fun h => ?_, fun _ => hpress ▸ hnew, fun h => ?_⟩ <;> rw [ht] at h <;> cases h
  | grow hs ht hpress =>
      have hp : PressedSince b.buttonPressT b.history := by
        rcases hs with hs | hs
        · exact hb.pressed (.inl hs)
        · exact hb.pressed (.inr (.inl hs))
      refine ⟨htime, fun h => ?_, fun _ => hpress ▸ hsince hp, fun h => ?_⟩ <;>
        rcases ht with ht | ht <;> rw [ht] at h <;> cases h
  | extend hs ht hpress hlong =>
      have hp : PressedSince b.buttonPressT b.history := hb.pressed (.inr (.inr hs))
      have hle : b.buttonPressT ≤ r.now := hb.inTime.past _ hp.mem r (h ▸ List.mem_cons_self)
      have hms : b.buttonPressT.toNat + buttonMinPressTMsExt.toNat ≤ r.now.toNat := by
        have hsub := UInt32.toNat_sub_of_le _ _ hle
        have := UInt32.le_iff_toNat_le.mp hlong
        have := UInt32.le_iff_toNat_le.mp hle
        omega
      refine ⟨htime, fun h => ?_, fun h => ?_, fun _ => hheld (hp.heldFor hms)⟩
      · rw [ht] at h
        cases h
      · rcases h with h | h | h <;> rw [ht] at h <;> cases h
  | invalidate _ ht => exact .of_silent htime (.inr (by rw [ht]; decide))
  | expire _ ht => exact .of_silent htime (.inr (by rw [ht]; decide))
  | stay hs ht hpress =>
      refine ⟨htime, fun h => absurd (ht ▸ h) hs, fun h => ?_, fun h => ?_⟩
      · rw [hpress]
        exact hsince (hb.pressed (ht ▸ h))
      · exact hheld ((hb.extended (ht ▸ h)).cons (clock_ne r.now))

instance : Watched fun b t => Tracks b → Tracks t where
  refl _ h := h
  trans _ _ _ h₁ h₂ h := h₂ (h₁ h)
  poll event hevent := by
    refine ⟨fun b hb => ?_⟩
    rcases h : b.readings with _ | ⟨r, rest⟩
    · rwa [poll_of_nil h]
    · rw [poll_of_cons h]
      exact hb.read hevent h
  track := by
    refine ⟨fun b hb => ?_⟩
    cases trackButton_looks b with
    | waits ht => rwa [ht]
    | waitsAfter r h ht =>
        rw [ht]
        exact hb.read plain_clock h
    | released r r' rest h ht =>
        have hread := hb.inTime
        rw [h] at hread
        rw [ht]
        have htime : InTime rest (.level false :: .clock r.now :: b.history) :=
          (hread.read fun t ht => (Event.clock.inj ht).symm).read fun t ht => by cases ht
        refine ⟨htime, fun _ => rfl, fun h => ?_, fun h => ?_⟩
        · rcases h with h | h | h <;> cases h
        · cases h
    | pressed r r' rest h hmoves hclock => exact hb.moves h hmoves hclock
  update b c hs hT hr hh hb := by
    refine ⟨?_, ?_, ?_, ?_⟩
    · rw [hr, hh]
      exact hb.inTime
    · rw [hs, hh]
      exact hb.unpressed
    · rw [hs, hT, hh]
      exact hb.pressed
    · rw [hs, hh]
      exact hb.extended
  consumed b target hb := by
    refine .of_silent hb.inTime (.inr ?_)
    unfold Board.setConsumed Board.set
    dsimp only
    split <;> decide
  settle b s _ hs hb := by
    refine .of_silent hb.inTime (.inl ?_)
    rcases hs with rfl | rfl
    · show 1 < 3
      decide
    · show 2 < 3
      decide

end Tracks

/-! ### Presses that are used up -/

/-- The press was marked as used. -/
def Spent (b : Board) : Prop :=
  b.buttonState = .pressedConsumedActive ∨ b.buttonState = .pressedConsumed

/-- The state machine has seen the button released between the boards. -/
def SeenReleased (b t : Board) : Prop := ∃ new, t.history = new ++ b.history ∧ .level false ∈ new

/-- A press that is used up stays so until the button is seen released. -/
def StaysSpent (b t : Board) : Prop :=
  ∃ new, t.history = new ++ b.history ∧ (.level false ∉ new → Spent b → Spent t)

section StaysSpent

variable {b t : Board}

theorem StaysSpent.of_state {new : List Event} (hh : t.history = new ++ b.history)
    (hs : t.buttonState = b.buttonState) : StaysSpent b t := by
  refine ⟨new, hh, fun _ hb => ?_⟩
  rwa [Spent, hs]

theorem Moves.spent {current : UInt32} (h : Moves current b t) (hb : Spent b) : Spent t := by
  have hnot {s : ButtonState} (hs : b.buttonState = s) (hne : s ≠ .pressedConsumedActive)
      (hne' : s ≠ .pressedConsumed) : Spent t := by
    rcases hb with hb | hb
    · exact absurd (hs.symm.trans hb) hne
    · exact absurd (hs.symm.trans hb) hne'
  cases h with
  | start hs _ _ => exact hnot hs (by decide) (by decide)
  | grow hs _ _ =>
      rcases hs with hs | hs
      · exact hnot hs (by decide) (by decide)
      · exact hnot hs (by decide) (by decide)
  | extend hs _ _ _ => exact hnot hs (by decide) (by decide)
  | invalidate hs _ => exact hnot hs (by decide) (by decide)
  | expire _ ht => exact .inr ht
  | stay _ ht _ => rwa [Spent, ht]

instance : Watched StaysSpent where
  refl b := .of_state (List.nil_append _).symm rfl
  trans b c d := by
    rintro ⟨new, hc, hspent⟩ ⟨new', hd, hspent'⟩
    refine ⟨new' ++ new, by rw [hd, hc, List.append_assoc], fun hnew hb => ?_⟩
    rw [List.mem_append, not_or] at hnew
    exact hspent' hnew.1 (hspent hnew.2 hb)
  poll event hevent := by
    refine ⟨fun b => ?_⟩
    rcases h : b.readings with _ | ⟨r, rest⟩
    · rw [poll_of_nil h]
      exact .of_state (List.nil_append _).symm rfl
    · rw [poll_of_cons h]
      exact @StaysSpent.of_state _ _ [event r] rfl rfl
  track := by
    refine ⟨fun b => ?_⟩
    cases trackButton_looks b with
    | waits ht =>
        rw [ht]
        exact .of_state (List.nil_append _).symm rfl
    | waitsAfter r _ ht =>
        rw [ht]
        exact @StaysSpent.of_state _ _ [.clock r.now] rfl rfl
    | released r r' rest _ ht =>
        rw [ht]
        exact ⟨[.level false, .clock r.now], rfl, fun hnew => absurd List.mem_cons_self hnew⟩
    | pressed r r' rest _ hmoves hclock =>
        rcases hclock with ⟨-, hh⟩ | ⟨r'', -, hh⟩
        · exact ⟨[.level true, .clock r.now], hh, fun _ hb => hmoves.spent hb⟩
        · exact ⟨[.clock r''.now, .level true, .clock r.now], hh, fun _ hb => hmoves.spent hb⟩
  update b c hs _ _ hh := .of_state (hh.trans (List.nil_append _).symm) hs
  consumed b target := by
    refine ⟨[], rfl, fun _ _ => ?_⟩
    unfold Spent Board.setConsumed Board.set
    dsimp only
    split
    · exact .inl rfl
    · exact .inr rfl
  settle b s hb _ := by
    refine ⟨[], rfl, fun _ hspent => absurd ?_ hb⟩
    unfold Started
    rcases hspent with h | h <;> rw [h] <;> decide

theorem StaysSpent.seenReleased (h : StaysSpent b t) (hb : Spent b) (ht : ¬ Spent t) :
    SeenReleased b t := by
  obtain ⟨new, hh, hspent⟩ := h
  exact ⟨new, hh, Classical.byContradiction fun hnew => ht (hspent hnew hb)⟩

end StaysSpent

/-! ### What a confirmation comes from -/

/-- A request is accepted because the device was just plugged in. -/
def Board.acceptsFirst (b : Board) : Bool :=
  !b.firstRequestAccepted && b.readings.head?.any fun r => r.now < selfAcceptMaxTMs

section Zero

variable {rounds : ℕ} {target : ButtonState} {b t : Board}

theorem acceptFirst_ok {first : Bool} (h : acceptFirst target b = (.ok first, t)) :
    t.buttonState = b.buttonState ∧ t.firstRequestAccepted = b.firstRequestAccepted ∧
      (first = true ↔ target = .pressedRegistered ∧ b.acceptsFirst = true) := by
  unfold acceptFirst at h
  rw [Proc.get_bind] at h
  unfold Board.acceptsFirst
  split at h
  case isTrue hdone =>
    obtain ⟨rfl, rfl⟩ := pure_ok.mp h
    simp [hdone]
  case isFalse hdone =>
    rcases hr : b.readings with _ | ⟨r, rest⟩
    · rw [bind_of_error (getMs_of_nil hr)] at h
      cases h
    · rw [bind_of_ok (getMs_of_cons hr)] at h
      obtain ⟨rfl, rfl⟩ := pure_ok.mp h
      simp [hdone, and_comm]

/-- The three ways to confirm: the first request after power-up, a touch that is
there already, and a press that was waited for. -/
theorem u2fGetUserFeedback_zero {R : Board → Board → Prop} [hR : Watched R]
    (h : u2fGetUserFeedback rounds target b = (.ok 0, t)) :
    target = .pressedRegistered ∧ b.acceptsFirst = true ∧ b.firstRequestAccepted = false ∧
        t.firstRequestAccepted = true ∨
      target = .pressedRegistered ∧ b.acceptsFirst ≠ true ∧ b.getPress = true ∧
        t.buttonState = b.buttonState ∨
      ∃ u, R b u ∧ u.buttonState = target ∧ t = u.setConsumed target := by
  unfold u2fGetUserFeedback at h
  obtain ⟨first, c, hfirst, hrest⟩ := bind_ok.mp h
  have hkeeps : Keeps R (acceptFirst target) := inferInstance
  obtain ⟨hstate, hsame, haccepts⟩ := acceptFirst_ok hfirst
  split at hrest
  case isTrue htrue =>
    obtain ⟨htarget, hb⟩ := haccepts.mp htrue
    obtain ⟨_, d, hmodify, hret⟩ := bind_ok.mp hrest
    obtain ⟨-, rfl⟩ := pure_ok.mp hret
    rw [modify_ok] at hmodify
    refine .inl ⟨htarget, hb, ?_, by rw [← hmodify]⟩
    unfold Board.acceptsFirst at hb
    simpa using (Bool.and_eq_true_iff.mp hb).1
  case isFalse hfalse =>
    rw [Proc.get_bind] at hrest
    split at hrest
    case isTrue hpress =>
      obtain ⟨-, rfl⟩ := pure_ok.mp hrest
      refine .inr (.inl ⟨hpress.2, fun hb => hfalse (haccepts.mpr ⟨hpress.2, hb⟩), ?_, hstate⟩)
      have hc := hpress.1
      rwa [Board.getPress, hstate] at hc
    case isFalse =>
      split at hrest
      case isTrue =>
        obtain ⟨_, d, -, hret⟩ := bind_ok.mp hrest
        cases (pure_ok.mp hret).1
      case isFalse =>
        unfold awaitTouch at hrest
        obtain ⟨start, d, htime, hrest⟩ := bind_ok.mp hrest
        obtain ⟨_, u, hwait, hrest⟩ := bind_ok.mp hrest
        have hgetMs : Keeps R getMs := inferInstance
        have hpushed : Keeps R (waitPushed rounds target start) := inferInstance
        have hu : R b u := trans_of R (trans_of R (hkeeps.apply hfirst) (hgetMs.apply htime))
          (hpushed.apply hwait)
        rw [Proc.get_bind] at hrest
        split at hrest
        case isTrue htarget =>
          obtain ⟨_, v, hmodify, hret⟩ := bind_ok.mp hrest
          obtain ⟨-, rfl⟩ := pure_ok.mp hret
          rw [modify_ok] at hmodify
          exact .inr (.inr ⟨u, hu, htarget, hmodify.symm⟩)
        case isFalse => cases (pure_ok.mp hrest).1

/-- A request for an extended press is confirmed by such a press alone. -/
theorem extended_zero {R : Board → Board → Prop} [hR : Watched R]
    (h : u2fGetUserFeedback rounds .pressedRegisteredExt b = (.ok 0, t)) :
    ∃ u, R b u ∧ u.buttonState = .pressedRegisteredExt ∧ t = u.setConsumed .pressedRegisteredExt := by
  rcases u2fGetUserFeedback_zero (R := R) h with ⟨htarget, -⟩ | ⟨htarget, -⟩ | hu
  · cases htarget
  · cases htarget
  · exact hu

theorem extended_heldFor (hb : Tracks b)
    (h : u2fGetUserFeedback rounds .pressedRegisteredExt b = (.ok 0, t)) :
    HeldFor buttonMinPressTMsExt.toNat t.history := by
  obtain ⟨u, hu, hstate, rfl⟩ := extended_zero (R := fun b t => Tracks b → Tracks t) h
  exact (hu hb).extended hstate

theorem extended_seenReleased (hb : Spent b)
    (h : u2fGetUserFeedback rounds .pressedRegisteredExt b = (.ok 0, t)) : SeenReleased b t := by
  obtain ⟨u, hu, hstate, rfl⟩ := extended_zero (R := StaysSpent) h
  refine hu.seenReleased hb fun hspent => ?_
  rcases hspent with hspent | hspent <;> rw [hstate] at hspent <;> cases hspent

end Zero

end NitrokeyFido2.Gpio
