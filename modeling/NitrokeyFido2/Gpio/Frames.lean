import NitrokeyFido2.Gpio.Driver

/-!
What the functions of the driver keep, whatever they read.

The state of the button moves in four ways: by what the state machine makes of a
level, by the marking of a press as used, and by the two steps of the
initialisation. A relation between boards that these keep is kept by every
function of the driver. The button manager runs inside itself once, while the
sensor is cleared; there it has left the initialisation behind, and is no more
than its look at the button.
-/

namespace NitrokeyFido2.Gpio

open Proc

/-- The initialisation is over. -/
def Started (b : Board) : Prop := 2 ≤ b.buttonState.num

/-- Any access but that of the state machine to the level. -/
structure Plain (event : Reading → Event) : Prop where
  not_level : ∀ r p, event r ≠ .level p
  clock : ∀ r t, event r = .clock t → t = r.now

theorem plain_clock : Plain fun r => .clock r.now where
  not_level _ _ h := by cases h
  clock _ _ h := (Event.clock.inj h).symm

theorem plain_polled : Plain fun r => .polled r.pressed where
  not_level _ _ h := by cases h
  clock _ _ h := by cases h

theorem plain_packet : Plain fun r => .packet r.cancel where
  not_level _ _ h := by cases h
  clock _ _ h := by cases h

/-- A relation between the boards before and after that every step keeps. -/
class Watched (R : Board → Board → Prop) : Prop extends IsPreorder Board R where
  poll : ∀ event, Plain event → Keeps R (poll event)
  track : Keeps R trackButton
  update : ∀ b c : Board, c.buttonState = b.buttonState → c.buttonPressT = b.buttonPressT →
    c.readings = b.readings → c.history = b.history → R b c
  consumed : ∀ b target, R b (Board.setConsumed b target)
  settle : ∀ (b : Board) s, ¬ Started b →
    s = .initializingReadyToClear ∨ s = .metaReadyToUse → R b (b.set s)

/-- The relation, as far as the initialisation is over. -/
def WhenStarted (R : Board → Board → Prop) (s t : Board) : Prop := Started s → Started t ∧ R s t

/-! ### While the sensor is cleared -/

section WhenStarted

variable {b : Board} {rounds : ℕ}

theorem handleInitializing_of_started (hb : Started b) : handleInitializing b = (.ok false, b) := by
  unfold handleInitializing
  rw [Proc.get_bind, if_neg fun h => absurd hb (by rw [Started, h]; decide)]
  rfl

theorem handleReadyToClear_of_started (hb : Started b) (clear : Driver Unit) :
    handleReadyToClear clear b = (.ok false, b) := by
  unfold handleReadyToClear
  rw [Proc.get_bind, if_neg fun h => absurd hb (by rw [Started, h]; decide)]
  rfl

variable {R : Board → Board → Prop} [hR : Watched R]

instance : IsPreorder Board (WhenStarted R) where
  refl b hb := ⟨hb, refl_of R b⟩
  trans _ _ _ h₁ h₂ hb := ⟨(h₂ (h₁ hb).1).1, trans_of R (h₁ hb).2 (h₂ (h₁ hb).1).2⟩

end WhenStarted

/-! ### One look at the button -/

/-- What a pressed button does to the state. -/
inductive Moves (current : UInt32) (b t : Board) : Prop
  | start (h : b.buttonState = .unpressed) (ht : t.buttonState = .pressedRecently)
      (hpress : t.buttonPressT = current)
  | grow (h : b.buttonState = .pressedRecently ∨ b.buttonState = .pressedRegistered)
      (ht : t.buttonState = .pressedRegistered ∨ t.buttonState = .pressedRegisteredTransitional)
      (hpress : t.buttonPressT = b.buttonPressT)
  | extend (h : b.buttonState = .pressedRegisteredTransitional)
      (ht : t.buttonState = .pressedRegisteredExt) (hpress : t.buttonPressT = b.buttonPressT)
      (hlong : buttonMinPressTMsExt ≤ current - b.buttonPressT)
  | invalidate (h : b.buttonState = .pressedRegisteredExt)
      (ht : t.buttonState = .pressedRegisteredExtInvalid)
  | expire (h : b.buttonState = .pressedConsumedActive) (ht : t.buttonState = .pressedConsumed)
  | stay (h : b.buttonState ≠ .unpressed) (ht : t.buttonState = b.buttonState)
      (hpress : t.buttonPressT = b.buttonPressT)

/-- The clock was read once, or not at all. -/
def ReadsClock (b t : Board) : Prop :=
  t.readings = b.readings ∧ t.history = b.history ∨
    ∃ r, b.readings = r :: t.readings ∧ t.history = .clock r.now :: b.history

theorem modify_set {b : Board} {c : Prop} [Decidable c] {P : Board → Prop} (s : ButtonState)
    (hset : c → P (b.set s)) (hkeep : P b) :
    P ((Proc.modify fun b : Board => if c then b.set s else b : Driver Unit) b).2 := by
  show P (if c then b.set s else b)
  split
  · exact hset ‹c›
  · exact hkeep

theorem handlePress_moves (current : UInt32) (b : Board) :
    Moves current b (handlePress current b).2 ∧ ReadsClock b (handlePress current b).2 := by
  have hstay (h : b.buttonState ≠ .unpressed) : Moves current b b ∧ ReadsClock b b :=
    ⟨.stay h rfl rfl, .inl ⟨rfl, rfl⟩⟩
  unfold handlePress
  rw [Proc.get_bind]
  dsimp only
  generalize htotal : (if b.buttonPressT = 0 ∧ current - b.buttonPressT ≠ 0 then (0 : UInt32)
    else current - b.buttonPressT) = total
  -- a press without a beginning does not get old
  have hlong (hm : total ≥ buttonMinPressTMsExt) : buttonMinPressTMsExt ≤ current - b.buttonPressT := by
    split at htotal
    · subst htotal
      exact absurd hm (by decide)
    · rwa [htotal]
  cases hstate : b.buttonState with
  | unpressed => exact ⟨.start hstate rfl rfl, .inl ⟨rfl, rfl⟩⟩
  | pressedRecently =>
      exact modify_set (P := fun t => Moves current b t ∧ ReadsClock b t) _
        (fun _ => ⟨.grow (.inl hstate) (.inl rfl) rfl, .inl ⟨rfl, rfl⟩⟩) (hstay (by rw [hstate]; decide))
  | pressedRegistered =>
      exact modify_set (P := fun t => Moves current b t ∧ ReadsClock b t) _
        (fun _ => ⟨.grow (.inr hstate) (.inr rfl) rfl, .inl ⟨rfl, rfl⟩⟩) (hstay (by rw [hstate]; decide))
  | pressedRegisteredTransitional =>
      exact modify_set (P := fun t => Moves current b t ∧ ReadsClock b t) _
        (fun hm => ⟨.extend hstate rfl rfl (hlong hm), .inl ⟨rfl, rfl⟩⟩) (hstay (by rw [hstate]; decide))
  | pressedRegisteredExt =>
      exact modify_set (P := fun t => Moves current b t ∧ ReadsClock b t) _
        (fun _ => ⟨.invalidate hstate rfl, .inl ⟨rfl, rfl⟩⟩) (hstay (by rw [hstate]; decide))
  | pressedConsumedActive =>
      set c : Board := if b.buttonPressConsumedT = 0 then { b with buttonPressConsumedT := current }
        else b with hc
      have hsame : c.buttonState = b.buttonState ∧ c.buttonPressT = b.buttonPressT ∧
          c.readings = b.readings ∧ c.history = b.history := by
        rw [hc]
        split <;> exact ⟨rfl, rfl, rfl, rfl⟩
      obtain ⟨hs, hT, hr, hh⟩ := hsame
      rw [bind_of_ok (t := c) rfl]
      rcases hreadings : c.readings with _ | ⟨r, rest⟩
      · rw [bind_of_error (getMs_of_nil hreadings)]
        exact ⟨.stay (by rw [hstate]; decide) hs hT, .inl ⟨hr, hh⟩⟩
      · rw [bind_of_ok (getMs_of_cons hreadings)]
        refine modify_set (P := fun t => Moves current b t ∧ ReadsClock b t) _ (fun _ => ?_) ?_
        · exact ⟨.expire hstate rfl, .inr ⟨r, by rw [← hr, hreadings]; rfl, by rw [← hh]; rfl⟩⟩
        · exact ⟨.stay (by rw [hstate]; decide) hs hT, .inr ⟨r, by rw [← hr, hreadings], by rw [← hh]⟩⟩
  | pressedConsumed => exact ⟨.stay (by rw [hstate]; decide) rfl rfl, .inl ⟨rfl, rfl⟩⟩
  | initializing => exact hstay (by rw [hstate]; decide)
  | initializingReadyToClear => exact hstay (by rw [hstate]; decide)
  | metaReadyToUse => exact hstay (by rw [hstate]; decide)
  | pressedRegisteredExtInvalid => exact hstay (by rw [hstate]; decide)

/-- What one look at the button can be. -/
inductive Looks (b t : Board) : Prop
  | waits (ht : t = b)
  | waitsAfter (r : Reading) (h : b.readings = [r])
      (ht : t = { b with readings := [], history := .clock r.now :: b.history })
  | released (r r' : Reading) (rest : List Reading) (h : b.readings = r :: r' :: rest)
      (ht : t = { b with
        buttonState := .unpressed
        buttonPressT := 0
        readings := rest
        history := .level false :: .clock r.now :: b.history })
  | pressed (r r' : Reading) (rest : List Reading) (h : b.readings = r :: r' :: rest)
      (hmoves : Moves r.now b t)
      (hclock : ReadsClock
        { b with readings := rest, history := .level true :: .clock r.now :: b.history } t)

theorem trackButton_looks (b : Board) : Looks b (trackButton b).2 := by
  unfold trackButton
  rcases hreadings : b.readings with _ | ⟨r, _ | ⟨r', rest⟩⟩
  · rw [bind_of_error (getMs_of_nil hreadings)]
    exact .waits rfl
  · rw [bind_of_ok (getMs_of_cons hreadings), bind_of_error (poll_of_nil rfl)]
    exact .waitsAfter r hreadings rfl
  · rw [bind_of_ok (getMs_of_cons hreadings), bind_of_ok (poll_of_cons rfl)]
    dsimp only
    split
    case isTrue hp =>
      rw [hp]
      obtain ⟨hmoves, hclock⟩ := handlePress_moves r.now
        { b with readings := rest, history := .level true :: .clock r.now :: b.history }
      refine .pressed r r' rest hreadings ?_ hclock
      cases hmoves with
      | start h ht hpress => exact .start h ht hpress
      | grow h ht hpress => exact .grow h ht hpress
      | extend h ht hpress hlong => exact .extend h ht hpress hlong
      | invalidate h ht => exact .invalidate h ht
      | expire h ht => exact .expire h ht
      | stay h ht hpress => exact .stay h ht hpress
    case isFalse hp =>
      rw [Bool.eq_false_of_not_eq_true hp]
      exact .released r r' rest hreadings rfl

/-! ### The functions of the driver -/

section Watched

variable {R : Board → Board → Prop} [hR : Watched R]

instance : Keeps R getMs := by
  have hpoll : Keeps R (poll fun r => .clock r.now) := hR.poll _ plain_clock
  unfold getMs
  infer_instance

instance : Keeps R watchFirst10Seconds := by
  have hmodify (now : UInt32) : Keeps R (Proc.modify fun b : Board =>
      if now > 10 * 1000 then { b with first10Seconds := false } else b : Driver Unit) := by
    refine Keeps.modify fun b => ?_
    split
    · exact hR.update _ _ rfl rfl rfl rfl
    · exact refl_of R b
  unfold watchFirst10Seconds
  infer_instance

instance (manager : Driver Unit) [Keeps R manager] (rounds : ℕ) (ms : UInt32) :
    Keeps R (delay manager rounds ms) := by
  unfold delay
  infer_instance

instance (manager : Driver Unit) [Keeps R manager] (rounds : ℕ) (t0 : UInt32) :
    Keeps R (waitCleared manager rounds t0) := by
  have hpoll : Keeps R (poll fun r => .polled r.pressed) := hR.poll _ plain_polled
  unfold waitCleared
  infer_instance

instance : Keeps R refusesClear := by
  unfold refusesClear
  infer_instance

instance : Watched (WhenStarted R) where
  poll event hevent := by
    refine ⟨fun b hb => ⟨?_, (hR.poll event hevent).state b⟩⟩
    unfold poll
    dsimp only
    split <;> exact hb
  track := by
    refine ⟨fun b hb => ⟨?_, hR.track.state b⟩⟩
    cases trackButton_looks b with
    | waits ht => rwa [ht]
    | waitsAfter r _ ht => rwa [ht]
    | released r r' rest _ ht =>
        rw [ht]
        show 2 ≤ 3
        decide
    | pressed r r' rest _ hmoves _ =>
        unfold Started
        cases hmoves with
        | start _ ht _ => rw [ht]; decide
        | grow _ ht _ => rcases ht with ht | ht <;> rw [ht] <;> decide
        | extend _ ht _ _ => rw [ht]; decide
        | invalidate _ ht => rw [ht]; decide
        | expire _ ht => rw [ht]; decide
        | stay _ ht _ => rwa [ht]
  update b c hs hT hr hh hb := ⟨by rwa [Started, hs], hR.update b c hs hT hr hh⟩
  consumed b target _ := by
    refine ⟨?_, hR.consumed b target⟩
    unfold Started Board.setConsumed Board.set
    dsimp only
    split <;> decide
  settle b s hb _ hb' := absurd hb' hb

end Watched

instance : Watched fun _ _ => True where
  refl _ := trivial
  trans _ _ _ _ _ := trivial
  poll _ _ := ⟨fun _ => trivial⟩
  track := ⟨fun _ => trivial⟩
  update _ _ _ _ _ _ := trivial
  consumed _ _ := trivial
  settle _ _ _ _ := trivial

/-- Behind the initialisation the button manager looks at the button. -/
theorem buttonManager_of_started {b : Board} (hb : Started b) (rounds : ℕ) :
    buttonManager (rounds + 1) b = (watchFirst10Seconds >>= fun _ => trackButton) b := by
  rw [buttonManager]
  refine bind_congr_of_ok fun _ t ht => ?_
  have hkeeps : Keeps (WhenStarted fun _ _ => True) watchFirst10Seconds := inferInstance
  have hstarted : Started t := (hkeeps.apply ht hb).1
  rw [bind_of_ok (handleInitializing_of_started hstarted)]
  exact bind_of_ok (handleReadyToClear_of_started hstarted _)

section Watched

variable {R : Board → Board → Prop} [hR : Watched R] (rounds : ℕ)

theorem keeps_buttonManager_started : Keeps (WhenStarted R) (buttonManager rounds) := by
  cases rounds with
  | zero => exact Keeps.stop _
  | succ rounds =>
      have htrack : Keeps (WhenStarted R) trackButton := Watched.track
      have hlook : Keeps (WhenStarted R) (watchFirst10Seconds >>= fun _ => trackButton) := inferInstance
      refine ⟨fun b hb => ?_⟩
      rw [buttonManager_of_started hb]
      exact hlook.state b hb

theorem keeps_clearButtonPress_started :
    Keeps (WhenStarted R) (clearButtonPress (buttonManager rounds) rounds false) := by
  have hmanager : Keeps (WhenStarted R) (buttonManager rounds) := keeps_buttonManager_started rounds
  have htime (now : UInt32) : Keeps (WhenStarted R)
      (Proc.modify fun b : Board => { b with lastButtonClearedTime := now } : Driver Unit) :=
    Keeps.modify fun b => Watched.update _ _ rfl rfl rfl rfl
  -- the state that would be set is one of the initialisation
  have hset : Keeps (WhenStarted R) (Proc.modify fun b : Board =>
      if b.buttonState = .initializingReadyToClear then b.set .unpressed else b : Driver Unit) := by
    refine Keeps.modify fun b hb => ?_
    rw [if_neg fun h => absurd hb (by rw [Started, h]; decide)]
    exact ⟨hb, refl_of R b⟩
  unfold clearButtonPress
  refine Keeps.seq inferInstance fun _ => ?_
  infer_instance

instance : Keeps R handleInitializing := by
  refine ⟨fun b => ?_⟩
  unfold handleInitializing
  rw [Proc.get_bind]
  split
  case isFalse => exact refl_of R b
  case isTrue hstate =>
    have hread : Keeps R getMs := inferInstance
    rcases hnow : getMs b with ⟨e | now, t⟩
    · rw [bind_of_error hnow]
      exact hread.apply hnow
    · rw [bind_of_ok hnow]
      split
      case isTrue =>
        rw [bind_of_ok (t := { t with buttonManagerStartT := now }) rfl]
        exact trans_of R (hread.apply hnow) (hR.update t { t with buttonManagerStartT := now } rfl rfl
          rfl rfl)
      case isFalse =>
        split
        case isTrue => exact hread.apply hnow
        case isFalse =>
          have ht : t.buttonState = .initializing := by
            rcases hreadings : b.readings with _ | ⟨r, rest⟩
            · rw [getMs_of_nil hreadings] at hnow
              cases hnow
            · rw [getMs_of_cons hreadings] at hnow
              cases hnow
              exact hstate
          rw [bind_of_ok (t := t.set .initializingReadyToClear) rfl]
          refine trans_of R (hread.apply hnow) (hR.settle _ _ ?_ (.inl rfl))
          rw [Started, ht]
          decide

theorem keeps_handleReadyToClear {clear : Driver Unit} (hclear : Keeps (WhenStarted R) clear) :
    Keeps R (handleReadyToClear clear) := by
  refine ⟨fun b => ?_⟩
  unfold handleReadyToClear
  rw [Proc.get_bind]
  split
  case isFalse => exact refl_of R b
  case isTrue hstate =>
    have hrest : Keeps (WhenStarted R) (clear >>= fun _ => (pure true : Driver Bool)) := inferInstance
    rw [bind_of_ok (t := b.set .metaReadyToUse) rfl]
    refine trans_of R (hR.settle _ _ ?_ (.inr rfl)) (hrest.state (b.set .metaReadyToUse) ?_).2
    · rw [Started, hstate]
      decide
    · show 2 ≤ 2
      decide

instance keeps_buttonManager : Keeps R (buttonManager rounds) := by
  cases rounds with
  | zero => exact Keeps.stop _
  | succ rounds =>
      have htrack : Keeps R trackButton := hR.track
      have hready := keeps_handleReadyToClear (keeps_clearButtonPress_started (R := R) rounds)
      rw [buttonManager]
      infer_instance

instance (target : ButtonState) : Keeps R (acceptFirst target) := by
  unfold acceptFirst
  infer_instance

instance (target : ButtonState) (t : UInt32) : Keeps R (waitPushed rounds target t) := by
  unfold waitPushed
  refine @Keeps.untilSome _ _ _ _ _ _ _ ?_ _
  refine Keeps.seq inferInstance fun _ => ?_
  infer_instance

instance (target : ButtonState) : Keeps R (awaitTouch rounds target) := by
  have hconsumed : Keeps R (Proc.modify fun b : Board => b.setConsumed target : Driver Unit) :=
    Keeps.modify fun b => hR.consumed b target
  unfold awaitTouch
  infer_instance

instance (target : ButtonState) : Keeps R (u2fGetUserFeedback rounds target) := by
  have hfirst : Keeps R
      (Proc.modify fun b : Board => { b with firstRequestAccepted := true } : Driver Unit) :=
    Keeps.modify fun b => hR.update _ _ rfl rfl rfl rfl
  unfold u2fGetUserFeedback
  infer_instance

instance (c : Call) : Keeps R (perform rounds c) := by
  cases c <;> unfold perform <;> infer_instance

instance (calls : List Call) : Keeps R (performAll rounds calls) := by
  induction calls with
  | nil => exact Keeps.pure ()
  | cons c calls ih => exact Keeps.seq inferInstance fun _ => ih

instance : Keeps R (handlePackets rounds) := by
  have hpoll : Keeps R (poll fun r => .packet r.cancel) := hR.poll _ plain_packet
  unfold handlePackets
  infer_instance

instance (upDelay : UInt32) : Keeps R (timerWaitFor upDelay) := by
  unfold timerWaitFor
  infer_instance

instance (timer : NKTimer) : Keeps R (timerIsActive timer) := by
  unfold timerIsActive
  infer_instance

instance (target : ButtonState) (timer : NKTimer) : Keeps R (presenceRound rounds target timer) := by
  unfold presenceRound
  refine Keeps.seq inferInstance fun _ => ?_
  split
  · refine Keeps.seq inferInstance fun _ => ?_
    infer_instance
  · infer_instance

instance (upDelay : UInt32) (target : ButtonState) :
    Keeps R (ctapUserPresenceTestFeedback rounds upDelay target) := by
  unfold ctapUserPresenceTestFeedback
  infer_instance

instance {α : Type} (f : ℕ → Driver α) [∀ n, Keeps R (f n)] : Keeps R (enough f) := by
  unfold enough
  infer_instance

instance (calls : List Call) : Keeps R (run calls) := by
  induction calls with
  | nil => exact Keeps.pure ()
  | cons c calls ih => exact Keeps.seq inferInstance fun _ => ih

end Watched

/-! ### Enough rounds -/

def Board.left (b : Board) : ℕ := b.readings.length

instance : Watched fun s t => t.left ≤ s.left where
  refl _ := le_refl _
  trans _ _ _ h₁ h₂ := h₂.trans h₁
  poll event _ := by
    refine ⟨fun b => ?_⟩
    rcases h : b.readings with _ | ⟨r, rest⟩
    · rw [poll_of_nil h]
    · rw [poll_of_cons h, Board.left, Board.left, h, List.length_cons]
      exact Nat.le_succ _
  track := by
    refine ⟨fun b => ?_⟩
    cases trackButton_looks b with
    | waits ht => rw [ht]
    | waitsAfter r _ ht =>
        rw [ht]
        exact Nat.zero_le _
    | released r r' rest h ht =>
        rw [ht, Board.left, Board.left, h, List.length_cons, List.length_cons]
        show rest.length ≤ _
        omega
    | pressed r r' rest h _ hclock =>
        rw [Board.left, Board.left, h, List.length_cons, List.length_cons]
        rcases hclock with ⟨hr, -⟩ | ⟨r'', hr, -⟩
        · rw [hr]
          show rest.length ≤ _
          omega
        · have hlen := congrArg List.length hr
          rw [List.length_cons] at hlen
          change rest.length = _ at hlen
          omega
  update b c _ _ hr _ := by rw [Board.left, Board.left, hr]
  consumed _ _ := le_refl _
  settle _ _ _ _ := le_refl _

section Rounds

variable {rounds : ℕ}

/-- No function of the driver runs out of `rounds` with less than that to be
read. -/
abbrev Suffice (rounds : ℕ) {α : Type} (m : Driver α) : Prop :=
  Within Board.left .outOfRounds rounds m

instance (event : Reading → Event) : Never .outOfRounds (poll event) := by
  refine ⟨fun b h => ?_⟩
  rcases hr : b.readings with _ | ⟨r, rest⟩
  · rw [poll_of_nil hr] at h
    cases h
  · rw [poll_of_cons hr] at h
    cases h

instance : Never .outOfRounds getMs := by
  unfold getMs
  infer_instance

instance (current : UInt32) : Never .outOfRounds (handlePress current) := by
  unfold handlePress
  refine Never.seq inferInstance fun b => ?_
  dsimp only
  split <;> infer_instance

instance : Never .outOfRounds trackButton := by
  unfold trackButton
  infer_instance

instance : Never .outOfRounds watchFirst10Seconds := by
  unfold watchFirst10Seconds
  infer_instance

instance : Never .outOfRounds refusesClear := by
  unfold refusesClear
  infer_instance

instance : Never .outOfRounds handleInitializing := by
  unfold handleInitializing
  infer_instance

instance (target : ButtonState) : Never .outOfRounds (acceptFirst target) := by
  unfold acceptFirst
  infer_instance

theorem takes_getMs : Takes Board.left getMs := by
  refine ⟨fun b now t h => ?_⟩
  rcases hr : b.readings with _ | ⟨r, rest⟩
  · rw [getMs_of_nil hr] at h
    cases h
  · rw [getMs_of_cons hr] at h
    cases h
    rw [Board.left, Board.left, hr, List.length_cons]
    exact Nat.lt_succ_self _

instance {α β : Type} (m : Driver α) (f : α → Driver β) [hm : Suffice rounds m]
    [hle : NoMore Board.left m] [hf : ∀ a, Suffice rounds (f a)] : Suffice rounds (m >>= f) :=
  Within.bind hm hle hf

instance {α : Type} (c : Prop) [Decidable c] (m n : Driver α) [Suffice rounds m] [Suffice rounds n] :
    Suffice rounds (if c then m else n) := by
  split <;> infer_instance

instance (manager : Driver Unit) [Suffice rounds manager] [NoMore Board.left manager] (ms : UInt32) :
    Suffice rounds (delay manager rounds ms) := by
  unfold delay
  refine Within.bind inferInstance inferInstance fun time => Within.untilSome inferInstance fun b t h => ?_
  exact (takes_getMs.bind_left inferInstance).lt b none t h

theorem takes_delay {manager : Driver Unit} [NoMore Board.left manager] (ms : UInt32) :
    Takes Board.left (delay manager rounds ms) := takes_getMs.bind_left inferInstance

theorem suffice_clearButtonPress {manager : Driver Unit} [Suffice rounds manager]
    [NoMore Board.left manager] :
    Suffice (rounds + 1) (clearButtonPress manager rounds false) := by
  have hpoll : NoMore Board.left (poll fun r => .polled r.pressed) :=
    Watched.poll _ plain_polled
  have hwait (t0 : UInt32) : Suffice rounds (waitCleared manager rounds t0) :=
    Within.untilSome inferInstance fun b t h =>
      ((takes_delay 6).bind_left inferInstance).lt b none t h
  have hupdate (f : Board → Board) : Suffice rounds (Proc.modify f : Driver Unit) := inferInstance
  unfold clearButtonPress
  refine Within.bind inferInstance inferInstance fun refused => ?_
  split
  · infer_instance
  · refine Within.bind_takes inferInstance takes_getMs fun now => ?_
    refine Within.bind (hupdate _) (Keeps.modify fun b => le_refl _) fun _ => ?_
    refine Within.bind inferInstance inferInstance fun t0 => ?_
    exact Within.bind (hwait t0) inferInstance fun _ => hupdate _

theorem noMore_clearButtonPress {manager : Driver Unit} [NoMore Board.left manager] :
    NoMore Board.left (clearButtonPress manager rounds false) := by
  have htime (now : UInt32) : NoMore Board.left
      (Proc.modify fun b : Board => { b with lastButtonClearedTime := now } : Driver Unit) :=
    Keeps.modify fun b => le_refl _
  have hset : NoMore Board.left (Proc.modify fun b : Board =>
      if b.buttonState = .initializingReadyToClear then b.set .unpressed else b : Driver Unit) := by
    refine Keeps.modify fun b => ?_
    split <;> exact le_refl _
  unfold clearButtonPress
  refine Keeps.seq inferInstance fun _ => ?_
  infer_instance

instance suffice_buttonManager (n : ℕ) : Suffice n (buttonManager n) := by
  induction n with
  | zero => exact ⟨fun b hb => absurd hb (Nat.not_lt_zero _)⟩
  | succ n ih =>
      have hclear : Suffice (n + 1) (clearButtonPress (buttonManager n) n false) :=
        suffice_clearButtonPress
      have hkeeps : NoMore Board.left (clearButtonPress (buttonManager n) n false) := noMore_clearButtonPress
      have hset (t : ButtonState) : NoMore Board.left
          (Proc.modify fun b : Board => b.set t : Driver Unit) := Keeps.modify fun b => le_refl _
      have hready : Suffice (n + 1) (handleReadyToClear (clearButtonPress (buttonManager n) n false)) := by
        unfold handleReadyToClear
        infer_instance
      have hreadyKeeps : NoMore Board.left
          (handleReadyToClear (clearButtonPress (buttonManager n) n false)) := by
        unfold handleReadyToClear
        infer_instance
      rw [buttonManager]
      infer_instance

instance (target : ButtonState) (t : UInt32) : Suffice rounds (waitPushed rounds target t) := by
  unfold waitPushed
  refine Within.untilSome ?_ fun b u h => ?_
  · refine Within.bind inferInstance inferInstance fun b => ?_
    infer_instance
  · rw [Proc.get_bind] at h
    split at h
    case isTrue => cases h
    case isFalse =>
      refine (Takes.bind_right inferInstance fun _ => takes_getMs.bind_left fun now => ?_).lt b none u h
      infer_instance

instance (target : ButtonState) : Suffice rounds (awaitTouch rounds target) := by
  unfold awaitTouch
  infer_instance

instance (target : ButtonState) : Suffice rounds (u2fGetUserFeedback rounds target) := by
  have hfirst : NoMore Board.left
      (Proc.modify fun b : Board => { b with firstRequestAccepted := true } : Driver Unit) :=
    Keeps.modify fun b => le_refl _
  unfold u2fGetUserFeedback
  infer_instance

instance (c : Call) : Suffice rounds (perform rounds c) := by
  cases c <;> unfold perform <;> infer_instance

instance (calls : List Call) : Suffice rounds (performAll rounds calls) := by
  induction calls with
  | nil =>
      show Suffice rounds (pure ())
      infer_instance
  | cons c calls ih => exact Within.bind inferInstance inferInstance fun _ => ih

instance : Suffice rounds (handlePackets rounds) := by
  have hpoll : NoMore Board.left (poll fun r => .packet r.cancel) :=
    Watched.poll _ plain_packet
  unfold handlePackets
  infer_instance

instance (upDelay : UInt32) (target : ButtonState) :
    Suffice rounds (ctapUserPresenceTestFeedback rounds upDelay target) := by
  have hwait : Suffice rounds (timerWaitFor upDelay) := by
    unfold timerWaitFor
    infer_instance
  have hactive (timer : NKTimer) : Suffice rounds (timerIsActive timer) := by
    unfold timerIsActive
    infer_instance
  have htakes (timer : NKTimer) : Takes Board.left (timerIsActive timer) :=
    takes_getMs.bind_left inferInstance
  unfold ctapUserPresenceTestFeedback
  refine Within.bind hwait inferInstance fun timer => Within.untilSome ?_ fun b t h => ?_
  · refine Within.bind (hactive timer) inferInstance fun now => ?_
    split
    · refine Within.bind inferInstance inferInstance fun ret => ?_
      infer_instance
    · infer_instance
  · refine ((htakes timer).bind_left fun now => ?_).lt b none t h
    split
    · refine Keeps.seq inferInstance fun ret => ?_
      infer_instance
    · infer_instance

/-- A function of the driver that does not return waits for a reading. -/
theorem enough_never {α : Type} {f : ℕ → Driver α} (hf : ∀ n, Suffice n (f n)) :
    Never .outOfRounds (enough f) :=
  ⟨fun b => (hf (b.readings.length + 1)).ne b (Nat.lt_succ_self _)⟩

end Rounds

end NitrokeyFido2.Gpio
