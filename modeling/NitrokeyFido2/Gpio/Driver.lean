import NitrokeyFido2.Lib.Polling

/-!
The touch button and the user's feedback: `gpio.c`, `user_feedback.c` and the
presence loop of `device.c`.

The clock and the level of the button come from outside, and so do the packets
that arrive in a loop. What is read is given in advance, one reading for each
access, so that a run is a list of readings and a list of calls; a function that
needs one reading more waits. The LEDs read the clock and change nothing here:
they are left out.
-/

namespace NitrokeyFido2.Gpio

open Proc

/-! ### The board -/

def buttonMinPressTMs : UInt32 := 1000
def buttonValidConsumedTMs : UInt32 := 10 * 1000
def buttonMaxPressTMs : UInt32 := 3 * 1000
def buttonMinPressTMsExt : UInt32 := 5 * 1000
def buttonMaxPressTMsExt : UInt32 := 8 * 1000
def selfAcceptMaxTMs : UInt32 := 2 * 1000
def u2fMsClearButtonPeriod : UInt32 := 20 * 1000
def u2fMsInitButtonPeriod : UInt32 := 500
def u2fMsUserInputWait : UInt32 := 100

/-- `BUTTON_STATE_T`. -/
inductive ButtonState
  | initializing
  | initializingReadyToClear
  | metaReadyToUse
  | unpressed
  | pressedRecently
  | pressedRegistered
  | pressedRegisteredTransitional
  | pressedRegisteredExt
  | pressedRegisteredExtInvalid
  | pressedConsumedActive
  | pressedConsumed
  deriving DecidableEq

/-- The number of the enumerator. -/
def ButtonState.num : ButtonState → ℕ
  | initializing => 0
  | initializingReadyToClear => 1
  | metaReadyToUse => 2
  | unpressed => 3
  | pressedRecently => 4
  | pressedRegistered => 5
  | pressedRegisteredTransitional => 6
  | pressedRegisteredExt => 7
  | pressedRegisteredExtInvalid => 8
  | pressedConsumedActive => 9
  | pressedConsumed => 10

/-- The calls of the driver from the rest of the firmware. -/
inductive Call
  | buttonManager
  | delay (ms : UInt32)
  | userFeedback
  | userFeedbackExtendedWipe
  deriving DecidableEq

/-- What an access finds: the time, the level of the button, and the packet that
has come in. The work on a packet may make calls in turn. -/
structure Reading where
  now : UInt32
  pressed : Bool
  calls : List Call
  cancel : Bool

/-- What was read. The level is read by the button's state machine, and by the
loop that waits for the sensor to be cleared. -/
inductive Event
  | clock (now : UInt32)
  | level (pressed : Bool)
  | polled (pressed : Bool)
  | packet (cancel : Bool)
  deriving DecidableEq

/-- The static variables, the readings to come and, the newest first, what was
read so far. -/
structure Board where
  buttonPressT : UInt32
  buttonPressConsumedT : UInt32
  buttonState : ButtonState
  buttonManagerStartT : UInt32
  first10Seconds : Bool
  lastButtonClearedTime : UInt32
  firstRequestAccepted : Bool
  readings : List Reading
  history : List Event

/-- The board at power-up. -/
def Board.powerUp (readings : List Reading) : Board where
  buttonPressT := 0
  buttonPressConsumedT := 0
  buttonState := .initializing
  buttonManagerStartT := 0
  first10Seconds := true
  lastButtonClearedTime := 0
  firstRequestAccepted := false
  readings := readings
  history := []

/-- Why a function has not returned. -/
inductive Stop
  | waiting
  | outOfRounds
  deriving DecidableEq

abbrev Driver := Proc Board Stop

/-- One access to the outside. -/
def poll (event : Reading → Event) : Driver Reading := ⟨fun b =>
  match b.readings with
  | [] => (.error .waiting, b)
  | r :: rest => (.ok r, { b with readings := rest, history := event r :: b.history })⟩

/-- `get_ms`, which is `millis`. -/
def getMs : Driver UInt32 := do
  let r ← poll fun r => .clock r.now
  pure r.now

section Poll

variable {b : Board} {event : Reading → Event} {r : Reading} {rest : List Reading}

theorem poll_of_nil (h : b.readings = []) : poll event b = (.error .waiting, b) := by
  simp only [poll, h]

theorem poll_of_cons (h : b.readings = r :: rest) :
    poll event b = (.ok r, { b with readings := rest, history := event r :: b.history }) := by
  simp only [poll, h]

theorem getMs_of_nil (h : b.readings = []) : getMs b = (.error .waiting, b) :=
  bind_of_error (poll_of_nil h)

theorem getMs_of_cons (h : b.readings = r :: rest) :
    getMs b = (.ok r.now, { b with readings := rest, history := .clock r.now :: b.history }) :=
  bind_of_ok (poll_of_cons h)

end Poll

def Board.set (b : Board) (s : ButtonState) : Board := { b with buttonState := s }

/-! ### The state machine of the button -/

/-- The press phase in `button_manager`. -/
def handlePress (current : UInt32) : Driver Unit := do
  let b ← Proc.get
  let total :=
    if b.buttonPressT = 0 ∧ current - b.buttonPressT ≠ 0 then 0 else current - b.buttonPressT
  match b.buttonState with
  | .unpressed =>
      Proc.modify fun b =>
        { b with buttonState := .pressedRecently, buttonPressT := current, buttonPressConsumedT := 0 }
  | .pressedRecently =>
      Proc.modify fun b => if total ≥ buttonMinPressTMs then b.set .pressedRegistered else b
  | .pressedRegistered =>
      Proc.modify fun b =>
        if total ≥ buttonMaxPressTMs then b.set .pressedRegisteredTransitional else b
  | .pressedRegisteredTransitional =>
      Proc.modify fun b => if total ≥ buttonMinPressTMsExt then b.set .pressedRegisteredExt else b
  | .pressedRegisteredExt =>
      Proc.modify fun b =>
        if total ≥ buttonMaxPressTMsExt then b.set .pressedRegisteredExtInvalid else b
  | .pressedConsumedActive => do
      Proc.modify fun b =>
        if b.buttonPressConsumedT = 0 then { b with buttonPressConsumedT := current } else b
      let now ← getMs
      Proc.modify fun b =>
        if now - b.buttonPressConsumedT ≥ buttonValidConsumedTMs then b.set .pressedConsumed else b
  | .pressedConsumed => Proc.modify fun b => { b with buttonPressConsumedT := 0 }
  | _ => pure ()

/-- The part of `button_manager` that looks at the button. -/
def trackButton : Driver Unit := do
  let current ← getMs
  let r ← poll fun r => .level r.pressed
  if r.pressed then handlePress current
  else Proc.modify fun b => { b with buttonState := .unpressed, buttonPressT := 0 }

/-- `delay`; the drivers that it runs are `button_manager`. -/
def delay (manager : Driver Unit) (rounds : ℕ) (ms : UInt32) : Driver Unit := do
  let time ← getMs
  untilSome .outOfRounds (do
    let now ← getMs
    if now - time < ms then do
      manager
      pure none
    else pure (some ())) rounds

/-- The loop of `_clear_button_press` that waits for the sensor. -/
def waitCleared (manager : Driver Unit) (rounds : ℕ) (t0 : UInt32) : Driver Unit :=
  untilSome .outOfRounds (do
    delay manager rounds 6
    let now ← getMs
    if now - t0 > 2000 then pure (some ())
    else do
      let r ← poll fun r => .polled r.pressed
      pure (if r.pressed then none else some ())) rounds

/-- The conditions under which `_clear_button_press` returns at once, when it is
not forced to go on. -/
def refusesClear : Driver Bool := do
  let b ← Proc.get
  let early ← (if b.buttonState ≠ .initializingReadyToClear then do
      let now ← getMs
      pure (decide (now - b.lastButtonClearedTime < u2fMsClearButtonPeriod))
    else pure false : Driver Bool)
  pure (early || b.buttonState = .initializing || b.buttonState.num > ButtonState.unpressed.num)

/-- `_clear_button_press`. -/
def clearButtonPress (manager : Driver Unit) (rounds : ℕ) (forced : Bool) : Driver Unit := do
  let refused ← (if forced then pure false else refusesClear : Driver Bool)
  if refused then pure ()
  else do
    let now ← getMs
    Proc.modify fun b => { b with lastButtonClearedTime := now }
    let t0 ← getMs
    waitCleared manager rounds t0
    Proc.modify fun b =>
      if b.buttonState = .initializingReadyToClear then b.set .unpressed else b

/-- `button_manager` notices that the first ten seconds are over. -/
def watchFirst10Seconds : Driver Unit := do
  let b ← Proc.get
  if b.first10Seconds then do
    let now ← getMs
    Proc.modify fun b => if now > 10 * 1000 then { b with first10Seconds := false } else b
  else pure ()

/-- The first state of `button_manager`; it tells whether the call ends there. -/
def handleInitializing : Driver Bool := do
  let b ← Proc.get
  if b.buttonState = .initializing then do
    let now ← getMs
    if b.buttonManagerStartT = 0 then do
      Proc.modify fun b => { b with buttonManagerStartT := now }
      pure true
    else if now - b.buttonManagerStartT ≤ u2fMsInitButtonPeriod then pure true
    else do
      Proc.modify fun b => b.set .initializingReadyToClear
      pure false
  else pure false

/-- The second state. -/
def handleReadyToClear (clear : Driver Unit) : Driver Bool := do
  let b ← Proc.get
  if b.buttonState = .initializingReadyToClear then do
    Proc.modify fun b => b.set .metaReadyToUse
    clear
    pure true
  else pure false

/-- `button_manager`, which calls itself while the sensor is cleared. -/
def buttonManager : ℕ → Driver Unit
  | 0 => Proc.stop .outOfRounds
  | rounds + 1 => do
      watchFirst10Seconds
      let waits ← handleInitializing
      if waits then pure ()
      else do
        let cleared ← handleReadyToClear (clearButtonPress (buttonManager rounds) rounds false)
        if cleared then pure () else trackButton

/-! ### Timers -/

/-- `NK_timer_t`. -/
structure NKTimer where
  waitUntilT : UInt32
  deriving DecidableEq

/-- `timer_wait_for`. -/
def timerWaitFor (delay : UInt32) : Driver NKTimer := do
  let now ← getMs
  pure ⟨now + delay⟩

/-- `timer_is_active`. -/
def timerIsActive (t : NKTimer) : Driver Bool := do
  let now ← getMs
  pure (decide (now < t.waitUntilT))

/-! ### The user's feedback -/

section Feedback

variable (rounds : ℕ)

/-- `button_get_press`. -/
def Board.getPress (b : Board) : Bool :=
  b.buttonState = .pressedRegistered ∨ b.buttonState = .pressedConsumedActive

/-- `button_press_in_progress`. -/
def Board.pressInProgress (b : Board) : Bool :=
  b.buttonState.num > ButtonState.unpressed.num ∧ b.buttonState ≠ .pressedConsumed ∧
    b.buttonState ≠ .pressedRegisteredExtInvalid

/-- `button_press_set_consumed`. -/
def Board.setConsumed (b : Board) (target : ButtonState) : Board :=
  b.set (if target = .pressedRegistered then .pressedConsumedActive else .pressedConsumed)

/-- The first request after power-up is accepted without a touch. -/
def acceptFirst (target : ButtonState) : Driver Bool := do
  let b ← Proc.get
  if b.firstRequestAccepted then pure false
  else do
    let now ← getMs
    pure (decide (now < selfAcceptMaxTMs ∧ target = .pressedRegistered))

/-- The loop that waits for the button to be pushed. -/
def waitPushed (target : ButtonState) (t : UInt32) : Driver Unit :=
  untilSome .outOfRounds (do
    let b ← Proc.get
    if b.buttonState = target then pure (some ())
    else do
      buttonManager rounds
      let now ← getMs
      let b ← Proc.get
      if now - t > u2fMsUserInputWait ∧ ¬ b.pressInProgress then pure (some ())
      else do
        delay (buttonManager rounds) rounds 10
        pure none) rounds

/-- What `_u2f_get_user_feedback` does when it has to wait. -/
def awaitTouch (target : ButtonState) : Driver ℤ := do
  let t ← getMs
  waitPushed rounds target t
  let b ← Proc.get
  if b.buttonState = target then do
    Proc.modify fun b => b.setConsumed target
    pure 0
  else pure 1

/-- `_u2f_get_user_feedback`. -/
def u2fGetUserFeedback (target : ButtonState) : Driver ℤ := do
  let first ← acceptFirst target
  if first then do
    Proc.modify fun b => { b with firstRequestAccepted := true }
    pure 0
  else do
    let b ← Proc.get
    if b.getPress ∧ target = .pressedRegistered then pure 0
    else if b.buttonState = .pressedConsumed ∨
        b.buttonState.num < ButtonState.metaReadyToUse.num then do
      delay (buttonManager rounds) rounds 20
      pure 1
    else awaitTouch rounds target

/-! ### Calls -/

def perform : Call → Driver Unit
  | .buttonManager => buttonManager rounds
  | .delay ms => delay (buttonManager rounds) rounds ms
  | .userFeedback => do
      let _ ← u2fGetUserFeedback rounds .pressedRegistered
      pure ()
  | .userFeedbackExtendedWipe => do
      let _ ← u2fGetUserFeedback rounds .pressedRegisteredExt
      pure ()

def performAll : List Call → Driver Unit
  | [] => pure ()
  | c :: calls => do
      perform rounds c
      performAll calls

/-- `handle_packets`. -/
def handlePackets : Driver ℤ := do
  let r ← poll fun r => .packet r.cancel
  performAll rounds r.calls
  pure (if r.cancel then -1 else 0)

/-- One round of the presence loop. -/
def presenceRound (target : ButtonState) (timer : NKTimer) : Driver (Option ℤ) := do
  let active ← timerIsActive timer
  if active then do
    let ret ← u2fGetUserFeedback rounds target
    if ret = 0 then pure (some 1)
    else do
      let ret ← handlePackets rounds
      if ret ≠ 0 then pure (some ret)
      else do
        buttonManager rounds
        delay (buttonManager rounds) rounds 1
        pure none
  else pure (some 0)

/-- `ctap_user_presence_test_feedback` over USB, with the presence test not
disabled. -/
def ctapUserPresenceTestFeedback (upDelay : UInt32) (target : ButtonState) : Driver ℤ := do
  let timer ← timerWaitFor upDelay
  untilSome .outOfRounds (presenceRound rounds target timer) rounds

end Feedback

/-- A function with as many rounds as can be of use: every round reads something,
so that the readings run out first. -/
def enough {α : Type} (f : ℕ → Driver α) : Driver α := do
  let b ← Proc.get
  f (b.readings.length + 1)

/-- `u2f_get_user_feedback`. -/
def userFeedback : Driver ℤ := enough fun n => u2fGetUserFeedback n .pressedRegistered

/-- `u2f_get_user_feedback_extended_wipe`. -/
def userFeedbackExtendedWipe : Driver ℤ := enough fun n => u2fGetUserFeedback n .pressedRegisteredExt

/-- One call after the other. -/
def run : List Call → Driver Unit
  | [] => pure ()
  | c :: calls => do
      enough fun n => perform n c
      run calls

/-- `ctap_user_presence_test_reset`. -/
def ctapUserPresenceTestReset (upDelay : UInt32) : Driver ℤ :=
  enough fun n => ctapUserPresenceTestFeedback n upDelay .pressedRegisteredExt

end NitrokeyFido2.Gpio
