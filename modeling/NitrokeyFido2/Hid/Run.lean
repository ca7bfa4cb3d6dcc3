import NitrokeyFido2.Ctap.Sample
import NitrokeyFido2.Hid.Dispatch
import NitrokeyFido2.Lib.Reentrant
import NitrokeyFido2.Lib.Transition

/-!
Runs of the HID layer.

A packet is handled by whoever waits: the main loop, or the innermost request
that waits for the user. The timeouts are only checked by the main loop. A
wait ends with a touch, with its time, or with a packet that was handled
meanwhile and cancels it.
-/

namespace NitrokeyFido2.Hid

open Ctap Resumption

variable (env : Env)

/-- A call of `ctap_user_presence_test_feedback` goes through the loop that
hands packets on; what else a request asks for is answered at once. -/
def scheduler : Scheduler Call Ret World UInt8 where
  instant
    | .presence _ _, _ => none
    | .setStatus st, w => some ((), w.setStatus st)
    | .isInFirst10Seconds, w => some (w.early, w)
  interrupt
    | .presence _ _, code => if code = ctaphidCancel then some PresenceResult.cancelled else none
    | _, _ => none

/-- The layer with the requests that wait. -/
abbrev Device := Nested Call Ret World Stop UInt8

inductive Event
  | packet (pkt : Packet) (rd : Readings) (early : Bool)
  /-- The innermost wait ends with a touch or with its time. -/
  | feedback (touched : Bool)
  | checkTimeouts (now : UInt32)

/-- The end of a wait as an answer. -/
def feedbackAnswer (touched : Bool) : (c : Call) → Option (Ret c)
  | .presence _ _ => some (if touched then PresenceResult.confirmed else PresenceResult.timeout)
  | _ => none

def step (d : Device) : Event → Device
  | .packet pkt rd early =>
      scheduler.enter { d with state := { d.state with early } } (ctaphidHandlePacket env rd pkt)
  | .feedback touched => scheduler.answer d (feedbackAnswer touched)
  | .checkTimeouts now =>
      if d.running ∧ d.stack.length = 0 then
        { d with state := d.state.withHid (d.state.hid.checkTimeouts now) }
      else d

/-- A device at power-up. -/
def powerUp (w : World) : Device := ⟨w.withHid .zero, [], true⟩

/-- A device that was not used before. -/
def Sample.world : World := ⟨Ctap.Sample.device, .zero, 0, false⟩

/-- A packet that starts with these bytes and arrives at this time. -/
def Sample.packet (now : UInt32) (bytes : List UInt8) : Event :=
  .packet (Buf.ofList 64 bytes) ⟨now, Buf.zero 8⟩ false

end NitrokeyFido2.Hid
