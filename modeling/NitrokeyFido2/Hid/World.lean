import NitrokeyFido2.Ctap.Request
import NitrokeyFido2.Hid.Channels

/-!
The state that the U2F protocol and the HID layer share with the
authenticator.
-/

namespace NitrokeyFido2.Hid

open Ctap (Authenticator Call Ret Stop)
open Resumption (Routine)

structure World where
  auth : Authenticator
  hid : Layer
  /-- `device_settings` in the attestation page. -/
  settings : UInt64
  /-- `first_10_seconds`. -/
  early : Bool

/-- Functions that may wait, on all of the state. -/
abbrev HidM := Routine Call Ret World Stop

/-- Functions that do not wait, on all of the state. -/
abbrev WorldM := Proc World Stop

def World.withAuth (w : World) (a : Authenticator) : World := { w with auth := a }

def World.withHid (w : World) (s : Layer) : World := { w with hid := s }

/-- A request to the authenticator. -/
def onAuth {α : Type} (m : Ctap.CtapM α) : HidM α := Routine.zoom World.auth World.withAuth m

/-- A service of the device. -/
def onDevice {α : Type} (m : Ctap.Device α) : WorldM α := Proc.zoom World.auth World.withAuth m

def modifyHid (f : Layer → Layer) : WorldM Unit := Proc.modify fun w => w.withHid (f w.hid)

def modifyBuffer (f : CtapBuffer → CtapBuffer) : WorldM Unit :=
  modifyHid fun s => { s with buffer := f s.buffer }

/-- Part of `ctap_buffer`. -/
def World.message (w : World) (off len : ℕ) : List UInt8 := w.hid.buffer.data.slice off len

/-- Write into `ctap_buffer`. -/
def writeMessage (off : ℕ) (src : List UInt8) : WorldM Unit :=
  modifyBuffer fun b => { b with data := b.data.write off src }

end NitrokeyFido2.Hid
