import Mathlib.Tactic

/-!
The response buffer shared by the CTAP2 and the U2F handlers.
-/

namespace NitrokeyFido2.Ctap

/-- `CTAP_RESPONSE_BUFFER_SIZE`. -/
def ctapResponseBufferSize : ℕ := 4096

/-- `CTAP_RESPONSE`: the first `length` bytes of its `data`. The bytes behind
them are never sent. -/
structure CtapResponse where
  data : List UInt8
  bounded : data.length ≤ ctapResponseBufferSize
  deriving DecidableEq

/-- `ctap_response_init`. -/
def ctapResponseInit : CtapResponse := ⟨[], by decide⟩

/-- `u2f_response_writeback`: what does not fit is not written at all. -/
def u2fResponseWriteback (resp : CtapResponse) (buf : List UInt8) : CtapResponse :=
  if h : resp.data.length + buf.length ≤ ctapResponseBufferSize then
    ⟨resp.data ++ buf, by simpa using h⟩
  else resp

end NitrokeyFido2.Ctap
