import NitrokeyFido2.Nfc.Frames

/-!
The APDU layer of the NFC interface: `nfc_process_iblock` and
`apdu_process`.

One buffer with one length serves two purposes, told apart by a flag: what is
left of a long response for GET RESPONSE, and the data of the command APDUs
chained so far. What the command layers put into a response is the input
`Answer` of a step. A step that writes behind a buffer has no state after
it.
-/

namespace NitrokeyFido2.Nfc

abbrev apduFidoU2fRegister : UInt8 := 0x01
abbrev apduFidoU2fAuthenticate : UInt8 := 0x02
abbrev apduFidoU2fVersion : UInt8 := 0x03
abbrev apduFidoNfcctapMsg : UInt8 := 0x10
abbrev apduSoloReset : UInt8 := 0xee
abbrev apduInsSelect : UInt8 := 0xa4
abbrev apduInsReadBinary : UInt8 := 0xb0
abbrev apduGetResponse : UInt8 := 0xc0

/-- The class bit of a chained command. -/
abbrev claChaining : UInt8 := 0x10

/-- `APPLETS`. -/
inductive Applet
  | nothing
  | ndefType4
  | mifareType4
  | capabilityContainer
  | ndefTag
  | fido
  deriving DecidableEq

/-- The statics of `nfc.c` that steer the handling of blocks. -/
structure State where
  chainBuffer : Buf 2048
  chainBufferLen : ℕ
  chainBufferTx : Bool
  currentCid : UInt8
  selectedApplet : Applet
  ibuf : Buf 1024
  ibuflen : ℕ
  deriving DecidableEq

/-- The statics at power-up. -/
def State.powerUp : State where
  chainBuffer := Buf.zero 2048
  chainBufferLen := 0
  chainBufferTx := false
  currentCid := 0
  selectedApplet := .nothing
  ibuf := Buf.zero 1024
  ibuflen := 0

/-- `nfc_state_init`. -/
def State.nfcStateInit (s : State) : State := { s with selectedApplet := .nothing }

/-- What `u2f_request_nfc` or `ctap_request` left in the response, and the
status of the latter. -/
structure Answer where
  status : UInt8
  data : List UInt8

/-- The call that sends the reply: `nfc_write_response_ex` or
`nfc_write_response_chaining_plain`. -/
inductive Reply
  | response (data : List UInt8) (resp : UInt16)
  | plain (data : List UInt8)
  deriving DecidableEq

/-! ### Applets -/

def aidFido : List UInt8 := [0xa0, 0x00, 0x00, 0x06, 0x47, 0x2f, 0x00, 0x01]

def aidNdefType4 : List UInt8 := [0xd2, 0x76, 0x00, 0x00, 0x85, 0x01, 0x01]

def aidCapabilityContainer : List UInt8 := [0xe1, 0x03]

def aidNdefTag : List UInt8 := [0xe1, 0x04]

/-- `applet_cmp` finds no difference. -/
def appletCmp (aid constAid : List UInt8) : Bool :=
  if constAid.length < aid.length then false
  else if constAid.getD 0 0 &&& 0xf0 = 0xa0 then
    if aid.length < 5 then false else aid = constAid.take aid.length
  else aid = constAid

/-- `select_applet`. -/
def selectApplet (aid : List UInt8) : Applet :=
  if appletCmp aid aidFido then .fido
  else if appletCmp aid aidNdefType4 then .ndefType4
  else if appletCmp aid aidCapabilityContainer then .capabilityContainer
  else if appletCmp aid aidNdefTag then .ndefTag
  else .nothing

/-- `NFC_CC`. -/
def nfcCc : List UInt8 :=
  [0x00, 0x0f, 0x20, 0x00, 0x7f, 0x00, 0x7f, 0x04, 0x06, 0xe1, 0x04, 0x00, 0x7f, 0x00, 0x00]

/-- `NDEF_SAMPLE`. -/
def ndefSample : List UInt8 :=
  [0x00, 0x14, 0xd1, 0x01, 0x0e] ++ Bytes.ascii "U" ++ [0x04] ++ Bytes.ascii "solokeys.com/"

/-! ### Long responses -/

/-- `append_get_response`. -/
def appendGetResponse (restLen : ℕ) : List UInt8 :=
  [0x61, if restLen ≤ 0xff then UInt8.ofNat restLen else 0]

/-- `nfc_write_response_chaining`. -/
def nfcWriteResponseChaining (s : State) (data : List UInt8) (extapdu : Bool) :
    Option (Reply × State) := do
  let s := { s with chainBufferLen := 0, chainBufferTx := true }
  if data.length ≤ 255 ∨ extapdu then return (.plain data, s)
  let pcklen := min 253 data.length
  let rest := data.length - pcklen
  let chain ← s.chainBuffer.store 0 (data.take pcklen)
  let chain ← chain.store pcklen (appendGetResponse rest)
  let packet := chain.slice 0 (pcklen + 2)
  -- put the rest data into chain buffer
  let chain ← chain.store 0 (data.drop pcklen)
  return (.plain packet, { s with chainBuffer := chain, chainBufferLen := rest })

/-- The GET RESPONSE command. -/
def getResponse (s : State) (apdu : ApduStruct) : Option (Reply × State) := do
  if apdu.p1 ≠ 0 ∨ apdu.p2 ≠ 0 then return (.response [] swIncorrectP1P2, s)
  if apdu.le ≠ 0 ∧ apdu.le ≠ 0x100 ∧ s.chainBufferLen < apdu.le then
    let missing := if s.chainBufferLen ≤ 0xff then UInt16.ofNat s.chainBufferLen else 0
    return (.response [] (swWrongLength + missing), s)
  let pcklen := min (if apdu.le ≠ 0 then apdu.le else 253) s.chainBufferLen
  let rest := s.chainBufferLen - pcklen
  let trailer := if rest ≠ 0 then appendGetResponse rest else []
  let pck ← (Buf.zero 255).store 0 (s.chainBuffer.slice 0 pcklen)
  let pck ← pck.store pcklen trailer
  -- shift the buffer
  let chain ← s.chainBuffer.store 0 (s.chainBuffer.slice pcklen rest)
  return (.plain (pck.slice 0 (pcklen + trailer.length)),
    { s with chainBuffer := chain, chainBufferLen := rest })

/-! ### Commands -/

/-- What a CTAP request is answered with: the status, its data and the status
word. -/
def ctapMsgResponse (answer : Answer) : List UInt8 :=
  if answer.status = 0 then answer.status :: (answer.data ++ [0x90, 0x00])
  else [answer.status, 0x90, 0x00]

/-- READ BINARY of the selected file. -/
def readBinary (s : State) (le : ℕ) : Reply :=
  let reslen := le % 2 ^ 16
  let file (bytes : List UInt8) : Reply :=
    .response (bytes.take (if reslen = 0 ∨ bytes.length < reslen then bytes.length else reslen)) swSuccess
  match s.selectedApplet with
  | .capabilityContainer => file nfcCc
  | .ndefTag => file ndefSample
  | _ => .response [] swFileNotFound

/-- The length test of U2F Authenticate. Up to 64 bytes the byte it looks at is
not part of the data, but then no value of it passes. -/
def authenticateLength (data : List UInt8) : Bool :=
  data.length = 64 + 1 + (data.getD 64 0).toNat

/-- What makes the card reboot. -/
def resetMagic : List UInt8 := [0x12, 0x56, 0xab, 0xf0]

/-- The SELECT command. -/
def selectCommand (s : State) (aid : List UInt8) : Reply × State :=
  match selectApplet aid with
  | .fido => (.response (Bytes.ascii "U2F_V2") swSuccess, { s with selectedApplet := .fido })
  | .nothing => (.response [] swFileNotFound, s)
  | selected => (.response [] swSuccess, { s with selectedApplet := selected })

/-- A command of the FIDO applet. -/
def fidoCommand (s : State) (r : Option (Reply × State)) : Option (Reply × State) :=
  if s.selectedApplet ≠ .fido then some (.response [] swInsInvalid, s) else r

/-- `apdu_process`, for the data that `apdu.data` points at. -/
def apduProcess (s : State) (apdu : ApduStruct) (data : List UInt8) (answer : Answer) :
    Option (Reply × State) :=
  if apdu.cla ≠ 0x00 ∧ apdu.cla ≠ 0x80 then some (.response [] swClaInvalid, s)
  else if apdu.ins = apduGetResponse then getResponse s apdu
  else if apdu.ins = apduInsSelect then some (selectCommand s data)
  else if apdu.ins = apduFidoU2fVersion then
    fidoCommand s (nfcWriteResponseChaining s answer.data apdu.extendedApdu)
  else if apdu.ins = apduFidoU2fRegister then
    fidoCommand s (
      if data.length ≠ 64 then some (.response [] swWrongLength, s)
      else nfcWriteResponseChaining s answer.data apdu.extendedApdu)
  else if apdu.ins = apduFidoU2fAuthenticate then
    fidoCommand s (
      if ¬ authenticateLength data then some (.response [] swWrongLength, s)
      else nfcWriteResponseChaining s answer.data apdu.extendedApdu)
  else if apdu.ins = apduFidoNfcctapMsg then
    fidoCommand s (nfcWriteResponseChaining s (ctapMsgResponse answer) apdu.extendedApdu)
  else if apdu.ins = apduInsReadBinary then some (readBinary s apdu.le, s)
  else if apdu.ins = apduSoloReset then
    -- the reboot starts over
    if data = resetMagic then some (.response [] swSuccess, State.powerUp)
    else some (.response [] swInsInvalid, s)
  else some (.response [] swInsInvalid, s)

/-! ### One APDU -/

/-- What `nfc_process_iblock` did with an APDU. -/
inductive Outcome
  /-- It was not decoded, or the chain is full. -/
  | refused (resp : UInt16) (s : State)
  /-- Its data was added to the chain. -/
  | chained (s : State)
  /-- `apdu_process` was entered with this data. -/
  | processed (apdu : ApduStruct) (data : List UInt8) (result : Option (Reply × State))
  /-- Chain and data were merged behind the end of the frame buffer. -/
  | overrun

/-- The state after the APDU, unless a write has left its buffer. -/
def Outcome.next : Outcome → Option State
  | .refused _ s | .chained s => some s
  | .processed _ _ result => result.map Prod.snd
  | .overrun => none

namespace State

variable (s : State)

/-- `buf[0]`. -/
def pcb : UInt8 := s.ibuf.byte 0

/-- Where the APDU starts in the frame buffer. -/
def blockOffset : ℕ := p14443BlockOffset s.pcb

/-- The memory behind `buf + block_offset`. -/
def apduPtr : ℕ → UInt8 := fun i => s.ibuf.byte (s.blockOffset + i)

/-- `len - block_offset` as a `size_t`. -/
def apduLen (len : ℕ) : ℕ :=
  if s.blockOffset ≤ len then len - s.blockOffset else 2 ^ 32 - (s.blockOffset - len)

/-- `apdu_decode` of the APDU in the frame buffer. -/
def decode (len : ℕ) : Except UInt16 ApduStruct := apduDecode s.apduPtr (s.apduLen len)

/-- The class byte. -/
def cla : UInt8 := s.apduPtr 0

/-- A response that is still going out is given up for any other command. -/
def clearTx : State :=
  if s.chainBufferTx ∧ s.apduPtr 1 ≠ apduGetResponse then
    { s with chainBufferLen := 0, chainBufferTx := false }
  else s

/-- The chain is put before the data of the last APDU, in the frame buffer. An
APDU without data has no place for it. -/
def merge (apdu : ApduStruct) : Option (ApduStruct × State) := do
  let off ← apdu.data
  let start := s.blockOffset + off
  let ibuf ← s.ibuf.store (start + s.chainBufferLen) (s.ibuf.slice start apdu.lc)
  let ibuf ← ibuf.store start (s.chainBuffer.slice 0 s.chainBufferLen)
  return ({ apdu with lc := (apdu.lc + s.chainBufferLen) % 2 ^ 16 }, { s with ibuf := ibuf })

end State

/-- `nfc_process_iblock` on the first `len` bytes of the frame buffer. -/
def nfcProcessIblock (s : State) (len : ℕ) (answer : Answer) : Outcome :=
  let s := s.clearTx
  match s.decode len with
  | .error ret => .refused ret s
  | .ok apdu =>
      if ¬ s.chainBufferTx ∧ s.cla &&& claChaining ≠ 0 then
        if 2048 < s.chainBufferLen + len then .refused swWrongLength s
        else
          match s.chainBuffer.store s.chainBufferLen (apdu.dataBytes s.apduPtr) with
          | none => .overrun
          | some chain =>
              .chained { s with chainBuffer := chain, chainBufferLen := s.chainBufferLen + apdu.lc }
      else if ¬ s.chainBufferTx ∧ 0 < s.chainBufferLen then
        match s.merge apdu with
        | none => .overrun
        | some (apdu, s) =>
            .processed apdu (apdu.dataBytes s.apduPtr)
              (apduProcess s apdu (apdu.dataBytes s.apduPtr) answer)
      else
        .processed apdu (apdu.dataBytes s.apduPtr)
          (apduProcess s apdu (apdu.dataBytes s.apduPtr) answer)

end NitrokeyFido2.Nfc
