import NitrokeyFido2.Ctap.Device
import NitrokeyFido2.Hid.Packet
import NitrokeyFido2.Lib.FirstMatch

/-!
The channel table, the buffer in which messages are put together, and
`ctaphid_buffer_packet`.

Beside what the firmware keeps, the state numbers the messages that arrived
and remembers which of them a slot, the buffer or a reply belongs to. No code
reads these numbers.
-/

namespace NitrokeyFido2.Hid

open FirstMatch
open Ctap (HidStatus ctap1ErrInvalidLength)

/-! ### State -/

/-- `struct CID`. The message is the one whose packet last marked the slot
busy. -/
structure Cid where
  cid : UInt32
  lastUsed : UInt64
  busy : Bool
  message : ℕ
  deriving DecidableEq

/-- `CID_MAX - 1`; the last of the ten slots is never given away. -/
abbrev usedSlots : ℕ := 9

/-- `CTAP_BUFFER_STATE` as `buffer_status` tells it. -/
inductive BufferStatus
  | empty | buffering | buffered
  deriving DecidableEq

/-- `ctap_buffer` and the variables that go with it. -/
structure CtapBuffer where
  data : Buf ctaphidBufferSize
  cid : UInt32
  cmd : UInt8
  bcnt : ℕ
  offset : ℤ
  seq : ℤ
  message : ℕ
  deriving DecidableEq

/-- Packets handed to the host together, and the message they answer for good
if there is one. -/
structure Sent where
  packets : List Packet
  answers : Option ℕ
  deriving DecidableEq

/-- A message whose processing has begun and not ended. -/
structure Processing where
  message : ℕ
  cid : UInt32
  cmd : UInt8
  /-- `ctap_request` or `u2f_request` runs for it. -/
  transaction : Bool
  deriving DecidableEq

/-- The static variables of `ctaphid.c`, the device status and what was sent. -/
structure Layer where
  /-- `CIDS`. -/
  cids : List Cid
  /-- The static `cid` of `get_new_cid`. -/
  lastNewCid : UInt32
  buffer : CtapBuffer
  isBusy : Bool
  /-- The static `wb` of `ctaphid_handle_packet`. -/
  wb : WriteBuffer
  /-- `__device_status`. -/
  status : HidStatus
  sent : List Sent
  /-- How many messages have begun. -/
  messages : ℕ
  /-- What is being processed, the innermost first. -/
  processing : List Processing

/-- The layer at power-up: everything is zero. -/
def Layer.zero : Layer where
  cids := List.replicate 10 ⟨0, 0, false, 0⟩
  lastNewCid := 1
  buffer := ⟨Buf.zero _, 0, 0, 0, 0, 0, 0⟩
  isBusy := false
  wb := .zero
  status := .idle
  sent := []
  messages := 0
  processing := []

/-! ### The channel table -/

/-- `get_new_cid`. -/
def nextCid (last : UInt32) : UInt32 :=
  if last + 1 = 0 ∨ last + 1 = 0xffffffff then 1 else last + 1

/-- `add_cid`. -/
def addCid (now : UInt32) (message : ℕ) (cid : UInt32) (cids : List Cid) : Option (List Cid) :=
  changeFirst (fun c => !c.busy) (fun _ => ⟨cid, now.toUInt64, true, message⟩) usedSlots cids

/-- `cid_exists`. -/
def cidExists (cid : UInt32) (cids : List Cid) : Bool := (cids.take usedSlots).any (·.cid = cid)

/-- `cid_refresh`. -/
def cidRefresh (now : UInt32) (message : ℕ) (cid : UInt32) (cids : List Cid) : Option (List Cid) :=
  changeFirst (fun c => c.cid = cid)
    (fun c => { c with lastUsed := now.toUInt64, busy := true, message }) usedSlots cids

/-- `cid_del`; nobody looks at whether there was such a slot. -/
def cidDel (cid : UInt32) (cids : List Cid) : List Cid :=
  (changeFirst (fun c => c.cid = cid) (fun c => { c with busy := false }) usedSlots cids).getD cids

/-! ### The buffer -/

namespace CtapBuffer

/-- `buffer_status`. -/
def status (b : CtapBuffer) : BufferStatus :=
  if b.bcnt = 0 then .empty else if b.offset = b.bcnt then .buffered else .buffering

/-- `buffer_reset`. -/
def reset (b : CtapBuffer) : CtapBuffer := { b with bcnt := 0, offset := 0, seq := 0, cid := 0 }

/-- The `memmove` of `buffer_packet`: where it goes to and how long it is. -/
def moved (b : CtapBuffer) (pkt : Packet) : ℤ × ℤ :=
  if pkt.isCont then
    let leftover := b.bcnt - b.offset
    (b.offset, if leftover - ctaphidContPayloadSize ≤ 0 then leftover else ctaphidContPayloadSize)
  else (0, min pkt.len ctaphidInitPayloadSize)

/-- `buffer_packet`: whether the sequence number was right. -/
def bufferPacket (b : CtapBuffer) (message : ℕ) (pkt : Packet) : Bool × CtapBuffer :=
  let (dst, len) := b.moved pkt
  if pkt.isCont then
    let b := { b with seq := b.seq + 1 }
    if b.seq ≠ (pkt.cmd.toNat : ℤ) then (false, b)
    else (true, { b with
      data := b.data.write dst.toNat (pkt.contPayload.take len.toNat)
      offset := b.offset + len })
  else (true, { b with
    data := b.data.write dst.toNat (pkt.initPayload.take len.toNat)
    bcnt := pkt.len
    cmd := pkt.cmd
    cid := pkt.cid
    offset := len
    seq := -1
    message := message })

end CtapBuffer

/-! ### Replies -/

/-- `ctaphid_send_error`. -/
def errorPackets (cid : UInt32) (code : UInt8) : List Packet :=
  message cid ctaphidError 1 [[code]]

def Layer.send (s : Layer) (packets : List Packet) (answers : Option ℕ) : Layer :=
  { s with sent := s.sent ++ [⟨packets, answers⟩] }

def Layer.sendError (s : Layer) (cid : UInt32) (code : UInt8) (answers : Option ℕ) : Layer :=
  s.send (errorPackets cid code) answers

/-- `send_init_response`. -/
def initResponse (oldcid newcid : UInt32) (nonce : List UInt8) : List Packet :=
  message oldcid ctaphidInitCmd 17 [nonce.take 8 ++ Bytes.toLe32 newcid ++ [2, 0, 0, 0, 0x05]]

/-- `ctaphid_update_status`. -/
def Layer.updateStatus (s : Layer) (status : HidStatus) : Layer :=
  s.send (message s.buffer.cid ctaphidKeepalive 1
    [[match status with
      | .idle => 0
      | .processing => 1
      | .upneeded => 2]]) none

/-- `device_set_status`. -/
def Layer.setStatus (s : Layer) (status : HidStatus) : Layer :=
  let s := if status ≠ .idle ∧ s.status ≠ status then s.updateStatus status else s
  { s with status }

/-! ### `ctaphid_check_timeouts` -/

/-- The slot is due: its stamp is 64 bits wide, and so is the difference. -/
def Cid.expired (c : Cid) (now : UInt32) : Bool := c.busy && now.toUInt64 - c.lastUsed ≥ 750

/-- The loop of `ctaphid_check_timeouts` over the slots that are left: the
slots behind it, the buffer and the errors sent. -/
def checkSlots (now : UInt32) (b : CtapBuffer) : List Cid → List Cid × CtapBuffer × List Sent
  | [] => ([], b, [])
  | c :: cs =>
      if c.expired now then
        let b := if c.cid = b.cid then b.reset else b
        let r := checkSlots now b cs
        ({ c with busy := false } :: r.1, r.2.1,
          ⟨errorPackets c.cid ctap1ErrTimeout, some c.message⟩ :: r.2.2)
      else
        let r := checkSlots now b cs
        (c :: r.1, r.2)

/-- `ctaphid_check_timeouts`. -/
def Layer.checkTimeouts (s : Layer) (now : UInt32) : Layer :=
  let r := checkSlots now s.buffer s.cids
  { s with cids := r.1, buffer := r.2.1, sent := s.sent ++ r.2.2 }

/-! ### `ctaphid_buffer_packet` -/

/-- What `ctaphid_buffer_packet` returns: `HID_IGNORE`, `HID_ERROR` with its
code, or the state of the buffer. -/
inductive PacketStatus
  | ignore
  | error (code : UInt8)
  | buffer (status : BufferStatus)
  /-- `exit(1)`. -/
  | exited
  deriving DecidableEq

/-- A CTAPHID_INIT. -/
def Layer.synchronise (s : Layer) (now : UInt32) (pkt : Packet) : PacketStatus × Layer :=
  if pkt.len ≠ 8 then (.error ctap1ErrInvalidLength, s)
  else if pkt.cid = 0 then (.error ctap1ErrInvalidChannel, s)
  else
    let s := { s with buffer := s.buffer.reset }
    let broadcast := pkt.cid = ctaphidBroadcastCid
    let newcid := if broadcast then nextCid s.lastNewCid else pkt.cid
    let s := if broadcast then { s with lastNewCid := newcid } else s
    let ret :=
      if ¬ broadcast ∧ cidExists newcid s.cids then cidRefresh now s.messages newcid s.cids
      else addCid now s.messages newcid s.cids
    match ret with
    | none => (.error ctap1ErrChannelBusy, s)
    | some cids =>
        let s := s.send (initResponse pkt.cid newcid pkt.initPayload) (some s.messages)
        (.ignore, { s with cids := cidDel newcid cids })

/-- A packet on a channel that has a slot. -/
def Layer.bufferKnown (s : Layer) (now : UInt32) (pkt : Packet) : PacketStatus × Layer :=
  if s.buffer.status = .buffering ∧ pkt.cid = s.buffer.cid ∧ ¬ pkt.isCont then
    (.error ctap1ErrInvalidSeq, s)
  else if s.buffer.status = .buffering ∧ pkt.cid ≠ s.buffer.cid then
    (if pkt.isCont then .ignore else .error ctap1ErrChannelBusy, s)
  else if ¬ pkt.isCont ∧ pkt.len > ctaphidBufferSize then (.error ctap1ErrInvalidLength, s)
  else if pkt.isCont ∧ (s.buffer.status = .empty ∨ pkt.cid ≠ s.buffer.cid) then (.ignore, s)
  else
    let (inOrder, b) := s.buffer.bufferPacket s.messages pkt
    let s := { s with buffer := b }
    if inOrder then
      match cidRefresh now b.message pkt.cid s.cids with
      | some cids => (.buffer b.status, { s with cids })
      | none => (.exited, s)
    else (.error ctap1ErrInvalidSeq, s)

/-- `ctaphid_buffer_packet`. -/
def Layer.bufferPacket (s : Layer) (now : UInt32) (pkt : Packet) : PacketStatus × Layer :=
  if pkt.isInit then s.synchronise now pkt
  else if pkt.cid = ctaphidBroadcastCid then (.error ctap1ErrInvalidChannel, s)
  else
    -- a new channel gets a slot when it begins a message and nothing is buffered
    let cids :=
      if cidExists pkt.cid s.cids = false ∧ ¬ pkt.isCont ∧ s.buffer.status = .empty then
        (addCid now s.messages pkt.cid s.cids).getD s.cids
      else s.cids
    let s := { s with cids }
    if cidExists pkt.cid s.cids then s.bufferKnown now pkt
    else if pkt.isCont then (.ignore, s)
    else (.error ctap1ErrChannelBusy, s)

end NitrokeyFido2.Hid
