import NitrokeyFido2.Lib.Bytes

/-!
CTAPHID packets, and `ctaphid_write`, which cuts a message into packets.
-/

namespace NitrokeyFido2.Hid

abbrev hidMessageSize : ℕ := 64

abbrev ctaphidInitPayloadSize : ℕ := 57

abbrev ctaphidContPayloadSize : ℕ := 59

abbrev ctaphidBufferSize : ℕ := 7609

abbrev typeInit : UInt8 := 0x80

abbrev ctaphidBroadcastCid : UInt32 := 0xffffffff

/-! ### Commands and error codes -/

abbrev ctaphidPing : UInt8 := 0x81
abbrev ctaphidMsg : UInt8 := 0x83
abbrev ctaphidInitCmd : UInt8 := 0x86
abbrev ctaphidWink : UInt8 := 0x88
abbrev ctaphidCbor : UInt8 := 0x90
abbrev ctaphidCancel : UInt8 := 0x91
abbrev ctaphidKeepalive : UInt8 := 0xbb
abbrev ctaphidError : UInt8 := 0xbf
abbrev ctaphidEnterboot : UInt8 := 0xd1
abbrev ctaphidReboot : UInt8 := 0xd3
abbrev ctaphidGetrng : UInt8 := 0xe0
abbrev ctaphidGetversion : UInt8 := 0xe1
abbrev ctaphidGetstatus : UInt8 := 0xf1

abbrev ctap1ErrInvalidSeq : UInt8 := 0x04
abbrev ctap1ErrTimeout : UInt8 := 0x05
abbrev ctap1ErrChannelBusy : UInt8 := 0x06
abbrev ctap1ErrInvalidChannel : UInt8 := 0x0b

/-! ### Packets -/

/-- `CTAPHID_PACKET`. -/
abbrev Packet := Buf hidMessageSize

namespace Packet

variable (pkt : Packet)

def cid : UInt32 := Bytes.le32 (pkt.slice 0 4)

/-- `pkt.init.cmd`, and `pkt.cont.seq` in a continuation packet. -/
def cmd : UInt8 := pkt.byte 4

/-- `ctaphid_packet_len`. -/
def len : ℕ := 256 * (pkt.byte 5).toNat + (pkt.byte 6).toNat

def initPayload : List UInt8 := pkt.slice 7 ctaphidInitPayloadSize

def contPayload : List UInt8 := pkt.slice 5 ctaphidContPayloadSize

/-- `is_init_pkt`: a CTAPHID_INIT. -/
def isInit : Bool := cmd pkt = ctaphidInitCmd

/-- `is_cont_pkt`. -/
def isCont : Bool := cmd pkt &&& typeInit = 0

end Packet

/-! ### Writing -/

/-- `CTAPHID_WRITE_BUFFER`. -/
structure WriteBuffer where
  cmd : UInt8
  cid : UInt32
  bcnt : ℕ
  offset : ℕ
  bytesWritten : ℕ
  seq : UInt8
  buf : Packet
  deriving DecidableEq

/-- `ctaphid_write_buffer_init`. -/
def WriteBuffer.zero : WriteBuffer := ⟨0, 0, 0, 0, 0, 0, Buf.zero _⟩

namespace WriteBuffer

/-- The header of the first packet of a message. -/
def initHeader (wb : WriteBuffer) : WriteBuffer :=
  { wb with
    buf := (wb.buf.write 0 (Bytes.toLe32 wb.cid)).write 4
      [wb.cmd, UInt8.ofNat (wb.bcnt / 256), UInt8.ofNat wb.bcnt]
    offset := 7 }

/-- The header of a packet that follows. -/
def contHeader (wb : WriteBuffer) : WriteBuffer :=
  { wb with
    buf := (wb.buf.write 0 (Bytes.toLe32 wb.cid)).write 4 [wb.seq]
    seq := wb.seq + 1
    offset := 5 }

def startPacket (wb : WriteBuffer) : WriteBuffer :=
  if wb.offset = 0 then (if wb.bytesWritten = 0 then wb.initHeader else wb.contHeader) else wb

/-- One byte; a packet that is full is sent. -/
def writeByte (wb : WriteBuffer) (b : UInt8) : List Packet × WriteBuffer :=
  let wb := wb.startPacket
  let wb := { wb with
    buf := wb.buf.write wb.offset [b]
    offset := wb.offset + 1
    bytesWritten := wb.bytesWritten + 1 }
  if wb.offset = hidMessageSize then ([wb.buf], { wb with offset := 0 }) else ([], wb)

/-- `ctaphid_write` with data: the packets sent and the write buffer. -/
def write (wb : WriteBuffer) : List UInt8 → List Packet × WriteBuffer
  | [] => ([], wb)
  | b :: bs =>
      let r := wb.writeByte b
      let rest := write r.2 bs
      (r.1 ++ rest.1, rest.2)

/-- `ctaphid_write` with a null pointer. -/
def flush (wb : WriteBuffer) : List Packet × WriteBuffer :=
  let wb := if wb.offset = 0 ∧ wb.bytesWritten = 0 then wb.initHeader else wb
  if wb.offset > 0 then
    let wb := { wb with
      buf := wb.buf.write wb.offset (List.replicate (hidMessageSize - wb.offset) 0) }
    ([wb.buf], wb)
  else ([], wb)

/-- Several calls with data, and the call that flushes. -/
def writeAll (wb : WriteBuffer) : List (List UInt8) → List Packet × WriteBuffer
  | [] => wb.flush
  | data :: rest =>
      let r := wb.write data
      let s := writeAll r.2 rest
      (r.1 ++ s.1, s.2)

@[simp] theorem write_nil (wb : WriteBuffer) : wb.write [] = ([], wb) := rfl

theorem write_append (wb : WriteBuffer) (as bs : List UInt8) :
    wb.write (as ++ bs) =
      ((wb.write as).1 ++ ((wb.write as).2.write bs).1, ((wb.write as).2.write bs).2) := by
  induction as generalizing wb with
  | nil => simp
  | cons a as ih => simp [write, ih]

/-- How the data is split into calls does not matter. -/
theorem writeAll_eq (wb : WriteBuffer) (pieces : List (List UInt8)) :
    wb.writeAll pieces =
      ((wb.write pieces.flatten).1 ++ (wb.write pieces.flatten).2.flush.1,
        (wb.write pieces.flatten).2.flush.2) := by
  induction pieces generalizing wb with
  | nil => simp [writeAll]
  | cons data rest ih => simp [writeAll, ih, write_append]

end WriteBuffer

/-- A whole message on a zeroed write buffer. -/
def message (cid : UInt32) (cmd : UInt8) (bcnt : ℕ) (pieces : List (List UInt8)) : List Packet :=
  (WriteBuffer.writeAll { WriteBuffer.zero with cid, cmd, bcnt } pieces).1

end NitrokeyFido2.Hid
