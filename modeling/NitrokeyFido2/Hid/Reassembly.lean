import NitrokeyFido2.Hid.Reception

/-!
Messages are put together as they were cut into packets.

`ctaphid_write` and `ctaphid_buffer_packet` meet at a description of the
packets of a message: the first one carries up to 57 bytes, the others 59
bytes each, but for the last, and are numbered from 0. The writer produces
such packets however the data is split into calls, and the buffer accepts
them at any pace.
-/

namespace NitrokeyFido2.Hid

open FirstMatch

/-! ### The packets of a message -/

/-- The first packet of a message. -/
def initFrame (cid : UInt32) (cmd : UInt8) (bcnt : ℕ) (d : List UInt8) : Packet :=
  Buf.ofList hidMessageSize
    (Bytes.toLe32 cid ++ [cmd, UInt8.ofNat (bcnt / 256), UInt8.ofNat bcnt] ++ d)

/-- A packet that follows. -/
def contFrame (cid : UInt32) (seq : UInt8) (d : List UInt8) : Packet :=
  Buf.ofList hidMessageSize (Bytes.toLe32 cid ++ [seq] ++ d)

/-- These packets carry the data, the first of them with this number. -/
inductive Continues (cid : UInt32) : ℕ → List UInt8 → List Packet → Prop
  | done (k : ℕ) : Continues cid k [] []
  | next (k : ℕ) (d rest : List UInt8) (frames : List Packet) (hpos : d ≠ [])
      (hle : d.length ≤ ctaphidContPayloadSize)
      (hfull : rest ≠ [] → d.length = ctaphidContPayloadSize)
      (h : Continues cid (k + 1) rest frames) :
      Continues cid k (d ++ rest) (contFrame cid (UInt8.ofNat k) d :: frames)

/-! ### Writing -/

namespace WriteBuffer

variable {wb : WriteBuffer}

theorem startPacket_of_pos (h : 0 < wb.offset) : wb.startPacket = wb :=
  if_neg (Nat.pos_iff_ne_zero.mp h)

/-- The packet with some data put behind what it has. -/
def extend (wb : WriteBuffer) (d : List UInt8) : WriteBuffer :=
  { wb with
    buf := wb.buf.write wb.offset d
    offset := wb.offset + d.length
    bytesWritten := wb.bytesWritten + d.length }

theorem extend_extend {d e : List UInt8} (h : wb.offset + d.length + e.length ≤ hidMessageSize) :
    (wb.extend d).extend e = wb.extend (d ++ e) := by
  simp only [extend, Buf.write_write h, List.length_append, Nat.add_assoc]

theorem writeByte_eq (h : 0 < wb.offset) (b : UInt8) :
    wb.writeByte b =
      if wb.offset + 1 = hidMessageSize then
        ([(wb.extend [b]).buf], { wb.extend [b] with offset := 0 })
      else ([], wb.extend [b]) := by
  unfold writeByte
  rw [startPacket_of_pos h]
  rfl

/-- Data that fits into the packet that was begun. -/
theorem write_eq {d : List UInt8} (h : 0 < wb.offset) (hd : d ≠ [])
    (hfit : wb.offset + d.length ≤ hidMessageSize) :
    wb.write d =
      if wb.offset + d.length = hidMessageSize then
        ([(wb.extend d).buf], { wb.extend d with offset := 0 })
      else ([], wb.extend d) := by
  induction d generalizing wb with
  | nil => exact absurd rfl hd
  | cons b bs ih =>
      rw [write, writeByte_eq h]
      cases bs with
      | nil =>
          rw [write_nil]
          dsimp only
          rw [List.append_nil]
          rfl
      | cons b' bs =>
          have hlen : (b :: b' :: bs).length = 1 + (b' :: bs).length := Nat.add_comm _ 1
          rw [if_neg (by rw [hlen, List.length_cons] at hfit; omega)]
          dsimp only
          rw [@ih (wb.extend [b]) (Nat.lt_add_right 1 h) (List.cons_ne_nil b' bs)
            (by show wb.offset + 1 + _ ≤ _; omega), List.nil_append,
            extend_extend (by show wb.offset + 1 + _ ≤ _; omega)]
          show (if wb.offset + 1 + (b' :: bs).length = hidMessageSize then _ else _) = _
          rw [hlen, ← Nat.add_assoc]
          rfl

theorem startPacket_pos (wb : WriteBuffer) : 0 < wb.startPacket.offset := by
  unfold startPacket
  split
  case isFalse h => exact Nat.pos_of_ne_zero h
  case isTrue => split <;> exact Nat.succ_pos _

/-- The header is written before the first byte. -/
theorem write_startPacket (wb : WriteBuffer) {d : List UInt8} (hd : d ≠ []) :
    wb.startPacket.write d = wb.write d := by
  cases d with
  | nil => exact absurd rfl hd
  | cons b bs =>
      have hbyte : wb.startPacket.writeByte b = wb.writeByte b := by
        unfold writeByte
        rw [startPacket_of_pos wb.startPacket_pos]
      rw [write, write, hbyte]

/-- A packet of which only the header is there. -/
structure Headed (wb : WriteBuffer) (hdr : List UInt8) : Prop where
  pos : 0 < hdr.length
  offset : wb.offset = hdr.length
  buf : ∃ b : Packet, wb.buf = b.write 0 hdr

section Headed

variable {hdr d : List UInt8}

theorem Headed.extend (h : wb.Headed hdr) (hfit : hdr.length + d.length ≤ hidMessageSize) :
    ∃ b : Packet, (wb.extend d).buf = b.write 0 (hdr ++ d) := by
  obtain ⟨-, hoffset, b, hbuf⟩ := h
  refine ⟨b, ?_⟩
  show wb.buf.write wb.offset d = _
  have happend : (b.write 0 hdr).write (0 + hdr.length) d = b.write 0 (hdr ++ d) :=
    Buf.write_write (by omega)
  rwa [hbuf, hoffset, ← Nat.zero_add hdr.length]

/-- Data that fills the packet up. -/
theorem Headed.write_full (h : wb.Headed hdr) (hd : d ≠ [])
    (hfit : hdr.length + d.length = hidMessageSize) :
    wb.write d = ([Buf.ofList hidMessageSize (hdr ++ d)], { wb.extend d with offset := 0 }) := by
  obtain ⟨b, hbuf⟩ := h.extend hfit.le
  rw [write_eq (h.offset ▸ h.pos) hd (h.offset ▸ hfit.le), if_pos (h.offset ▸ hfit), hbuf,
    Buf.write_eq_ofList (by rw [List.length_append, hfit])]

/-- Data that leaves room, and the call that flushes. -/
theorem Headed.write_last (h : wb.Headed hdr) (hd : d ≠ [])
    (hfit : hdr.length + d.length < hidMessageSize) :
    (wb.write d).1 = [] ∧ (wb.write d).2.flush.1 = [Buf.ofList hidMessageSize (hdr ++ d)] := by
  obtain ⟨b, hbuf⟩ := h.extend hfit.le
  have hoffset : (wb.extend d).offset = (hdr ++ d).length := by
    rw [List.length_append, ← h.offset]
    rfl
  have hlen : (hdr ++ d).length < hidMessageSize := by rwa [List.length_append]
  have hpos : 0 < (hdr ++ d).length := by
    rw [List.length_append]
    exact Nat.add_pos_left h.pos _
  rw [write_eq (h.offset ▸ h.pos) hd (h.offset ▸ hfit.le), if_neg (by rw [h.offset]; omega)]
  refine ⟨rfl, ?_⟩
  unfold flush
  have hne : ¬ ((wb.extend d).offset = 0 ∧ (wb.extend d).bytesWritten = 0) := by
    rw [hoffset]
    omega
  dsimp only
  rw [if_neg hne, if_pos (by rwa [hoffset]), hbuf, hoffset]
  conv_lhs => rw [← Nat.zero_add (hdr ++ d).length]
  rw [Buf.write_write (by simp; omega), Buf.write_eq_ofList (by simp; omega), Buf.ofList_append_zeros (by omega)]

end Headed

theorem headed_initHeader (wb : WriteBuffer) :
    wb.initHeader.Headed
      (Bytes.toLe32 wb.cid ++ [wb.cmd, UInt8.ofNat (wb.bcnt / 256), UInt8.ofNat wb.bcnt]) :=
  ⟨Nat.succ_pos _, rfl, wb.buf, Buf.write_write (by simp [hidMessageSize])⟩

theorem headed_contHeader (wb : WriteBuffer) :
    wb.contHeader.Headed (Bytes.toLe32 wb.cid ++ [wb.seq]) :=
  ⟨Nat.succ_pos _, rfl, wb.buf, Buf.write_write (by simp [hidMessageSize])⟩

/-- Between two packets the packets that carry the rest are written. -/
theorem continues_write (wb : WriteBuffer) (data : List UInt8) {k : ℕ} (hoffset : wb.offset = 0)
    (hbytes : wb.bytesWritten ≠ 0) (hseq : wb.seq = UInt8.ofNat k) :
    Continues wb.cid k data ((wb.write data).1 ++ (wb.write data).2.flush.1) := by
  by_cases hdata : data = []
  · have hflush : wb.flush.1 = [] := by
      unfold flush
      dsimp only
      rw [if_neg (c := _ ∧ _) fun h => hbytes h.2, if_neg (by omega)]
    rw [hdata, write_nil, List.nil_append, hflush]
    exact .done k
  have hstart : wb.startPacket = wb.contHeader := by
    unfold startPacket
    rw [if_pos hoffset, if_neg hbytes]
  have hheaded := wb.headed_contHeader
  have hhdr : (Bytes.toLe32 wb.cid ++ [wb.seq]).length = 5 := rfl
  have hpayload : ctaphidContPayloadSize = 59 := rfl
  have hsize : hidMessageSize = 64 := rfl
  rw [← write_startPacket wb hdata, hstart]
  by_cases hlast : data.length < ctaphidContPayloadSize
  · -- the last packet has room left
    obtain ⟨hwrite, hflush⟩ := hheaded.write_last hdata (by omega)
    rw [hwrite, hflush, List.nil_append, hseq]
    have hnext : Continues wb.cid k (data ++ []) _ :=
      .next k data [] [] hdata hlast.le (by simp) (.done _)
    rwa [List.append_nil] at hnext
  · have hsplit := List.take_append_drop ctaphidContPayloadSize data
    have hlen : (data.take ctaphidContPayloadSize).length = ctaphidContPayloadSize := by
      rw [List.length_take]
      omega
    have hpos : data.take ctaphidContPayloadSize ≠ [] := List.ne_nil_of_length_pos (by omega)
    have hwrite := hheaded.write_full hpos (by omega)
    rw [← hsplit, write_append, hwrite, hseq]
    refine .next k _ _ _ hpos hlen.le (fun _ => hlen) ?_
    refine continues_write
      { wb.contHeader.extend (data.take ctaphidContPayloadSize) with offset := 0 }
      (data.drop ctaphidContPayloadSize) (k := k + 1) rfl ?_ ?_
    · show wb.bytesWritten + (data.take ctaphidContPayloadSize).length ≠ 0
      omega
    · show wb.seq + 1 = UInt8.ofNat (k + 1)
      rw [hseq, UInt8.ofNat_add]
      rfl
termination_by data.length
decreasing_by
  rw [List.length_drop]
  omega

/-- At the start of a message the first packet and those that carry the rest are
written. -/
theorem frames_write (wb : WriteBuffer) {data : List UInt8} (hoffset : wb.offset = 0)
    (hbytes : wb.bytesWritten = 0) (hseq : wb.seq = 0) (hdata : data ≠ []) :
    ∃ frames, (wb.write data).1 ++ (wb.write data).2.flush.1 =
        initFrame wb.cid wb.cmd wb.bcnt (data.take ctaphidInitPayloadSize) :: frames ∧
      Continues wb.cid 0 (data.drop ctaphidInitPayloadSize) frames := by
  have hstart : wb.startPacket = wb.initHeader := by
    unfold startPacket
    rw [if_pos hoffset, if_pos hbytes]
  have hpayload : ctaphidInitPayloadSize = 57 := rfl
  have hsize : hidMessageSize = 64 := rfl
  have hheaded := wb.headed_initHeader
  have hhdr : (Bytes.toLe32 wb.cid ++
    [wb.cmd, UInt8.ofNat (wb.bcnt / 256), UInt8.ofNat wb.bcnt]).length = 7 := rfl
  rw [← write_startPacket wb hdata, hstart]
  by_cases hlast : data.length < ctaphidInitPayloadSize
  · -- the first packet has room left
    obtain ⟨hwrite, hflush⟩ := hheaded.write_last hdata (by omega)
    refine ⟨[], ?_, ?_⟩
    · rw [hwrite, hflush, List.nil_append, List.take_of_length_le hlast.le]
      rfl
    · rw [List.drop_of_length_le hlast.le]
      exact .done 0
  · have hsplit := List.take_append_drop ctaphidInitPayloadSize data
    have hlen : (data.take ctaphidInitPayloadSize).length = ctaphidInitPayloadSize := by
      rw [List.length_take]
      omega
    have hpos : data.take ctaphidInitPayloadSize ≠ [] := List.ne_nil_of_length_pos (by omega)
    have hwrite := write_append wb.initHeader (data.take ctaphidInitPayloadSize)
      (data.drop ctaphidInitPayloadSize)
    rw [hsplit, hheaded.write_full hpos (by omega)] at hwrite
    rw [hwrite]
    refine ⟨_, rfl, ?_⟩
    refine continues_write
      { wb.initHeader.extend (data.take ctaphidInitPayloadSize) with offset := 0 }
      (data.drop ctaphidInitPayloadSize) (k := 0) rfl ?_ hseq
    show wb.bytesWritten + (data.take ctaphidInitPayloadSize).length ≠ 0
    omega

end WriteBuffer

/-- A message is the packet with its first 57 bytes and the packets that carry
the rest. -/
theorem message_frames (cid : UInt32) (cmd : UInt8) (n : ℕ) (pieces : List (List UInt8))
    (hdata : pieces.flatten ≠ []) :
    ∃ frames, message cid cmd n pieces =
        initFrame cid cmd n (pieces.flatten.take ctaphidInitPayloadSize) :: frames ∧
      Continues cid 0 (pieces.flatten.drop ctaphidInitPayloadSize) frames := by
  unfold message
  rw [WriteBuffer.writeAll_eq]
  exact WriteBuffer.frames_write { WriteBuffer.zero with cid, cmd, bcnt := n } rfl rfl rfl hdata

/-! ### The fields of the packets -/

theorem cid_ofList {cid : UInt32} {rest : List UInt8} (h : rest.length ≤ 60) :
    Packet.cid (Buf.ofList hidMessageSize (Bytes.toLe32 cid ++ rest)) = cid := by
  have hslice := Buf.slice_ofList (n := hidMessageSize) [] (l := Bytes.toLe32 cid) rest
    (by simp [hidMessageSize]; omega)
  rw [List.nil_append] at hslice
  have hle := Bytes.le32_toLe32 cid []
  rw [List.append_nil] at hle
  exact (congrArg Bytes.le32 hslice).trans hle

section Frames

variable {cid : UInt32} {cmd seq : UInt8} {n : ℕ} {d : List UInt8}

section Init

variable (hd : d.length ≤ 57)
include hd

theorem cid_initFrame : (initFrame cid cmd n d).cid = cid := by
  unfold initFrame
  rw [List.append_assoc]
  exact cid_ofList (by simp; omega)

theorem cmd_initFrame : (initFrame cid cmd n d).cmd = cmd :=
  Buf.byte_ofList (by simp [hidMessageSize]; omega) 4

theorem len_initFrame (hn : n < 65536) : (initFrame cid cmd n d).len = n := by
  have hbyte := Buf.byte_ofList (n := hidMessageSize)
    (l := Bytes.toLe32 cid ++ [cmd, UInt8.ofNat (n / 256), UInt8.ofNat n] ++ d)
    (by simp [hidMessageSize]; omega)
  have hhi : (initFrame cid cmd n d).byte 5 = UInt8.ofNat (n / 256) := hbyte 5
  have hlo : (initFrame cid cmd n d).byte 6 = UInt8.ofNat n := hbyte 6
  rw [Packet.len, hhi, hlo, UInt8.toNat_ofNat', UInt8.toNat_ofNat']
  omega

theorem initPayload_initFrame : (initFrame cid cmd n d).initPayload.take d.length = d := by
  have hslice := Buf.slice_ofList (n := hidMessageSize)
    (Bytes.toLe32 cid ++ [cmd, UInt8.ofNat (n / 256), UInt8.ofNat n]) (l := d) [] (by simp [hidMessageSize]; omega)
  rw [List.append_nil] at hslice
  rw [Packet.initPayload, Buf.slice, List.take_take, Nat.min_eq_left hd]
  exact hslice

end Init

section Cont

variable (hd : d.length ≤ 59)
include hd

theorem cid_contFrame : (contFrame cid seq d).cid = cid := by
  unfold contFrame
  rw [List.append_assoc]
  exact cid_ofList (by simp; omega)

theorem cmd_contFrame : (contFrame cid seq d).cmd = seq :=
  Buf.byte_ofList (by simp [hidMessageSize]; omega) 4

theorem contPayload_contFrame : (contFrame cid seq d).contPayload.take d.length = d := by
  have hslice := Buf.slice_ofList (n := hidMessageSize) (Bytes.toLe32 cid ++ [seq]) (l := d) []
    (by simp [hidMessageSize]; omega)
  rw [List.append_nil] at hslice
  rw [Packet.contPayload, Buf.slice, List.take_take, Nat.min_eq_left hd]
  exact hslice

end Cont

end Frames

/-! ### Buffering -/

/-- Packets that arrive one after the other, each at its time: what
`ctaphid_buffer_packet` returns for them, and the layer after them. -/
def Layer.bufferAll (s : Layer) : List (UInt32 × Packet) → List PacketStatus × Layer
  | [] => ([], s)
  | (now, pkt) :: rest =>
      let r := s.bufferPacket now pkt
      let q := bufferAll r.2 rest
      (r.1 :: q.1, q.2)

/-- The status of the buffer when so much data is still to come. -/
def statusBefore (rest : List UInt8) : BufferStatus := if rest = [] then .buffered else .buffering

/-- The buffer holds this much of a message of `n` bytes, and packet `k` comes
next. -/
structure Layer.Holds (s : Layer) (cid : UInt32) (cmd : UInt8) (n : ℕ) (got : List UInt8) (k : ℕ) :
    Prop where
  slot : cidExists cid s.cids = true
  cid : s.buffer.cid = cid
  cmd : s.buffer.cmd = cmd
  bcnt : s.buffer.bcnt = n
  offset : s.buffer.offset = got.length
  seq : s.buffer.seq = k - 1
  data : s.buffer.data.slice 0 got.length = got

/-- What the buffer holds, and who has a slot. -/
theorem Layer.Holds.congr {s t : Layer} {cid : UInt32} {cmd : UInt8} {n k : ℕ} {got : List UInt8}
    (h : s.Holds cid cmd n got k) (hbuffer : t.buffer = s.buffer)
    (hmap : t.cids.map (·.cid) = s.cids.map (·.cid)) : t.Holds cid cmd n got k where
  slot := (cidExists_congr hmap).trans h.slot
  cid := hbuffer ▸ h.cid
  cmd := hbuffer ▸ h.cmd
  bcnt := hbuffer ▸ h.bcnt
  offset := hbuffer ▸ h.offset
  seq := hbuffer ▸ h.seq
  data := hbuffer ▸ h.data

theorem Layer.Holds.status {s : Layer} {cid : UInt32} {cmd : UInt8} {got rest : List UInt8} {k : ℕ}
    (h : s.Holds cid cmd (got ++ rest).length got k) (hpos : got ++ rest ≠ []) :
    s.buffer.status = statusBefore rest := by
  have hlen := List.length_pos_of_ne_nil hpos
  unfold CtapBuffer.status statusBefore
  rw [h.bcnt, h.offset, if_neg (by omega), List.length_append]
  by_cases hrest : rest = []
  · rw [if_pos hrest, if_pos (by rw [hrest]; simp)]
  · have := List.length_pos_of_ne_nil hrest
    rw [if_neg hrest, if_neg (by omega)]

section Buffering

variable {s : Layer} (now : UInt32) {cid : UInt32} {cmd : UInt8}

/-- Numbers up to 127 are not commands. -/
theorem seq_isCont {seq : UInt8} (h : seq.toNat < 128) : seq &&& typeInit = 0 := by
  have hlow : ∀ k : Fin 128, UInt8.ofNat k &&& typeInit = 0 := by decide
  have hseq := hlow ⟨seq.toNat, h⟩
  rwa [UInt8.ofNat_toNat] at hseq

/-- The first packet. -/
theorem bufferPacket_initFrame {d rest : List UInt8}
    (hsize : (d ++ rest).length ≤ ctaphidBufferSize) (hpos : d ++ rest ≠ [])
    (hd : d.length = min (d ++ rest).length 57) (hcid : cid ≠ ctaphidBroadcastCid)
    (hinit : cmd ≠ ctaphidInitCmd) (htype : cmd &&& typeInit ≠ 0)
    (hempty : s.buffer.status = .empty)
    (hslot : cidExists cid s.cids = true ∨ ∃ c ∈ s.cids.take usedSlots, c.busy = false) :
    (s.bufferPacket now (initFrame cid cmd (d ++ rest).length d)).1 = .buffer (statusBefore rest) ∧
      (s.bufferPacket now (initFrame cid cmd (d ++ rest).length d)).2.Holds cid cmd
        (d ++ rest).length d 0 := by
  have hle : d.length ≤ 57 := by omega
  have hpktcid : (initFrame cid cmd (d ++ rest).length d).cid = cid := cid_initFrame hle
  have hpktcmd : (initFrame cid cmd (d ++ rest).length d).cmd = cmd := cmd_initFrame hle
  have hpktlen : (initFrame cid cmd (d ++ rest).length d).len = (d ++ rest).length :=
    len_initFrame hle (lt_of_le_of_lt hsize (by decide))
  have hpayload : (initFrame cid cmd (d ++ rest).length d).initPayload.take d.length = d :=
    initPayload_initFrame hle
  generalize initFrame cid cmd (d ++ rest).length d = pkt at *
  subst hpktcid hpktcmd
  have hord : pkt.Ordinary := ⟨decide_eq_false hinit, hcid⟩
  have hcont : pkt.isCont = false := decide_eq_false htype
  obtain ⟨cids, hcids, heq⟩ := bufferPacket_begun now hord hcont (hpktlen ▸ hsize) hempty
    hslot
  have hmin : min (pkt.len : ℤ) ctaphidInitPayloadSize = d.length := by
    rw [hpktlen, hd]
    push_cast
    rfl
  have hholds : (s.bufferPacket now pkt).2.Holds pkt.cid pkt.cmd (d ++ rest).length d 0 := by
    rw [heq, CtapBuffer.bufferPacket_begin hcont, hmin, Int.toNat_natCast, hpayload]
    refine ⟨?_, rfl, rfl, hpktlen, rfl, rfl, ?_⟩
    · rw [cidExists_congr (map_cid_cidRefresh hcids)]
      exact exists_opened hcont hempty hslot
    · exact Buf.slice_write_self (by show 0 + d.length ≤ 7609; omega)
  refine ⟨?_, hholds⟩
  rw [← hholds.status hpos, heq]

theorem Packet.length_contPayload (pkt : Packet) : pkt.contPayload.length = 59 := by
  rw [contPayload, Buf.slice, List.length_take, List.length_drop, Buf.length_bytes]
  rfl

/-- The next packet of a message that is not complete. -/
theorem Layer.Holds.continued {n k : ℕ} {got : List UInt8} {pkt : Packet}
    (h : s.Holds cid cmd n got k) (hlt : got.length < n) (hsize : n ≤ ctaphidBufferSize)
    (hord : pkt.Ordinary) (hcont : pkt.isCont = true) (hcid : pkt.cid = cid)
    (hseq : pkt.cmd.toNat = k) :
    ∃ cids, cidRefresh now s.buffer.message cid s.cids = some cids ∧
      s.bufferPacket now pkt = (.buffer (s.bufferPacket now pkt).2.buffer.status,
        (s.bufferPacket now pkt).2) ∧
      (s.bufferPacket now pkt).2.cids = cids ∧
      (s.bufferPacket now pkt).2.Holds cid cmd n (got ++ pkt.contPayload.take (n - got.length))
        (k + 1) := by
  subst hcid
  have hseq' : s.buffer.seq + 1 = (pkt.cmd.toNat : ℤ) := by
    rw [hseq, h.seq]
    omega
  have hstatus : s.buffer.status ≠ .empty := by
    unfold CtapBuffer.status
    rw [h.bcnt, if_neg (by omega)]
    split <;> exact fun h => nomatch h
  have hmin : (min ((s.buffer.bcnt : ℤ) - s.buffer.offset) ctaphidContPayloadSize).toNat =
      min (n - got.length) 59 := by
    rw [h.bcnt, h.offset]
    show (min ((n : ℤ) - got.length) 59).toNat = _
    omega
  have hlen : (pkt.contPayload.take (n - got.length)).length = min (n - got.length) 59 := by
    rw [List.length_take, pkt.length_contPayload]
  have htake : pkt.contPayload.take (min (n - got.length) 59) =
      pkt.contPayload.take (n - got.length) := by
    rw [← List.take_take, List.take_of_length_le (i := 59) pkt.length_contPayload.le]
  obtain ⟨cids, hcids, heq⟩ := bufferPacket_continued now hord hcont h.slot hstatus
    h.cid.symm hseq'
  refine ⟨cids, hcids, by rw [heq], by rw [heq], ?_⟩
  rw [heq, CtapBuffer.bufferPacket_continue hcont hseq', hmin, htake, h.offset, Int.toNat_natCast]
  refine ⟨?_, h.cid, h.cmd, h.bcnt, ?_, ?_, ?_⟩
  · rw [cidExists_congr (map_cid_cidRefresh hcids)]
    exact h.slot
  · rw [List.length_append, hlen, Nat.cast_add, ← hmin, h.offset, h.bcnt]
    show _ + min ((n : ℤ) - got.length) 59 = _ + ((min ((n : ℤ) - got.length) 59).toNat : ℤ)
    omega
  · rw [h.seq]
    push_cast
    omega
  · rw [List.length_append, Buf.slice_zero_write, h.data]
    rw [hlen]
    omega

/-- A packet that follows. -/
theorem bufferPacket_contFrame {k : ℕ} {got d rest : List UInt8}
    (h : s.Holds cid cmd (got ++ (d ++ rest)).length got k) (hpos : d ≠ [])
    (hle : d.length ≤ ctaphidContPayloadSize)
    (hfull : rest ≠ [] → d.length = ctaphidContPayloadSize)
    (hsize : (got ++ (d ++ rest)).length ≤ ctaphidBufferSize) (hk : k < 128)
    (hcid : cid ≠ ctaphidBroadcastCid) :
    (s.bufferPacket now (contFrame cid (UInt8.ofNat k) d)).1 = .buffer (statusBefore rest) ∧
      (s.bufferPacket now (contFrame cid (UInt8.ofNat k) d)).2.Holds cid cmd
        (got ++ (d ++ rest)).length (got ++ d) (k + 1) := by
  have hpktcid : (contFrame cid (UInt8.ofNat k) d).cid = cid := cid_contFrame hle
  have hpktcmd : (contFrame cid (UInt8.ofNat k) d).cmd = UInt8.ofNat k := cmd_contFrame hle
  have hpayload : (contFrame cid (UInt8.ofNat k) d).contPayload.take d.length = d :=
    contPayload_contFrame hle
  generalize contFrame cid (UInt8.ofNat k) d = pkt at *
  have hseqNat : pkt.cmd.toNat = k := by
    rw [hpktcmd, UInt8.toNat_ofNat']
    omega
  have hcont : pkt.isCont = true := decide_eq_true (seq_isCont (by omega))
  have hord : pkt.Ordinary := ⟨Packet.isInit_of_isCont hcont, hpktcid ▸ hcid⟩
  have hlen := List.length_pos_of_ne_nil hpos
  have hlt : got.length < (got ++ (d ++ rest)).length := by
    simp only [List.length_append]
    omega
  obtain ⟨cids, -, heq, -, hholds⟩ := h.continued now hlt hsize hord hcont hpktcid hseqNat
  have htake : pkt.contPayload.take ((got ++ (d ++ rest)).length - got.length) = d := by
    rw [List.length_append, Nat.add_sub_cancel_left]
    by_cases hrest : rest = []
    · rw [hrest, List.append_nil, hpayload]
    · have hd : d.length = 59 := hfull hrest
      rw [List.take_of_length_le, ← hpayload, List.take_of_length_le]
      · rw [pkt.length_contPayload, hd]
      · rw [pkt.length_contPayload, List.length_append, hd]
        exact Nat.le_add_right 59 _
  rw [htake] at hholds
  refine ⟨?_, hholds⟩
  rw [← List.append_assoc] at hholds
  rw [heq, hholds.status (by simp [hpos])]

/-- The packets that follow. -/
theorem bufferAll_continues {k : ℕ} {got rest : List UInt8} {pkts : List Packet}
    (hpkts : Continues cid k rest pkts) {frames : List (UInt32 × Packet)}
    (hframes : frames.map Prod.snd = pkts) (h : s.Holds cid cmd (got ++ rest).length got k)
    (hsize : (got ++ rest).length ≤ ctaphidBufferSize) (hk : rest.length ≤ 59 * (128 - k))
    (hcid : cid ≠ ctaphidBroadcastCid) :
    PacketStatus.buffer (statusBefore rest) :: (s.bufferAll frames).1 =
        List.replicate pkts.length (.buffer .buffering) ++ [.buffer .buffered] ∧
      ∃ k', (s.bufferAll frames).2.Holds cid cmd (got ++ rest).length (got ++ rest) k' := by
  induction hpkts generalizing s got frames with
  | done k =>
      obtain rfl := List.map_eq_nil_iff.mp hframes
      refine ⟨rfl, k, ?_⟩
      rw [List.append_nil] at h ⊢
      exact h
  | next k d rest pkts hpos hle hfull hpkts ih =>
      obtain ⟨⟨now, pkt⟩, frames, rfl, rfl, hrest⟩ := List.map_eq_cons_iff.mp hframes
      have hlen := List.length_pos_of_ne_nil hpos
      rw [List.length_append] at hk
      have hlt : k < 128 := by omega
      obtain ⟨hstatus, hnext⟩ := bufferPacket_contFrame now h hpos hle hfull hsize hlt hcid
      rw [← List.append_assoc] at hnext hsize
      have hleft : rest.length ≤ 59 * (128 - (k + 1)) := by
        by_cases hrest : rest = []
        · rw [hrest]
          exact Nat.zero_le _
        · have hd : d.length = 59 := hfull hrest
          omega
      obtain ⟨hstatuses, k', hend⟩ := ih hrest hnext hsize hleft
      rw [← List.append_assoc]
      refine ⟨?_, k', hend⟩
      rw [Layer.bufferAll, statusBefore, if_neg (by simp [hpos])]
      dsimp only
      rw [hstatus, hstatuses, List.length_cons, List.replicate_succ, List.cons_append]

end Buffering

/-- Whatever calls of `ctaphid_write` a message is given to, and at whatever
pace its packets come: in an empty buffer, with a slot for the channel, all but
the last leave the buffer unfinished, and the last completes the same message
in it. -/
theorem message_reassembled (s : Layer) (cid : UInt32) (cmd : UInt8) (pieces : List (List UInt8))
    (frames : List (UInt32 × Packet)) (hcid : cid ≠ ctaphidBroadcastCid) (htype : cmd &&& typeInit ≠ 0)
    (hinit : cmd ≠ ctaphidInitCmd) (hpos : 1 ≤ pieces.flatten.length) (hsize : pieces.flatten.length ≤ ctaphidBufferSize)
    (hempty : s.buffer.status = .empty)
    (hslot : cidExists cid s.cids = true ∨ ∃ c ∈ s.cids.take usedSlots, c.busy = false)
    (hframes : frames.map Prod.snd = message cid cmd pieces.flatten.length pieces) :
    (s.bufferAll frames).1 =
        List.replicate (frames.length - 1) (.buffer .buffering) ++ [.buffer .buffered] ∧
      (s.bufferAll frames).2.buffer.data.slice 0 pieces.flatten.length = pieces.flatten ∧
      (s.bufferAll frames).2.buffer.cmd = cmd ∧
      (s.bufferAll frames).2.buffer.bcnt = pieces.flatten.length ∧
      (s.bufferAll frames).2.buffer.cid = cid := by
  have hne : pieces.flatten ≠ [] := List.ne_nil_of_length_pos hpos
  obtain ⟨pkts, hmessage, hrest⟩ := message_frames cid cmd pieces.flatten.length pieces hne
  rw [hmessage] at hframes
  obtain ⟨⟨now, pkt⟩, frames, rfl, rfl, htail⟩ := List.map_eq_cons_iff.mp hframes
  generalize pieces.flatten = data at *
  have hsplit := List.take_append_drop ctaphidInitPayloadSize data
  have hlen : (data.take ctaphidInitPayloadSize).length = min data.length 57 :=
    (List.length_take).trans (Nat.min_comm _ _)
  have hdrop : (data.drop ctaphidInitPayloadSize).length ≤ 59 * (128 - 0) := by
    have hfits : data.length ≤ 57 + 59 * 128 := hsize
    rw [List.length_drop]
    show data.length - 57 ≤ _
    omega
  generalize data.take ctaphidInitPayloadSize = d at *
  generalize data.drop ctaphidInitPayloadSize = rest at *
  subst hsplit
  obtain ⟨hstatus, hholds⟩ := bufferPacket_initFrame now hsize hne hlen hcid hinit
    htype hempty hslot
  obtain ⟨hstatuses, k, hend⟩ := bufferAll_continues hrest htail hholds hsize hdrop hcid
  have hcount : pkts.length = frames.length := by
    rw [← htail, List.length_map]
  refine ⟨?_, hend.data, hend.cmd, hend.bcnt, hend.cid⟩
  rw [Layer.bufferAll, List.length_cons, Nat.add_sub_cancel, ← hcount, ← hstatuses, ← hstatus]

/-- A CTAPHID_PING of 100 bytes on channel 5, written in two calls. -/
def demoPing : List (List UInt8) := [List.replicate 40 1, List.replicate 60 2]

theorem message_reassembled_demo :
    let frames := (message 5 ctaphidPing 100 demoPing).map fun pkt => ((7 : UInt32), pkt)
    (Layer.zero.bufferAll frames).1 =
        List.replicate (frames.length - 1) (.buffer .buffering) ++ [.buffer .buffered] ∧
      (Layer.zero.bufferAll frames).2.buffer.data.slice 0 100 = demoPing.flatten ∧
      (Layer.zero.bufferAll frames).2.buffer.cmd = ctaphidPing ∧
      (Layer.zero.bufferAll frames).2.buffer.bcnt = 100 ∧
      (Layer.zero.bufferAll frames).2.buffer.cid = 5 :=
  message_reassembled Layer.zero 5 ctaphidPing demoPing _ (by decide) (by decide) (by decide)
    (by decide) (by decide) (by decide) (.inr ⟨⟨0, 0, false, 0⟩, by decide, rfl⟩)
    (by rw [List.map_map]; exact List.map_id _)

end NitrokeyFido2.Hid
