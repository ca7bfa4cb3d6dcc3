import NitrokeyFido2.Nfc.CommandChaining

/-!
ISO 14443-4 blocks as they arrive: `nfc_process_block`.

The information fields of chained I-blocks are collected in the frame buffer;
the last block of the chain is appended, its header put in front, and the
whole handed to `nfc_process_iblock`. Only chained blocks are tested for
room.
-/

namespace NitrokeyFido2.Nfc

/-- A received block in its 32-byte buffer, with what the command layers will
answer. -/
structure BlockEvent where
  buf : Buf 32
  len : ℕ
  len_le : len ≤ 32
  answer : Answer

namespace BlockEvent

variable (e : BlockEvent)

def pcb : UInt8 := e.buf.byte 0

def blockOffset : ℕ := p14443BlockOffset e.pcb

/-- The bytes in front of the information field, as many as the PCB says. -/
def header : List UInt8 := e.buf.slice 0 e.blockOffset

/-- The information field. -/
def info : List UInt8 := e.buf.slice e.blockOffset (e.len - e.blockOffset)

end BlockEvent

/-- What is sent for a block that does not reach the APDU layer. -/
inductive BlockReply
  | frame (data : List UInt8)
  | reply (r : Reply)

/-- What `nfc_process_block` did with a block. -/
inductive BlockOutcome
  /-- It was answered, or ignored. -/
  | answered (replies : List BlockReply) (s : State)
  /-- A chained I-block was accepted and acknowledged. -/
  | chained (ack : List UInt8) (s : State)
  /-- `nfc_process_iblock` was called in this state, with this length. -/
  | handed (s : State) (len : ℕ) (o : Outcome)
  /-- The frame buffer was written behind its end. -/
  | overrun

/-- `clear_ibuf`. -/
def State.clearIbuf (s : State) : State := { s with ibuflen := 0, ibuf := Buf.zero 1024 }

/-- The state after the block, unless a write has left its buffer. -/
def BlockOutcome.next : BlockOutcome → Option State
  | .answered _ s | .chained _ s => some s
  | .handed _ _ o => o.next.map State.clearIbuf
  | .overrun => none

namespace State

variable (s : State) (e : BlockEvent)

/-- The card identifier is taken over from every block that has one. -/
def takeCid : State := if p14443HaveCid e.pcb then { s with currentCid := e.buf.byte 1 } else s

/-- The information field is appended. -/
def appendIbuf : Option State :=
  if e.blockOffset < e.len then do
    let ibuf ← s.ibuf.store s.ibuflen e.info
    return { s with ibuf := ibuf, ibuflen := s.ibuflen + (e.len - e.blockOffset) }
  else some s

/-- The collected bytes make room for the header of the last block. -/
def addHeader : Option State := do
  let ibuf ← s.ibuf.store e.blockOffset (s.ibuf.slice 0 s.ibuflen)
  let ibuf ← ibuf.store 0 e.header
  return { s with ibuf := ibuf, ibuflen := s.ibuflen + e.blockOffset }

/-- The block that is handed to the APDU layer. -/
def assemble : Option (State × ℕ) :=
  if s.ibuflen ≠ 0 then do
    let s ← s.appendIbuf e
    let s ← s.addHeader e
    return (s, s.ibuflen)
  else do
    let ibuf ← s.ibuf.store 0 (e.buf.slice 0 e.len)
    return ({ s with ibuf := ibuf }, e.len)

end State

/-- `nfc_process_block`. -/
def nfcProcessBlock (s : State) (e : BlockEvent) : BlockOutcome :=
  if e.len = 0 then .answered [] s
  else if isPpssCmd e.pcb then
    if e.buf.byte 1 = 0x11 ∧ e.buf.byte 2 &&& 0x0f = 0x00 then
      .answered [.frame (e.buf.slice 0 1)] s
    else .answered [.frame [0x00]] s
  else if isIblock e.pcb then
    let s := s.takeCid e
    if e.pcb &&& iblockChaining ≠ 0 then
      if 1024 < s.ibuflen + e.len then .answered [.reply (.response [] swInternalException)] s
      else
        match s.appendIbuf e with
        | none => .overrun
        | some s => .chained (rblockAcknowledge s.currentCid e.pcb true) s
    else
      match s.assemble e with
      | none => .overrun
      | some (s, len) => .handed s len (nfcProcessIblock s len e.answer)
  else if isRblock e.pcb then
    let s := s.takeCid e
    .answered [.frame (rblockAcknowledge s.currentCid e.pcb true)] s
  else if isSblock e.pcb then
    if e.pcb &&& 0x30 = 0 then
      .answered [.frame e.header] (s.takeCid e).nfcStateInit.clearIbuf
    else .answered [.reply (.response [] swCondUseNotSatisfied)] s
  else .answered [] s

/-! ### Reassembly -/

/-- What `nfc_loop` takes up: a block, a request for answer to select, or a
card selected anew. -/
inductive NfcEvent
  | block (e : BlockEvent)
  | rats
  | stateInit

/-- The device, as long as no write has left its buffer, and the information
fields accepted since the frame buffer was last cleared. -/
structure BlockMonitor where
  device : Option State
  collected : List UInt8

/-- The block deselects the card. -/
def BlockEvent.deselects (e : BlockEvent) : Bool :=
  e.len ≠ 0 ∧ ¬ isPpssCmd e.pcb ∧ isSblock e.pcb ∧ e.pcb &&& 0x30 = 0

namespace BlockMonitor

def powerUp : BlockMonitor := ⟨some State.powerUp, []⟩

/-- The collected information fields after a block. -/
def collectedAfter (collected : List UInt8) (e : BlockEvent) : BlockOutcome → List UInt8
  | .chained _ _ => collected ++ e.info
  | .handed _ _ _ => []
  | _ => if e.deselects then [] else collected

def step (m : BlockMonitor) : NfcEvent → BlockMonitor
  | .rats => ⟨m.device.map State.clearIbuf, []⟩
  | .stateInit => ⟨m.device.map State.nfcStateInit, m.collected⟩
  | .block e =>
      match m.device with
      | none => m
      | some s => ⟨(nfcProcessBlock s e).next, collectedAfter m.collected e (nfcProcessBlock s e)⟩

end BlockMonitor

/-- No write leaves the frame buffer, and what the APDU layer is handed behind
the header is the collected information fields and that of the last block. -/
structure BlockExact (m : BlockMonitor) (ev : NfcEvent) : Prop where
  fits : ∀ e s, ev = .block e → m.device = some s → nfcProcessBlock s e ≠ .overrun
  mergeFits : ∀ e s t len, ev = .block e → m.device = some s →
    nfcProcessBlock s e ≠ .handed t len .overrun
  handed : ∀ e s t len o, ev = .block e → m.device = some s →
    nfcProcessBlock s e = .handed t len o →
    t.ibuf.slice t.blockOffset (len - t.blockOffset) = m.collected ++ e.info

/-- The block is the last one of an APDU. -/
def BlockEvent.isLast (e : BlockEvent) : Bool :=
  e.len ≠ 0 ∧ ¬ isPpssCmd e.pcb ∧ isIblock e.pcb ∧ e.pcb &&& iblockChaining = 0

/-- A chain of commands that is pending has room in the frame buffer, together
with the data of this APDU, behind a header of `offset` bytes. -/
def MergeFits (s : State) (offset : ℕ) (apdu : List UInt8) : Prop :=
  ∀ a, apduDecode (apdu.getD · 0) apdu.length = .ok a → s.chainBufferTx = false →
    0 < s.chainBufferLen → apdu.getD 0 0 &&& claChaining = 0 →
      ∃ off, a.data = some off ∧ offset + off + s.chainBufferLen + a.lc ≤ 1024

/-- The last block of a chain leaves room for itself, and the APDU for a chain
of commands before it. -/
structure BlockFits (m : BlockMonitor) (ev : NfcEvent) : Prop where
  last : ∀ e s, ev = .block e → m.device = some s → e.isLast → m.collected ≠ [] →
    m.collected.length + max e.len e.blockOffset ≤ 1024
  merge : ∀ e s, ev = .block e → m.device = some s → e.isLast →
    MergeFits s e.blockOffset (m.collected ++ e.info)

/-! ### The frame buffer -/

theorem ofList_write {n : ℕ} {xs ys : List UInt8} (h : xs.length + ys.length ≤ n) :
    (Buf.ofList n xs).write xs.length ys = Buf.ofList n (xs ++ ys) := by
  have hwrite : ((Buf.zero n).write 0 xs).write (0 + xs.length) ys = (Buf.zero n).write 0 (xs ++ ys) :=
    Buf.write_write (by omega)
  rwa [Nat.zero_add] at hwrite

theorem ofList_nil {n : ℕ} : Buf.ofList n [] = Buf.zero n := Buf.write_nil ..

theorem slice_ofList_self {n : ℕ} {xs : List UInt8} (h : xs.length ≤ n) :
    (Buf.ofList n xs).slice 0 xs.length = xs := Buf.slice_written rfl (by omega)

theorem ext_byte {n : ℕ} {a b : Buf n} (h : ∀ i < n, a.byte i = b.byte i) : a = b := by
  apply Buf.ext
  apply List.ext_getElem
  · rw [a.length_bytes, b.length_bytes]
  · intro i hi hi'
    rw [a.length_bytes] at hi
    have := h i hi
    rwa [Buf.byte, Buf.byte, List.getD_eq_getElem, List.getD_eq_getElem] at this

/-- Shifting the bytes of the buffer and putting a header in front. -/
theorem ofList_shift {n : ℕ} {xs h : List UInt8} (hfit : h.length + xs.length ≤ n) :
    ((Buf.ofList n xs).write h.length xs).write 0 h = Buf.ofList n (h ++ xs) := by
  apply ext_byte
  intro i hi
  rw [Buf.byte_write (by omega), Buf.byte_write hfit, Buf.byte_ofList (by omega),
    Buf.byte_ofList (by rw [List.length_append]; exact hfit)]
  by_cases hh : i < h.length
  · rw [if_pos (by omega), List.getD_append _ _ _ _ hh, Nat.sub_zero]
  · rw [if_neg (by omega), List.getD_append_right _ _ _ _ (by omega)]
    by_cases hx : i < h.length + xs.length
    · rw [if_pos (by omega)]
    · rw [if_neg (by omega), List.getD_eq_default _ _ (by omega), List.getD_eq_default _ _ (by omega)]

namespace BlockEvent

variable (e : BlockEvent)

theorem blockOffset_le : e.blockOffset ≤ 3 := p14443BlockOffset_le _

@[simp] theorem length_header : e.header.length = e.blockOffset :=
  Buf.length_slice (by
    have := e.blockOffset_le
    omega)

@[simp] theorem length_info : e.info.length = e.len - e.blockOffset := by
  have hoff := e.blockOffset_le
  have hlen := e.len_le
  by_cases h : e.blockOffset ≤ e.len
  · exact Buf.length_slice (by omega)
  · rw [info, show e.len - e.blockOffset = 0 by omega]
    rfl

end BlockEvent

/-- The frame buffer holds the collected bytes and zeros behind them. -/
structure Collects (collected : List UInt8) (s : State) : Prop where
  ibuf : s.ibuf = Buf.ofList 1024 collected
  ibuflen : s.ibuflen = collected.length
  fits : collected.length ≤ 1024
  chain : s.chainBufferLen ≤ 2048

section Assembly

variable {collected : List UInt8} {s t : State} {e : BlockEvent} {len : ℕ}

theorem Collects.takeCid (hs : Collects collected s) : Collects collected (s.takeCid e) := by
  unfold State.takeCid
  split_ifs
  · exact ⟨hs.ibuf, hs.ibuflen, hs.fits, hs.chain⟩
  · exact hs

theorem Collects.nfcStateInit (hs : Collects collected s) : Collects collected s.nfcStateInit :=
  ⟨hs.ibuf, hs.ibuflen, hs.fits, hs.chain⟩

theorem collects_clearIbuf (hchain : s.chainBufferLen ≤ 2048) : Collects [] s.clearIbuf := by
  refine ⟨?_, rfl, Nat.zero_le _, hchain⟩
  exact ofList_nil.symm

/-- Appending an information field, if there is room for it. -/
theorem appendIbuf_collects (hs : Collects collected s)
    (hfit : collected.length + e.info.length ≤ 1024) :
    ∃ t, s.appendIbuf e = some t ∧ Collects (collected ++ e.info) t ∧
      t = { s with ibuf := t.ibuf, ibuflen := t.ibuflen } := by
  unfold State.appendIbuf
  by_cases hinfo : e.blockOffset < e.len
  · rw [if_pos hinfo, hs.ibuf, hs.ibuflen, Buf.store_of_le hfit, Option.bind_eq_bind,
      Option.bind_some, ofList_write hfit]
    refine ⟨_, rfl, ⟨rfl, ?_, ?_, hs.chain⟩, rfl⟩
    · rw [List.length_append, e.length_info]
    · rw [List.length_append]
      exact hfit
  · rw [if_neg hinfo]
    have hnil : e.info = [] := List.length_eq_zero_iff.mp (by rw [e.length_info]; omega)
    rw [hnil, List.append_nil]
    exact ⟨s, rfl, hs, rfl⟩

theorem appendIbuf_overrun (hs : Collects collected s)
    (hfit : 1024 < collected.length + e.info.length) : s.appendIbuf e = none := by
  have hcollected := hs.fits
  have hlen := e.length_info
  unfold State.appendIbuf
  rw [if_pos (by omega), hs.ibuf, hs.ibuflen, Buf.store_of_lt hfit]
  rfl

theorem addHeader_collects (hs : Collects collected s)
    (hfit : e.blockOffset + collected.length ≤ 1024) :
    s.addHeader e = some { s with
      ibuf := Buf.ofList 1024 (e.header ++ collected)
      ibuflen := collected.length + e.blockOffset } := by
  have hheader := e.length_header
  rw [State.addHeader, hs.ibuf, hs.ibuflen, slice_ofList_self hs.fits, Buf.store_of_le (by omega),
    Option.bind_eq_bind, Option.bind_some, Buf.store_of_le (by omega), Option.bind_some, ← hheader,
    ofList_shift (by omega)]
  rfl

theorem addHeader_overrun (hs : Collects collected s)
    (hfit : 1024 < e.blockOffset + collected.length) : s.addHeader e = none := by
  rw [State.addHeader, hs.ibuf, hs.ibuflen, slice_ofList_self hs.fits, Buf.store_of_lt (by omega)]
  rfl

/-- The state and length handed to the APDU layer for these bytes behind the
header of the last block. -/
structure Hands (e : BlockEvent) (s : State) (apdu : List UInt8) (t : State) (len : ℕ) : Prop where
  state : t = { s with ibuf := t.ibuf, ibuflen := t.ibuflen }
  offset : t.blockOffset = e.blockOffset
  ptr : t.apduPtr = fun i => apdu.getD i 0
  decode : ∀ a, t.decode len = .ok a ↔ apduDecode (apdu.getD · 0) apdu.length = .ok a
  slice : t.ibuf.slice t.blockOffset (len - t.blockOffset) = apdu
  fits : e.blockOffset + apdu.length ≤ 1024

/-- A frame buffer with a header and an APDU behind it. -/
theorem hands_of_ibuf (apdu h : List UInt8) (hstate : t = { s with ibuf := t.ibuf, ibuflen := t.ibuflen })
    (hibuf : t.ibuf = Buf.ofList 1024 (h ++ apdu)) (hlen : h.length = e.blockOffset)
    (hpcb : h.getD 0 0 = e.pcb) (hfit : e.blockOffset + apdu.length ≤ 1024) :
    Hands e s apdu t (e.blockOffset + apdu.length) := by
  have hbyte : ∀ i, t.ibuf.byte i = (h ++ apdu).getD i 0 := by
    rw [hibuf]
    exact Buf.byte_ofList (by rw [List.length_append, hlen]; exact hfit)
  have hpos : 0 < h.length := by
    rw [hlen]
    exact p14443BlockOffset_pos _
  have hoffset : t.blockOffset = e.blockOffset := by
    rw [State.blockOffset, State.pcb, hbyte, List.getD_append _ _ _ _ hpos, hpcb]
    rfl
  have hptr : t.apduPtr = fun i => apdu.getD i 0 := by
    funext i
    rw [State.apduPtr, hoffset, hbyte, List.getD_append_right _ _ _ _ (by omega), hlen,
      Nat.add_sub_cancel_left]
  have hapduLen : t.apduLen (e.blockOffset + apdu.length) = apdu.length := by
    rw [State.apduLen, hoffset, if_pos (Nat.le_add_right ..), Nat.add_sub_cancel_left]
  refine ⟨hstate, hoffset, hptr, fun a => ?_, ?_, hfit⟩
  · rw [State.decode, hptr, hapduLen]
  · rw [hoffset, Nat.add_sub_cancel_left, hibuf, ← hlen]
    have hslice : (Buf.ofList 1024 (h ++ apdu ++ [])).slice h.length apdu.length = apdu :=
      Buf.slice_ofList h [] (by
        rw [List.append_nil, List.length_append, hlen]
        exact hfit)
    rwa [List.append_nil] at hslice

theorem header_pcb (e : BlockEvent) : e.header.getD 0 0 = e.pcb := by
  have hpos : 0 < e.blockOffset := p14443BlockOffset_pos _
  rw [BlockEvent.header, Buf.slice, List.drop_zero, BlockEvent.pcb, Buf.byte,
    List.getD_eq_getElem?_getD, List.getD_eq_getElem?_getD, List.getElem?_take_of_lt hpos]

/-- A block that is an APDU of its own. -/
theorem assemble_first (hs : Collects [] s) (hlen : e.len ≠ 0) :
    ∃ t, s.assemble e = some (t, e.len) ∧ Hands e s e.info t e.len := by
  have hle := e.len_le
  have hslice : (e.buf.slice 0 e.len).length = e.len := Buf.length_slice (by omega)
  have hassemble : s.assemble e = some ({ s with
      ibuf := Buf.ofList 1024 (e.buf.slice 0 e.len) }, e.len) := by
    have hempty : ¬ s.ibuflen ≠ 0 := not_not.mpr hs.ibuflen
    rw [State.assemble, if_neg hempty, hs.ibuf, ofList_nil, Buf.store_of_le (by omega)]
    rfl
  refine ⟨_, hassemble, ?_⟩
  by_cases hoff : e.blockOffset ≤ e.len
  · have hsplit : e.buf.slice 0 e.len = e.header ++ e.info := by
      have hadd := slice_add e.buf 0 e.blockOffset (e.len - e.blockOffset)
      rwa [Nat.zero_add, Nat.add_sub_cancel' hoff] at hadd
    have hhands := hands_of_ibuf (s := s) (e := e)
      (t := { s with ibuf := Buf.ofList 1024 (e.buf.slice 0 e.len) }) e.info e.header rfl
      (congrArg (Buf.ofList 1024) hsplit) e.length_header (header_pcb e) (by rw [e.length_info]; omega)
    rwa [e.length_info, Nat.add_sub_cancel' hoff] at hhands
  · -- not even the header is complete, and the length of the APDU wraps around
    have hle3 := e.blockOffset_le
    let t : State := { s with ibuf := Buf.ofList 1024 (e.buf.slice 0 e.len) }
    have hinfo : e.info = [] := List.length_eq_zero_iff.mp (by rw [e.length_info]; omega)
    have hbyte : ∀ i, t.ibuf.byte i = (e.buf.slice 0 e.len).getD i 0 := Buf.byte_ofList (by omega)
    have hoffset : t.blockOffset = e.blockOffset := by
      rw [State.blockOffset, State.pcb, hbyte, Buf.slice, List.drop_zero,
        List.getD_eq_getElem?_getD, List.getElem?_take_of_lt (Nat.pos_of_ne_zero hlen),
        ← List.getD_eq_getElem?_getD]
      rfl
    have hwrap : 65545 < t.apduLen e.len := by
      rw [State.apduLen, hoffset, if_neg hoff]
      have hpow : (65545 : ℕ) + 3 < 2 ^ 32 := by norm_num
      omega
    refine ⟨rfl, hoffset, ?_, fun a => ?_, ?_, by rw [hinfo, List.length_nil]; omega⟩
    · funext i
      show t.ibuf.byte (t.blockOffset + i) = _
      rw [hoffset, hbyte, hinfo, List.getD_eq_default _ _ (by omega), List.getD_nil]
    · rw [hinfo]
      refine iff_of_false (fun hok => ?_) fun hok => ?_
      · exact absurd (apduDecode_len hok).2 (Nat.not_le.mpr hwrap)
      · exact absurd (apduDecode_len hok).1 (by simp)
    · show t.ibuf.slice t.blockOffset (e.len - t.blockOffset) = e.info
      rw [hoffset, hinfo, show e.len - e.blockOffset = 0 by omega]
      rfl

/-- The last block of a chain. -/
theorem assemble_next {collected : List UInt8} (hs : Collects collected s) (hne : collected ≠ [])
    (hfit : collected.length + max e.len e.blockOffset ≤ 1024) :
    ∃ t len, s.assemble e = some (t, len) ∧ Hands e s (collected ++ e.info) t len := by
  have hinfo := e.length_info
  have hlen : (collected ++ e.info).length = collected.length + e.info.length := List.length_append
  have hpos : s.ibuflen ≠ 0 := by
    rw [hs.ibuflen]
    exact fun h => hne (List.length_eq_zero_iff.mp h)
  obtain ⟨t₁, happend, hs₁, hstate⟩ := appendIbuf_collects hs (e := e) (by omega)
  have hheader := addHeader_collects hs₁ (e := e) (by omega)
  let t : State := { t₁ with
    ibuf := Buf.ofList 1024 (e.header ++ (collected ++ e.info))
    ibuflen := (collected ++ e.info).length + e.blockOffset }
  have hstate' : t = { s with ibuf := t.ibuf, ibuflen := t.ibuflen } := by
    simp only [t]
    rw [hstate]
  refine ⟨t, e.blockOffset + (collected ++ e.info).length, ?_, hands_of_ibuf (collected ++ e.info)
    e.header hstate' rfl e.length_header (header_pcb e) (by omega)⟩
  rw [State.assemble, if_pos hpos, happend, Option.bind_eq_bind, Option.bind_some, hheader,
    Option.bind_some, Nat.add_comm e.blockOffset]
  rfl

/-- The last block of a chain does not fit. -/
theorem assemble_overrun {collected : List UInt8} (hs : Collects collected s) (hne : collected ≠ [])
    (hfit : 1024 < collected.length + max e.len e.blockOffset) : s.assemble e = none := by
  have hinfo := e.length_info
  have hlen : (collected ++ e.info).length = collected.length + e.info.length := List.length_append
  have hpos : s.ibuflen ≠ 0 := by
    rw [hs.ibuflen]
    exact fun h => hne (List.length_eq_zero_iff.mp h)
  rw [State.assemble, if_pos hpos]
  by_cases happend : collected.length + e.info.length ≤ 1024
  · obtain ⟨t₁, happend, hs₁, -⟩ := appendIbuf_collects hs happend
    rw [happend, Option.bind_eq_bind, Option.bind_some, addHeader_overrun hs₁ (by omega)]
    rfl
  · rw [appendIbuf_overrun hs (by omega)]
    rfl

/-! ### The APDU layer on an assembled block -/

theorem merge_none {a : ApduStruct} (h : ∀ off, a.data = some off →
    t.blockOffset + off + a.lc ≤ 1024 ∧ 1024 < t.blockOffset + off + t.chainBufferLen + a.lc) :
    t.merge a = none := by
  unfold State.merge
  cases hdata : a.data with
  | none => rfl
  | some off =>
      obtain ⟨hinside, hover⟩ := h off hdata
      have hown : (t.ibuf.slice (t.blockOffset + off) a.lc).length = a.lc := Buf.length_slice (by omega)
      rw [Option.bind_eq_bind, Option.bind_some]
      dsimp only
      rw [Buf.store_of_lt (by omega)]
      rfl

theorem merge_state {a a' : ApduStruct} {t' : State} (h : t.merge a = some (a', t')) :
    t' = { t with ibuf := t'.ibuf } := by
  unfold State.merge at h
  simp only [Option.bind_eq_bind, Option.bind_eq_some_iff] at h
  obtain ⟨_, -, _, -, _, -, h⟩ := h
  cases h
  rfl

theorem clearTx_chain (t : State) : t.clearTx.chainBufferLen ≤ t.chainBufferLen := by
  unfold State.clearTx
  split_ifs
  · exact Nat.zero_le _
  · exact le_rfl

theorem clearTx_of_rx (htx : t.chainBufferTx = false) : t.clearTx = t := by
  unfold State.clearTx
  rw [if_neg]
  rw [htx]
  exact fun h => Bool.false_ne_true h.1

/-- The data of an APDU that is decoded is no longer than the block. -/
theorem lc_le_of_decode {a : ApduStruct} (h : t.decode len = .ok a) : a.lc ≤ len := by
  have hdec : (⟨t.ibuf, len, ⟨0, []⟩⟩ : ApduEvent).decoded = .ok a := by
    rw [← h]
    exact (decode_of_ibuf rfl len).2.1
  exact lc_le_len hdec

/-- No APDU makes the chain longer than its buffer. -/
theorem iblock_chain {answer : Answer} {s' : State} (ht : t.chainBufferLen ≤ 2048)
    (h : (nfcProcessIblock t len answer).next = some s') : s'.chainBufferLen ≤ 2048 := by
  have hclear := clearTx_chain t
  have hprocessed : ∀ {t₁ : State} {a : ApduStruct} {data : List UInt8}, t₁.chainBufferLen ≤ 2048 →
      (Outcome.processed a data (apduProcess t₁ a data answer)).next = some s' →
      s'.chainBufferLen ≤ 2048 := by
    intro t₁ a data ht₁ hnext
    obtain ⟨⟨reply, s''⟩, hres, rfl⟩ := Option.map_eq_some_iff.mp hnext
    rcases apduProcess_continued hres with ⟨-, hlen⟩ | ⟨-, hlen⟩
    · exact hlen.trans ht₁
    · exact hlen
  unfold nfcProcessIblock at h
  dsimp only at h
  cases hdec : t.clearTx.decode len with
  | error ret =>
      rw [hdec] at h
      cases h
      omega
  | ok a =>
      rw [hdec] at h
      dsimp only at h
      split_ifs at h with hchain hfull hmerge
      · cases h
        omega
      · have hlc := lc_le_of_decode hdec
        cases hstore : t.clearTx.chainBuffer.store t.clearTx.chainBufferLen
            (a.dataBytes t.clearTx.apduPtr) with
        | none =>
            rw [hstore] at h
            cases h
        | some chain =>
            rw [hstore] at h
            cases h
            show t.clearTx.chainBufferLen + a.lc ≤ 2048
            omega
      · cases hm : t.clearTx.merge a with
        | none =>
            rw [hm] at h
            cases h
        | some r =>
            rw [hm] at h
            have hlen : r.2.chainBufferLen = t.clearTx.chainBufferLen := by
              rw [merge_state hm]
            exact hprocessed (by omega) h
      · exact hprocessed (by omega) h

/-- The merge stays in the frame buffer if and only if it has room there. -/
theorem iblock_overrun_iff {apdu : List UInt8} {answer : Answer} (ht : Hands e s apdu t len)
    (hchain : s.chainBufferLen ≤ 2048) :
    nfcProcessIblock t len answer ≠ .overrun ↔ MergeFits s e.blockOffset apdu := by
  have hstate := ht.state
  have htx : t.chainBufferTx = s.chainBufferTx := by rw [hstate]
  have hlen : t.chainBufferLen = s.chainBufferLen := by rw [hstate]
  have hclear := clearTx_chain t
  obtain ⟨hptr, hdecode, hcla⟩ := decode_of_ibuf (clearTx_ibuf t) len
  have hcla' : t.clearTx.cla = apdu.getD 0 0 := by
    rw [hcla, State.cla, ht.ptr]
  have hdec' : ∀ a, t.clearTx.decode len = .ok a ↔ apduDecode (apdu.getD · 0) apdu.length = .ok a := by
    intro a
    rw [hdecode]
    exact ht.decode a
  unfold nfcProcessIblock
  dsimp only
  cases hdec : t.clearTx.decode len with
  | error ret =>
      refine iff_of_true (by simp) fun a ha => ?_
      rw [← hdec', hdec] at ha
      cases ha
  | ok a =>
      have hok := (hdec' a).mp hdec
      have hinside := apduDecode_inside hok
      -- the only APDU that `MergeFits` is about is the one decoded here
      have hthis : MergeFits s e.blockOffset apdu ↔ (s.chainBufferTx = false → 0 < s.chainBufferLen →
          apdu.getD 0 0 &&& claChaining = 0 → ∃ off, a.data = some off ∧
            e.blockOffset + off + s.chainBufferLen + a.lc ≤ 1024) := by
        constructor
        · exact fun h => h a hok
        · intro h a' ha'
          rw [hok, Except.ok.injEq] at ha'
          exact ha' ▸ h
      rw [hthis]
      dsimp only
      split_ifs with hc hfull hmerge
      · refine iff_of_true (by simp) fun _ _ hnot => ?_
        rw [hcla'] at hc
        exact absurd hnot hc.2
      · have hlc := lc_le_of_decode hdec
        have hdata : (a.dataBytes t.clearTx.apduPtr).length = a.lc := hinside.length_dataBytes
        rw [Buf.store_of_le (by omega)]
        refine iff_of_true (by simp) fun _ _ hnot => ?_
        rw [hcla'] at hc
        exact absurd hnot hc.2
      · have hkept : t.clearTx = t := clearTx_pending hmerge.2
        rw [hkept, hlen, htx] at hmerge
        have hrx : s.chainBufferTx = false := Bool.eq_false_iff.mpr hmerge.1
        have hcla0 : apdu.getD 0 0 &&& claChaining = 0 := by
          by_contra hne
          refine hc ⟨?_, ?_⟩
          · rw [hkept, htx]
            exact hmerge.1
          · rw [hcla']
            exact hne
        have hiff : (s.chainBufferTx = false → 0 < s.chainBufferLen →
            apdu.getD 0 0 &&& claChaining = 0 → ∃ off, a.data = some off ∧
              e.blockOffset + off + s.chainBufferLen + a.lc ≤ 1024) ↔
            ∃ off, a.data = some off ∧ e.blockOffset + off + s.chainBufferLen + a.lc ≤ 1024 :=
          ⟨fun h => h hrx hmerge.2 hcla0, fun h _ _ _ => h⟩
        rw [hiff, hkept]
        by_cases hroom : ∃ off, a.data = some off ∧
            e.blockOffset + off + s.chainBufferLen + a.lc ≤ 1024
        · obtain ⟨off, hdata, hfit⟩ := hroom
          obtain ⟨ibuf, hmerged, -⟩ := merge_fits (s := t) hdata (by omega) (by
            rw [ht.offset, hlen]
            exact hfit)
          rw [hmerged]
          exact iff_of_true (by simp) ⟨off, hdata, hfit⟩
        · rw [merge_none]
          · exact iff_of_false (by simp) hroom
          · intro off hdata
            have hin : off + a.lc ≤ apdu.length := by
              have := hinside
              rwa [ApduStruct.Inside, hdata] at this
            have hfits := ht.fits
            refine ⟨by rw [ht.offset]; omega, ?_⟩
            rw [ht.offset, hlen]
            by_contra hle
            exact hroom ⟨off, hdata, by omega⟩
      · refine iff_of_true (by simp) fun hrx hpos _ => absurd ?_ hmerge
        rw [clearTx_of_rx (htx.trans hrx), htx, hlen, hrx]
        exact ⟨Bool.false_ne_true, hpos⟩

/-! ### One block -/

theorem not_isSblock (pcb : UInt8) (h : isIblock pcb ∨ isRblock pcb) : isSblock pcb = false := by
  revert pcb
  exact Bytes.forall_byte (by decide +kernel)

/-- What becomes of a block that is not the last one of an APDU. -/
def Passed (collected : List UInt8) (e : BlockEvent) (o : BlockOutcome) : Prop :=
  (∃ replies s', o = .answered replies s' ∧
      Collects (if e.deselects then [] else collected) s') ∨
    ∃ ack s', o = .chained ack s' ∧ Collects (collected ++ e.info) s'

theorem passed_answered {replies : List BlockReply} (hs : Collects collected s)
    (hdeselects : e.deselects = false) : Passed collected e (.answered replies s) := by
  refine .inl ⟨replies, s, rfl, ?_⟩
  rw [hdeselects]
  exact hs

theorem block_cases (hs : Collects collected s) :
    (e.isLast = true ∧ nfcProcessBlock s e =
      match (s.takeCid e).assemble e with
      | none => .overrun
      | some (t, len) => .handed t len (nfcProcessIblock t len e.answer)) ∨
    (e.isLast = false ∧ Passed collected e (nfcProcessBlock s e)) := by
  unfold nfcProcessBlock
  by_cases hlen : e.len = 0
  · rw [if_pos hlen]
    exact .inr ⟨by simp [BlockEvent.isLast, hlen], passed_answered hs (by simp [BlockEvent.deselects, hlen])⟩
  rw [if_neg hlen]
  by_cases hppss : isPpssCmd e.pcb = true
  · rw [if_pos hppss]
    refine .inr ⟨by simp [BlockEvent.isLast, hppss], ?_⟩
    split_ifs <;> exact passed_answered hs (by simp [BlockEvent.deselects, hppss])
  rw [if_neg hppss]
  by_cases hi : isIblock e.pcb = true
  · have hdeselects : e.deselects = false := by
      simp [BlockEvent.deselects, not_isSblock e.pcb (.inl hi)]
    rw [if_pos hi]
    dsimp only
    by_cases hchain : e.pcb &&& iblockChaining ≠ 0
    · rw [if_pos hchain]
      refine .inr ⟨by simp [BlockEvent.isLast, hchain], ?_⟩
      by_cases hfull : 1024 < (s.takeCid e).ibuflen + e.len
      · rw [if_pos hfull]
        exact passed_answered hs.takeCid hdeselects
      · have hinfo := e.length_info
        have hcid := hs.takeCid (e := e)
        have hibuflen := hcid.ibuflen
        obtain ⟨t, happend, ht, -⟩ := appendIbuf_collects hcid (e := e) (by omega)
        rw [if_neg hfull, happend]
        exact .inr ⟨_, t, rfl, ht⟩
    · rw [if_neg hchain]
      refine .inl ⟨?_, rfl⟩
      simp [BlockEvent.isLast, hlen, hppss, hi, not_not.mp hchain]
  rw [if_neg hi]
  refine .inr ⟨by simp [BlockEvent.isLast, hi], ?_⟩
  by_cases hr : isRblock e.pcb = true
  · rw [if_pos hr]
    exact passed_answered hs.takeCid (by simp [BlockEvent.deselects, not_isSblock e.pcb (.inr hr)])
  rw [if_neg hr]
  by_cases hsb : isSblock e.pcb = true
  · rw [if_pos hsb]
    by_cases hdes : e.pcb &&& 0x30 = 0
    · rw [if_pos hdes]
      refine .inl ⟨_, _, rfl, ?_⟩
      rw [if_pos (by simp [BlockEvent.deselects, hlen, hppss, hsb, hdes])]
      exact collects_clearIbuf hs.takeCid.nfcStateInit.chain
    · rw [if_neg hdes]
      exact passed_answered hs (by simp [BlockEvent.deselects, hdes])
  · rw [if_neg hsb]
    exact passed_answered hs (by simp [BlockEvent.deselects, hsb])

end Assembly

/-! ### Runs -/

theorem mergeFits_takeCid {s : State} {e : BlockEvent} {offset : ℕ} {apdu : List UInt8} :
    MergeFits (s.takeCid e) offset apdu ↔ MergeFits s offset apdu := by
  unfold State.takeCid
  split_ifs <;> rfl

/-- The last block of an APDU: what is handed on, or that it does not fit. -/
theorem last_cases {collected : List UInt8} {s : State} {e : BlockEvent} (hs : Collects collected s)
    (hlast : e.isLast = true) :
    (collected ≠ [] ∧ 1024 < collected.length + max e.len e.blockOffset ∧
        nfcProcessBlock s e = .overrun) ∨
      ((collected ≠ [] → collected.length + max e.len e.blockOffset ≤ 1024) ∧
        ∃ t len, nfcProcessBlock s e = .handed t len (nfcProcessIblock t len e.answer) ∧
          Hands e (s.takeCid e) (collected ++ e.info) t len) := by
  have hcid := hs.takeCid (e := e)
  have hblock := (block_cases hs (e := e)).resolve_right fun h => by simp [hlast] at h
  have hlen : e.len ≠ 0 := by
    intro h0
    simp [BlockEvent.isLast, h0] at hlast
  by_cases hne : collected = []
  · subst hne
    obtain ⟨t, hassemble, hhands⟩ := assemble_first hcid hlen
    refine .inr ⟨fun h => absurd rfl h, t, e.len, ?_, hhands⟩
    rw [hblock.2, hassemble]
  · by_cases hfit : collected.length + max e.len e.blockOffset ≤ 1024
    · obtain ⟨t, len, hassemble, hhands⟩ := assemble_next hcid hne hfit
      refine .inr ⟨fun _ => hfit, t, len, ?_, hhands⟩
      rw [hblock.2, hassemble]
    · refine .inl ⟨hne, by omega, ?_⟩
      rw [hblock.2, assemble_overrun hcid hne (by omega)]

/-- The frame buffer of the device agrees with what the monitor has seen. -/
def BlockMonitor.InStep (m : BlockMonitor) : Prop := ∀ s, m.device = some s → Collects m.collected s

theorem BlockMonitor.InStep.step (m : BlockMonitor) (ev : NfcEvent) (hm : m.InStep) :
    (m.step ev).InStep := by
  intro s' hs'
  cases ev with
  | rats =>
      obtain ⟨s, hs, rfl⟩ := Option.map_eq_some_iff.mp hs'
      exact collects_clearIbuf (hm s hs).chain
  | stateInit =>
      obtain ⟨s, hs, rfl⟩ := Option.map_eq_some_iff.mp hs'
      exact (hm s hs).nfcStateInit
  | block e =>
      cases hs : m.device with
      | none =>
          simp only [BlockMonitor.step, hs] at hs'
          cases hs'
      | some s =>
          have hcollects := hm s hs
          simp only [BlockMonitor.step, hs] at hs' ⊢
          rcases block_cases hcollects (e := e) with ⟨hlast, -⟩ | ⟨-, hpassed⟩
          · rcases last_cases hcollects hlast with ⟨-, -, hover⟩ | ⟨-, t, len, hhanded, hhands⟩
            · rw [hover] at hs'
              cases hs'
            · rw [hhanded] at hs' ⊢
              obtain ⟨t', ht', rfl⟩ := Option.map_eq_some_iff.mp hs'
              refine collects_clearIbuf (iblock_chain ?_ ht')
              rw [hhands.state]
              exact hcollects.takeCid.chain
          · rcases hpassed with ⟨replies, s₁, hout, hs₁⟩ | ⟨ack, s₁, hout, hs₁⟩
            · rw [hout] at hs' ⊢
              cases hs'
              exact hs₁
            · rw [hout] at hs' ⊢
              cases hs'
              exact hs₁

/-- A block is handled exactly if and only if it fits. -/
theorem blockExact_iff {m : BlockMonitor} (hm : m.InStep) (ev : NfcEvent) :
    BlockExact m ev ↔ BlockFits m ev := by
  constructor
  · intro h
    refine ⟨?_, ?_⟩
    · rintro e s rfl hs hlast hne
      rcases last_cases (hm s hs) hlast with ⟨-, -, hover⟩ | ⟨hfit, -⟩
      · exact absurd hover (h.fits e s rfl hs)
      · exact hfit hne
    · rintro e s rfl hs hlast
      rcases last_cases (hm s hs) hlast with ⟨-, -, hover⟩ | ⟨-, t, len, hhanded, hhands⟩
      · exact absurd hover (h.fits e s rfl hs)
      · have hne : nfcProcessIblock t len e.answer ≠ .overrun := fun ho =>
          h.mergeFits e s t len rfl hs (by rw [hhanded, ho])
        exact mergeFits_takeCid.mp
          ((iblock_overrun_iff hhands (hm s hs).takeCid.chain).mp hne)
  · intro h
    have hpassed : ∀ e s, ev = .block e → m.device = some s → e.isLast = false →
        nfcProcessBlock s e ≠ .overrun ∧ ∀ t len o, nfcProcessBlock s e ≠ .handed t len o := by
      rintro e s rfl hs hlast
      rcases block_cases (hm s hs) (e := e) with ⟨hyes, -⟩ | ⟨-, hpassed⟩
      · rw [hlast] at hyes
        cases hyes
      · rcases hpassed with ⟨_, _, hout, -⟩ | ⟨_, _, hout, -⟩ <;> rw [hout] <;> simp
    have hlast : ∀ e s, ev = .block e → m.device = some s → e.isLast = true →
        ∃ t len, nfcProcessBlock s e = .handed t len (nfcProcessIblock t len e.answer) ∧
          Hands e (s.takeCid e) (m.collected ++ e.info) t len := by
      rintro e s rfl hs hlast
      refine ((last_cases (hm s hs) hlast).resolve_left ?_).2
      rintro ⟨hne, hover, -⟩
      exact absurd (h.last e s rfl hs hlast hne) (by omega)
    refine ⟨?_, ?_, ?_⟩
    · intro e s he hs hout
      cases hl : e.isLast with
      | false => exact (hpassed e s he hs hl).1 hout
      | true =>
          obtain ⟨t, len, hhanded, -⟩ := hlast e s he hs hl
          rw [hhanded] at hout
          cases hout
    · intro e s t len he hs hout
      cases hl : e.isLast with
      | false => exact (hpassed e s he hs hl).2 _ _ _ hout
      | true =>
          obtain ⟨t', len', hhanded, hhands⟩ := hlast e s he hs hl
          rw [hhanded, BlockOutcome.handed.injEq] at hout
          exact (iblock_overrun_iff hhands (hm s hs).takeCid.chain).mpr
            (mergeFits_takeCid.mpr (h.merge e s he hs hl)) hout.2.2
    · intro e s t len o he hs hout
      cases hl : e.isLast with
      | false => exact absurd hout ((hpassed e s he hs hl).2 _ _ _)
      | true =>
          obtain ⟨t', len', hhanded, hhands⟩ := hlast e s he hs hl
          rw [hhanded, BlockOutcome.handed.injEq] at hout
          obtain ⟨rfl, rfl, -⟩ := hout
          exact hhands.slice

theorem BlockMonitor.inStep_powerUp : BlockMonitor.powerUp.InStep := by
  intro s hs
  cases hs
  exact ⟨ofList_nil.symm, rfl, Nat.zero_le _, Nat.zero_le _⟩

/-- Along every run, reassembly is exact and stays in the frame buffer if and
only if the last block of each chain fits behind the others, and its APDU
behind the chain of commands that is pending. -/
theorem blockExact_along_iff (evs : List NfcEvent) :
    Transition.Along BlockMonitor.step BlockExact BlockMonitor.powerUp evs ↔
      Transition.Along BlockMonitor.step BlockFits BlockMonitor.powerUp evs :=
  ⟨Transition.Along.of_invariant (fun m ev hm _ => hm.step m ev)
      (fun _ ev hm h => (blockExact_iff hm ev).mp h) BlockMonitor.inStep_powerUp,
    Transition.Along.of_invariant (fun m ev hm _ => hm.step m ev)
      (fun _ ev hm h => (blockExact_iff hm ev).mpr h) BlockMonitor.inStep_powerUp⟩

/-- The frame buffer was written behind its end. -/
def BlockOutcome.isOverrun : BlockOutcome → Bool
  | .overrun => true
  | _ => false

/-- An I-block of 32 bytes. -/
def fullBlock (pcb : UInt8) : NfcEvent :=
  .block ⟨Buf.ofList 32 (pcb :: List.replicate 31 0x55), 32, le_rfl, ⟨0, []⟩⟩

/-- After 33 chained blocks of 31 bytes there is room for one byte more, and
the last block brings 31 and its header. -/
theorem blockExact_counterexample :
    ¬ Transition.Along BlockMonitor.step BlockExact BlockMonitor.powerUp
      (List.replicate 33 (fullBlock 0x12) ++ [fullBlock 0x02]) := by
  rw [Transition.along_append]
  rintro ⟨-, hlast, -⟩
  have hover : ((Transition.run BlockMonitor.step BlockMonitor.powerUp
      (List.replicate 33 (fullBlock 0x12))).device.any fun s =>
        (nfcProcessBlock s ⟨Buf.ofList 32 (0x02 :: List.replicate 31 0x55), 32, le_rfl,
          ⟨0, []⟩⟩).isOverrun) = true := by
    decide +kernel
  obtain ⟨s, hs, hout⟩ := (Option.any_eq_true _ _).mp hover
  refine hlast.fits _ s rfl hs ?_
  revert hout
  cases nfcProcessBlock s _ <;> simp [BlockOutcome.isOverrun]

end NitrokeyFido2.Nfc
