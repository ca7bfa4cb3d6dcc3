import NitrokeyFido2.Nfc.Apdu
import NitrokeyFido2.Lib.Bytes

/-!
ISO 14443-4 blocks, and how a response is cut into them.

A block starts with a PCB byte; a node address and a card identifier follow
if the PCB says so. The answer to an I-block carries the same four low bits
of the PCB, hence a header of the same length.

`nfc_write_frame` sends at most 32 bytes. A response is the list of frames
handed to it, or `none` where the code writes behind a local buffer.
-/

namespace NitrokeyFido2.Nfc

abbrev nfcCmdIblock : UInt8 := 0x00
abbrev nfcCmdRblock : UInt8 := 0xa0
abbrev nfcCmdRblockAck : UInt8 := 0x10

/-- The chaining bit of an I-block. -/
abbrev iblockChaining : UInt8 := 0x10

def isPpssCmd (pcb : UInt8) : Bool := pcb &&& 0xf0 = 0xd0

def isIblock (pcb : UInt8) : Bool := pcb &&& 0xc0 = nfcCmdIblock ∧ pcb &&& 0x02 = 0x02

def isRblock (pcb : UInt8) : Bool := pcb &&& 0xe0 = nfcCmdRblock ∧ pcb &&& 0x02 = 0x02

def isSblock (pcb : UInt8) : Bool := pcb &&& 0xc0 = 0xc0 ∧ pcb &&& 0x02 = 0x02

def p14443HaveCid (pcb : UInt8) : Bool := pcb &&& 0x08 ≠ 0

/-- The length of the header. -/
def p14443BlockOffset (pcb : UInt8) : ℕ :=
  1 + (if pcb &&& 0x04 ≠ 0 then 1 else 0) + (if pcb &&& 0x08 ≠ 0 then 1 else 0)

/-- `nfc_write_frame`: the bytes that are sent. -/
def nfcWriteFrame (data : List UInt8) : List UInt8 := data.take 32

/-- What the chip and the reader do while a response goes out: whether the
`k`-th frame gets transmitted in time, and what is received after it. -/
structure Link where
  waitForTx : ℕ → Bool
  receive : ℕ → Option (List UInt8)

/-- `rblock_acknowledge`. -/
def rblockAcknowledge (cid req0 : UInt8) (ack : Bool) : List UInt8 :=
  let pcb := nfcCmdRblock ||| (req0 &&& 0x0f)
  ((Buf.zero 32).write 0 [if ack then pcb else pcb ||| nfcCmdRblockAck, cid]).slice 0
    (p14443BlockOffset req0)

/-- `nfc_write_response_ex`; the local buffer starts with stale bytes. -/
def nfcWriteResponseEx (stale : Buf 32) (cid req0 : UInt8) (data : List UInt8) (resp : UInt16) :
    Option (List (List UInt8)) :=
  if 32 - 3 < data.length then some []
  else do
    let offset := p14443BlockOffset req0
    let res := stale.write 0 [nfcCmdIblock ||| (req0 &&& 0x0f), cid, 0]
    let res ← res.store offset data
    let res ← res.store (data.length + offset) [(resp >>> 8).toUInt8, (resp &&& 0xff).toUInt8]
    return [res.slice 0 (offset + data.length + 2)]

/-! ### Chained blocks -/

/-- What the loop makes of the block received after a frame. -/
inductive RblockCheck
  | acknowledged
  | stop (frames : List (List UInt8))

/-- The tests on the block received after the frame with PCB `sent`. -/
def rblockCheck (cid sent : UInt8) : Option (List UInt8) → RblockCheck
  | none => .stop []
  | some recbuf =>
      let pcb := recbuf.getD 0 0
      if ¬ isRblock pcb then .stop []
      else if pcb &&& nfcCmdRblockAck ≠ 0 then .stop [rblockAcknowledge cid pcb true]
      else if recbuf.length ≠ p14443BlockOffset pcb then .stop []
      else if pcb &&& 0x01 = sent &&& 0x01 ∧ pcb &&& 0xf6 = 0xa2 then .stop []
      else .acknowledged

theorem p14443BlockOffset_le (pcb : UInt8) : p14443BlockOffset pcb ≤ 3 := by
  revert pcb
  exact Bytes.forall_byte (by decide +kernel)

theorem p14443BlockOffset_pos (pcb : UInt8) : 0 < p14443BlockOffset pcb := by
  unfold p14443BlockOffset
  omega

/-- The loop of `nfc_write_response_chaining_plain`: frame number `k`, then
those for the rest of the data. -/
def sendBlocks (link : Link) (cid req0 : UInt8) (k : ℕ) (iBlock : UInt8) (res : Buf 34)
    (rest : List UInt8) : Option (List (List UInt8)) := do
  let offset := p14443BlockOffset req0
  let vlen := min (32 - offset) rest.length
  if _h : vlen < rest.length then
    -- not the last block
    let res ← (res.write 0 [iBlock ||| iblockChaining, cid, 0]).store offset (rest.take vlen)
    let frame := res.slice 0 (vlen + offset)
    if ¬ link.waitForTx k then return [frame]
    match rblockCheck cid (iBlock ||| iblockChaining) (link.receive k) with
    | .stop frames => return frame :: frames
    | .acknowledged =>
        let frames ← sendBlocks link cid req0 (k + 1) (iBlock ^^^ 0x01) res (rest.drop vlen)
        return frame :: frames
  else
    let res ← (res.write 0 [iBlock, cid, 0]).store offset (rest.take vlen)
    return [res.slice 0 (vlen + offset)]
termination_by rest.length
decreasing_by
  have := p14443BlockOffset_le req0
  rw [List.length_drop]
  omega

/-- `nfc_write_response_chaining_plain`. -/
def nfcWriteResponseChainingPlain (link : Link) (stale : Buf 34) (cid req0 : UInt8)
    (data : List UInt8) : Option (List (List UInt8)) := do
  let iBlock := nfcCmdIblock ||| (req0 &&& 0x0f)
  if data.length ≤ 31 then
    let offset := p14443BlockOffset req0
    let res ← ((Buf.zero 32).write 0 [iBlock, cid, 0]).store offset data
    return [res.slice 0 (data.length + offset)]
  else
    sendBlocks link cid req0 0 iBlock stale data

/-! ### What arrives -/

/-- The information field of a block. -/
def informationField (frame : List UInt8) : List UInt8 :=
  frame.drop (p14443BlockOffset (frame.getD 0 0))

/-- The number of the `k`-th block of an answer: the request's own, then
alternating. -/
def blockNumber (req0 : UInt8) (k : ℕ) : UInt8 := (req0 &&& 0x01) ^^^ UInt8.ofNat (k % 2)

/-- A block acknowledges the block of a number: it is a positive R-block with
the other number, and nothing follows its header. -/
structure IsAcknowledgement (number : UInt8) (block : List UInt8) : Prop where
  rblock : isRblock (block.getD 0 0)
  positive : block.getD 0 0 &&& nfcCmdRblockAck = 0
  header : block.length = p14443BlockOffset (block.getD 0 0)
  number : block.getD 0 0 &&& 0x01 ≠ number

/-- The reader acknowledges every block. -/
structure Link.Acknowledges (link : Link) (req0 : UInt8) : Prop where
  waitForTx : ∀ k, link.waitForTx k = true
  receive : ∀ k, ∃ block, link.receive k = some block ∧ IsAcknowledgement (blockNumber req0 k) block

/-- A frame that is the `k`-th block of an answer and the last one or not. -/
structure IsBlock (req0 : UInt8) (k : ℕ) (last : Prop) (frame : List UInt8) : Prop where
  chaining : frame.getD 0 0 &&& iblockChaining = 0 ↔ last
  number : frame.getD 0 0 &&& 0x01 = blockNumber req0 k
  fits : frame.length ≤ 32

/-- The frames are the blocks of an answer from the `k`-th on and carry exactly
the data. -/
structure Carries (req0 : UInt8) (k : ℕ) (data : List UInt8) (frames : List (List UInt8)) : Prop where
  information : (frames.map informationField).flatten = data
  blocks : ∀ (i : ℕ) (frame : List UInt8), frames[i]? = some frame →
    IsBlock req0 (k + i) (i + 1 = frames.length) frame

theorem Carries.singleton {req0 : UInt8} {k : ℕ} {frame : List UInt8}
    (h : IsBlock req0 k True frame) : Carries req0 k (informationField frame) [frame] := by
  constructor
  · simp
  · intro i f hf
    cases i with
    | zero =>
        rw [List.getElem?_cons_zero, Option.some.injEq] at hf
        subst hf
        exact ⟨h.chaining.trans (by simp), h.number, h.fits⟩
    | succ i => simp at hf

theorem Carries.cons {req0 : UInt8} {k : ℕ} {frame rest : List UInt8} {frames : List (List UInt8)}
    (h : IsBlock req0 k False frame) (hframes : frames ≠ []) (hrest : Carries req0 (k + 1) rest frames) :
    Carries req0 k (informationField frame ++ rest) (frame :: frames) := by
  constructor
  · rw [List.map_cons, List.flatten_cons, hrest.information]
  · intro i f hf
    cases i with
    | zero =>
        rw [List.getElem?_cons_zero, Option.some.injEq] at hf
        subst hf
        have hlen := List.length_pos_of_ne_nil hframes
        refine ⟨h.chaining.trans ?_, h.number, h.fits⟩
        simp only [List.length_cons, false_iff]
        omega
    | succ i =>
        rw [List.getElem?_cons_succ] at hf
        have hblock := hrest.blocks i f hf
        rw [Nat.add_assoc, Nat.add_comm 1 i] at hblock
        refine ⟨hblock.chaining.trans ?_, hblock.number, hblock.fits⟩
        simp only [List.length_cons, Nat.add_right_cancel_iff]

/-! ### One frame -/

/-- The frame of a header and a part of the data that fits behind it. -/
def frameOf (cid pcb : UInt8) (part : List UInt8) : List UInt8 :=
  [pcb, cid, 0].take (p14443BlockOffset pcb) ++ part

section Frame

variable {cid pcb : UInt8} {part : List UInt8}

theorem length_header : ([pcb, cid, 0].take (p14443BlockOffset pcb)).length = p14443BlockOffset pcb := by
  have := p14443BlockOffset_le pcb
  rw [List.length_take]
  simp only [List.length_cons, List.length_nil]
  omega

theorem length_frameOf : (frameOf cid pcb part).length = p14443BlockOffset pcb + part.length := by
  rw [frameOf, List.length_append, length_header]

theorem frameOf_pcb : (frameOf cid pcb part).getD 0 0 = pcb := by
  have hpos := p14443BlockOffset_pos pcb
  obtain ⟨n, hn⟩ : ∃ n, p14443BlockOffset pcb = n + 1 := ⟨_, (Nat.succ_pred_eq_of_pos hpos).symm⟩
  rw [frameOf, hn]
  rfl

@[simp] theorem informationField_frameOf : informationField (frameOf cid pcb part) = part := by
  rw [informationField, frameOf_pcb, frameOf]
  exact List.drop_left' length_header

/-- A local buffer with the header written and the data stored behind it. -/
theorem slice_header {n : ℕ} (res : Buf n) (hn : 3 ≤ n)
    (hfit : p14443BlockOffset pcb + part.length ≤ n) :
    ((res.write 0 [pcb, cid, 0]).write (p14443BlockOffset pcb) part).slice 0
        (p14443BlockOffset pcb + part.length) = frameOf cid pcb part := by
  have hle := p14443BlockOffset_le pcb
  rw [Buf.slice_zero_write hfit, frameOf]
  congr 1
  have h3 : (res.write 0 [pcb, cid, 0]).slice 0 3 = [pcb, cid, 0] :=
    Buf.slice_write_self (by simpa using hn)
  have htake : ∀ b : Buf n, b.slice 0 (p14443BlockOffset pcb) =
      (b.slice 0 3).take (p14443BlockOffset pcb) := by
    intro b
    rw [Buf.slice, Buf.slice, List.take_take, Nat.min_eq_left hle]
  rw [htake, h3]

end Frame

/-! ### The PCB of an answer -/

theorem offset_iBlock (req0 : UInt8) :
    p14443BlockOffset (nfcCmdIblock ||| (req0 &&& 0x0f)) = p14443BlockOffset req0 := by
  revert req0
  exact Bytes.forall_byte (by decide +kernel)

theorem chaining_iBlock (req0 : UInt8) : (nfcCmdIblock ||| (req0 &&& 0x0f)) &&& iblockChaining = 0 := by
  revert req0
  exact Bytes.forall_byte (by decide +kernel)

theorem number_iBlock (req0 : UInt8) :
    (nfcCmdIblock ||| (req0 &&& 0x0f)) &&& 0x01 = blockNumber req0 0 := by
  revert req0
  exact Bytes.forall_byte (by decide +kernel)

theorem offset_chaining (pcb : UInt8) :
    p14443BlockOffset (pcb ||| iblockChaining) = p14443BlockOffset pcb := by
  revert pcb
  exact Bytes.forall_byte (by decide +kernel)

theorem chaining_chaining (pcb : UInt8) : (pcb ||| iblockChaining) &&& iblockChaining ≠ 0 := by
  revert pcb
  exact Bytes.forall_byte (by decide +kernel)

theorem number_chaining (pcb : UInt8) : (pcb ||| iblockChaining) &&& 0x01 = pcb &&& 0x01 := by
  revert pcb
  exact Bytes.forall_byte (by decide +kernel)

theorem offset_toggle (pcb : UInt8) : p14443BlockOffset (pcb ^^^ 0x01) = p14443BlockOffset pcb := by
  revert pcb
  exact Bytes.forall_byte (by decide +kernel)

theorem chaining_toggle (pcb : UInt8) :
    (pcb ^^^ 0x01) &&& iblockChaining = pcb &&& iblockChaining := by
  revert pcb
  exact Bytes.forall_byte (by decide +kernel)

theorem number_toggle (pcb : UInt8) : (pcb ^^^ 0x01) &&& 0x01 = (pcb &&& 0x01) ^^^ 0x01 := by
  revert pcb
  exact Bytes.forall_byte (by decide +kernel)

theorem blockNumber_succ (req0 : UInt8) (k : ℕ) :
    blockNumber req0 (k + 1) = blockNumber req0 k ^^^ 0x01 := by
  rw [blockNumber, blockNumber, UInt8.xor_assoc]
  congr 1
  rcases Nat.mod_two_eq_zero_or_one k with h | h
  · rw [h, show (k + 1) % 2 = 1 by omega]
    decide
  · rw [h, show (k + 1) % 2 = 0 by omega]
    decide

/-- The PCB the loop holds for block `k`. -/
structure IsPcb (req0 : UInt8) (k : ℕ) (pcb : UInt8) : Prop where
  offset : p14443BlockOffset pcb = p14443BlockOffset req0
  chaining : pcb &&& iblockChaining = 0
  number : pcb &&& 0x01 = blockNumber req0 k

theorem isPcb_iBlock (req0 : UInt8) : IsPcb req0 0 (nfcCmdIblock ||| (req0 &&& 0x0f)) :=
  ⟨offset_iBlock req0, chaining_iBlock req0, number_iBlock req0⟩

theorem IsPcb.toggle {req0 pcb : UInt8} {k : ℕ} (h : IsPcb req0 k pcb) :
    IsPcb req0 (k + 1) (pcb ^^^ 0x01) := by
  refine ⟨?_, ?_, ?_⟩
  · rw [offset_toggle, h.offset]
  · rw [chaining_toggle, h.chaining]
  · rw [number_toggle, h.number, blockNumber_succ]

/-- An acknowledgement passes every test of the loop. -/
theorem rblockCheck_acknowledged {cid sent number : UInt8} {block : List UInt8}
    (h : IsAcknowledgement number block) (hsent : sent &&& 0x01 = number) :
    rblockCheck cid sent (some block) = .acknowledged := by
  have hnumber : ¬ (block.getD 0 0 &&& 0x01 = sent &&& 0x01 ∧ block.getD 0 0 &&& 0xf6 = 0xa2) := by
    rw [hsent]
    exact fun hn => h.number hn.1
  unfold rblockCheck
  simp only [h.rblock, h.positive, h.header, if_neg hnumber]
  simp

/-- The frame of a block that is not the last one. -/
theorem isBlock_chained {req0 pcb : UInt8} {k : ℕ} (cid : UInt8) (part : List UInt8) (h : IsPcb req0 k pcb)
    (hfit : p14443BlockOffset req0 + part.length ≤ 32) :
    IsBlock req0 k False (frameOf cid (pcb ||| iblockChaining) part) := by
  refine ⟨?_, ?_, ?_⟩
  · rw [frameOf_pcb]
    exact iff_false_intro (chaining_chaining pcb)
  · rw [frameOf_pcb, number_chaining, h.number]
  · rw [length_frameOf, offset_chaining, h.offset]
    exact hfit

theorem isBlock_last {req0 pcb : UInt8} {k : ℕ} (cid : UInt8) (part : List UInt8) (h : IsPcb req0 k pcb)
    (hfit : p14443BlockOffset req0 + part.length ≤ 32) :
    IsBlock req0 k True (frameOf cid pcb part) := by
  refine ⟨?_, ?_, ?_⟩
  · rw [frameOf_pcb]
    exact iff_true_intro h.chaining
  · rw [frameOf_pcb, h.number]
  · rw [length_frameOf, h.offset]
    exact hfit

section Loop

variable {link : Link} {cid req0 pcb : UInt8} {k : ℕ} {res : Buf 34} {rest : List UInt8}

theorem sendBlocks_last (hpcb : IsPcb req0 k pcb) (h : p14443BlockOffset req0 + rest.length ≤ 32) :
    sendBlocks link cid req0 k pcb res rest = some [frameOf cid pcb rest] := by
  have hmin : min (32 - p14443BlockOffset req0) rest.length = rest.length := by omega
  rw [sendBlocks]
  dsimp only
  rw [dif_neg (by omega), hmin, List.take_length, Buf.store_of_le (by omega), Nat.add_comm,
    ← hpcb.offset, Option.bind_eq_bind, Option.bind_some, slice_header _ (by omega) (by
      rw [hpcb.offset]
      omega)]
  rfl

theorem sendBlocks_next (hpcb : IsPcb req0 k pcb) (hack : link.Acknowledges req0)
    (h : 32 < p14443BlockOffset req0 + rest.length) :
    ∃ res', sendBlocks link cid req0 k pcb res rest =
      (sendBlocks link cid req0 (k + 1) (pcb ^^^ 0x01) res'
        (rest.drop (32 - p14443BlockOffset req0))).map
          (frameOf cid (pcb ||| iblockChaining) (rest.take (32 - p14443BlockOffset req0)) :: ·) := by
  have hle := p14443BlockOffset_le req0
  have hoff : p14443BlockOffset req0 = p14443BlockOffset (pcb ||| iblockChaining) := by
    rw [offset_chaining, hpcb.offset]
  have hmin : min (32 - p14443BlockOffset req0) rest.length = 32 - p14443BlockOffset req0 := by omega
  have hlen : (rest.take (32 - p14443BlockOffset req0)).length = 32 - p14443BlockOffset req0 := by
    rw [List.length_take, hmin]
  obtain ⟨block, hblock, hisack⟩ := hack.receive k
  refine ⟨(res.write 0 [pcb ||| iblockChaining, cid, 0]).write (p14443BlockOffset req0)
    (rest.take (32 - p14443BlockOffset req0)), ?_⟩
  have hframe : ((res.write 0 [pcb ||| iblockChaining, cid, 0]).write (p14443BlockOffset req0)
      (rest.take (32 - p14443BlockOffset req0))).slice 0
        (32 - p14443BlockOffset req0 + p14443BlockOffset req0) =
      frameOf cid (pcb ||| iblockChaining) (rest.take (32 - p14443BlockOffset req0)) := by
    rw [← slice_header res (by omega) (by omega), ← hoff, hlen, Nat.add_comm]
  rw [sendBlocks]
  dsimp only
  rw [dif_pos (by omega), hmin, Buf.store_of_le (by omega), Option.bind_eq_bind, Option.bind_some,
    hframe, hblock, rblockCheck_acknowledged hisack (by rw [number_chaining, hpcb.number]),
    hack.waitForTx k]
  cases sendBlocks link cid req0 (k + 1) (pcb ^^^ 0x01) _ (rest.drop (32 - p14443BlockOffset req0)) <;> rfl

end Loop

/-- From block `k` on, the loop sends the rest of the data. The induction
follows the data that is left; the PCB is the one of block `k` all along. -/
theorem sendBlocks_carries {link : Link} {req0 : UInt8} (hack : link.Acknowledges req0) (cid : UInt8)
    (k : ℕ) (pcb : UInt8) (res : Buf 34) (rest : List UInt8) (hpcb : IsPcb req0 k pcb) :
    ∃ frames, sendBlocks link cid req0 k pcb res rest = some frames ∧ frames ≠ [] ∧
      Carries req0 k rest frames := by
  induction hn : rest.length using Nat.strong_induction_on generalizing k pcb res rest with
  | _ n ih =>
    have hle := p14443BlockOffset_le req0
    by_cases hmore : 32 < p14443BlockOffset req0 + rest.length
    · have hpart : (rest.take (32 - p14443BlockOffset req0)).length = 32 - p14443BlockOffset req0 := by
        rw [List.length_take]
        omega
      obtain ⟨res', hsend⟩ := sendBlocks_next hpcb hack hmore
      obtain ⟨frames, hframes, hne, hcarries⟩ := ih _ (by
        rw [List.length_drop]
        omega) (k + 1) (pcb ^^^ 0x01) res' (rest.drop (32 - p14443BlockOffset req0)) hpcb.toggle rfl
      have hblock := isBlock_chained cid (rest.take (32 - p14443BlockOffset req0)) hpcb (by omega)
      refine ⟨frameOf cid (pcb ||| iblockChaining) (rest.take (32 - p14443BlockOffset req0)) :: frames,
        ?_, List.cons_ne_nil _ _, ?_⟩
      · rw [hsend, hframes, Option.map_some]
      · have := Carries.cons hblock hne hcarries
        rwa [informationField_frameOf, List.take_append_drop] at this
    · refine ⟨_, sendBlocks_last hpcb (by omega), List.cons_ne_nil _ _, ?_⟩
      have := Carries.singleton (isBlock_last cid rest hpcb (by omega))
      rwa [informationField_frameOf] at this

/-! ### Whole responses -/

theorem map_nfcWriteFrame {frames : List (List UInt8)} (h : ∀ f ∈ frames, f.length ≤ 32) :
    frames.map nfcWriteFrame = frames := by
  have hid : ∀ f ∈ frames, nfcWriteFrame f = f := fun f hf => List.take_of_length_le (h f hf)
  rw [List.map_congr_left hid]
  exact List.map_id' frames

/-- The frames of `nfc_write_response_chaining_plain` fit and bring the reader
exactly the data. -/
def PlainIntact (link : Link) (stale : Buf 34) (cid req0 : UInt8) (data : List UInt8) : Prop :=
  ∃ frames, nfcWriteResponseChainingPlain link stale cid req0 data = some frames ∧
    (∀ frame ∈ frames, frame.length ≤ 32) ∧ Carries req0 0 data (frames.map nfcWriteFrame)

/-- `nfc_write_response_ex` sends one frame, which fits, with the data and the
status word. -/
def ResponseIntact (stale : Buf 32) (cid req0 : UInt8) (data : List UInt8) (resp : UInt16) : Prop :=
  ∃ frame, nfcWriteResponseEx stale cid req0 data resp = some [frame] ∧ frame.length ≤ 32 ∧
    informationField (nfcWriteFrame frame) = data ++ [(resp >>> 8).toUInt8, (resp &&& 0xff).toUInt8]

theorem Carries.fits {req0 : UInt8} {k : ℕ} {data : List UInt8} {frames : List (List UInt8)}
    (h : Carries req0 k data frames) : ∀ frame ∈ frames, frame.length ≤ 32 := by
  intro frame hmem
  obtain ⟨i, hi⟩ := List.getElem?_of_mem hmem
  exact (h.blocks i frame hi).fits

theorem plainIntact_of_carries {link : Link} {stale : Buf 34} {cid req0 : UInt8} {data : List UInt8}
    {frames : List (List UInt8)}
    (hsend : nfcWriteResponseChainingPlain link stale cid req0 data = some frames)
    (h : Carries req0 0 data frames) : PlainIntact link stale cid req0 data := by
  refine ⟨frames, hsend, h.fits, ?_⟩
  rw [map_nfcWriteFrame h.fits]
  exact h

/-- A single frame is sent up to 31 bytes, whatever the length of its header. -/
theorem plainIntact_iff {link : Link} {stale : Buf 34} {cid req0 : UInt8} {data : List UInt8}
    (hack : link.Acknowledges req0) :
    PlainIntact link stale cid req0 data ↔
      ¬ (data.length ≤ 31 ∧ 32 < p14443BlockOffset req0 + data.length) := by
  have hpcb := isPcb_iBlock req0
  by_cases hshort : data.length ≤ 31
  · by_cases hfit : p14443BlockOffset req0 + data.length ≤ 32
    · refine iff_of_true ?_ (by omega)
      have hsend : nfcWriteResponseChainingPlain link stale cid req0 data =
          some [frameOf cid (nfcCmdIblock ||| (req0 &&& 0x0f)) data] := by
        unfold nfcWriteResponseChainingPlain
        dsimp only
        rw [if_pos hshort, Buf.store_of_le hfit, Nat.add_comm, ← hpcb.offset, Option.bind_eq_bind,
          Option.bind_some, slice_header _ (by omega) (by
            rw [hpcb.offset]
            exact hfit)]
        rfl
      have hcarries := Carries.singleton (isBlock_last cid data hpcb hfit)
      rw [informationField_frameOf] at hcarries
      exact plainIntact_of_carries hsend hcarries
    · refine iff_of_false ?_ (by omega)
      rintro ⟨frames, hsend, -⟩
      unfold nfcWriteResponseChainingPlain at hsend
      dsimp only at hsend
      rw [if_pos hshort, Buf.store_of_lt (by omega)] at hsend
      cases hsend
  · refine iff_of_true ?_ (by omega)
    obtain ⟨frames, hsend, -, hcarries⟩ := sendBlocks_carries hack cid 0 _ stale data hpcb
    refine plainIntact_of_carries ?_ hcarries
    unfold nfcWriteResponseChainingPlain
    dsimp only
    rw [if_neg hshort]
    exact hsend

/-- Up to 29 bytes are accepted, which leaves room for a header of one byte. -/
theorem responseIntact_iff {stale : Buf 32} {cid req0 : UInt8} {data : List UInt8} {resp : UInt16}
    (haccepted : data.length ≤ 29) :
    ResponseIntact stale cid req0 data resp ↔ p14443BlockOffset req0 + data.length + 2 ≤ 32 := by
  have hle := p14443BlockOffset_le req0
  have hpcb := isPcb_iBlock req0
  let sw : List UInt8 := [(resp >>> 8).toUInt8, (resp &&& 0xff).toUInt8]
  have hsw : (data ++ sw).length = data.length + 2 := List.length_append
  by_cases hfit : p14443BlockOffset req0 + data.length + 2 ≤ 32
  · refine iff_of_true ⟨frameOf cid (nfcCmdIblock ||| (req0 &&& 0x0f)) (data ++ sw), ?_, ?_, ?_⟩ hfit
    · unfold nfcWriteResponseEx
      dsimp only
      rw [if_neg (by omega), Buf.store_of_le (by omega), Option.bind_eq_bind, Option.bind_some,
        Buf.store_of_le (by simpa [Nat.add_comm] using hfit), Option.bind_some,
        Nat.add_comm data.length, Buf.write_write (by simpa using hfit), Nat.add_assoc, ← hsw,
        ← hpcb.offset, slice_header _ (by omega) (by
          rw [hpcb.offset, hsw]
          exact hfit)]
      rfl
    · rw [length_frameOf, hpcb.offset, hsw]
      exact hfit
    · rw [nfcWriteFrame, List.take_of_length_le, informationField_frameOf]
      rw [length_frameOf, hpcb.offset, hsw]
      exact hfit
  · refine iff_of_false ?_ hfit
    rintro ⟨frame, hsend, -⟩
    unfold nfcWriteResponseEx at hsend
    dsimp only at hsend
    rw [if_neg (by omega), Buf.store_of_le (by omega), Option.bind_eq_bind, Option.bind_some,
      Buf.store_of_lt (by simpa [Nat.add_comm] using hfit)] at hsend
    cases hsend

/-- With a header of one byte nothing is lost. A longer one overruns the local
buffer of `nfc_write_response_chaining_plain` at 30 or 31 bytes and that of
`nfc_write_response_ex` at 28 or 29. -/
theorem transmission_iff {link : Link} {req0 : UInt8} (hack : link.Acknowledges req0) (cid : UInt8)
    (data : List UInt8) :
    (∀ stale, PlainIntact link stale cid req0 data ↔
      ¬ (data.length ≤ 31 ∧ 32 < p14443BlockOffset req0 + data.length)) ∧
    (∀ stale resp, data.length ≤ 29 → (ResponseIntact stale cid req0 data resp ↔
      p14443BlockOffset req0 + data.length + 2 ≤ 32)) :=
  ⟨fun _ => plainIntact_iff hack, fun _ _ haccepted => responseIntact_iff haccepted⟩

/-- A reader that acknowledges every block of the answer to a request. -/
def promptReader (req0 : UInt8) : Link where
  waitForTx _ := true
  receive k :=
    let pcb := 0xa2 ||| (req0 &&& 0x08) ||| (blockNumber req0 k ^^^ 0x01)
    some (if p14443HaveCid req0 then [pcb, 0] else [pcb])

theorem promptReader_acknowledges (req0 : UInt8) : (promptReader req0).Acknowledges req0 := by
  refine ⟨fun _ => rfl, fun k => ⟨_, rfl, ?_⟩⟩
  rcases Nat.mod_two_eq_zero_or_one k with hk | hk
  · simp only [blockNumber, hk]
    constructor <;> revert req0 <;> exact Bytes.forall_byte (by decide +kernel)
  · simp only [blockNumber, hk]
    constructor <;> revert req0 <;> exact Bytes.forall_byte (by decide +kernel)

/-- An answer of 100 bytes to a request with a CID, and one of 29 bytes to a
request without. -/
theorem transmission_demo :
    PlainIntact (promptReader 0x0a) (Buf.zero 34) 1 0x0a (List.replicate 100 0x55) ∧
      ResponseIntact (Buf.zero 32) 0 0x02 (List.replicate 29 0x55) swSuccess :=
  ⟨((transmission_iff (promptReader_acknowledges 0x0a) 1 _).1 _).mpr (by
      rw [List.length_replicate]
      omega),
    ((transmission_iff (promptReader_acknowledges 0x02) 0 _).2 _ _ (by
      rw [List.length_replicate])).mpr (by decide)⟩

/-- A request with a CID is answered with 31 bytes. -/
theorem transmission_counterexample :
    (promptReader 0x0a).Acknowledges 0x0a ∧
      ¬ PlainIntact (promptReader 0x0a) (Buf.zero 34) 1 0x0a (List.replicate 31 0x55) := by
  refine ⟨promptReader_acknowledges 0x0a, ?_⟩
  rintro ⟨frames, hsend, -⟩
  have hnone : nfcWriteResponseChainingPlain (promptReader 0x0a) (Buf.zero 34) 1 0x0a
      (List.replicate 31 0x55) = none := by decide +kernel
  rw [hnone] at hsend
  cases hsend

end NitrokeyFido2.Nfc
