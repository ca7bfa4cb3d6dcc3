import NitrokeyFido2.Lib.Transition
import NitrokeyFido2.Ctap.Device
import NitrokeyFido2.Storage.StatePages

/-!
The two pages of the signature counter.

`ctap_atomic_count` appends to `COUNTER1_PAGE`, and keeps in `COUNTER2_PAGE`
a mark from which it goes on when it finds the first page empty. The first
page is erased only after the mark was set to a multiple of 256 above the
last count, so that an interrupted roll-over skips counts and repeats none.

What the pages hold is a `CounterPages`, the view the authenticator has of
them, and every flash operation of the counter is one of four steps on it.
-/

namespace NitrokeyFido2.Storage

open NorFlash Bootloader Ctap

variable (chip : Chip) (b : Board)

/-! ### The code -/

/-- `COUNTER1_PAGE`. -/
def counter1Page : ℕ := b.pages - 3

/-- `COUNTER2_PAGE`. -/
def counter2Page : ℕ := b.pages - 4

/-- `ptr[offset]`. -/
def countPtr (flash : Memory) (offset : ℕ) : UInt32 :=
  Bytes.le32 (flash.read (flashAddr (counter1Page b) + 4 * offset) 4)

/-- The word at the start of `COUNTER2_PAGE`. -/
def erasesMark (flash : Memory) : UInt32 := Bytes.le32 (flash.read (flashAddr (counter2Page b)) 4)

/-- The loop over the counts: the offset it stops at, and the last count it
saw. -/
def scanCounts (flash : Memory) : (rounds offset : ℕ) → (lastc : UInt32) → ℕ × UInt32
  | 0, offset, lastc => (offset, lastc)
  | rounds + 1, offset, lastc =>
      if countPtr b flash offset ≠ 0xffffffff then
        scanCounts flash rounds (offset + 2) (countPtr b flash offset)
      else (offset, lastc)

/-- What a call of `ctap_atomic_count` does. -/
structure CountCall where
  ops : List Op
  sc : UInt32
  /-- `none` where it ends in its endless loop. -/
  returned : Option UInt32

/-- The count a random byte stands for. -/
def randomAmount (rng : UInt8) : UInt32 := (rng &&& 0x0f).toUInt32 + 1

def writeMark (erases : UInt32) : List Op :=
  rewritePage (counter2Page b) (Bytes.toLe32 erases)

/-- `ctap_atomic_count`. Nothing is read back from a page that the call has
written to. -/
def ctapAtomicCount (flash : Memory) (sc amount : UInt32) (rng : UInt8) : CountCall :=
  let mark := erasesMark b flash
  let initOps := if mark = 0xffffffff then writeMark b 1 else []
  let erases := if mark = 0xffffffff then 1 else mark
  let amount := if amount = 0 then randomAmount rng else amount
  let scanned := scanCounts b flash (pageSize / 4 / 2) 0 0
  let offset := scanned.1
  let lastc := scanned.2
  if lastc = 0 then
    -- A power cut during an earlier count, and the very first one.
    let lastc := erases * 256 + 1
    ⟨initOps ++ rewritePage (counter1Page b) (Bytes.toLe32 lastc) ++ writeMark b (erases + 1), sc,
      some lastc⟩
  else
    let lastc := if amount > 256 then amount else lastc + amount
    let markOps := if lastc / 256 > erases then writeMark b (lastc / 256) else []
    let rollOps :=
      if offset = pageSize / 4 then
        writeMark b (lastc / 256 + 1) ++ [flashErasePage (counter1Page b)]
      else []
    let offset := if offset = pageSize / 4 then 0 else offset
    let ops := initOps ++ markOps ++ rollOps ++
      flashWrite (flashAddr (counter1Page b) + offset * 4) (Bytes.toLe32 lastc)
    if lastc = sc then ⟨ops, sc, none⟩ else ⟨ops, lastc, some lastc⟩

/-! ### Steps on the pages -/

/-- One flash operation of the counter. -/
inductive PageOp
  | eraseMark
  | writeMark (erases : UInt32)
  | eraseCounts
  | writeCount (slot : ℕ) (count : UInt32)

namespace PageOp

def toOp : PageOp → Op
  | .eraseMark => flashErasePage (counter2Page b)
  | .writeMark erases =>
      .program (flashAddr (counter2Page b)) (flashWriteBuf (Bytes.toLe32 erases) 0)
  | .eraseCounts => flashErasePage (counter1Page b)
  | .writeCount slot count =>
      .program (flashAddr (counter1Page b) + 8 * slot) (flashWriteBuf (Bytes.toLe32 count) 0)

/-- What it does to the view of the pages. A count of all ones stays
erased. -/
def apply (p : CounterPages) : PageOp → CounterPages
  | .eraseMark => { p with erases := 0xffffffff }
  | .writeMark erases => { p with erases := erases }
  | .eraseCounts => { p with counts := [] }
  | .writeCount _ count => { p with counts := p.counts ++ if count = 0xffffffff then [] else [count] }

/-- The operation programs nothing that is not erased. -/
def Allowed (p : CounterPages) : PageOp → Prop
  | .writeMark erases => p.erases = 0xffffffff ∧ erases ≠ 0xffffffff
  | .writeCount slot _ => slot = p.counts.length ∧ slot < countsPerPage
  | _ => True

end PageOp

/-- The double word of a count. -/
def countWord (count : UInt32) : List UInt8 := flashWriteBuf (Bytes.toLe32 count) 0

/-- The pages in flash hold these counts and this mark. -/
structure Represents (flash : Memory) (p : CounterPages) : Prop where
  counts : Filled flash (flashAddr (counter1Page b)) pageSize 8 (p.counts.map countWord)
  ordinary : ∀ v ∈ p.counts, v ≠ 0xffffffff
  mark : if p.erases = 0xffffffff then flash.Erased (flashAddr (counter2Page b)) 8
    else flash.read (flashAddr (counter2Page b)) 4 = Bytes.toLe32 p.erases

theorem le32_ones : Bytes.le32 [0xFF, 0xFF, 0xFF, 0xFF] = 0xffffffff := by decide

theorem countWord_eq (count : UInt32) :
    countWord count = Bytes.toLe32 count ++ [0xFF, 0xFF, 0xFF, 0xFF] := rfl

theorem countWord_ones : countWord 0xffffffff = List.replicate 8 0xFF := by decide

theorem length_countWord (count : UInt32) : (countWord count).length = 8 := rfl

theorem counterPages_apart :
    flashAddr (counter2Page b) + pageSize ≤ flashAddr (counter1Page b) := by
  cases b <;> decide

theorem flashWrite_word (page slot : ℕ) (v : UInt32) :
    flashWrite (flashAddr page + 8 * slot) (Bytes.toLe32 v) =
      [.program (flashAddr page + 8 * slot) (flashWriteBuf (Bytes.toLe32 v) 0)] := by
  have hmod := flashAddr_mod page
  have haddr : flashAddr page + 8 * slot - (flashAddr page + 8 * slot) % 8 =
      flashAddr page + 8 * slot := by omega
  rw [flashWrite, haddr, Bytes.length_toLe32]
  rfl

section Represents

variable {b} {flash : Memory} {p : CounterPages}

theorem Represents.erasesMark_eq (h : Represents b flash p) : erasesMark b flash = p.erases := by
  have hmark := h.mark
  unfold erasesMark
  split at hmark
  case isTrue hones =>
    have hread : flash.read (flashAddr (counter2Page b)) 4 = [0xFF, 0xFF, 0xFF, 0xFF] := by
      have h₀ := hmark 0 (by omega)
      have h₁ := hmark 1 (by omega)
      have h₂ := hmark 2 (by omega)
      have h₃ := hmark 3 (by omega)
      show [flash _, flash _, flash _, flash _] = _
      rw [h₀, h₁, h₂, h₃]
    rw [hread, le32_ones, hones]
  case isFalse => rw [hmark, ← List.append_nil (Bytes.toLe32 _), Bytes.le32_toLe32]

theorem Represents.length_le (h : Represents b flash p) : p.counts.length ≤ countsPerPage := by
  have hfits := h.counts.fits
  rw [List.length_map] at hfits
  unfold pageSize at hfits
  unfold countsPerPage
  omega

theorem Represents.countPtr_of_lt (h : Represents b flash p) {i : ℕ} (hi : i < p.counts.length) :
    countPtr b flash (2 * i) = p.counts[i] := by
  have hword := h.counts.written i (by rwa [List.length_map])
  rw [List.getElem_map] at hword
  rw [countPtr, show 4 * (2 * i) = 8 * i by omega, ← Memory.take_read flash _ (show 4 ≤ 8 by omega),
    hword, countWord_eq, List.take_left' (Bytes.length_toLe32 _), ← List.append_nil (Bytes.toLe32 _),
    Bytes.le32_toLe32]

theorem Represents.countPtr_behind (h : Represents b flash p) (hlt : p.counts.length < countsPerPage) :
    countPtr b flash (2 * p.counts.length) = 0xffffffff := by
  have hbyte : ∀ i < 4, flash (flashAddr (counter1Page b) + 4 * (2 * p.counts.length) + i) = 0xFF := by
    intro i hi
    unfold countsPerPage at hlt
    refine h.counts.erased _ ?_ ?_
    · rw [List.length_map]
      omega
    · unfold pageSize
      omega
  have h₀ := hbyte 0 (by omega)
  have h₁ := hbyte 1 (by omega)
  have h₂ := hbyte 2 (by omega)
  have h₃ := hbyte 3 (by omega)
  have hread : flash.read (flashAddr (counter1Page b) + 4 * (2 * p.counts.length)) 4 =
      [0xFF, 0xFF, 0xFF, 0xFF] := by
    show [flash _, flash _, flash _, flash _] = _
    rw [h₀, h₁, h₂, h₃]
  rw [countPtr, hread, le32_ones]

theorem Represents.scanCounts_from (h : Represents b flash p) {i rounds : ℕ} (lastc : UInt32)
    (hi : i ≤ p.counts.length) (hrounds : i + rounds = countsPerPage) :
    scanCounts b flash rounds (2 * i) lastc =
      (2 * p.counts.length, (p.counts.drop i).getLastD lastc) := by
  have hle := h.length_le
  induction rounds generalizing i lastc with
  | zero =>
      obtain rfl : i = p.counts.length := by omega
      rw [scanCounts, List.drop_length]
      rfl
  | succ rounds ih =>
      rw [scanCounts]
      by_cases hlt : i < p.counts.length
      · rw [h.countPtr_of_lt hlt, if_pos (h.ordinary _ (List.getElem_mem hlt)),
          show 2 * i + 2 = 2 * (i + 1) by omega, ih _ (by omega) (by omega),
          List.drop_eq_getElem_cons hlt, List.getLastD_cons]
      · obtain rfl : i = p.counts.length := by omega
        rw [h.countPtr_behind (by omega), if_neg (by simp), List.drop_length]
        rfl

theorem Represents.scanCounts_eq (h : Represents b flash p) :
    scanCounts b flash (pageSize / 4 / 2) 0 0 = (2 * p.counts.length, p.counts.getLastD 0) :=
  h.scanCounts_from 0 (Nat.zero_le _) rfl

/-- The first page is left alone by what happens in the second one. -/
theorem Represents.counts_congr (h : Represents b flash p) {op : Op}
    (hop : ∀ a, op.Touches a → a < flashAddr (counter1Page b)) :
    Filled (op.apply chip flash) (flashAddr (counter1Page b)) pageSize 8
      (p.counts.map countWord) :=
  h.counts.congr fun a ha _ =>
    Op.apply_outside chip flash op fun htouch => absurd (hop a htouch) (by omega)

/-- The mark is left alone by what happens in the first page. -/
theorem Represents.mark_congr (h : Represents b flash p) (op : Op)
    (hop : ∀ a, op.Touches a → flashAddr (counter1Page b) ≤ a) :
    if p.erases = 0xffffffff then (op.apply chip flash).Erased (flashAddr (counter2Page b)) 8
    else (op.apply chip flash).read (flashAddr (counter2Page b)) 4 = Bytes.toLe32 p.erases := by
  have hapart := counterPages_apart b
  have hsame : ∀ i < 8, op.apply chip flash (flashAddr (counter2Page b) + i) =
      flash (flashAddr (counter2Page b) + i) := fun i hi =>
    Op.apply_outside chip flash op fun htouch => by
      have hle := hop _ htouch
      unfold pageSize at hapart
      omega
  have hmark := h.mark
  split at hmark
  case isTrue hones =>
    rw [if_pos hones]
    intro i hi
    rw [hsame i hi, hmark i hi]
  case isFalse hones =>
    rw [if_neg hones, ← hmark]
    refine Memory.read_congr fun a h₁ h₂ => ?_
    have hbyte := hsame (a - flashAddr (counter2Page b)) (by omega)
    rwa [show flashAddr (counter2Page b) + (a - flashAddr (counter2Page b)) = a by omega] at hbyte

/-- An allowed operation does to the pages what `PageOp.apply` says. -/
theorem Represents.step (h : Represents b flash p) (op : PageOp) (hop : op.Allowed p) :
    Represents b ((op.toOp b).apply chip flash) (op.apply p) := by
  have hapart := counterPages_apart b
  cases op with
  | eraseMark =>
      refine ⟨h.counts_congr chip fun a ha => lt_of_lt_of_le ha.2 hapart, h.ordinary, ?_⟩
      show if (0xffffffff : UInt32) = 0xffffffff then _ else _
      rw [if_pos rfl]
      intro i hi
      exact Op.apply_erase_inside chip flash (by omega) (by unfold pageSize; omega)
  | writeMark erases =>
      obtain ⟨hones, hnew⟩ := hop
      have hfree := h.mark
      rw [if_pos hones] at hfree
      refine ⟨h.counts_congr chip fun a ha => ?_, h.ordinary, ?_⟩
      · have hlt : a < flashAddr (counter2Page b) + 8 := ha.2
        unfold pageSize at hapart
        omega
      · show if erases = 0xffffffff then _ else _
        rw [if_neg hnew]
        show (_ : List UInt8) = Bytes.toLe32 erases
        refine List.ext_getElem (Memory.length_read ..) fun i hi hi' => ?_
        rw [Memory.length_read] at hi
        have hread := Memory.getD_read ((PageOp.writeMark erases |>.toOp b).apply chip flash)
          (flashAddr (counter2Page b)) 4 i 0 hi
        rw [List.getD_eq_getElem _ _ (by rwa [Memory.length_read])] at hread
        rw [hread, PageOp.toOp, Op.apply_program_inside chip flash hfree (by omega)
          (by rw [length_flashWriteBuf]; omega), Nat.add_sub_cancel_left, ← countWord, countWord_eq,
          List.getD_append _ _ _ _ hi', List.getD_eq_getElem _ _ hi']
  | eraseCounts =>
      refine ⟨?_, fun _ hv => absurd hv List.not_mem_nil, h.mark_congr chip _ fun a ha => ha.1⟩
      exact Filled.of_erased fun a ha ha' => Op.apply_erase_inside chip flash ha ha'
  | writeCount slot count =>
      obtain ⟨rfl, hslot⟩ := hop
      have hbase : flashAddr (counter1Page b) + 8 * p.counts.length =
          flashAddr (counter1Page b) + 8 * (p.counts.map countWord).length := by
        rw [List.length_map]
      have hfits : 8 * (p.counts.map countWord).length + 8 ≤ pageSize := by
        rw [List.length_map]
        unfold pageSize countsPerPage at *
        omega
      have hnext := h.counts.program chip (length_countWord count) hfits
      rw [← hbase] at hnext
      have hmark := h.mark_congr chip (PageOp.toOp b (.writeCount p.counts.length count))
        fun a ha => le_trans (Nat.le_add_right _ _) ha.1
      by_cases hones : count = 0xffffffff
      · -- a word of ones cannot be told from an erased one
        subst hones
        have hsame : ∀ a, (PageOp.toOp b (.writeCount p.counts.length 0xffffffff)).apply chip flash a =
            flash a := by
          intro a
          by_cases hin : flashAddr (counter1Page b) + 8 * p.counts.length ≤ a ∧
              a < flashAddr (counter1Page b) + 8 * p.counts.length + 8
          · have hfree : flash.Erased (flashAddr (counter1Page b) + 8 * p.counts.length)
                (flashWriteBuf (Bytes.toLe32 0xffffffff) 0).length := fun i hi => by
              rw [length_flashWriteBuf] at hi
              exact h.counts.erased _ (by omega) (by omega)
            rw [PageOp.toOp, Op.apply_program_inside chip flash hfree hin.1 hin.2,
              h.counts.erased a (by omega) (by omega), ← countWord, countWord_ones,
              List.getD_replicate _ (by omega)]
          · exact Op.apply_outside chip flash _ hin
        refine ⟨?_, ?_, hmark⟩
        · rw [PageOp.apply, if_pos rfl, List.append_nil]
          exact h.counts.congr fun a _ _ => hsame a
        · rw [PageOp.apply, if_pos rfl, List.append_nil]
          exact h.ordinary
      · refine ⟨?_, ?_, hmark⟩
        · rw [PageOp.apply, if_neg hones, List.map_append]
          exact hnext
        · rw [PageOp.apply, if_neg hones]
          intro v hv
          rcases List.mem_append.mp hv with hv | hv
          · exact h.ordinary v hv
          · rwa [List.mem_singleton.mp hv]

/-- The flash follows the steps, as far as they get. -/
theorem Represents.steps (h : Represents b flash p) {ops : List PageOp}
    (hops : Transition.Along PageOp.apply PageOp.Allowed p ops) (k : ℕ) :
    Represents b (applyAll chip flash ((ops.map (PageOp.toOp b)).take k))
      (Transition.run PageOp.apply p (ops.take k)) := by
  induction ops generalizing flash p k with
  | nil =>
      rw [List.map_nil, List.take_nil, List.take_nil]
      exact h
  | cons op ops ih =>
      cases k with
      | zero => exact h
      | succ k => exact ih (h.step chip op hops.1) hops.2 k

end Represents

/-! ### A call on the view -/

/-- The mark a call goes by: an erased one counts as 1. -/
def markOf (p : CounterPages) : UInt32 := if p.erases = 0xffffffff then 1 else p.erases

/-- The last count, zero if there is none. -/
def lastCount (p : CounterPages) : UInt32 := p.counts.getLastD 0

def setMark (erases : UInt32) : List PageOp := [.eraseMark, .writeMark erases]

def initMark (p : CounterPages) : List PageOp := if p.erases = 0xffffffff then setMark 1 else []

/-- What a call returns, unless it loops. -/
def nextCount (p : CounterPages) (amount : UInt32) : UInt32 :=
  if lastCount p = 0 then markOf p * 256 + 1 else lastCount p + amount

/-- The steps of a call that found no count. -/
def restoreSteps (p : CounterPages) (amount : UInt32) : List PageOp :=
  [.eraseCounts, .writeCount 0 (nextCount p amount)] ++ setMark (markOf p + 1)

/-- The steps of a call that goes on from the last count. -/
def appendSteps (p : CounterPages) (amount : UInt32) : List PageOp :=
  let lastc := nextCount p amount
  (if lastc / 256 > markOf p then setMark (lastc / 256) else []) ++
    if p.counts.length = countsPerPage then
      setMark (lastc / 256 + 1) ++ [.eraseCounts, .writeCount 0 lastc]
    else [.writeCount p.counts.length lastc]

/-- The steps of a call. -/
def countSteps (p : CounterPages) (amount : UInt32) : List PageOp :=
  initMark p ++ if lastCount p = 0 then restoreSteps p amount else appendSteps p amount

theorem toNat_randomAmount (rng : UInt8) :
    1 ≤ (randomAmount rng).toNat ∧ (randomAmount rng).toNat ≤ 16 := by
  have hle : (rng &&& 0x0f).toUInt32.toNat ≤ 15 := by
    rw [UInt8.toNat_toUInt32, UInt8.toNat_and]
    exact Nat.and_le_right
  unfold randomAmount
  rw [UInt32.toNat_add]
  change 1 ≤ (_ + 1) % 2 ^ 32 ∧ (_ + 1) % 2 ^ 32 ≤ 16
  omega

theorem randomAmount_not_gt (rng : UInt8) : ¬ randomAmount rng > 256 := by
  have hle := (toNat_randomAmount rng).2
  rw [gt_iff_lt, UInt32.lt_iff_toNat_lt]
  change ¬ 256 < _
  omega

section Call

variable {b} {flash : Memory} {p : CounterPages}

theorem writeMark_eq (erases : UInt32) :
    writeMark b erases = (setMark erases).map (PageOp.toOp b) := by
  have hword := flashWrite_word (counter2Page b) 0 erases
  rw [Nat.mul_zero, Nat.add_zero] at hword
  rw [writeMark, rewritePage, hword]
  rfl

theorem rewriteCounts_eq (count : UInt32) :
    rewritePage (counter1Page b) (Bytes.toLe32 count) =
      [PageOp.eraseCounts, .writeCount 0 count].map (PageOp.toOp b) := by
  have hword := flashWrite_word (counter1Page b) 0 count
  rw [Nat.mul_zero, Nat.add_zero] at hword
  rw [rewritePage, hword]
  rfl

/-- The last operations of a call: at the end of the page the first page is
begun anew. -/
theorem rollOver_eq (p : CounterPages) (lastc : UInt32) :
    (if 2 * p.counts.length = pageSize / 4 then
        writeMark b (lastc / 256 + 1) ++ [flashErasePage (counter1Page b)] else []) ++
      flashWrite (flashAddr (counter1Page b) +
        (if 2 * p.counts.length = pageSize / 4 then 0 else 2 * p.counts.length) * 4)
        (Bytes.toLe32 lastc) =
      if p.counts.length = countsPerPage then
        writeMark b (lastc / 256 + 1) ++ [PageOp.eraseCounts, .writeCount 0 lastc].map (PageOp.toOp b)
      else [PageOp.writeCount p.counts.length lastc].map (PageOp.toOp b) := by
  have hroll : 2 * p.counts.length = pageSize / 4 ↔ p.counts.length = countsPerPage := by
    unfold pageSize countsPerPage
    omega
  by_cases hfull : p.counts.length = countsPerPage
  · rw [if_pos (hroll.mpr hfull), if_pos (hroll.mpr hfull), if_pos hfull, List.append_assoc]
    have hword := flashWrite_word (counter1Page b) 0 lastc
    rw [Nat.zero_mul, ← Nat.mul_zero 8, hword]
    rfl
  · rw [if_neg (fun h => hfull (hroll.mp h)), if_neg (fun h => hfull (hroll.mp h)), if_neg hfull,
      show 2 * p.counts.length * 4 = 8 * p.counts.length by omega, flashWrite_word]
    rfl

/-- What the code makes of the flash is what the view says. -/
theorem Represents.ctapAtomicCount_eq (h : Represents b flash p) (sc : UInt32) (rng : UInt8) :
    ctapAtomicCount b flash sc 0 rng =
      { ops := (countSteps p (randomAmount rng)).map (PageOp.toOp b)
        sc := if lastCount p = 0 then sc else nextCount p (randomAmount rng)
        returned := if lastCount p ≠ 0 ∧ nextCount p (randomAmount rng) = sc then none
          else some (nextCount p (randomAmount rng)) } := by
  have hinit : (if p.erases = 0xffffffff then writeMark b 1 else []) =
      (initMark p).map (PageOp.toOp b) := by
    unfold initMark
    split
    · exact writeMark_eq 1
    · rfl
  unfold ctapAtomicCount countSteps
  simp only [h.erasesMark_eq, h.scanCounts_eq, hinit, if_true, randomAmount_not_gt, if_false]
  by_cases hlast : lastCount p = 0
  · have hzero : p.counts.getLastD 0 = 0 := hlast
    simp only [hzero, hlast, if_true, ne_eq, not_true_eq_false, false_and, if_false, List.map_append,
      restoreSteps, nextCount, writeMark_eq, rewriteCounts_eq, List.append_assoc]
    rfl
  · have hpos : ¬ p.counts.getLastD 0 = 0 := hlast
    have hnext : p.counts.getLastD 0 + randomAmount rng = nextCount p (randomAmount rng) :=
      (if_neg hlast).symm
    simp only [hpos, hlast, if_false, ne_eq, not_false_eq_true, true_and, hnext, appendSteps,
      List.map_append, List.append_assoc, apply_ite (List.map (PageOp.toOp b)), List.map_nil,
      ← writeMark_eq, ← rollOver_eq]
    split
    case isTrue hsame => rw [hsame]; rfl
    case isFalse => rfl

end Call

end NitrokeyFido2.Storage
