import NitrokeyFido2.Lib.Bytes
import NitrokeyFido2.Lib.RingBuffer
import NitrokeyFido2.Lib.Transition

/-!
The queues that `FIFO_CREATE` makes.

A queue is an array of bytes cut into elements of one length, two pointers and a
size. An access outside the array has no result. The queue of packets holds 100
elements of 64 bytes; nothing here depends on that.
-/

namespace NitrokeyFido2.Hid

open RingBuffer

/-- The variables of `FIFO_CREATE(NAME, LENGTH, BYTES)`. -/
structure Fifo (length bytes : ℕ) where
  writePtr : ℕ
  readPtr : ℕ
  size : ℕ
  writeBuf : Buf (bytes * length)

namespace Fifo

variable {length bytes : ℕ}

def create (length bytes : ℕ) : Fifo length bytes := ⟨0, 0, 0, Buf.zero _⟩

/-- `fifo_NAME_add`. -/
def add (q : Fifo length bytes) (c : Buf bytes) : Option (ℤ × Fifo length bytes) :=
  if q.size < length then
    (q.writeBuf.store (q.writePtr * bytes) c.bytes).map fun buf =>
      (0, { q with
        writeBuf := buf
        writePtr := if q.writePtr + 1 ≥ length then 0 else q.writePtr + 1
        size := q.size + 1 })
  else some (-1, q)

/-- `fifo_NAME_take`: what it returns, and what it leaves at `c`. -/
def take (q : Fifo length bytes) : Option (ℤ × List UInt8 × Fifo length bytes) :=
  if q.readPtr * bytes + bytes ≤ bytes * length then
    let c := q.writeBuf.slice (q.readPtr * bytes) bytes
    if q.size > 0 then
      some (0, c, { q with
        readPtr := if q.readPtr + 1 ≥ length then 0 else q.readPtr + 1
        size := q.size - 1 })
    else some (-1, c, q)
  else none

/-- A call. -/
inductive Op (bytes : ℕ)
  | add (c : Buf bytes)
  | take

/-- What a call returns, and the element that a successful `take` hands out. -/
structure Result where
  ret : ℤ
  element : Option (List UInt8)
  deriving DecidableEq

def perform (q : Fifo length bytes) : Op bytes → Option (Result × Fifo length bytes)
  | .add c => (q.add c).map fun r => (⟨r.1, none⟩, r.2)
  | .take => q.take.map fun r => (⟨r.1, if r.1 = 0 then some r.2.1 else none⟩, r.2.2)

/-- One call after the other. -/
def performAll (q : Fifo length bytes) : List (Op bytes) → Option (List Result × Fifo length bytes)
  | [] => some ([], q)
  | op :: ops =>
      (q.perform op).bind fun r => (r.2.performAll ops).map fun rs => (r.1 :: rs.1, rs.2)

/-! ### The queue it stands for -/

/-- What a call does to a queue of that capacity. -/
def queueStep (length : ℕ) (l : List (List UInt8)) : Op bytes → Result × List (List UInt8)
  | .add c => (⟨if (push length c.bytes l).1 then 0 else -1, none⟩, (push length c.bytes l).2)
  | .take => (⟨if (pop l).1.isSome then 0 else -1, (pop l).1⟩, (pop l).2)

def queueRun (length : ℕ) (l : List (List UInt8)) : List (Op bytes) → List Result × List (List UInt8)
  | [] => ([], l)
  | op :: ops =>
      let r := queueStep length l op
      let rs := queueRun length r.2 ops
      (r.1 :: rs.1, rs.2)

/-- The elements that are held, the oldest first. -/
def contents (q : Fifo length bytes) : List (List UInt8) :=
  RingBuffer.contents (fun j => q.writeBuf.slice (j * bytes) bytes) length q.readPtr q.size

/-- The pointers and the size fit together. -/
def Fits (q : Fifo length bytes) : Prop := Congruent length q.readPtr q.writePtr q.size

section Step

variable {q : Fifo length bytes}

/-- An element lies within the array, and apart from every other one. -/
theorem slot_le {j : ℕ} (hj : j < length) : j * bytes + bytes ≤ bytes * length := by
  calc j * bytes + bytes = bytes * (j + 1) := by ring
    _ ≤ bytes * length := Nat.mul_le_mul_left bytes hj

theorem slot_apart {i j : ℕ} (h : i ≠ j) : i * bytes + bytes ≤ j * bytes ∨ j * bytes + bytes ≤ i * bytes := by
  rcases Nat.lt_or_gt_of_ne h with hlt | hlt
  · left
    calc i * bytes + bytes = (i + 1) * bytes := by ring
      _ ≤ j * bytes := Nat.mul_le_mul_right bytes hlt
  · right
    calc j * bytes + bytes = (j + 1) * bytes := by ring
      _ ≤ i * bytes := Nat.mul_le_mul_right bytes hlt

theorem add_refines (hq : q.Fits) (c : Buf bytes) :
    ∃ q', q.add c = some (if q.size < length then 0 else -1, q') ∧ q'.Fits ∧
      q'.contents = (push length c.bytes q.contents).2 ∧ (¬ q.size < length → q' = q) := by
  have hlen : q.contents.length = q.size := length_contents
  unfold add push
  rw [hlen]
  split
  case isTrue hsize =>
    have hroom : q.writePtr * bytes + c.bytes.length ≤ bytes * length := by
      rw [c.length_bytes]
      exact slot_le hq.write_lt
    rw [Buf.store_of_le hroom, Option.map_some]
    set buf := q.writeBuf.write (q.writePtr * bytes) c.bytes with hbuf
    have hpush : RingBuffer.contents (fun j => buf.slice (j * bytes) bytes) length q.readPtr
        (q.size + 1) = q.contents ++ [buf.slice (q.writePtr * bytes) bytes] := by
      refine contents_push hq hsize fun j _ hne => Buf.slice_write_other hroom ?_
      rw [c.length_bytes]
      exact slot_apart hne
    rw [hbuf, Buf.slice_written c.length_bytes (slot_le hq.write_lt)] at hpush
    exact ⟨_, rfl, hq.push hsize, hpush, fun h => absurd hsize h⟩
  case isFalse hfull => exact ⟨q, rfl, hq, rfl, fun _ => rfl⟩

theorem take_refines (hq : q.Fits) :
    ∃ c q', q.take = some (if q.size > 0 then 0 else -1, c, q') ∧ q'.Fits ∧
      q'.contents = (pop q.contents).2 ∧ (q.size > 0 → (pop q.contents).1 = some c) ∧
        (¬ q.size > 0 → (pop q.contents).1 = none) := by
  unfold take
  rw [if_pos (slot_le hq.read_lt)]
  dsimp only
  split
  case isTrue hsize =>
    have hpop : q.contents = _ :: _ := contents_pop hq hsize
    rw [hpop]
    exact ⟨_, _, rfl, hq.pop hsize, rfl, fun _ => rfl, fun h => absurd hsize h⟩
  case isFalse hsize =>
    have hempty : q.contents = [] := by
      rw [← List.length_eq_zero_iff]
      have hlen : q.contents.length = q.size := length_contents
      omega
    rw [hempty]
    exact ⟨_, q, rfl, hq, hempty, fun h => absurd h hsize, fun _ => rfl⟩

theorem perform_refines (hq : q.Fits) (op : Op bytes) :
    ∃ q', q.perform op = some ((queueStep length q.contents op).1, q') ∧ q'.Fits ∧
      q'.contents = (queueStep length q.contents op).2 := by
  have hlen : q.contents.length = q.size := length_contents
  cases op with
  | add c =>
      obtain ⟨q', hadd, hfits, hcontents, -⟩ := add_refines hq c
      refine ⟨q', ?_, hfits, hcontents⟩
      rw [perform, hadd, Option.map_some, queueStep, push, hlen]
      split <;> rfl
  | take =>
      obtain ⟨c, q', htake, hfits, hcontents, hsome, hnone⟩ := take_refines hq
      refine ⟨q', ?_, hfits, hcontents⟩
      rw [perform, htake, Option.map_some, queueStep]
      by_cases hsize : q.size > 0
      · rw [hsome hsize, if_pos hsize]
        rfl
      · rw [hnone hsize, if_neg hsize]
        rfl

theorem performAll_refines (hq : q.Fits) (ops : List (Op bytes)) :
    ∃ q', q.performAll ops = some ((queueRun length q.contents ops).1, q') ∧ q'.Fits ∧
      q'.contents = (queueRun length q.contents ops).2 := by
  induction ops generalizing q with
  | nil => exact ⟨q, rfl, hq, rfl⟩
  | cons op ops ih =>
      obtain ⟨q₁, hstep, hfits, hcontents⟩ := perform_refines hq op
      obtain ⟨q₂, hrun, hfits₂, hcontents₂⟩ := ih hfits
      refine ⟨q₂, ?_, hfits₂, ?_⟩
      · rw [performAll, hstep, Option.bind_some, hrun, hcontents]
        rfl
      · rw [hcontents₂, hcontents]
        rfl

end Step

/-- Every run of calls stays within the array and returns what a queue of that
capacity returns; a call that finds it full leaves all as it is. -/
theorem refines_queue (length bytes : ℕ) (hlength : 0 < length) (ops : List (Op bytes)) :
    ∃ q, (create length bytes).performAll ops = some ((queueRun length [] ops).1, q) ∧
      q.contents = (queueRun length [] ops).2 ∧
      ∀ c, (q.contents.length = length ↔ ∃ q', q.add c = some (-1, q')) ∧
        (q.contents.length = length → q.add c = some (-1, q)) := by
  have hempty : (create length bytes).contents = [] := rfl
  obtain ⟨q, hrun, hfits, hcontents⟩ :=
    performAll_refines (q := create length bytes) (Congruent.empty hlength) ops
  rw [hempty] at hrun hcontents
  refine ⟨q, hrun, hcontents, fun c => ?_⟩
  have hlen : q.contents.length = q.size := length_contents
  obtain ⟨q', hadd, -, -, hsame⟩ := add_refines hfits c
  have hle : q.size ≤ length := hfits.size_le
  rw [hlen, hadd]
  by_cases hsize : q.size < length
  · rw [if_pos hsize]
    refine ⟨iff_of_false (by omega) ?_, fun h => absurd h (by omega)⟩
    rintro ⟨_, h⟩
    cases h
  · rw [if_neg hsize, hsame hsize]
    exact ⟨iff_of_true (by omega) ⟨q, rfl⟩, fun _ => rfl⟩

/-- The packets of the device: two are added and three are asked for. -/
theorem refines_queue_hidmsg :
    ∃ q, (create 100 64).performAll [.add (Buf.fill 64 1), .add (Buf.fill 64 2), .take, .take, .take] =
        some ((queueRun 100 [] [.add (Buf.fill 64 1), .add (Buf.fill 64 2), .take, .take, .take]).1, q) ∧
      q.contents = [] := by
  obtain ⟨q, hrun, hcontents, -⟩ := refines_queue 100 64 (by decide)
    [.add (Buf.fill 64 1), .add (Buf.fill 64 2), .take, .take, .take]
  exact ⟨q, hrun, hcontents⟩

end Fifo

end NitrokeyFido2.Hid
