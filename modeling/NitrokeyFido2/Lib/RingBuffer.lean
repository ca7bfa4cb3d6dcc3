import Mathlib.Data.List.Range
import Mathlib.Tactic

/-!
Queues in a ring of slots.

A ring of `n` slots holds a queue between a place to read and a place to write,
with the number of its elements kept apart. What the slots are is left open: all
that matters is that writing to one leaves the others as they are. The queue
itself is a list of bounded length.
-/

namespace RingBuffer

variable {α : Type}

/-! ### Bounded queues -/

/-- An element is added unless the queue is full. -/
def push (cap : ℕ) (x : α) (l : List α) : Bool × List α :=
  if l.length < cap then (true, l ++ [x]) else (false, l)

/-- The oldest element is taken unless there is none. -/
def pop : List α → Option α × List α
  | [] => (none, [])
  | x :: l => (some x, l)

/-! ### Places in the ring -/

/-- The place behind, which is the first one behind the last. -/
def next (n i : ℕ) : ℕ := if i + 1 ≥ n then 0 else i + 1

theorem next_eq {n i : ℕ} (hi : i < n) : next n i = (i + 1) % n := by
  unfold next
  split
  · rw [show i + 1 = n by omega, Nat.mod_self]
  · rw [Nat.mod_eq_of_lt (by omega)]

/-- The writing place is as many places behind the reading one as there are
elements. -/
structure Congruent (n read write size : ℕ) : Prop where
  read_lt : read < n
  size_le : size ≤ n
  write_eq : write = (read + size) % n

theorem Congruent.empty {n : ℕ} (hn : 0 < n) : Congruent n 0 0 0 :=
  ⟨hn, Nat.zero_le n, (Nat.zero_mod n).symm⟩

section Congruent

variable {n read write size : ℕ}

theorem Congruent.write_lt (h : Congruent n read write size) : write < n := by
  rw [h.write_eq]
  exact Nat.mod_lt _ (Nat.zero_lt_of_lt h.read_lt)

theorem Congruent.push (h : Congruent n read write size) (hsize : size < n) :
    Congruent n read (next n write) (size + 1) where
  read_lt := h.read_lt
  size_le := hsize
  write_eq := by rw [next_eq h.write_lt, h.write_eq, Nat.mod_add_mod, Nat.add_assoc]

theorem Congruent.pop (h : Congruent n read write size) (hsize : 0 < size) :
    Congruent n (next n read) write (size - 1) where
  read_lt := by
    rw [next_eq h.read_lt]
    exact Nat.mod_lt _ (Nat.zero_lt_of_lt h.read_lt)
  size_le := (Nat.sub_le size 1).trans h.size_le
  write_eq := by rw [next_eq h.read_lt, h.write_eq, Nat.mod_add_mod, show read + 1 + (size - 1) =
    read + size by omega]

/-- Two places less than a round apart are different. -/
theorem mod_ne {i k : ℕ} (hi : i < k) (hk : k < n) : (read + i) % n ≠ (read + k) % n := by
  intro heq
  have hmod : read + i ≡ read + k [MOD n] := heq
  have hik : i ≡ k [MOD n] := Nat.ModEq.add_left_cancel' read hmod
  rw [Nat.ModEq, Nat.mod_eq_of_lt (hi.trans hk), Nat.mod_eq_of_lt hk] at hik
  omega

/-! ### What the ring holds -/

/-- The elements, the oldest first. -/
def contents (slot : ℕ → α) (n read size : ℕ) : List α :=
  (List.range size).map fun i => slot ((read + i) % n)

variable {slot slot' : ℕ → α}

@[simp] theorem length_contents : (contents slot n read size).length = size := by
  simp [contents]

theorem contents_push (h : Congruent n read write size) (hsize : size < n)
    (hother : ∀ j < n, j ≠ write → slot' j = slot j) :
    contents slot' n read (size + 1) = contents slot n read size ++ [slot' write] := by
  unfold contents
  rw [List.range_succ, List.map_append, List.map_singleton, ← h.write_eq]
  congr 1
  refine List.map_congr_left fun i hi => ?_
  have hlt : i < size := List.mem_range.mp hi
  refine hother _ (Nat.mod_lt _ (Nat.zero_lt_of_lt h.read_lt)) ?_
  rw [h.write_eq]
  exact mod_ne hlt hsize

theorem contents_pop (h : Congruent n read write size) (hsize : 0 < size) :
    contents slot n read size = slot read :: contents slot n (next n read) (size - 1) := by
  obtain ⟨k, rfl⟩ : ∃ k, size = k + 1 := ⟨size - 1, by omega⟩
  unfold contents
  rw [List.range_succ_eq_map, List.map_cons, List.map_map, Nat.add_zero, Nat.mod_eq_of_lt h.read_lt,
    next_eq h.read_lt, Nat.add_sub_cancel]
  congr 1
  refine List.map_congr_left fun i _ => ?_
  rw [Function.comp_apply, Nat.mod_add_mod, show read + 1 + i = read + (i + 1) by omega]

end Congruent

end RingBuffer
