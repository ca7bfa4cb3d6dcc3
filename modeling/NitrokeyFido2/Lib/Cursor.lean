import Mathlib.Tactic

/-!
Cursors over the slots of a table that pass a test.

A cursor is the number of such a slot, or -1 when there is none left; it is
moved to the next one that passes. What a listing will still produce is the
list `rest`, and a cursor stands at its head.
-/

namespace Cursor

/-- The slots that pass, from slot `i` on, in a table of `n`. -/
def rest (p : ℕ → Bool) (n i : ℕ) : List ℕ := (List.range' i (n - i)).filter p

/-- Where the cursor of a listing stands. -/
def position : List ℕ → ℤ
  | [] => -1
  | i :: _ => i

variable {p : ℕ → Bool} {n i : ℕ}

@[simp] theorem position_nil : position [] = -1 := rfl

@[simp] theorem position_cons (l : List ℕ) : position (i :: l) = i := rfl

theorem rest_zero : rest p n 0 = (List.range n).filter p := by
  rw [rest, Nat.sub_zero, List.range_eq_range']

theorem rest_of_le (h : n ≤ i) : rest p n i = [] := by
  simp [rest, Nat.sub_eq_zero_of_le h]

theorem rest_of_lt (h : i < n) : rest p n i = if p i then i :: rest p n (i + 1) else rest p n (i + 1) := by
  obtain ⟨k, hk⟩ : ∃ k, n - i = k + 1 := ⟨n - i - 1, by omega⟩
  rw [rest, hk, List.range'_succ, List.filter_cons, rest, show n - (i + 1) = k by omega]

theorem mem_rest {j : ℕ} : j ∈ rest p n i ↔ i ≤ j ∧ j < n ∧ p j = true := by
  simp only [rest, List.mem_filter, List.mem_range'_1]
  constructor
  · rintro ⟨⟨h₁, h₂⟩, hp⟩
    exact ⟨h₁, by omega, hp⟩
  · rintro ⟨h₁, h₂, hp⟩
    exact ⟨⟨h₁, by omega⟩, hp⟩

theorem length_rest_le : (rest p n i).length ≤ n := by
  calc (rest p n i).length ≤ (List.range' i (n - i)).length := List.length_filter_le ..
    _ ≤ n := by simp

theorem pairwise_rest : (rest p n i).Pairwise (· < ·) :=
  (List.pairwise_lt_range' 1).filter p

/-- Behind the slot at the head, the listing is what it is from the next slot
on. -/
theorem rest_tail {j : ℕ} {l : List ℕ} (h : rest p n i = j :: l) : rest p n (j + 1) = l := by
  induction hk : n - i generalizing i with
  | zero =>
    rw [rest_of_le (by omega)] at h
    cases h
  | succ k ih =>
    rw [rest_of_lt (by omega)] at h
    by_cases hp : p i = true
    · rw [if_pos hp] at h
      obtain ⟨rfl, rfl⟩ := List.cons.inj h
      rfl
    · rw [if_neg hp] at h
      exact ih h (by omega)

/-! ### Slots with new keys -/

section Firsts

variable {κ : Type*} [DecidableEq κ] (valid : ℕ → Bool) (key : ℕ → κ)

/-- A valid slot whose key occurs in no slot before it. -/
def isFirst (i : ℕ) : Bool := valid i && !(List.range i).any fun j => decide (key j = key i)

variable {valid key}

theorem isFirst_iff : isFirst valid key i = true ↔ valid i = true ∧ ∀ j < i, key j ≠ key i := by
  simp [isFirst]

theorem nodup_firsts : ((rest (isFirst valid key) n 0).map key).Nodup := by
  rw [List.Nodup, List.pairwise_map]
  refine pairwise_rest.imp_of_mem fun {i j} _ hj hlt => ?_
  exact (isFirst_iff.mp (mem_rest.mp hj).2.2).2 i hlt

/-- Every key of a valid slot is listed, if no slot that is not valid has
one. -/
theorem mem_firsts (hsep : ∀ i < n, ∀ j < n, valid i = true → key j = key i → valid j = true)
    {k : κ} : k ∈ (rest (isFirst valid key) n 0).map key ↔ ∃ i < n, valid i = true ∧ key i = k := by
  simp only [List.mem_map, mem_rest, Nat.zero_le, true_and]
  constructor
  · rintro ⟨i, ⟨hi, hfirst⟩, rfl⟩
    exact ⟨i, hi, (isFirst_iff.mp hfirst).1, rfl⟩
  · rintro ⟨i, hi, hvalid, rfl⟩
    -- the least slot with this key
    have hex : ∃ j, key j = key i := ⟨i, rfl⟩
    have hkey : key (Nat.find hex) = key i := Nat.find_spec hex
    have hle : Nat.find hex ≤ i := Nat.find_min' hex rfl
    refine ⟨Nat.find hex, ⟨by omega, isFirst_iff.mpr ⟨?_, fun j hj heq => ?_⟩⟩, hkey⟩
    · exact hsep i hi _ (by omega) hvalid hkey
    · exact Nat.find_min hex hj (heq.trans hkey)

end Firsts

end Cursor
