import Mathlib.Tactic

/-!
Streams of items in containers of a declared length.

A stream is read from left to right with the number of items that every open
container still expects, the innermost one first. What is shown about a piece
of a stream is how many items it adds to the container it stands in; a stream
that is made of such pieces is one item exactly if every declared length is
the number of items that follow.
-/

namespace Nesting

/-- What an element of a stream does to the containers around it. -/
inductive Shape
  | item
  | opening (items : ℕ)
  | closing
  /-- An element that belongs to no container. -/
  | stray
  deriving DecidableEq

/-- The items that the open containers still expect. -/
def step : List ℕ → Shape → Option (List ℕ)
  | (n + 1) :: rest, .item => some (n :: rest)
  | (n + 1) :: rest, .opening k => some (k :: n :: rest)
  | 0 :: rest, .closing => some rest
  | _, _ => none

variable {α : Type} (shape : α → Shape)

def scan (expected : List ℕ) (xs : List α) : Option (List ℕ) :=
  xs.foldlM (fun e x => step e (shape x)) expected

/-- The stream is one item. -/
def IsItem (xs : List α) : Prop := scan shape [1] xs = some [0]

instance (xs : List α) : Decidable (IsItem shape xs) :=
  inferInstanceAs (Decidable (scan shape [1] xs = some [0]))

/-- This piece of a stream adds `k` items to the container it stands in. -/
def Adds (k : ℕ) (xs : List α) : Prop :=
  ∀ n rest, scan shape (n :: rest) xs = if k ≤ n then some ((n - k) :: rest) else none

variable {shape}

@[simp] theorem scan_nil (e : List ℕ) : scan shape e [] = some e := rfl

theorem scan_cons (e : List ℕ) (x : α) (xs : List α) :
    scan shape e (x :: xs) = (step e (shape x)).bind fun e => scan shape e xs := rfl

theorem scan_append (e : List ℕ) (xs ys : List α) :
    scan shape e (xs ++ ys) = (scan shape e xs).bind fun e => scan shape e ys := by
  unfold scan
  rw [List.foldlM_append]
  rfl

theorem Adds.nil : Adds shape 0 [] := fun n rest => by
  rw [scan_nil, if_pos n.zero_le, Nat.sub_zero]

theorem Adds.append {j k : ℕ} {xs ys : List α} (hx : Adds shape j xs) (hy : Adds shape k ys) :
    Adds shape (j + k) (xs ++ ys) := by
  intro n rest
  rw [scan_append, hx]
  by_cases hj : j ≤ n
  · rw [if_pos hj, Option.bind_some, hy, Nat.sub_sub]
    by_cases hk : j + k ≤ n
    · rw [if_pos hk, if_pos (by omega)]
    · rw [if_neg hk, if_neg (by omega)]
  · rw [if_neg hj, if_neg (by omega)]
    rfl

theorem Adds.item {x : α} (h : shape x = .item) : Adds shape 1 [x] := by
  intro n rest
  rw [scan_cons, h]
  rcases n with _ | n <;> simp [step]

theorem Adds.cons {k : ℕ} {x : α} {xs : List α} (h : shape x = .item) (hx : Adds shape k xs) :
    Adds shape (1 + k) (x :: xs) := (Adds.item h).append hx

/-- A piece without containers. -/
theorem Adds.items {xs : List α} (h : ∀ x ∈ xs, shape x = .item) : Adds shape xs.length xs := by
  induction xs with
  | nil => exact Adds.nil
  | cons x xs ih =>
      rw [List.length_cons, Nat.add_comm]
      exact Adds.cons (h x List.mem_cons_self) (ih fun y hy => h y (List.mem_cons_of_mem x hy))

/-- What the container around a container sees of it. -/
theorem scan_container {k n m : ℕ} {rest : List ℕ} {o c : α} {xs : List α}
    (ho : shape o = .opening k) (hc : shape c = .closing) (hx : Adds shape m xs) :
    scan shape ((n + 1) :: rest) (o :: xs ++ [c]) = if m = k then some (n :: rest) else none := by
  rw [scan_append, scan_cons, ho]
  show (scan shape (k :: n :: rest) xs).bind _ = _
  rw [hx]
  by_cases hle : m ≤ k
  · rw [if_pos hle, Option.bind_some, scan_cons, hc]
    by_cases heq : m = k
    · rw [if_pos heq, heq, Nat.sub_self]
      rfl
    · obtain ⟨d, hd⟩ : ∃ d, k - m = d + 1 := ⟨k - m - 1, by omega⟩
      rw [if_neg heq, hd]
      rfl
  · rw [if_neg hle, if_neg (by omega)]
    rfl

theorem Adds.container {k : ℕ} {o c : α} {xs : List α} (ho : shape o = .opening k)
    (hc : shape c = .closing) (hx : Adds shape k xs) : Adds shape 1 (o :: xs ++ [c]) := by
  intro n rest
  rcases n with _ | n
  · rw [List.cons_append, scan_cons, ho]
    rfl
  · rw [scan_container ho hc hx, if_pos rfl, if_pos (by omega), Nat.add_sub_cancel]

theorem Adds.isItem {xs : List α} (h : Adds shape 1 xs) : IsItem shape xs := h 1 []

/-- A container whose declared length is not the number of its items is not an
item. -/
theorem isItem_container_iff {k m : ℕ} {o c : α} {xs : List α} (ho : shape o = .opening k)
    (hc : shape c = .closing) (hx : Adds shape m xs) : IsItem shape (o :: xs ++ [c]) ↔ m = k := by
  unfold IsItem
  rw [scan_container ho hc hx]
  by_cases heq : m = k <;> simp [heq]

end Nesting
