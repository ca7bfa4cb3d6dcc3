import Mathlib.Tactic

/-!
What the last entry says that says anything.

A loop over a table that overwrites what it keeps whenever an entry has something to
say ends with what the last such entry said.
-/

universe u v

variable {α : Type u} {β : Type v}

/-- What the last entry says that says anything. -/
def lastSome (f : α → Option β) (l : List α) : Option β := l.reverse.findSome? f

@[simp] theorem lastSome_nil (f : α → Option β) : lastSome f [] = none := rfl

@[simp] theorem lastSome_append_singleton (f : α → Option β) (l : List α) (a : α) :
    lastSome f (l ++ [a]) = (f a).or (lastSome f l) := by
  simp [lastSome, List.findSome?_cons]
  cases f a <;> rfl

/-- Only the entries that say something count. -/
theorem lastSome_filter {f : α → Option β} {p : α → Bool} (l : List α) :
    lastSome f (l.filter p) = lastSome (fun a => if p a then f a else none) l := by
  induction l using List.reverseRecOn with
  | nil => rfl
  | append_singleton l a ih =>
      rw [List.filter_append, lastSome_append_singleton, ← ih]
      cases hp : p a with
      | true => simp [hp]
      | false => simp [hp]

theorem exists_of_lastSome {f : α → Option β} {l : List α} {b : β} (h : lastSome f l = some b) :
    ∃ a ∈ l, f a = some b := by
  obtain ⟨a, ha, hf⟩ := List.exists_of_findSome?_eq_some h
  exact ⟨a, List.mem_reverse.mp ha, hf⟩

theorem lastSome_isSome {f : α → Option β} {l : List α} :
    (lastSome f l).isSome = true ↔ ∃ a ∈ l, (f a).isSome = true := by
  rw [lastSome, List.isSome_findSome?, List.any_reverse, List.any_eq_true]
