import Mathlib.Tactic

/-!
Changing the first entry of a table that has a property.

This is the loop of a C program that walks over the first `n` entries of an
array, changes the first one that passes a test and returns, or reports that
none did. `changeFirst_eq_some` says what it did: it took the table apart at
the first entry that passes.
-/

namespace FirstMatch

universe u

variable {α : Type u}

/-- Change the first of the first `n` entries that passes the test. -/
def changeFirst (p : α → Bool) (f : α → α) : ℕ → List α → Option (List α)
  | 0, _ => none
  | _ + 1, [] => none
  | n + 1, x :: xs => if p x then some (f x :: xs) else (changeFirst p f n xs).map (x :: ·)

variable {p : α → Bool} {f : α → α} {n : ℕ} {l l' : List α}

theorem changeFirst_eq_none : changeFirst p f n l = none ↔ ∀ x ∈ l.take n, p x = false := by
  induction l generalizing n with
  | nil => cases n <;> simp [changeFirst]
  | cons x xs ih =>
      cases n with
      | zero => simp [changeFirst]
      | succ n =>
          by_cases hx : p x = true
          · simp [changeFirst, hx]
          · simp [changeFirst, hx, ih]

theorem changeFirst_eq_some :
    changeFirst p f n l = some l' ↔
      ∃ pre x post, l = pre ++ x :: post ∧ pre.length < n ∧ (∀ y ∈ pre, p y = false) ∧
        p x = true ∧ l' = pre ++ f x :: post := by
  induction l generalizing n l' with
  | nil => cases n <;> simp [changeFirst]
  | cons x xs ih =>
      cases n with
      | zero => simp [changeFirst]
      | succ n =>
          by_cases hx : p x = true
          · rw [changeFirst, if_pos hx]
            constructor
            · intro h
              exact ⟨[], x, xs, rfl, by simp, by simp, hx, (Option.some.inj h).symm⟩
            · rintro ⟨pre, y, post, hl, -, hpre, -, rfl⟩
              cases pre with
              | nil =>
                  obtain ⟨rfl, rfl⟩ := List.cons.inj hl
                  rfl
              | cons z pre =>
                  obtain ⟨rfl, -⟩ := List.cons.inj hl
                  rw [hpre x List.mem_cons_self] at hx
                  exact absurd hx Bool.false_ne_true
          · rw [changeFirst, if_neg hx, Option.map_eq_some_iff]
            constructor
            · rintro ⟨l₁, h₁, rfl⟩
              obtain ⟨pre, y, post, rfl, hlen, hpre, hy, rfl⟩ := ih.mp h₁
              refine ⟨x :: pre, y, post, rfl, by simpa using hlen, ?_, hy, rfl⟩
              simpa [hx] using hpre
            · rintro ⟨pre, y, post, hl, hlen, hpre, hy, rfl⟩
              cases pre with
              | nil =>
                  obtain ⟨rfl, -⟩ := List.cons.inj hl
                  exact absurd hy hx
              | cons z pre =>
                  obtain ⟨rfl, rfl⟩ := List.cons.inj hl
                  refine ⟨pre ++ f y :: post, ih.mpr ⟨pre, y, post, rfl, ?_, ?_, hy, rfl⟩, rfl⟩
                  · simpa using hlen
                  · exact fun w hw => hpre w (List.mem_cons_of_mem x hw)

theorem changeFirst_isSome :
    (changeFirst p f n l).isSome = true ↔ ∃ x ∈ l.take n, p x = true := by
  rw [Option.isSome_iff_ne_none, ne_eq, changeFirst_eq_none]
  simp

theorem length_changeFirst (h : changeFirst p f n l = some l') : l'.length = l.length := by
  obtain ⟨pre, x, post, rfl, -, -, -, rfl⟩ := changeFirst_eq_some.mp h
  simp

/-- The first entry that passes. -/
theorem findIdx_eq_length {pre post : List α} {x : α} (hpre : ∀ y ∈ pre, p y = false)
    (hx : p x = true) : (pre ++ x :: post).findIdx p = pre.length := by
  rw [List.findIdx_append, if_neg, List.findIdx_cons, hx]
  · exact Nat.zero_add _
  · intro hlt
    obtain ⟨y, hy, hpass⟩ := List.findIdx_lt_length.mp hlt
    rw [hpre y hy] at hpass
    exact Bool.false_ne_true hpass

theorem map_changeFirst {β : Type*} {g : α → β} (hg : ∀ x, g (f x) = g x)
    (h : changeFirst p f n l = some l') : l'.map g = l.map g := by
  obtain ⟨pre, x, post, rfl, -, -, -, rfl⟩ := changeFirst_eq_some.mp h
  simp [hg]

/-- The entries behind the first `n` are not looked at. -/
theorem drop_changeFirst (h : changeFirst p f n l = some l') : l'.drop n = l.drop n := by
  obtain ⟨pre, x, post, rfl, hlen, -, -, rfl⟩ := changeFirst_eq_some.mp h
  rw [List.drop_append, List.drop_append]
  obtain ⟨k, rfl⟩ := Nat.exists_eq_add_of_lt hlen
  rw [show pre.length + k + 1 - pre.length = k + 1 by omega, List.drop_succ_cons,
    List.drop_succ_cons]

/-- An entry that does not pass the test is still there. -/
theorem mem_changeFirst_of_mem (h : changeFirst p f n l = some l') {y : α} (hy : y ∈ l)
    (hp : p y = false) : y ∈ l' := by
  obtain ⟨pre, x, post, rfl, -, -, hx, rfl⟩ := changeFirst_eq_some.mp h
  rcases List.mem_append.mp hy with hy | hy
  · exact List.mem_append_left _ hy
  · rcases List.mem_cons.mp hy with rfl | hy
    · rw [hx] at hp
      exact absurd hp Bool.noConfusion
    · exact List.mem_append_right _ (List.mem_cons_of_mem _ hy)

/-- Every entry is an old one or the changed one. -/
theorem mem_changeFirst (h : changeFirst p f n l = some l') {y : α} (hy : y ∈ l') :
    y ∈ l ∨ ∃ x ∈ l, p x = true ∧ y = f x := by
  obtain ⟨pre, x, post, rfl, -, -, hx, rfl⟩ := changeFirst_eq_some.mp h
  rcases List.mem_append.mp hy with hy | hy
  · exact .inl (List.mem_append_left _ hy)
  · rcases List.mem_cons.mp hy with rfl | hy
    · exact .inr ⟨x, by simp, hx, rfl⟩
    · exact .inl (List.mem_append_right _ (List.mem_cons_of_mem _ hy))

end FirstMatch
