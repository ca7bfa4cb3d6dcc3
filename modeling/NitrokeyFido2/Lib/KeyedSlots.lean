import Mathlib.Data.List.Basic
import Mathlib.Tactic

/-!
Tables of slots that are found by a key.

A slot is valid or free, and a valid slot has a key. A table in which no two
valid slots have the same key stays one when an entry is put where its key is
already, or into a free slot if it is nowhere, and when a slot is freed; the
number of valid slots changes accordingly. Tables of this kind are often
walked through by the position of a slot among the valid ones, which is `nth`.
-/

namespace KeyedSlots

universe u v

variable {α : Type u} {κ : Type v} (valid : α → Bool) (key : α → κ)

/-- Two valid slots with the same key are one. -/
def Unique (l : List α) : Prop :=
  ∀ (i j : ℕ) (x y : α), l[i]? = some x → l[j]? = some y → valid x = true → valid y = true →
    key x = key y → i = j

/-- No valid slot has the key. -/
def Absent (l : List α) (k : κ) : Prop := ∀ x ∈ l, valid x = true → key x ≠ k

/-- Where an entry with the key is put. -/
inductive Target (l : List α) (k : κ) (i : ℕ) : Prop
  | taken (x : α) (hslot : l[i]? = some x) (hvalid : valid x = true) (hkey : key x = k)
  | free (x : α) (hslot : l[i]? = some x) (hfree : valid x = false) (habsent : Absent valid key l k)

variable {valid key} {l : List α} {k : κ} {i : ℕ} {x : α}

/-! ### Putting and freeing -/

theorem Target.lt (h : Target valid key l k i) : i < l.length := by
  cases h with
  | taken x hslot | free x hslot => exact (List.getElem?_eq_some_iff.mp hslot).1

/-- Only the target holds the key. -/
theorem Target.eq_of_key (h : Target valid key l k i) (hunique : Unique valid key l) {j : ℕ} {y : α}
    (hslot : l[j]? = some y) (hvalid : valid y = true) (hkey : key y = k) : j = i := by
  cases h with
  | taken x hx hvx hkx => exact hunique j i y x hslot hx hvalid hvx (hkey.trans hkx.symm)
  | free x hx hfree habsent => exact absurd hkey (habsent y (List.mem_of_getElem? hslot) hvalid)

/-- The slots with other keys are left alone. -/
theorem Target.mem_set {y : α} (h : Target valid key l k i) (hy : y ∈ l) (hvalid : valid y = true)
    (hkey : key y ≠ k) : y ∈ l.set i x := by
  obtain ⟨j, hj⟩ := List.mem_iff_getElem?.mp hy
  have hij : i ≠ j := by
    rintro rfl
    cases h with
    | taken z hz _ hkz =>
        rw [hj] at hz
        exact hkey (Option.some.inj hz ▸ hkz)
    | free z hz hfree _ =>
        rw [hj] at hz
        rw [Option.some.inj hz, hfree] at hvalid
        exact absurd hvalid Bool.false_ne_true
  exact List.mem_iff_getElem?.mpr ⟨j, by rw [List.getElem?_set_ne hij, hj]⟩

theorem Unique.put (hunique : Unique valid key l) (h : Target valid key l (key x) i) :
    Unique valid key (l.set i x) := by
  intro a b y z hy hz hvy hvz hkey
  rw [List.getElem?_set] at hy hz
  split at hy <;> split at hz
  case isTrue.isTrue ha hb => exact ha.symm.trans hb
  case isTrue.isFalse ha _ =>
    rw [if_pos h.lt, Option.some_inj] at hy
    subst hy
    exact ha.symm.trans (h.eq_of_key hunique hz hvz hkey.symm).symm
  case isFalse.isTrue _ hb =>
    rw [if_pos h.lt, Option.some_inj] at hz
    subst hz
    exact (h.eq_of_key hunique hy hvy hkey).trans hb
  case isFalse.isFalse => exact hunique a b y z hy hz hvy hvz hkey

/-- A slot is freed. -/
theorem Unique.free (hunique : Unique valid key l) (hx : valid x = false) :
    Unique valid key (l.set i x) := by
  intro a b y z hy hz hvy hvz hkey
  have hold {j : ℕ} {w : α} (hw : (l.set i x)[j]? = some w) (hvw : valid w = true) :
      l[j]? = some w := by
    rw [List.getElem?_set] at hw
    split at hw
    case isFalse => exact hw
    case isTrue =>
      split at hw
      · obtain rfl := Option.some.inj hw
        rw [hx] at hvw
        exact absurd hvw Bool.false_ne_true
      · exact nomatch hw
  exact hunique a b y z (hold hy hvy) (hold hz hvz) hvy hvz hkey

theorem unique_of_pairwise
    (h : l.Pairwise fun x y => valid x = true → valid y = true → key x ≠ key y) :
    Unique valid key l := by
  have hlt {i j : ℕ} {x y : α} (hij : i < j) (hx : l[i]? = some x) (hy : l[j]? = some y)
      (hvx : valid x = true) (hvy : valid y = true) : key x ≠ key y := by
    obtain ⟨hi, rfl⟩ := List.getElem?_eq_some_iff.mp hx
    obtain ⟨hj, rfl⟩ := List.getElem?_eq_some_iff.mp hy
    exact List.pairwise_iff_getElem.mp h i j hi hj hij hvx hvy
  intro i j x y hx hy hvx hvy hkey
  rcases Nat.lt_trichotomy i j with hij | rfl | hij
  · exact absurd hkey (hlt hij hx hy hvx hvy)
  · rfl
  · exact absurd hkey.symm (hlt hij hy hx hvy hvx)

theorem unique_of_free (h : ∀ x ∈ l, valid x = false) : Unique valid key l := by
  intro i j x y hx _ hvx
  rw [h x (List.mem_of_getElem? hx)] at hvx
  exact absurd hvx Bool.false_ne_true

theorem countP_set_taken {y : α} (hslot : l[i]? = some y) (hy : valid y = true)
    (hx : valid x = true) : (l.set i x).countP valid = l.countP valid := by
  obtain ⟨hlt, rfl⟩ := List.getElem?_eq_some_iff.mp hslot
  have hpos : 0 < l.countP valid := List.countP_pos_iff.mpr ⟨l[i], List.getElem_mem hlt, hy⟩
  rw [List.countP_set hlt, if_pos hy, if_pos hx]
  omega

theorem countP_set_free {y : α} (hslot : l[i]? = some y) (hy : valid y = false)
    (hx : valid x = true) : (l.set i x).countP valid = l.countP valid + 1 := by
  obtain ⟨hlt, rfl⟩ := List.getElem?_eq_some_iff.mp hslot
  rw [List.countP_set hlt, if_neg (by simp [hy]), if_pos hx, Nat.sub_zero]

theorem countP_set_erased {y : α} (hslot : l[i]? = some y) (hy : valid y = true)
    (hx : valid x = false) : (l.set i x).countP valid + 1 = l.countP valid := by
  obtain ⟨hlt, rfl⟩ := List.getElem?_eq_some_iff.mp hslot
  have hpos : 0 < l.countP valid := List.countP_pos_iff.mpr ⟨l[i], List.getElem_mem hlt, hy⟩
  rw [List.countP_set hlt, if_pos hy, if_neg (by simp [hx])]
  omega

/-! ### The valid slots in their order -/

/-- The position of the `n`-th slot that is valid. -/
def nth (valid : α → Bool) : ℕ → List α → Option ℕ
  | _, [] => none
  | n, x :: xs =>
      if valid x then if n = 0 then some 0 else (nth valid (n - 1) xs).map (· + 1)
      else (nth valid n xs).map (· + 1)

theorem nth_eq_some {n j : ℕ} (h : nth valid n l = some j) : ∃ x, l[j]? = some x ∧ valid x = true := by
  induction l generalizing n j with
  | nil => exact nomatch h
  | cons y ys ih =>
      rw [nth] at h
      split_ifs at h with hy hn
      · obtain rfl := Option.some.inj h
        exact ⟨y, rfl, hy⟩
      · obtain ⟨j', hj', rfl⟩ := Option.map_eq_some_iff.mp h
        exact ih hj'
      · obtain ⟨j', hj', rfl⟩ := Option.map_eq_some_iff.mp h
        exact ih hj'

/-- Every valid slot has a position among the valid ones. -/
theorem exists_nth {j : ℕ} (hslot : l[j]? = some x) (hvalid : valid x = true) :
    ∃ n < l.countP valid, nth valid n l = some j := by
  induction l generalizing j with
  | nil => exact nomatch hslot
  | cons y ys ih =>
      cases j with
      | zero =>
          obtain rfl := Option.some.inj hslot
          exact ⟨0, by simp [hvalid], by simp [nth, hvalid]⟩
      | succ j =>
          obtain ⟨n, hn, hnth⟩ := ih (by simpa using hslot)
          by_cases hy : valid y = true
          · exact ⟨n + 1, by simpa [hy] using hn, by simp [nth, hy, hnth]⟩
          · exact ⟨n, by simpa [hy] using hn, by simp [nth, hy, hnth]⟩

variable (valid) in
theorem nth_isSome {n : ℕ} (h : n < l.countP valid) : ∃ j, nth valid n l = some j := by
  induction l generalizing n with
  | nil => exact absurd h (Nat.not_lt_zero n)
  | cons y ys ih =>
      rw [nth]
      split_ifs with hy hn
      · exact ⟨0, rfl⟩
      · rw [List.countP_cons_of_pos hy] at h
        obtain ⟨j, hj⟩ := ih (n := n - 1) (by omega)
        exact ⟨j + 1, by rw [hj, Option.map_some]⟩
      · rw [List.countP_cons_of_neg hy] at h
        obtain ⟨j, hj⟩ := ih h
        exact ⟨j + 1, by rw [hj, Option.map_some]⟩

end KeyedSlots
