import Mathlib.Data.List.Sort

/-!
Sorting with a comparison that may not be an order.

A sorting function of a C library returns a permutation of its list. That the
permutation is in order is only promised for a comparison that agrees with
itself on the elements of the list, and nothing is said about the order of
equal elements. `Result` is what such a function may return, and the theorems
below decide whether all that it may return has a property.
-/

namespace Sorting

variable {α : Type}

/-- The comparison orders the elements of the list. -/
structure Consistent (cmp : α → α → ℤ) (l : List α) : Prop where
  symm : ∀ x ∈ l, ∀ y ∈ l, cmp x y ≤ 0 ↔ 0 ≤ cmp y x
  trans : ∀ x ∈ l, ∀ y ∈ l, ∀ z ∈ l, cmp x y ≤ 0 → cmp y z ≤ 0 → cmp x z ≤ 0

def InOrder (cmp : α → α → ℤ) (p : List α) : Prop := p.Pairwise fun x y => cmp x y ≤ 0

/-- The list may be sorted like this. -/
structure Result (cmp : α → α → ℤ) (l p : List α) : Prop where
  perm : p.Perm l
  inOrder : Consistent cmp l → InOrder cmp p

def IsSort (sort : (α → α → ℤ) → List α → List α) : Prop :=
  ∀ cmp l, Result cmp l (sort cmp l)

variable {cmp : α → α → ℤ} {l p : List α}

theorem Consistent.refl (h : Consistent cmp l) {x : α} (hx : x ∈ l) : cmp x x ≤ 0 := by
  have hsymm := h.symm x hx x hx
  omega

theorem Consistent.inOrder_insertionSort (h : Consistent cmp l) :
    InOrder cmp (l.insertionSort fun x y => cmp x y ≤ 0) := by
  let r : {x // x ∈ l} → {x // x ∈ l} → Prop := fun x y => cmp x y ≤ 0
  have htotal : Std.Total r := by
    refine ⟨fun x y => ?_⟩
    have hsymm := h.symm x x.2 y y.2
    show cmp x y ≤ 0 ∨ cmp y x ≤ 0
    omega
  have htrans : IsTrans _ r := ⟨fun x y z => h.trans x x.2 y y.2 z z.2⟩
  have hmap := List.map_insertionSort r (fun x y => cmp x y ≤ 0) Subtype.val l.attach
    fun _ _ _ _ => Iff.rfl
  rw [List.attach_map_subtype_val] at hmap
  rw [← hmap]
  exact List.pairwise_map.mpr (List.pairwise_insertionSort r l.attach)

theorem isSort_insertionSort :
    IsSort fun cmp (l : List α) => l.insertionSort fun x y => cmp x y ≤ 0 :=
  fun _ l => ⟨List.perm_insertionSort _ l, Consistent.inOrder_insertionSort⟩

theorem exists_result (cmp : α → α → ℤ) (l : List α) : ∃ p, Result cmp l p :=
  ⟨_, isSort_insertionSort cmp l⟩

theorem Consistent.of_perm {l' : List α} (hl : l.Perm l') (h : Consistent cmp l) :
    Consistent cmp l' where
  symm x hx y hy := h.symm x (hl.mem_iff.mpr hx) y (hl.mem_iff.mpr hy)
  trans x hx y hy z hz := h.trans x (hl.mem_iff.mpr hx) y (hl.mem_iff.mpr hy) z (hl.mem_iff.mpr hz)

theorem result_congr {l' : List α} (hl : l.Perm l') : Result cmp l p ↔ Result cmp l' p :=
  ⟨fun h => ⟨h.perm.trans hl, fun hcons => h.inOrder (hcons.of_perm hl.symm)⟩,
    fun h => ⟨h.perm.trans hl.symm, fun hcons => h.inOrder (hcons.of_perm hl)⟩⟩

/-- Every result is that of some sorting function. -/
theorem exists_isSort (h : Result cmp l p) : ∃ sort, IsSort sort ∧ sort cmp l = p := by
  classical
  refine ⟨fun c k => if c = cmp ∧ k = l then p else (exists_result c k).choose, fun c k => ?_, ?_⟩
  · dsimp only
    split
    case isTrue heq =>
      obtain ⟨rfl, rfl⟩ := heq
      exact h
    case isFalse => exact (exists_result c k).choose_spec
  · exact if_pos ⟨rfl, rfl⟩

theorem forall_isSort_iff {P : List α → Prop} :
    (∀ sort, IsSort sort → P (sort cmp l)) ↔ ∀ p, Result cmp l p → P p := by
  constructor
  · intro hall p hp
    obtain ⟨sort, hsort, rfl⟩ := exists_isSort hp
    exact hall sort hsort
  · exact fun hall sort hsort => hall _ (hsort cmp l)

/-! ### Precedence -/

/-- An element that the comparison does not put behind another one can come
before all of its copies. -/
theorem exists_before {x z : α} (hx : x ∈ l) (hz : z ∈ l) (hne : z ≠ x)
    (hle : Consistent cmp l → cmp z x ≤ 0) :
    ∃ front back, Result cmp l (front ++ back) ∧ z ∈ front ∧ z ∉ back ∧ x ∉ front ∧ x ∈ back := by
  classical
  obtain ⟨p, hp⟩ := exists_result cmp l
  have hmem {w : α} : w ∈ p ↔ w ∈ l := hp.perm.mem_iff
  -- the others that need not be behind `x`, then `x`, then the rest
  let early : α → Bool := fun w => w ≠ x ∧ (Consistent cmp l → cmp w x ≤ 0)
  let late := p.filter fun w => !early w
  have hperm : (p.filter early ++ (late.filter (· = x) ++ late.filter fun w => !decide (w = x))).Perm
      l :=
    ((List.filter_append_perm _ late).append_left _).trans
      ((List.filter_append_perm early p).trans hp.perm)
  have hearly : early z = true := decide_eq_true ⟨hne, hle⟩
  have hself : early x = false := by simp [early]
  refine ⟨p.filter early, late.filter (· = x) ++ late.filter fun w => !decide (w = x),
    ⟨hperm, fun hcons => ?_⟩, ?_, ?_, ?_, ?_⟩
  · have hsub {q : List α} (h : q.Sublist p) : InOrder cmp q := (hp.inOrder hcons).sublist h
    have hfront {w : α} (hw : w ∈ p.filter early) : w ∈ l ∧ cmp w x ≤ 0 := by
      obtain ⟨hwp, hwe⟩ := List.mem_filter.mp hw
      exact ⟨hmem.mp hwp, (of_decide_eq_true hwe).2 hcons⟩
    have hback {w : α} (hw : w ∈ late.filter fun w => !decide (w = x)) : w ∈ l ∧ cmp x w ≤ 0 := by
      obtain ⟨hwl, hwx⟩ := List.mem_filter.mp hw
      obtain ⟨hwp, hwe⟩ := List.mem_filter.mp hwl
      have hwx' : w ≠ x := by simpa using hwx
      have hgt : ¬ cmp w x ≤ 0 := fun h => by simp [early, hwx', h] at hwe
      exact ⟨hmem.mp hwp, (hcons.symm x hx w (hmem.mp hwp)).mpr (by omega)⟩
    have hcopy {w : α} (hw : w ∈ late.filter (· = x)) : w = x := by simpa using (List.mem_filter.mp hw).2
    have hlate : late.Sublist p := List.filter_sublist
    refine List.pairwise_append.mpr ⟨hsub List.filter_sublist, List.pairwise_append.mpr
      ⟨hsub (List.filter_sublist.trans hlate), hsub (List.filter_sublist.trans hlate), ?_⟩, ?_⟩
    · intro v hv w hw
      rw [hcopy hv]
      exact (hback hw).2
    · intro v hv w hw
      rcases List.mem_append.mp hw with hw | hw
      · rw [hcopy hw]
        exact (hfront hv).2
      · exact hcons.trans v (hfront hv).1 x hx w (hback hw).1 (hfront hv).2 (hback hw).2
  · exact List.mem_filter.mpr ⟨hmem.mpr hz, hearly⟩
  · simp [late, hearly]
  · simp [hself]
  · simp [late, hself, hmem, hx]

/-! ### The front of the list -/

/-- A list in order begins with the elements that nothing else comes before. -/
theorem take_perm_of_inOrder {xs ys : List α} (hperm : p.Perm (xs ++ ys)) (hsorted : InOrder cmp p)
    (hsep : ∀ x ∈ xs, ∀ y ∈ ys, cmp y x ≤ 0 → x = y) : (p.take xs.length).Perm xs := by
  classical
  induction p generalizing xs with
  | nil =>
      obtain ⟨rfl, -⟩ := List.append_eq_nil_iff.mp hperm.nil_eq.symm
      exact .refl []
  | cons z p ih =>
      obtain ⟨hhead, htail⟩ := List.pairwise_cons.mp hsorted
      by_cases hz : z ∈ xs
      · have herase := List.perm_cons_erase hz
        have hrest : p.Perm (xs.erase z ++ ys) :=
          (hperm.trans (herase.append_right ys)).cons_inv
        have hfront := ih hrest htail fun x hx => hsep x (List.mem_of_mem_erase hx)
        rw [herase.length_eq, List.length_cons, List.take_succ_cons]
        exact (hfront.cons z).trans herase.symm
      · -- nothing of `xs` can come behind `z`
        have hys : z ∈ ys := by
          have hmem := hperm.mem_iff.mp (List.mem_cons_self (a := z))
          exact (List.mem_append.mp hmem).resolve_left hz
        have hnil : xs = [] := by
          refine List.eq_nil_iff_forall_not_mem.mpr fun x hx => ?_
          have hxz : x ≠ z := fun h => hz (h ▸ hx)
          have hmem := hperm.mem_iff.mpr (List.mem_append_left ys hx)
          have hxp : x ∈ p := (List.mem_cons.mp hmem).resolve_left hxz
          exact hxz (hsep x hx z hys (hhead x hxp))
        rw [hnil]
        exact .refl []

theorem drop_perm {xs ys : List α} (hperm : p.Perm (xs ++ ys)) (htake : (p.take xs.length).Perm xs) :
    (p.drop xs.length).Perm ys := by
  have hsplit : (xs ++ p.drop xs.length).Perm (xs ++ ys) := by
    refine (htake.symm.append_right _).trans ?_
    rwa [List.take_append_drop]
  exact (List.perm_append_left_iff xs).mp hsplit

/-- Whatever the result, it begins with these elements, if each of the others is
put behind each of them. -/
theorem take_perm_iff {xs ys : List α} :
    (∀ p, Result cmp (xs ++ ys) p → (p.take xs.length).Perm xs) ↔
      ∀ x ∈ xs, ∀ y ∈ ys, (Consistent cmp (xs ++ ys) → cmp y x ≤ 0) → x = y := by
  constructor
  · intro hall x hx y hy hle
    by_contra hne
    obtain ⟨front, back, hres, -, hyback, hxfront, -⟩ := exists_before (List.mem_append_left ys hx)
      (List.mem_append_right xs hy) (Ne.symm hne) hle
    have htake := hall _ hres
    -- the copies of `x` begin behind those of `y`
    have hlong : front.length ≤ xs.length := by
      by_contra hshort
      have hmem := htake.mem_iff.mpr hx
      rw [List.take_append_of_le_length (by omega)] at hmem
      exact hxfront (List.mem_of_mem_take hmem)
    have hmem := (drop_perm hres.perm htake).mem_iff.mpr hy
    rw [List.drop_append, List.drop_of_length_le hlong, List.nil_append] at hmem
    exact hyback (List.mem_of_mem_drop hmem)
  · intro hsep p hp
    by_cases hcons : Consistent cmp (xs ++ ys)
    · exact take_perm_of_inOrder hp.perm (hp.inOrder hcons) fun x hx y hy hle =>
        hsep x hx y hy fun _ => hle
    · have hany : InOrder (fun _ _ : α => 0) p := List.pairwise_of_forall fun _ _ => le_rfl
      exact take_perm_of_inOrder hp.perm hany fun x hx y hy _ =>
        hsep x hx y hy fun h => absurd h hcons

/-- Whatever the result, the elements that it begins with are related in their
order, if those are that need not be in the other one. -/
theorem pairwise_take_iff {xs ys : List α} {R : α → α → Prop} (hrefl : ∀ x, R x x)
    (hfront : ∀ p, Result cmp (xs ++ ys) p → (p.take xs.length).Perm xs) :
    (∀ p, Result cmp (xs ++ ys) p → (p.take xs.length).Pairwise R) ↔
      ∀ x ∈ xs, ∀ z ∈ xs, (Consistent cmp (xs ++ ys) → cmp z x ≤ 0) → R z x := by
  constructor
  · intro hall x hx z hz hle
    rcases eq_or_ne z x with rfl | hne
    · exact hrefl z
    · obtain ⟨front, back, hres, hzfront, -, hxfront, -⟩ := exists_before (List.mem_append_left ys hx)
        (List.mem_append_left ys hz) hne hle
      have hmem := (hfront _ hres).mem_iff.mpr hx
      have hpairs := hall _ hres
      have hlong : front.length ≤ xs.length := by
        by_contra hshort
        rw [List.take_append_of_le_length (by omega)] at hmem
        exact hxfront (List.mem_of_mem_take hmem)
      rw [List.take_append, List.take_of_length_le hlong] at hmem hpairs
      exact (List.pairwise_append.mp hpairs).2.2 z hzfront x
        ((List.mem_append.mp hmem).resolve_left hxfront)
  · intro hrel p hp
    have hmem {w : α} (hw : w ∈ p.take xs.length) : w ∈ xs := (hfront p hp).mem_iff.mp hw
    by_cases hcons : Consistent cmp (xs ++ ys)
    · refine ((hp.inOrder hcons).sublist (List.take_sublist ..)).imp_of_mem fun hu hv hle => ?_
      exact hrel _ (hmem hv) _ (hmem hu) fun _ => hle
    · exact List.pairwise_of_forall_mem_list fun u hu v hv =>
        hrel v (hmem hv) u (hmem hu) fun h => absurd h hcons

end Sorting
