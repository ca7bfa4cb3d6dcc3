import NitrokeyFido2.Lib.Bytes
import NitrokeyFido2.Lib.NorFlash

/-!
Records of one size in the pages of a flash.

A page holds a fixed number of records and some bytes that no record uses. A
record is replaced by copying its page, changing the copy and writing it back:
the other records of the page survive because they are in the copy, those of the
other pages because nothing outside the page is touched.
-/

namespace PagedRecords

open NorFlash

/-- Where the records lie. -/
structure Table where
  /-- The address of the first page. -/
  base : ℕ
  /-- The bytes of a page. -/
  page : ℕ
  /-- The bytes of a record. -/
  record : ℕ
  /-- The records of a page. -/
  perPage : ℕ
  perPage_pos : 0 < perPage
  fits : record * perPage ≤ page

namespace Table

variable (t : Table)

/-- The page of a record. -/
def pageAddr (i : ℕ) : ℕ := t.base + t.page * (i / t.perPage)

/-- The place of a record in its page. -/
def offset (i : ℕ) : ℕ := t.record * (i % t.perPage)

/-- The address of a record. -/
def slotAddr (i : ℕ) : ℕ := t.pageAddr i + t.offset i

/-- A record. -/
def slot (m : Memory) (i : ℕ) : Buf t.record :=
  ⟨m.read (t.slotAddr i) t.record, Memory.length_read ..⟩

/-- The first `n` records. -/
def slots (m : Memory) (n : ℕ) : List (Buf t.record) := (List.range n).map (t.slot m)

/-- The copy of its page in which a record was replaced. -/
def updatedPage (m : Memory) (i : ℕ) (r : Buf t.record) : List UInt8 :=
  Bytes.overwrite (m.read (t.pageAddr i) t.page) (t.offset i) r.bytes

/-- A record does not cross the end of its page. -/
theorem offset_add_record_le (i : ℕ) : t.offset i + t.record ≤ t.page := by
  have hlt := Nat.mod_lt i t.perPage_pos
  calc t.offset i + t.record
      = t.record * (i % t.perPage + 1) := (Nat.mul_succ ..).symm
    _ ≤ t.record * t.perPage := Nat.mul_le_mul_left _ hlt
    _ ≤ t.page := t.fits

theorem pageAddr_lt {i j : ℕ} (h : i / t.perPage < j / t.perPage) :
    t.pageAddr i + t.page ≤ t.pageAddr j := by
  have hle : t.page * (i / t.perPage + 1) ≤ t.page * (j / t.perPage) := Nat.mul_le_mul_left _ h
  rw [Nat.mul_succ] at hle
  unfold pageAddr
  omega

theorem offset_lt {i j : ℕ} (h : i % t.perPage < j % t.perPage) :
    t.offset i + t.record ≤ t.offset j := by
  have hle : t.record * (i % t.perPage + 1) ≤ t.record * (j % t.perPage) := Nat.mul_le_mul_left _ h
  rwa [Nat.mul_succ] at hle

/-- Two records of one page have different places in it. -/
theorem mod_ne_of_div_eq {i j : ℕ} (hne : i ≠ j) (h : i / t.perPage = j / t.perPage) :
    i % t.perPage ≠ j % t.perPage := by
  intro hmod
  have hi := Nat.div_add_mod i t.perPage
  have hj := Nat.div_add_mod j t.perPage
  rw [h, hmod, hj] at hi
  exact hne hi.symm

/-- Two records have no byte in common. -/
theorem slots_disjoint {i j : ℕ} (hne : i ≠ j) :
    t.slotAddr i + t.record ≤ t.slotAddr j ∨ t.slotAddr j + t.record ≤ t.slotAddr i := by
  have hi := t.offset_add_record_le i
  have hj := t.offset_add_record_le j
  unfold slotAddr
  rcases lt_trichotomy (i / t.perPage) (j / t.perPage) with h | h | h
  · have hpage := t.pageAddr_lt h
    omega
  · have hpage : t.pageAddr i = t.pageAddr j := by rw [pageAddr, pageAddr, h]
    rcases Nat.lt_or_gt_of_ne (t.mod_ne_of_div_eq hne h) with hlt | hlt
    · have hoff := t.offset_lt hlt
      omega
    · have hoff := t.offset_lt hlt
      omega
  · have hpage := t.pageAddr_lt h
    omega

variable {t} {m m' : Memory}

@[simp] theorem length_slots (m : Memory) (n : ℕ) : (t.slots m n).length = n := by
  rw [slots, List.length_map, List.length_range]

theorem getElem_slots (m : Memory) {n i : ℕ} (h : i < (t.slots m n).length) :
    (t.slots m n)[i] = t.slot m i := by
  simp only [slots, List.getElem_map, List.getElem_range]

theorem slot_congr {i : ℕ} (h : ∀ k < t.record, m' (t.slotAddr i + k) = m (t.slotAddr i + k)) :
    t.slot m' i = t.slot m i := by
  apply Buf.ext
  refine Memory.read_congr fun a ha ha' => ?_
  rw [show a = t.slotAddr i + (a - t.slotAddr i) by omega]
  exact h _ (by omega)

theorem slot_eq_of_bytes {i : ℕ} {r : Buf t.record} {d : UInt8}
    (h : ∀ k < t.record, m (t.slotAddr i + k) = r.bytes.getD k d) : t.slot m i = r := by
  apply Buf.ext
  exact Memory.read_eq r.length_bytes h

theorem length_updatedPage (m : Memory) (i : ℕ) (r : Buf t.record) :
    (t.updatedPage m i r).length = t.page := by
  have hfits := t.offset_add_record_le i
  rw [updatedPage, Bytes.length_overwrite, Memory.length_read]
  rw [Memory.length_read, r.length_bytes]
  exact hfits

theorem getD_updatedPage (m : Memory) (i : ℕ) (r : Buf t.record) {k : ℕ} (hk : k < t.page) (d : UInt8) :
    (t.updatedPage m i r).getD k d =
      if t.offset i ≤ k ∧ k < t.offset i + t.record then r.bytes.getD (k - t.offset i) d
      else m (t.pageAddr i + k) := by
  have hfits := t.offset_add_record_le i
  rw [updatedPage, Bytes.getD_overwrite, r.length_bytes, Memory.getD_read _ _ _ _ _ hk]
  rw [Memory.length_read, r.length_bytes]
  exact hfits

/-- A page was written back in which one record was replaced: that record is the
new one, and all the others are as they were. -/
theorem slot_of_writeBack {i : ℕ} {r : Buf t.record} {d : UInt8}
    (hpage : ∀ k < t.page, m' (t.pageAddr i + k) = (t.updatedPage m i r).getD k d)
    (hother : ∀ a, ¬ (t.pageAddr i ≤ a ∧ a < t.pageAddr i + t.page) → m' a = m a) (j : ℕ) :
    t.slot m' j = if j = i then r else t.slot m j := by
  have hi := t.offset_add_record_le i
  have hj := t.offset_add_record_le j
  split
  case isTrue h =>
      subst h
      refine @slot_eq_of_bytes t m' j r d fun k hk => ?_
      rw [slotAddr, Nat.add_assoc, hpage _ (by omega), getD_updatedPage _ _ _ (by omega),
        if_pos (by omega), Nat.add_sub_cancel_left]
  case isFalse h =>
      refine slot_congr fun k hk => ?_
      have hdisjoint := t.slots_disjoint h
      unfold slotAddr at hdisjoint ⊢
      by_cases hin : t.pageAddr i ≤ t.pageAddr j + t.offset j + k ∧
          t.pageAddr j + t.offset j + k < t.pageAddr i + t.page
      · -- a record of the same page, kept in the copy
        obtain ⟨d, hd⟩ := Nat.exists_eq_add_of_le hin.1
        rw [hd, hpage d (by omega), getD_updatedPage _ _ _ (by omega), if_neg (by omega)]
      · exact hother _ hin

theorem slots_of_writeBack {i n : ℕ} {r : Buf t.record} {d : UInt8}
    (hpage : ∀ k < t.page, m' (t.pageAddr i + k) = (t.updatedPage m i r).getD k d)
    (hother : ∀ a, ¬ (t.pageAddr i ≤ a ∧ a < t.pageAddr i + t.page) → m' a = m a) :
    t.slots m' n = (t.slots m n).set i r := by
  refine List.ext_getElem (by simp) fun j hj hj' => ?_
  rw [List.getElem_set, getElem_slots, getElem_slots, slot_of_writeBack hpage hother j]
  simp only [eq_comm]

/-- Over erased pages every record reads as erased. -/
theorem slots_of_erased {n : ℕ} (h : ∀ i < n, ∀ k < t.page, m (t.pageAddr i + k) = 0xFF) :
    t.slots m n = List.replicate n (Buf.fill t.record 0xFF) := by
  rw [slots, List.eq_replicate_iff]
  refine ⟨by simp, fun r hr => ?_⟩
  obtain ⟨i, hi, rfl⟩ := List.mem_map.mp hr
  have hfits := t.offset_add_record_le i
  refine @slot_eq_of_bytes t m i _ 0xFF fun k hk => ?_
  rw [slotAddr, Nat.add_assoc, h i (List.mem_range.mp hi) _ (by omega), Buf.fill,
    List.getD_replicate _ hk]

end Table

end PagedRecords
