import NitrokeyFido2.Ctap.Lockout
import NitrokeyFido2.Ctap.Statuses
import NitrokeyFido2.Lib.KeyedSlots

/-!
The resident keys as a table of slots.

A slot is found by the relying party and the user id. The firmware looks for
it by its position among the valid slots, of which the persistent state keeps
the number; as long as that number is right, the search sees every valid slot,
and what it puts or deletes it puts or deletes where a table of keyed slots
would.
-/

namespace NitrokeyFido2.Ctap

open Proc KeyedSlots

variable (env : Env)

/-! ### Slots -/

/-- What `is_matching_rk` compares. -/
abbrev RkKey := List UInt8 × UInt8 × List UInt8

def Credential.key (c : Credential) : RkKey :=
  (CredentialId.rpIdHash c.id, c.user.idSize, c.user.idBytes)

def ResidentKey.key (rk : ResidentKey) : RkKey := rk.credential.key

/-- The slots and their number fit each other. -/
structure RkStoreOk (a : Authenticator) : Prop where
  size : a.rks.length = ctapRkSize
  counted : a.state.rkStored.toNat = a.rks.countP ctapRkIsValid
  unique : Unique ctapRkIsValid ResidentKey.key a.rks

/-- The same slots, and the same number of them. -/
def SameStore (a t : Authenticator) : Prop := t.rks = a.rks ∧ t.state.rkStored = a.state.rkStored

theorem RkStoreOk.congr {a t : Authenticator} (h : RkStoreOk a) (hsame : SameStore a t) :
    RkStoreOk t := by
  obtain ⟨hrks, hstored⟩ := hsame
  exact ⟨hrks ▸ h.size, hrks ▸ hstored ▸ h.counted, hrks ▸ h.unique⟩

theorem Unchanged.sameStore {may : List Aspect} {a t : Authenticator} (h : Changed may a t)
    (hrks : Aspect.rks ∉ may) (hstored : Aspect.rkStored ∉ may) : SameStore a t :=
  ⟨h .rks hrks, h .rkStored hstored⟩

theorem isMatchingRk_iff (c d : Credential) : isMatchingRk c d = true ↔ d.key = c.key := by
  unfold isMatchingRk Credential.key UserEntity.idBytes
  simp only [Bool.and_eq_true, decide_eq_true_eq, Prod.mk.injEq]
  constructor
  · rintro ⟨⟨hhash, hid⟩, hsize⟩
    exact ⟨hhash.symm, hsize.symm, by rw [hid, hsize]⟩
  · rintro ⟨hhash, hsize, hid⟩
    exact ⟨⟨hhash.symm, by rw [← hid, hsize]⟩, hsize.symm⟩

/-! ### Searches -/

section Search

variable {a : Authenticator}

theorem ctapLoadRk_of_getElem? {i : ℕ} {x : ResidentKey} (h : a.rks[i]? = some x)
    (rk : ResidentKey) : ctapLoadRk a i rk = x := by
  unfold ctapLoadRk
  rw [if_neg (by omega), Int.toNat_natCast, List.getD_eq_getElem?_getD, h, Option.getD_some]

/-- The walk over the slots finds the slot at a position among the valid ones. -/
theorem loadNthValidRkFrom_eq (fuel i : ℕ) {n j : ℕ} {x : ResidentKey} (rk : ResidentKey)
    (hfuel : (a.rks.drop i).length ≤ fuel) (hnth : nth ctapRkIsValid n (a.rks.drop i) = some j)
    (hslot : a.rks[i + j]? = some x) : loadNthValidRkFrom a fuel i n rk = (((i + j : ℕ) : ℤ), x) := by
  induction fuel generalizing i n j rk with
  | zero =>
      rw [List.eq_nil_of_length_eq_zero (Nat.le_zero.mp hfuel)] at hnth
      exact nomatch hnth
  | succ fuel ih =>
      cases hdrop : a.rks.drop i with
      | nil =>
          rw [hdrop] at hnth
          exact nomatch hnth
      | cons y ys =>
          have hy : a.rks[i]? = some y := by
            rw [← Nat.add_zero i, ← List.getElem?_drop, hdrop]
            rfl
          have htail : a.rks.drop (i + 1) = ys := by
            rw [← List.drop_drop, hdrop]
            rfl
          rw [hdrop, nth] at hnth
          rw [hdrop, List.length_cons] at hfuel
          have hgo {m k : ℕ} (hm : nth ctapRkIsValid m ys = some k) (hk : k + 1 = j) :
              loadNthValidRkFrom a fuel (i + 1) m y = (((i + j : ℕ) : ℤ), x) := by
            have hindex : i + 1 + k = i + j := by omega
            rw [← hindex] at hslot ⊢
            exact ih _ y (by rw [htail]; omega) (by rw [htail]; exact hm) hslot
          rw [loadNthValidRkFrom, ctapLoadRk_of_getElem? hy]
          split_ifs at hnth with hvalid hn
          · obtain rfl := Option.some.inj hnth
            rw [if_pos hvalid, if_pos hn, Nat.add_zero]
            rw [Nat.add_zero, hy] at hslot
            rw [Option.some.inj hslot]
          · obtain ⟨k, hk, rfl⟩ := Option.map_eq_some_iff.mp hnth
            rw [if_pos hvalid, if_neg hn]
            exact hgo hk rfl
          · obtain ⟨k, hk, rfl⟩ := Option.map_eq_some_iff.mp hnth
            rw [if_neg hvalid]
            exact hgo hk rfl

theorem loadNthValidRk_eq {n j : ℕ} {x : ResidentKey} (hsize : a.rks.length = ctapRkSize)
    (rk : ResidentKey) (hnth : nth ctapRkIsValid n a.rks = some j) (hslot : a.rks[j]? = some x) :
    loadNthValidRk a n rk = ((j : ℤ), x) := by
  have h := loadNthValidRkFrom_eq (a := a) ctapRkSize 0 rk
    (by rw [List.drop_zero, hsize]) hnth (by rwa [Nat.zero_add])
  rwa [Nat.zero_add] at h

/-- The search of `findMatchingRk`, whatever loads the slots. -/
def findMatching (load : ℕ → ResidentKey → ℤ × ResidentKey) (rk : ResidentKey) :
    ℕ → ℕ → ResidentKey → Option ℤ
  | 0, _, _ => none
  | fuel + 1, i, rk2 =>
      let (rawI, rk2) := load i rk2
      if isMatchingRk rk.credential rk2.credential then some rawI
      else findMatching load rk fuel (i + 1) rk2

-- The equations of `findMatchingRk` itself would have `loadNthValidRk` computed.
theorem findMatchingRk_eq (a : Authenticator) :
    findMatchingRk a = findMatching (loadNthValidRk a) := by
  delta findMatchingRk findMatching
  rfl

/-- The search for a matching slot, from a position among the valid ones on,
finds one or tells that there is none. -/
theorem findMatchingRk_cases (hsize : a.rks.length = ctapRkSize) (rk rk2 : ResidentKey)
    (fuel i : ℕ) (hfuel : i + fuel = a.rks.countP ctapRkIsValid) :
    (∃ (j : ℕ) (x : ResidentKey), findMatchingRk a rk fuel i rk2 = some (j : ℤ) ∧
        a.rks[j]? = some x ∧ ctapRkIsValid x = true ∧ x.key = rk.key) ∨
      (findMatchingRk a rk fuel i rk2 = none ∧
        ∀ (n j : ℕ) (x : ResidentKey), i ≤ n → n < a.rks.countP ctapRkIsValid →
          nth ctapRkIsValid n a.rks = some j → a.rks[j]? = some x → x.key ≠ rk.key) := by
  rw [findMatchingRk_eq]
  induction fuel generalizing i rk2 with
  | zero =>
      refine .inr ⟨rfl, fun n j x hi hn => ?_⟩
      omega
  | succ fuel ih =>
      obtain ⟨j, hj⟩ := nth_isSome ctapRkIsValid (l := a.rks) (n := i) (by omega)
      obtain ⟨x, hx, hvalid⟩ := nth_eq_some hj
      rw [findMatching, loadNthValidRk_eq hsize rk2 hj hx]
      dsimp only
      by_cases hmatch : isMatchingRk rk.credential x.credential = true
      · rw [if_pos hmatch]
        exact .inl ⟨j, x, rfl, hx, hvalid, (isMatchingRk_iff _ _).mp hmatch⟩
      · rw [if_neg hmatch]
        rcases ih x (i := i + 1) (by omega) with h | ⟨hnone, hrest⟩
        · exact .inl h
        · refine .inr ⟨hnone, fun n k y hi hn hk hy => ?_⟩
          rcases Nat.eq_or_lt_of_le hi with rfl | hlt
          · rw [hj] at hk
            obtain rfl := Option.some.inj hk
            rw [hx] at hy
            obtain rfl := Option.some.inj hy
            exact fun hkey => hmatch ((isMatchingRk_iff _ _).mpr hkey)
          · exact hrest n k y hlt hn hk hy

/-- The first slot with a property, or that there is none. -/
theorem findSlot_cases (hsize : a.rks.length = ctapRkSize) (p : ResidentKey → Bool) :
    (∃ (i : ℕ) (x : ResidentKey),
        (List.range ctapRkSize).find? (fun i : ℕ => p (ctapLoadRk a i default)) = some i ∧
          a.rks[i]? = some x ∧ p x = true) ∨
      ((List.range ctapRkSize).find? (fun i : ℕ => p (ctapLoadRk a i default)) = none ∧
        ∀ x ∈ a.rks, p x = false) := by
  cases hfind : (List.range ctapRkSize).find? fun i : ℕ => p (ctapLoadRk a i default) with
  | some i =>
      have hlt : i < a.rks.length := hsize ▸ List.mem_range.mp (List.mem_of_find?_eq_some hfind)
      have hslot := List.getElem?_eq_getElem hlt
      have hp := List.find?_some hfind
      rw [ctapLoadRk_of_getElem? hslot] at hp
      exact .inl ⟨i, _, rfl, hslot, hp⟩
  | none =>
      refine .inr ⟨rfl, fun x hx => ?_⟩
      obtain ⟨i, hi⟩ := List.mem_iff_getElem?.mp hx
      have hlt : i < ctapRkSize := hsize ▸ (List.getElem?_eq_some_iff.mp hi).1
      have hp := List.find?_eq_none.mp hfind i (List.mem_range.mpr hlt)
      rw [ctapLoadRk_of_getElem? hi] at hp
      exact Bool.not_eq_true _ ▸ hp

/-- A slot that is free, or none is. -/
theorem findFreeRk_cases (hsize : a.rks.length = ctapRkSize) :
    (∃ (i : ℕ) (x : ResidentKey), findFreeRk a = some i ∧ a.rks[i]? = some x ∧
        ctapRkIsValid x = false) ∨
      (findFreeRk a = none ∧ ∀ x ∈ a.rks, ctapRkIsValid x = true) := by
  rcases findSlot_cases hsize fun x => !ctapRkIsValid x with ⟨i, x, hfind, hx, hfree⟩ | ⟨hfind, hall⟩
  · exact .inl ⟨i, x, hfind, hx, by simpa using hfree⟩
  · exact .inr ⟨hfind, fun x hx => by simpa using hall x hx⟩

/-- A valid slot with the id, or none has it. -/
theorem credentialIdToRkIndex_cases (hsize : a.rks.length = ctapRkSize) (id : CredentialId) :
    (∃ (i : ℕ) (x : ResidentKey), credentialIdToRkIndex a id = some i ∧ a.rks[i]? = some x ∧
        ctapRkIsValid x = true ∧ x.id = id) ∨
      (credentialIdToRkIndex a id = none ∧ ∀ x ∈ a.rks, ctapRkIsValid x = true → x.id ≠ id) := by
  rcases findSlot_cases hsize fun x => ctapRkIsValid x && decide (x.id = id) with
    ⟨i, x, hfind, hx, hp⟩ | ⟨hfind, hall⟩
  · rw [Bool.and_eq_true, decide_eq_true_iff] at hp
    exact .inl ⟨i, x, hfind, hx, hp⟩
  · refine .inr ⟨hfind, fun x hx hvalid hid => ?_⟩
    have hp := hall x hx
    rw [hvalid, decide_eq_true hid] at hp
    exact absurd hp (by decide)

end Search

/-! ### Storing and deleting -/

section Store

variable {a : Authenticator} {rk : ResidentKey}

/-- The slots, as the table that they are. -/
abbrev RkTarget (a : Authenticator) (key : RkKey) (i : ℕ) : Prop :=
  Target ctapRkIsValid ResidentKey.key a.rks key i

abbrev RkAbsent (a : Authenticator) (key : RkKey) : Prop :=
  Absent ctapRkIsValid ResidentKey.key a.rks key

theorem ctapRkIsValid_erased : ctapRkIsValid ResidentKey.erased = false := by decide +kernel

theorem ctapOverwriteRk_apply (i : ℕ) (rk : ResidentKey) (a : Authenticator) :
    ctapOverwriteRk i rk a = (.ok (), { a with rks := a.rks.set i rk }) := by
  show (_, if (i : ℤ) < 0 then a else { a with rks := a.rks.set (i : ℤ).toNat rk }) = _
  rw [if_neg (by omega), Int.toNat_natCast]

theorem RkStoreOk.countP_le (ha : RkStoreOk a) : a.rks.countP ctapRkIsValid ≤ 50 :=
  List.countP_le_length.trans ha.size.le

/-- What `storeResidentKey` does with the slots it found. -/
def storeFound (rk : ResidentKey) : Option ℤ → Option ℕ → Device Unit
  | some rawI, _ => ctapOverwriteRk rawI rk
  | none, some i => do
      ctapIncrementRkStore
      ctapOverwriteRk i rk
  | none, none => fail ctap2ErrKeyStoreFull

theorem storeResidentKey_eq (rk : ResidentKey) (a : Authenticator) :
    storeResidentKey rk a =
      storeFound rk (findMatchingRk a rk a.state.rkStored.toNat 0 default) (findFreeRk a) a := by
  unfold storeResidentKey
  rw [get_bind]
  generalize findMatchingRk a rk a.state.rkStored.toNat 0 default = found
  generalize findFreeRk a = free
  rcases found with _ | i
  · rcases free with _ | i <;> rfl
  · rfl

/-- Storing a valid resident key puts it where its key belongs, unless the
store is full. -/
theorem storeResidentKey_cases (ha : RkStoreOk a) (hvalid : ctapRkIsValid rk = true) :
    (∃ i t, RkTarget a rk.key i ∧ storeResidentKey rk a = (.ok (), t) ∧
        t.rks = a.rks.set i rk ∧ RkStoreOk t) ∨
      (storeResidentKey rk a = (.error (.status ctap2ErrKeyStoreFull), a) ∧
        (∀ x ∈ a.rks, ctapRkIsValid x = true) ∧ RkAbsent a rk.key) := by
  rw [storeResidentKey_eq]
  rcases findMatchingRk_cases ha.size rk default a.state.rkStored.toNat 0
    (by rw [Nat.zero_add, ha.counted]) with ⟨j, x, hfind, hx, hvx, hkey⟩ | ⟨hfind, hnone⟩
  · have htarget : RkTarget a rk.key j := .taken x hx hvx hkey
    rw [hfind]
    refine .inl ⟨j, _, htarget, ctapOverwriteRk_apply j rk a, rfl, ?_⟩
    exact
      { size := (List.length_set ..).trans ha.size
        counted := ha.counted.trans (countP_set_taken hx hvx hvalid).symm
        unique := ha.unique.put htarget }
  · have habsent : RkAbsent a rk.key := by
      intro x hx hvx
      obtain ⟨j, hj⟩ := List.mem_iff_getElem?.mp hx
      obtain ⟨n, hn, hnth⟩ := exists_nth hj hvx
      exact hnone n j x (Nat.zero_le n) hn hnth hj
    rw [hfind]
    rcases findFreeRk_cases ha.size with ⟨i, x, hfree, hx, hvx⟩ | ⟨hfree, hfull⟩
    · have htarget : RkTarget a rk.key i := .free x hx hvx habsent
      have hcount := countP_set_free hx hvx hvalid
      have hle := ha.countP_le
      rw [hfree]
      refine .inl ⟨i, _, htarget, ctapOverwriteRk_apply i rk _, rfl, ?_⟩
      refine ⟨(List.length_set ..).trans ha.size, ?_, ha.unique.put htarget⟩
      show (a.state.rkStored + 1).toNat = (a.rks.set i rk).countP ctapRkIsValid
      rw [UInt16.toNat_add, ha.counted, hcount]
      exact Nat.mod_eq_of_lt (by change _ + 1 < 65536; omega)
    · rw [hfree]
      exact .inr ⟨rfl, hfull, habsent⟩

/-- The slot is erased and counted out. -/
def Authenticator.deleted (a : Authenticator) (i : ℕ) : Authenticator :=
  { a with
    rks := a.rks.set i ResidentKey.erased
    state := { a.state with rkStored := a.state.rkStored - 1 }
    stored := { a.state with rkStored := a.state.rkStored - 1 } }

theorem ctapDecrementRkStore_apply (a : Authenticator) :
    ctapDecrementRkStore a =
      (.ok (), { a with
        state := { a.state with rkStored := a.state.rkStored - 1 }
        stored := { a.state with rkStored := a.state.rkStored - 1 } }) := rfl

theorem ctapDeleteRk_apply (i : ℕ) (w : Writer) (a : Authenticator) :
    (ctapDeleteRk i >>= fun _ => ctapDecrementRkStore >>= fun _ => pure w) a =
      (.ok w, a.deleted i) := by
  unfold ctapDeleteRk
  rw [bind_of_ok (ctapOverwriteRk_apply i ResidentKey.erased a),
    bind_of_ok (ctapDecrementRkStore_apply _), pure_apply, Authenticator.deleted]

theorem RkStoreOk.deleted (ha : RkStoreOk a) {i : ℕ} {x : ResidentKey} (hx : a.rks[i]? = some x)
    (hvalid : ctapRkIsValid x = true) : RkStoreOk (a.deleted i) := by
  have hcount := countP_set_erased hx hvalid ctapRkIsValid_erased
  refine ⟨(List.length_set ..).trans ha.size, ?_, ha.unique.free ctapRkIsValid_erased⟩
  show (a.state.rkStored - 1).toNat = (a.rks.set i ResidentKey.erased).countP ctapRkIsValid
  have hle : (1 : UInt16) ≤ a.state.rkStored := by
    rw [UInt16.le_iff_toNat_le, ha.counted, ← hcount]
    exact Nat.le_add_left _ _
  rw [UInt16.toNat_sub_of_le _ _ hle, ha.counted, ← hcount]
  exact Nat.add_sub_cancel _ _

/-- Deleting frees a slot with the id that was given, if there is one. -/
theorem credMgmtDelete_ends (ha : RkStoreOk a) (w : Writer) (cm : CredMgmt) :
    Ends (credMgmtDelete w cm) a fun r t =>
      (∃ i x, a.rks[i]? = some x ∧ ctapRkIsValid x = true ∧
          x.id = cm.credentialDescriptor.credential.id ∧ r = .ok w ∧ t = a.deleted i) ∨
        (r = .error (.status ctap2ErrNoCredentials) ∧ t = a ∧
          ∀ x ∈ a.rks, ctapRkIsValid x = true → x.id ≠ cm.credentialDescriptor.credential.id) := by
  unfold credMgmtDelete
  refine Ends.get_bind ?_
  rcases credentialIdToRkIndex_cases ha.size cm.credentialDescriptor.credential.id with
    ⟨i, x, hfind, hx, hvalid, hid⟩ | ⟨hfind, hnone⟩
  · rw [hfind]
    exact .of_eq (ctapDeleteRk_apply i w a) (.inl ⟨i, x, hx, hvalid, hid, rfl, rfl⟩)
  · rw [hfind]
    exact .stop (.inr ⟨rfl, rfl, hnone⟩)

end Store

end NitrokeyFido2.Ctap
