import NitrokeyFido2.Ctap.RelyingParty
import NitrokeyFido2.Ctap.CredentialIds
import NitrokeyFido2.Ctap.ResidentKeys
import NitrokeyFido2.Lib.Sorting

/-!
The entries of an allowList that a getAssertion selects.

An entry that is refused stays in the list with a count of zero, and the list
is sorted by the counts, the highest first. That brings the entries that are
accepted to the front as long as the counts say which ones they are: a key
handle and an extension request have no count, and the difference of two counts
is compared as an `int`.
-/

namespace NitrokeyFido2.Ctap

open Proc Sorting KeyedSlots

variable (env : Env)

/-! ### Accepted and refused entries -/

section Entries

variable (a : Authenticator) (ga : GetAssertion)

/-- An entry that counts: a credential of ours which the request may see, or an
extension request. -/
def isSelected (cred : CredentialDescriptor) : Bool :=
  if ctapAuthenticateCredential env a.secrets a.gas.custom ga.rp cred then
    checkCredentialMetadata env a.secrets cred.credential.id (a.gas.userVerified ≠ 0) true
  else isExtensionRequest cred.credential.id.bytes credentialIdSize

/-- The entries of the request. -/
def allowed : List CredentialDescriptor := a.gas.creds.take ga.credLen

/-- The entries that count, as they are returned. -/
def selected : List CredentialDescriptor :=
  ((allowed a ga).filter (isSelected env a ga)).map fun cred => (filterEntry env a ga.rp cred).2

/-- The other ones. -/
def refused : List CredentialDescriptor :=
  ((allowed a ga).filter fun cred => !isSelected env a ga cred).map fun cred =>
    (filterEntry env a ga.rp cred).2

variable {env a ga}

theorem filterEntry_fst (cred : CredentialDescriptor) :
    (filterEntry env a ga.rp cred).1 = isSelected env a ga cred := by
  unfold filterEntry isSelected
  split
  · split
    case isTrue h => exact h.symm
    case isFalse h => exact (Bool.eq_false_of_not_eq_true h).symm
  · split
    case isTrue h => exact h.symm
    case isFalse h => exact (Bool.eq_false_of_not_eq_true h).symm

theorem filterEntry_of_refused {cred : CredentialDescriptor} (h : isSelected env a ga cred = false) :
    (filterEntry env a ga.rp cred).2 = cred.invalidate := by
  unfold isSelected at h
  unfold filterEntry
  split at h
  case isTrue hauth => rw [if_pos hauth, if_neg (Bool.eq_false_iff.mp h)]
  case isFalse hauth => rw [if_neg hauth, if_neg (Bool.eq_false_iff.mp h)]

end Entries

/-- The count of an entry, or what lies in its place. -/
def CredentialDescriptor.count (d : CredentialDescriptor) : ℕ :=
  (CredentialId.count d.credential.id).toNat

/-- The list begins with the entries that count, and with the latest of the
credentials among them. -/
def SelectsLatest (a : Authenticator) (ga : GetAssertion) : Prop :=
  let r := ctapFilterInvalidCredentials env a ga
  (r.2.2.take r.1).Perm (selected env a ga) ∧
    (r.2.2.take r.1).Pairwise fun x y =>
      x.type = pubKeyCredPubKey → y.type = pubKeyCredPubKey → y.count ≤ x.count

/-- The counts tell the entries that count from the other ones, and the earlier
from the later credentials, also when their difference is an `int`. -/
structure CountsTell (a : Authenticator) (ga : GetAssertion) : Prop where
  apart : ∀ x ∈ selected env a ga, ∀ y ∈ refused env a ga, x ≠ y →
    0 < x.count ∧ x.count < 2 ^ 31
  latest : ∀ x ∈ selected env a ga, ∀ y ∈ selected env a ga,
    x.type = pubKeyCredPubKey → y.type = pubKeyCredPubKey → y.count < x.count →
      Consistent credCmpFunc (selected env a ga ++ refused env a ga) ∧ x.count - y.count < 2 ^ 31

variable {env}

/-! ### The comparison -/

section Comparison

theorem count_lt (d : CredentialDescriptor) : d.count < 2 ^ 32 := UInt32.toNat_lt_size _

theorem credCmpFunc_eq (x y : CredentialDescriptor) :
    credCmpFunc x y = Int.bmod ((y.count : ℤ) - x.count) (2 ^ 32) := rfl

/-- The difference is not positive where it is zero or wraps to a negative
number. -/
theorem credCmpFunc_nonpos_iff (x y : CredentialDescriptor) : credCmpFunc x y ≤ 0 ↔
    y.count ≤ x.count ∧ x.count - y.count ≤ 2 ^ 31 ∨ x.count + 2 ^ 31 ≤ y.count := by
  have hx := count_lt x
  have hy := count_lt y
  rw [credCmpFunc_eq, Int.bmod_eq_emod]
  split <;> omega

theorem credCmpFunc_nonneg_iff (x y : CredentialDescriptor) : 0 ≤ credCmpFunc x y ↔
    x.count ≤ y.count ∧ y.count - x.count < 2 ^ 31 ∨ y.count + 2 ^ 31 < x.count := by
  have hx := count_lt x
  have hy := count_lt y
  rw [credCmpFunc_eq, Int.bmod_eq_emod]
  split <;> omega

/-- Counts below half of the range are compared as numbers. -/
theorem consistent_of_lt {l : List CredentialDescriptor} (h : ∀ x ∈ l, x.count < 2 ^ 31) :
    Consistent credCmpFunc l where
  symm x hx y hy := by
    have hx := h x hx
    have hy := h y hy
    rw [credCmpFunc_nonpos_iff, credCmpFunc_nonneg_iff]
    omega
  trans x hx y hy z hz := by
    have hx := h x hx
    have hy := h y hy
    have hz := h z hz
    simp only [credCmpFunc_nonpos_iff]
    omega

end Comparison

/-! ### The sorted list -/

section Selection

variable {a : Authenticator} {ga : GetAssertion}

theorem count_refused {y : CredentialDescriptor} (hy : y ∈ refused env a ga) : y.count = 0 := by
  obtain ⟨cred, hcred, rfl⟩ := List.mem_map.mp hy
  have hrefused : isSelected env a ga cred = false := by simpa using (List.mem_filter.mp hcred).2
  rw [filterEntry_of_refused hrefused]
  show (CredentialId.count (CredentialId.setCount cred.credential.id 0)).toNat = 0
  rw [CredentialId.count_setCount]
  rfl

/-- What the filter makes of the entries. -/
def filtered (env : Env) (a : Authenticator) (ga : GetAssertion) : List CredentialDescriptor :=
  (allowed a ga).map fun cred => (filterEntry env a ga.rp cred).2

theorem filtered_perm : (filtered env a ga).Perm (selected env a ga ++ refused env a ga) := by
  unfold filtered selected refused
  rw [← List.map_append]
  exact (List.filter_append_perm _ _).symm.map _

theorem ctapFilterInvalidCredentials_eq (hlist : ga.credLen ≠ 0) :
    ctapFilterInvalidCredentials env a ga =
      ((selected env a ga).length, ga.credLen,
        env.qsort credCmpFunc (filtered env a ga) ++ a.gas.creds.drop ga.credLen) := by
  unfold ctapFilterInvalidCredentials
  rw [if_neg hlist]
  dsimp only
  have hcount : ((allowed a ga).map (filterEntry env a ga.rp)).countP (·.1) =
      (selected env a ga).length := by
    rw [List.countP_map, selected, List.length_map, ← List.countP_eq_length_filter]
    refine List.countP_congr fun cred _ => ?_
    rw [Function.comp_apply, filterEntry_fst]
  rw [← hcount, filtered, List.map_map]
  rfl

/-- The selection of a sorted list. -/
theorem selectsLatest_iff {qsort : (CredentialDescriptor → CredentialDescriptor → ℤ) →
    List CredentialDescriptor → List CredentialDescriptor} (hsort : IsSort qsort)
    (hlist : ga.credLen ≠ 0) :
    SelectsLatest { env with qsort := qsort } a ga ↔
      ((qsort credCmpFunc (filtered env a ga)).take (selected env a ga).length).Perm
          (selected env a ga) ∧
        ((qsort credCmpFunc (filtered env a ga)).take (selected env a ga).length).Pairwise fun x y =>
          x.type = pubKeyCredPubKey → y.type = pubKeyCredPubKey → y.count ≤ x.count := by
  have hle : (selected env a ga).length ≤ (qsort credCmpFunc (filtered env a ga)).length := by
    rw [((hsort credCmpFunc (filtered env a ga)).perm.trans filtered_perm).length_eq,
      List.length_append]
    omega
  unfold SelectsLatest
  rw [ctapFilterInvalidCredentials_eq hlist]
  dsimp only
  rw [List.take_append_of_le_length]
  · exact Iff.rfl
  · exact hle

/-- Whatever the sorting function, the accepted entries come first and the
latest of them before the earlier ones, if and only if the counts tell so. -/
theorem selection_iff (hlist : ga.credLen ≠ 0) :
    (∀ qsort, IsSort qsort → SelectsLatest { env with qsort := qsort } a ga) ↔
      CountsTell env a ga := by
  have hresult {p : List CredentialDescriptor} : Result credCmpFunc (filtered env a ga) p ↔
      Result credCmpFunc (selected env a ga ++ refused env a ga) p := result_congr filtered_perm
  have hforall : (∀ qsort, IsSort qsort → SelectsLatest { env with qsort := qsort } a ga) ↔
      ∀ p, Result credCmpFunc (selected env a ga ++ refused env a ga) p →
        (p.take (selected env a ga).length).Perm (selected env a ga) ∧
          (p.take (selected env a ga).length).Pairwise fun x y =>
            x.type = pubKeyCredPubKey → y.type = pubKeyCredPubKey → y.count ≤ x.count := by
    simp only [← hresult]
    rw [← forall_isSort_iff]
    exact forall₂_congr fun qsort hsort => selectsLatest_iff hsort hlist
  rw [hforall]
  constructor
  · intro hall
    have hfront := fun p hp => (hall p hp).1
    have hapart := take_perm_iff.mp hfront
    have hlatest := (pairwise_take_iff (fun x _ _ => le_refl x.count) hfront).mp
      fun p hp => (hall p hp).2
    constructor
    · intro x hx y hy hne
      have hgt : ¬ credCmpFunc y x ≤ 0 := fun h => hne (hapart x hx y hy fun _ => h)
      rw [credCmpFunc_nonpos_iff, count_refused hy] at hgt
      omega
    · intro x hx y hy htx hty hlt
      by_contra hnot
      have hle := hlatest x hx y hy (fun hcons => ?_) hty htx
      · omega
      · have hfar : ¬ x.count - y.count < 2 ^ 31 := fun h => hnot ⟨hcons, h⟩
        -- half the range apart, each would come before the other
        have hsymm := hcons.symm x (List.mem_append_left _ hx) y (List.mem_append_left _ hy)
        rw [credCmpFunc_nonpos_iff, credCmpFunc_nonneg_iff] at hsymm
        rw [credCmpFunc_nonpos_iff]
        omega
  · intro htell
    have hapart : ∀ x ∈ selected env a ga, ∀ y ∈ refused env a ga,
        (Consistent credCmpFunc (selected env a ga ++ refused env a ga) → credCmpFunc y x ≤ 0) →
          x = y := by
      intro x hx y hy hle
      by_contra hne
      have hcons : Consistent credCmpFunc (selected env a ga ++ refused env a ga) := by
        refine consistent_of_lt fun z hz => ?_
        rcases List.mem_append.mp hz with hz | hz
        · rcases eq_or_ne z y with rfl | hzy
          · rw [count_refused hy]
            decide
          · exact (htell.apart z hz y hy hzy).2
        · rw [count_refused hz]
          decide
      have hcount := htell.apart x hx y hy hne
      have hle := (credCmpFunc_nonpos_iff y x).mp (hle hcons)
      rw [count_refused hy] at hle
      omega
    have hfront := take_perm_iff.mpr hapart
    refine fun p hp => ⟨hfront p hp, ?_⟩
    refine (pairwise_take_iff (fun x _ _ => le_refl x.count) hfront).mpr
      (fun x hx z hz hle htz htx => ?_) p hp
    by_contra hlt
    obtain ⟨hcons, hnear⟩ := htell.latest x hx z hz htx htz (by omega)
    have hle := (credCmpFunc_nonpos_iff z x).mp (hle hcons)
    omega

end Selection

/-! ### User information -/

section UserInfo

variable {a : Authenticator} {ga : GetAssertion}

/-- The search of `addExistingUserInfoFrom`, whatever loads the slots. -/
def addUserFrom (load : ℕ → ResidentKey → ℤ × ResidentKey) (cred : CredentialDescriptor) :
    ℕ → ℕ → ResidentKey → CredentialDescriptor
  | 0, _, _ => cred
  | fuel + 1, i, rk =>
      let rk := (load i rk).2
      if isMatchingRk rk.credential cred.credential then
        { cred with credential := { cred.credential with user := rk.user } }
      else addUserFrom load cred fuel (i + 1) rk

theorem addExistingUserInfoFrom_eq (a : Authenticator) :
    addExistingUserInfoFrom a = addUserFrom (loadNthValidRk a) := by
  delta addExistingUserInfoFrom addUserFrom
  rfl

/-- The user of the resident key with the key of the descriptor is copied, from a
position among the valid ones on. -/
theorem addExistingUserInfoFrom_cases (hsize : a.rks.length = ctapRkSize)
    (cred : CredentialDescriptor) (rk : ResidentKey) (fuel i : ℕ)
    (hfuel : i + fuel = a.rks.countP ctapRkIsValid) :
    (∃ x ∈ a.rks, ctapRkIsValid x = true ∧ x.key = cred.credential.key ∧
        (addExistingUserInfoFrom a cred fuel i rk).credential.user = x.user) ∨
      ((addExistingUserInfoFrom a cred fuel i rk).credential.user = cred.credential.user ∧
        ∀ (n j : ℕ) (x : ResidentKey), i ≤ n → n < a.rks.countP ctapRkIsValid →
          nth ctapRkIsValid n a.rks = some j → a.rks[j]? = some x → x.key ≠ cred.credential.key) := by
  rw [addExistingUserInfoFrom_eq]
  induction fuel generalizing i rk with
  | zero =>
      refine .inr ⟨rfl, fun n j x hi hn => ?_⟩
      omega
  | succ fuel ih =>
      obtain ⟨j, hj⟩ := nth_isSome ctapRkIsValid (l := a.rks) (n := i) (by omega)
      obtain ⟨x, hx, hvalid⟩ := nth_eq_some hj
      rw [addUserFrom, loadNthValidRk_eq hsize rk hj hx]
      dsimp only
      by_cases hmatch : isMatchingRk x.credential cred.credential = true
      · rw [if_pos hmatch]
        have hkey := (isMatchingRk_iff _ _).mp hmatch
        exact .inl ⟨x, List.mem_of_getElem? hx, hvalid, hkey.symm, rfl⟩
      · rw [if_neg hmatch]
        rcases ih x (i := i + 1) (by omega) with h | ⟨huser, hrest⟩
        · exact .inl h
        · refine .inr ⟨huser, fun n k y hi hn hk hy => ?_⟩
          rcases Nat.eq_or_lt_of_le hi with rfl | hlt
          · cases hj.symm.trans hk
            cases hx.symm.trans hy
            exact fun hkey => hmatch ((isMatchingRk_iff _ _).mpr hkey.symm)
          · exact hrest n k y hlt hn hk hy

theorem addUserFrom_identity (load : ℕ → ResidentKey → ℤ × ResidentKey)
    (cred : CredentialDescriptor) (fuel i : ℕ) (rk : ResidentKey) :
    (addUserFrom load cred fuel i rk).identity = cred.identity := by
  induction fuel generalizing i rk with
  | zero => rfl
  | succ fuel ih =>
      rw [addUserFrom]
      dsimp only
      split
      · rfl
      · exact ih ..

theorem addExistingUserInfo_identity (a : Authenticator) (cred : CredentialDescriptor) :
    (addExistingUserInfo a cred).identity = cred.identity := by
  unfold addExistingUserInfo
  rw [addExistingUserInfoFrom_eq, addUserFrom_identity]

theorem RkStoreOk.eq_of_key (ha : RkStoreOk a) {x y : ResidentKey} (hx : x ∈ a.rks) (hy : y ∈ a.rks)
    (hvx : ctapRkIsValid x = true) (hvy : ctapRkIsValid y = true) (hkey : x.key = y.key) : x = y := by
  obtain ⟨i, hi⟩ := List.mem_iff_getElem?.mp hx
  obtain ⟨j, hj⟩ := List.mem_iff_getElem?.mp hy
  obtain rfl := ha.unique i j x y hi hj hvx hvy hkey
  exact Option.some.inj (hi.symm.trans hj)

/-- The user of a descriptor whose key a resident key has is that of the
resident key. -/
theorem addExistingUserInfo_of_key (ha : RkStoreOk a) {cred : CredentialDescriptor} {x : ResidentKey}
    (hx : x ∈ a.rks) (hvalid : ctapRkIsValid x = true) (hkey : x.key = cred.credential.key) :
    (addExistingUserInfo a cred).credential.user = x.user := by
  rcases addExistingUserInfoFrom_cases ha.size cred default a.state.rkStored.toNat 0
    (by rw [ha.counted]; omega) with ⟨y, hy, hvy, hykey, huser⟩ | ⟨-, habsent⟩
  · rw [ha.eq_of_key hx hy hvalid hvy (hkey.trans hykey.symm)]
    exact huser
  · obtain ⟨j, hj⟩ := List.mem_iff_getElem?.mp hx
    obtain ⟨n, hn, hnth⟩ := exists_nth hj hvalid
    exact absurd hkey (habsent n j x (Nat.zero_le n) hn hnth hj)

/-- Another one keeps what is in its place. -/
theorem addExistingUserInfo_cases (ha : RkStoreOk a) (cred : CredentialDescriptor) :
    (∃ x ∈ a.rks, ctapRkIsValid x = true ∧ x.key = cred.credential.key ∧
        (addExistingUserInfo a cred).credential.user = x.user) ∨
      (addExistingUserInfo a cred).credential.user = cred.credential.user := by
  have hcases := addExistingUserInfoFrom_cases ha.size cred default a.state.rkStored.toNat 0
    (by rw [ha.counted]; omega)
  exact hcases.imp_right And.left

/-- The resident key that a credential of the list is. -/
structure IsResident (a : Authenticator) (ga : GetAssertion) (env : Env)
    (d : CredentialDescriptor) (rk : ResidentKey) : Prop where
  type : d.type = pubKeyCredPubKey
  authentic : ctapAuthenticateCredential env a.secrets a.gas.custom ga.rp d = true
  stored : rk ∈ a.rks
  valid : ctapRkIsValid rk = true
  id : rk.id = d.credential.id

/-- The user entity of a credential is that of its resident key, and a
credential that is none is returned without a user entity. -/
structure HasOwnUser (env : Env) (a : Authenticator) (ga : GetAssertion)
    (d : CredentialDescriptor) : Prop where
  resident : ∀ rk, IsResident a ga env d rk → d.credential.user = rk.user
  other : (∀ rk, ¬ IsResident a ga env d rk) →
    returnedUser d.credential.user (a.gas.userVerified ≠ 0) = []

/-- The user entity that lies in the place of an entry has the user id of its
resident key, and is empty if there is none. -/
structure LeftUserFits (env : Env) (a : Authenticator) (ga : GetAssertion)
    (cred : CredentialDescriptor) : Prop where
  resident : ∀ rk, IsResident a ga env cred rk →
    cred.credential.user.idSize = rk.user.idSize ∧ cred.credential.user.idBytes = rk.user.idBytes
  other : (∀ rk, ¬ IsResident a ga env cred rk) → cred.credential.user.idSize = 0

theorem returnedUser_eq_nil_iff (user : UserEntity) (isVerified : Bool) :
    returnedUser user isVerified = [] ↔ user.idSize = 0 := by
  unfold returnedUser
  split
  case isTrue h => simp [h]
  case isFalse h => simpa using h

theorem isResident_congr {d d' : CredentialDescriptor} (h : d.identity = d'.identity)
    (rk : ResidentKey) : IsResident a ga env d rk ↔ IsResident a ga env d' rk := by
  obtain ⟨htype, hid⟩ := Prod.mk.inj h
  have hauth : ctapAuthenticateCredential env a.secrets a.gas.custom ga.rp d =
      ctapAuthenticateCredential env a.secrets a.gas.custom ga.rp d' := by
    unfold ctapAuthenticateCredential
    rw [htype, hid]
  constructor
  · intro hres
    exact ⟨htype ▸ hres.type, hauth ▸ hres.authentic, hres.stored, hres.valid, hid ▸ hres.id⟩
  · intro hres
    exact ⟨htype ▸ hres.type, hauth ▸ hres.authentic, hres.stored, hres.valid, hid ▸ hres.id⟩

theorem hasOwnUser_iff (ha : RkStoreOk a) {cred : CredentialDescriptor}
    (hselected : isSelected env a ga cred = true) :
    HasOwnUser env a ga (filterEntry env a ga.rp cred).2 ↔ LeftUserFits env a ga cred := by
  by_cases hauth : ctapAuthenticateCredential env a.secrets a.gas.custom ga.rp cred = true
  · have hentry : (filterEntry env a ga.rp cred).2 = addExistingUserInfo a cred := by
      unfold isSelected at hselected
      rw [if_pos hauth] at hselected
      unfold filterEntry
      rw [if_pos hauth, if_pos hselected]
    have hresident := @isResident_congr env a ga _ _
      (addExistingUserInfo_identity a cred)
    rw [hentry]
    -- what is copied has the user id of what was there before
    have hsize : (addExistingUserInfo a cred).credential.user.idSize =
          cred.credential.user.idSize ∧
        (addExistingUserInfo a cred).credential.user.idBytes = cred.credential.user.idBytes := by
      rcases addExistingUserInfo_cases ha cred with ⟨x, -, -, hkey, huser⟩ | huser
      · obtain ⟨-, hsize, hid⟩ := by simpa [ResidentKey.key, Credential.key] using hkey
        rw [huser]
        exact ⟨hsize, hid⟩
      · rw [huser]
        exact ⟨rfl, rfl⟩
    constructor
    · intro hown
      refine ⟨fun rk hrk => ?_, fun hnone => ?_⟩
      · have huser := hown.resident rk ((hresident rk).mpr hrk)
        rw [← huser]
        exact ⟨hsize.1.symm, hsize.2.symm⟩
      · have hempty := hown.other fun rk hrk => hnone rk ((hresident rk).mp hrk)
        rw [← hsize.1]
        exact (returnedUser_eq_nil_iff _ _).mp hempty
    · intro hfits
      refine ⟨fun rk hrk => ?_, fun hnone => ?_⟩
      · have hrk := (hresident rk).mp hrk
        obtain ⟨hidSize, hid⟩ := hfits.resident rk hrk
        refine addExistingUserInfo_of_key ha hrk.stored hrk.valid ?_
        simp only [ResidentKey.key, Credential.key, ResidentKey.credential, hrk.id, hidSize, hid]
      · refine (returnedUser_eq_nil_iff _ _).mpr (hsize.1.trans (hfits.other fun rk hrk => ?_))
        exact hnone rk ((hresident rk).mpr hrk)
  · have hentry : (filterEntry env a ga.rp cred).2 = cred := by
      unfold isSelected at hselected
      rw [if_neg hauth] at hselected
      unfold filterEntry
      rw [if_neg hauth, if_pos hselected]
    rw [hentry]
    have hnone (rk : ResidentKey) : ¬ IsResident a ga env cred rk := fun hrk => hauth hrk.authentic
    constructor
    · intro hown
      exact ⟨fun rk hrk => absurd hrk (hnone rk), fun h =>
        (returnedUser_eq_nil_iff _ _).mp (hown.other h)⟩
    · intro hfits
      exact ⟨fun rk hrk => absurd hrk (hnone rk), fun h =>
        (returnedUser_eq_nil_iff _ _).mpr (hfits.other h)⟩

/-- The accepted credentials have their own user entities if and only if those
that lie in their places in the list fit. -/
theorem user_info_iff (ha : RkStoreOk a) :
    (∀ d ∈ selected env a ga, HasOwnUser env a ga d) ↔
      ∀ cred ∈ allowed a ga, isSelected env a ga cred = true → LeftUserFits env a ga cred := by
  unfold selected
  rw [List.forall_mem_map]
  simp only [List.mem_filter, and_imp]
  exact forall₂_congr fun cred _ => forall_congr' fun hselected => hasOwnUser_iff ha hselected

end UserInfo

/-! ### A key handle behind an unknown id -/

theorem Sample.isSort : IsSort Sample.env.qsort := isSort_insertionSort

/-- An id of the right length that no device has made, and a key handle of this
device. -/
def strangerIds : List (List UInt8) := [List.replicate 70 1, demoKeyHandle 7]

/-- The assertion state in which the list of a request is filtered. -/
def Authenticator.parsedList (env : Env) (a : Authenticator) (request : List UInt8) :
    Authenticator :=
  { a with gas := { a.gas with
    creds := (ctapParseGetAssertion env request ⟨default, a.gas.creds, a.gas.custom⟩).2.creds
    custom := (ctapParseGetAssertion env request ⟨default, a.gas.creds, a.gas.custom⟩).2.custom
    userVerified := if (requestedAssertion env a request).pinAuthPresent ≠ 0 then 1 else 0 } }

theorem parsed_parsedList (a : Authenticator) (request : List UInt8) :
    Parsed env a request (a.parsedList env request) := ⟨rfl, rfl, rfl, rfl⟩

theorem RkStoreOk.parsedList {a : Authenticator} (ha : RkStoreOk a) (request : List UInt8) :
    RkStoreOk (a.parsedList env request) := ha.congr ⟨rfl, rfl⟩

theorem selection_iff_demo :
    (∀ qsort, IsSort qsort → SelectsLatest { Sample.env with qsort := qsort }
        (demoDevice.parsedList Sample.env (demoAssertion Sample.twoIds).tail)
        (requestedAssertion Sample.env demoDevice (demoAssertion Sample.twoIds).tail)) ↔
      CountsTell Sample.env (demoDevice.parsedList Sample.env (demoAssertion Sample.twoIds).tail)
        (requestedAssertion Sample.env demoDevice (demoAssertion Sample.twoIds).tail) :=
  selection_iff (by decide +kernel)

/-- The key handle has a count of zero in a list that is zero, and stays behind
the unknown id, which is then asserted with its count zeroed. -/
theorem selection_counterexample :
    ∃ v, Parsed Sample.env demoDevice (demoAssertion strangerIds).tail v ∧
      (requestedAssertion Sample.env demoDevice (demoAssertion strangerIds).tail).credLen ≠ 0 ∧
      IsSort Sample.env.qsort ∧
      ¬ SelectsLatest Sample.env v
        (requestedAssertion Sample.env demoDevice (demoAssertion strangerIds).tail) ∧
      ∃ w t, demoDevice.dispatch Sample.env (demoAssertion strangerIds) Sample.touch =
        (.ok (some w), t) ∧ w.credentialId = List.replicate 66 1 ++ List.replicate 4 0 := by
  refine ⟨_, parsed_parsedList demoDevice (demoAssertion strangerIds).tail, by decide +kernel,
    Sample.isSort, fun hselects => ?_, ?_⟩
  · have hfront : ¬ ((ctapFilterInvalidCredentials Sample.env
          (demoDevice.parsedList Sample.env (demoAssertion strangerIds).tail)
          (requestedAssertion Sample.env demoDevice (demoAssertion strangerIds).tail)).2.2.take 1).Perm
        (selected Sample.env (demoDevice.parsedList Sample.env (demoAssertion strangerIds).tail)
          (requestedAssertion Sample.env demoDevice (demoAssertion strangerIds).tail)) := by
      decide +kernel
    have hone : (ctapFilterInvalidCredentials Sample.env
        (demoDevice.parsedList Sample.env (demoAssertion strangerIds).tail)
        (requestedAssertion Sample.env demoDevice (demoAssertion strangerIds).tail)).1 = 1 := by
      decide +kernel
    have hperm := hselects.1
    rw [hone] at hperm
    exact hfront hperm
  · have hanswer : ((demoDevice.dispatch Sample.env (demoAssertion strangerIds)
        Sample.touch).1.toOption.join.map Writer.credentialId) =
          some (List.replicate 66 1 ++ List.replicate 4 0) := by
      decide +kernel
    rcases hrun : demoDevice.dispatch Sample.env (demoAssertion strangerIds) Sample.touch with
      ⟨e | _ | w, t⟩ <;> rw [hrun] at hanswer
    · cases hanswer
    · cases hanswer
    · exact ⟨w, t, rfl, Option.some.inj hanswer⟩

/-! ### A resident key in a list -/

/-- A device with one resident key. -/
def demoResident : Authenticator :=
  (Transition.run (Machine.step Sample.env) (Machine.powerUp Sample.env Sample.device)
    [Sample.request ctapMakeCredentialCmd (Sample.createResidentOps [1])]).auth

/-- A getAssertion for that key. -/
def demoResidentRequest : List UInt8 :=
  demoAssertion ((demoResident.rks.filter ctapRkIsValid).map fun rk => rk.id.bytes)

theorem demoResident_store : RkStoreOk demoResident :=
  ⟨by decide +kernel, by decide +kernel, unique_of_pairwise (by decide +kernel)⟩

theorem user_info_iff_demo :
    (∀ d ∈ selected Sample.env (demoResident.parsedList Sample.env demoResidentRequest.tail)
        (requestedAssertion Sample.env demoResident demoResidentRequest.tail),
      HasOwnUser Sample.env (demoResident.parsedList Sample.env demoResidentRequest.tail)
        (requestedAssertion Sample.env demoResident demoResidentRequest.tail) d) ↔
      ∀ cred ∈ allowed (demoResident.parsedList Sample.env demoResidentRequest.tail)
          (requestedAssertion Sample.env demoResident demoResidentRequest.tail),
        isSelected Sample.env (demoResident.parsedList Sample.env demoResidentRequest.tail)
            (requestedAssertion Sample.env demoResident demoResidentRequest.tail) cred = true →
          LeftUserFits Sample.env (demoResident.parsedList Sample.env demoResidentRequest.tail)
            (requestedAssertion Sample.env demoResident demoResidentRequest.tail) cred :=
  user_info_iff (demoResident_store.parsedList demoResidentRequest.tail)

/-- The key is found by its id in a list that is zero, and is returned without
its user. -/
theorem user_info_counterexample :
    ∃ v, Parsed Sample.env demoResident demoResidentRequest.tail v ∧ RkStoreOk v ∧
      ¬ ∀ d ∈ selected Sample.env v
          (requestedAssertion Sample.env demoResident demoResidentRequest.tail),
        HasOwnUser Sample.env v
          (requestedAssertion Sample.env demoResident demoResidentRequest.tail) d := by
  refine ⟨_, parsed_parsedList demoResident demoResidentRequest.tail,
    demoResident_store.parsedList demoResidentRequest.tail, fun hall => ?_⟩
  have hlost : ∃ d ∈ selected Sample.env
        (demoResident.parsedList Sample.env demoResidentRequest.tail)
        (requestedAssertion Sample.env demoResident demoResidentRequest.tail),
      ∃ rk ∈ (demoResident.parsedList Sample.env demoResidentRequest.tail).rks,
        (d.type = pubKeyCredPubKey ∧ ctapAuthenticateCredential Sample.env
          (demoResident.parsedList Sample.env demoResidentRequest.tail).secrets
          (demoResident.parsedList Sample.env demoResidentRequest.tail).gas.custom
          (requestedAssertion Sample.env demoResident demoResidentRequest.tail).rp d = true ∧
        ctapRkIsValid rk = true ∧ rk.id = d.credential.id) ∧ d.credential.user ≠ rk.user := by
    decide +kernel
  obtain ⟨d, hd, rk, hrk, ⟨htype, hauth, hvalid, hid⟩, hne⟩ := hlost
  exact hne ((hall d hd).resident rk ⟨htype, hauth, hrk, hvalid, hid⟩)

end NitrokeyFido2.Ctap
