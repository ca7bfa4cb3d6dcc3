import NitrokeyFido2.Ctap.Discoverable

/-!
Signing in with a list.

A getAssertion with an allowList sorts the entries that count to the front of its
list and signs for the first one. Each getNextAssertion behind it signs for one more
of them, until none is left.
-/

namespace NitrokeyFido2.Ctap

open Proc Resumption Sorting

/-! ### What an answer names -/

/-- The response names an entry of this type and id, as far as the id is long, and
so many credentials. -/
def Writer.Names (w : Writer) (custom : CustomCred) (entry : UInt8 × CredentialId)
    (total : List EncOp) : Prop :=
  ∃ x : AssertionAnswer, w.ops = x.items ∧ x.total = total ∧
    x.credentialId.take credentialIdSize =
      entry.2.bytes.take (getCredentialIdSize custom entry.1)

/-- The user entity only follows behind the id. -/
theorem take_returnedId (g : GetAssertionState) (d : CredentialDescriptor) :
    (g.returnedId d).take credentialIdSize =
      d.credential.id.bytes.take (getCredentialIdSize g.custom d.type) := by
  unfold GetAssertionState.returnedId Credential.prefixBytes
  rw [List.take_take, Nat.min_comm, ← List.take_take, List.take_left' d.credential.id.length_bytes]

section Requests

variable {env : Env} {a t : Authenticator} {bytes : List UInt8} {h : Answers} {w : Writer}

theorem getNextAssertion_names (hcmd : bytes.getD 0 0 = getNextAssertionCmd)
    (hrun : a.dispatch env bytes h = (.ok (some w), t)) :
    w.Names a.gas.custom (a.gas.entry a.gas.index) [] := by
  obtain ⟨-, x, s, ret, b, hnext, hw, -⟩ := dispatch_getNextAssertion_ok hcmd hrun
  obtain ⟨count, hs⟩ := NextAssertion.gas env hnext
  have hentry : (s.gas.creds.getD a.gas.index default).identity = a.gas.entry a.gas.index := by
    rw [hs]
    exact entry_next a.gas count a.gas.index
  refine ⟨x, hw, hnext.total, ?_⟩
  rw [hnext.credentialId, take_returnedId, ← hentry]
  rfl

/-- The entries in front of the sorted list, as many as count. -/
def Authenticator.sortedList (env : Env) (a : Authenticator) (bytes : List UInt8) :
    List CredentialDescriptor :=
  let v := a.parsedList env bytes.tail
  let ga := requestedAssertion env a bytes.tail
  (env.qsort credCmpFunc (filtered env v ga)).take (selected env v ga).length

/-- The list in which the first answer is made: the entries, whatever becomes of the
name of the first one. -/
structure HasEntries (g : GetAssertionState) (ds : List CredentialDescriptor) : Prop where
  length : ds.length ≤ g.creds.length
  entry : ∀ i d, ds[i]? = some d → g.entry i = d.identity

/-- The entries behind the first one are left for the getNextAssertion requests. -/
structure LeavesEntries (g : GetAssertionState) (ds : List CredentialDescriptor) : Prop where
  index : g.index = 0
  count : g.count = ds.length - 1
  entry : ∀ i d, ds[i + 1]? = some d → g.entry i = d.identity

theorem HasEntries.congr {g g' : GetAssertionState} {ds : List CredentialDescriptor}
    (h : HasEntries g ds) (hlength : g'.creds.length = g.creds.length)
    (hentry : ∀ i, g'.entry i = g.entry i) : HasEntries g' ds :=
  ⟨hlength ▸ h.length, fun i d hd => (hentry i).trans (h.entry i d hd)⟩

theorem HasEntries.saved {g : GetAssertionState} {ds : List CredentialDescriptor}
    (h : HasEntries g ds) (hash : Buf clientDataHashSize) (ext : Extensions) :
    LeavesEntries (g.saved hash (ds.length - 1) ext) ds := by
  unfold GetAssertionState.saved
  split
  case isTrue hone =>
    refine ⟨rfl, hone.symm, fun i d hd => ?_⟩
    obtain ⟨hlt, -⟩ := List.getElem?_eq_some_iff.mp hd
    omega
  case isFalse hmany =>
    refine ⟨rfl, rfl, fun i d hd => ?_⟩
    obtain ⟨hlt, -⟩ := List.getElem?_eq_some_iff.mp hd
    have hlength := h.length
    have hsaved : ((g.creds.drop 1).take (ds.length - 1) ++ g.creds.drop (ds.length - 1)).getD i
      default = _ := getD_saved (by omega) (by omega)
    exact (congrArg CredentialDescriptor.identity hsaved).trans (h.entry (i + 1) d hd)

theorem entry_firstCleared (g : GetAssertionState) (n i : ℕ) :
    (g.firstCleared n).entry i = g.entry i := by
  unfold GetAssertionState.firstCleared
  split
  · exact entry_set_clearName g.creds 0 i
  · rfl

theorem length_firstCleared (g : GetAssertionState) (n : ℕ) :
    (g.firstCleared n).creds.length = g.creds.length := by
  unfold GetAssertionState.firstCleared
  split
  · exact List.length_set
  · rfl

theorem length_sortedList (hsort : IsSort env.qsort) :
    (a.sortedList env bytes).length = (selected env (a.parsedList env bytes.tail)
      (requestedAssertion env a bytes.tail)).length := by
  have hperm := (hsort credCmpFunc (filtered env (a.parsedList env bytes.tail)
    (requestedAssertion env a bytes.tail))).perm.trans filtered_perm
  have hlength := hperm.length_eq
  rw [List.length_append] at hlength
  rw [Authenticator.sortedList, List.length_take]
  omega

/-- The list that is filtered begins with the entries that are returned. -/
theorem SelectedCredentials.sortedList {n : ℕ} {ga : GetAssertion} {v s : Authenticator}
    (hsort : IsSort env.qsort) (hs : SelectedCredentials env a bytes.tail n ga v s)
    (hlist : (requestedAssertion env a bytes.tail).credLen ≠ 0) :
    n = (a.sortedList env bytes).length ∧ HasEntries s.gas (a.sortedList env bytes) := by
  have hlength : (a.sortedList env bytes).length = _ := length_sortedList hsort
  have hfilter : ctapFilterInvalidCredentials env v (requestedAssertion env a bytes.tail) =
      ctapFilterInvalidCredentials env (a.parsedList env bytes.tail)
        (requestedAssertion env a bytes.tail) :=
    filter_congr (u := a.parsedList env bytes.tail) hs.parsed.gas hs.parsed.secrets hs.parsed.rks
      hs.parsed.state _
  have hgas := hs.gas
  have hcount := hs.count
  rw [hfilter, ctapFilterInvalidCredentials_eq hlist] at hgas hcount
  rw [← hlength] at hcount
  have hcreds : s.gas.creds = env.qsort credCmpFunc (filtered env (a.parsedList env bytes.tail)
      (requestedAssertion env a bytes.tail)) ++
        (a.parsedList env bytes.tail).gas.creds.drop
          (requestedAssertion env a bytes.tail).credLen := by rw [hgas]
  have hfront := List.take_append_drop (selected env (a.parsedList env bytes.tail)
    (requestedAssertion env a bytes.tail)).length (env.qsort credCmpFunc (filtered env
      (a.parsedList env bytes.tail) (requestedAssertion env a bytes.tail)))
  change a.sortedList env bytes ++ _ = _ at hfront
  rw [← hfront, List.append_assoc] at hcreds
  refine ⟨hcount, ?_, fun i d hd => ?_⟩
  · rw [hcreds, List.length_append]
    omega
  · obtain ⟨hlt, -⟩ := List.getElem?_eq_some_iff.mp hd
    unfold GetAssertionState.entry
    rw [hcreds, List.getD_append _ _ _ _ hlt, List.getD_eq_getElem?_getD, hd]
    rfl

theorem getAssertion_names (hsort : IsSort env.qsort) (hcmd : bytes.getD 0 0 = ctapGetAssertionCmd)
    (hlist : (requestedAssertion env a bytes.tail).credLen ≠ 0)
    (hrun : a.dispatch env bytes h = (.ok (some w), t)) :
    LeavesEntries t.gas (a.sortedList env bytes) ∧
      t.gas.custom = (a.parsedList env bytes.tail).gas.custom ∧
      ∃ d, (a.sortedList env bytes)[0]? = some d ∧
        w.Names (a.parsedList env bytes.tail).gas.custom d.identity
          (if 1 < (a.sortedList env bytes).length then
            [.int 5, .int (a.sortedList env bytes).length] else []) := by
  obtain ⟨x, n, ga₀, v, s, b, d, size, hx, hw, e, he, rfl⟩ := dispatch_getAssertion_ok hcmd hrun
  obtain ⟨hvgas, hvsecrets, hvrks, hvstate⟩ := hx.selected.parsed
  have hs : SelectedCredentials env a bytes.tail n ga₀ v s :=
    { hx.selected with parsed := ⟨hvgas, hvsecrets, hvrks, hvstate⟩ }
  obtain ⟨hcount, hentries⟩ := hs.sortedList hsort hlist
  obtain ⟨first, hfirst⟩ : ∃ d, (a.sortedList env bytes)[0]? = some d := by
    rcases hds : a.sortedList env bytes with _ | ⟨d, rest⟩
    · rw [hds] at hcount
      exact absurd hcount hx.selected.found
    · exact ⟨d, rfl⟩
  have hd : HasEntries d.gas (a.sortedList env bytes) := by
    have hb : HasEntries b.gas (a.sortedList env bytes) := by
      rw [hx.cleared]
      exact hentries.congr (length_firstCleared ..) (entry_firstCleared s.gas n)
    have hkept : d.gas.creds = b.gas.creds := hx.data.kept.1
    exact hb.congr (by rw [hkept]) fun i => by rw [GetAssertionState.entry, hkept]; rfl
  have hcustom : d.gas.custom = (a.parsedList env bytes.tail).gas.custom := by
    rw [hx.data.kept.2.2, hx.cleared]
    have hgas : s.gas.custom = v.gas.custom := by rw [hx.selected.gas]
    have hclear : (s.gas.firstCleared n).custom = s.gas.custom := by
      unfold GetAssertionState.firstCleared
      split <;> rfl
    exact hclear.trans (hgas.trans (congrArg GetAssertionState.custom hx.selected.parsed.gas))
  obtain ⟨hd', buf, hegas, -⟩ := Changed.gas he
  refine ⟨?_, ?_, first, hfirst, x, hw, ?_, ?_⟩
  · rw [hcount]
    exact (hd.congr (by rw [hegas]) fun i => by rw [hegas]; rfl).saved _ _
  · dsimp only
    have hsaved : (e.gas.saved ga₀.clientDataHash (n - 1) ga₀.withFirstCred.extensions).custom =
        e.gas.custom := by
      unfold GetAssertionState.saved
      split <;> rfl
    rw [hsaved, hegas]
    exact hcustom
  · rw [hx.total, hcount]
  · rw [hx.credentialId, take_returnedId, hcustom, ← hd.entry 0 first hfirst]
    rfl

end Requests

/-! ### All entries -/

variable {env : Env}

/-- The custom id that the request leaves. -/
def AnsweredChain.custom (c : AnsweredChain env) : CustomCred :=
  (c.start.parsedList env c.bytes.tail).gas.custom

/-- What the requests of a chain name: these entries, one after the other. -/
structure SignsInFrom (c : AnsweredChain env) (ds : List CredentialDescriptor) : Prop where
  /-- The first answer tells how many there are, if there is more than one. -/
  first : ∃ d, ds[0]? = some d ∧ c.answer.Names c.custom d.identity
    (if 1 < ds.length then [.int 5, .int ds.length] else [])
  others : ∀ i w, c.rest[i]? = some w → ∃ d, ds[i + 1]? = some d ∧ w.Names c.custom d.identity []
  /-- The next request is refused as not allowed when all of them were named. -/
  ends : ∀ bytes h, bytes.getD 0 0 = getNextAssertionCmd →
    ((c.last.dispatch env bytes h).1 = .error (.status ctap2ErrNotAllowed) ↔
      c.rest.length + 1 = ds.length)

theorem AnsweredChain.signsInFrom (hsort : IsSort env.qsort) (c : AnsweredChain env)
    (hcmd : c.bytes.getD 0 0 = ctapGetAssertionCmd)
    (hlist : (requestedAssertion env c.start c.bytes.tail).credLen ≠ 0) :
    SignsInFrom c (c.start.sortedList env c.bytes) := by
  obtain ⟨hleaves, hcustom, first, hfirst, hnames⟩ := getAssertion_names hsort hcmd hlist c.answered
  have hrest := c.continued.inTurn rfl
  have hindex : (c.after.setLastcmd ctapGetAssertionCmd).gas.index = 0 := hleaves.index
  have hcount : (c.after.setLastcmd ctapGetAssertionCmd).gas.count =
    (c.start.sortedList env c.bytes).length - 1 := hleaves.count
  have hlen := (List.getElem?_eq_some_iff.mp hfirst).1
  refine ⟨⟨first, hfirst, hnames⟩, fun i w hw => ?_,
    fun bytes h hnext => hrest.ends hindex hcount hlen hnext⟩
  obtain ⟨d, hd⟩ : ∃ d, (c.start.sortedList env c.bytes)[i + 1]? = some d :=
    ⟨_, List.getElem?_eq_getElem (hrest.lt hindex hcount (List.getElem?_eq_some_iff.mp hw).1)⟩
  obtain ⟨b, t, bytes, h, hb, hnext, hrun⟩ := hrest.answers i w hw
  have hanswer := getNextAssertion_names hnext hrun
  have hbcustom : b.gas.custom = c.custom := hb.custom.trans hcustom
  rw [hb.index, hindex, Nat.zero_add, hb.entry, hbcustom] at hanswer
  have hentry : (c.after.setLastcmd ctapGetAssertionCmd).gas.entry i = d.identity :=
    hleaves.entry i d hd
  exact ⟨d, hd, hentry ▸ hanswer⟩

section Sorted

variable {a : Authenticator} {bytes : List UInt8}

/-- The refused entries have no count. -/
theorem consistent_selected {v : Authenticator} {ga : GetAssertion}
    (hsmall : ∀ x ∈ selected env v ga, x.count < 2 ^ 31) :
    Consistent credCmpFunc (selected env v ga ++ refused env v ga) := by
  refine consistent_of_lt fun z hz => ?_
  rcases List.mem_append.mp hz with hz | hz
  · exact hsmall z hz
  · rw [count_refused hz]
    decide

/-- Those in front of the sorted list are those that count, if their counts tell them
from the others. -/
theorem sortedList_perm (hsort : IsSort env.qsort)
    (happart : ∀ x ∈ selected env (a.parsedList env bytes.tail) (requestedAssertion env a bytes.tail),
      ∀ y ∈ refused env (a.parsedList env bytes.tail) (requestedAssertion env a bytes.tail),
        x ≠ y → 0 < x.count ∧ x.count < 2 ^ 31) :
    (a.sortedList env bytes).Perm
      (selected env (a.parsedList env bytes.tail) (requestedAssertion env a bytes.tail)) := by
  refine take_perm_iff.mpr (fun x hx y hy hle => ?_) _
    ((result_congr filtered_perm).mp (hsort credCmpFunc _))
  by_contra hne
  have hzero : y.count = 0 := count_refused hy
  have hcons := consistent_selected fun z hz => by
    rcases eq_or_ne z y with rfl | hzy
    · rw [hzero]
      decide
    · exact (happart z hz y hy hzy).2
  have hcount := happart x hx y hy hne
  have hbehind := (credCmpFunc_nonpos_iff y x).mp (hle hcons)
  rw [hzero] at hbehind
  omega

theorem sortedList_latestFirst (hsort : IsSort env.qsort)
    (hperm : (a.sortedList env bytes).Perm
      (selected env (a.parsedList env bytes.tail) (requestedAssertion env a bytes.tail)))
    (hsmall : ∀ d ∈ a.sortedList env bytes, d.count < 2 ^ 31) :
    (a.sortedList env bytes).Pairwise fun x y => y.count ≤ x.count := by
  have hcons := consistent_selected fun x hx => hsmall x (hperm.mem_iff.mpr hx)
  have hresult := (result_congr filtered_perm).mp (hsort credCmpFunc (filtered env
    (a.parsedList env bytes.tail) (requestedAssertion env a bytes.tail)))
  have horder := (hresult.inOrder hcons).sublist (List.take_sublist
    (selected env (a.parsedList env bytes.tail) (requestedAssertion env a bytes.tail)).length _)
  refine List.Pairwise.imp_of_mem (fun {x y} hx hy hle => ?_) horder
  have hxlt := hsmall x hx
  have hylt := hsmall y hy
  rw [credCmpFunc_nonpos_iff] at hle
  omega

end Sorted

/-- A getAssertion with an allowList and the getNextAssertion requests behind it sign
for each entry of the list that counts, the latest first, and are then refused, if
the counts tell the entries that count from the others. -/
theorem sign_in_with_list (hsort : IsSort env.qsort) (c : AnsweredChain env)
    (hcmd : c.bytes.getD 0 0 = ctapGetAssertionCmd)
    (hlist : (requestedAssertion env c.start c.bytes.tail).credLen ≠ 0)
    (happart : ∀ x ∈ selected env (c.start.parsedList env c.bytes.tail)
        (requestedAssertion env c.start c.bytes.tail),
      ∀ y ∈ refused env (c.start.parsedList env c.bytes.tail)
        (requestedAssertion env c.start c.bytes.tail), x ≠ y → 0 < x.count ∧ x.count < 2 ^ 31) :
    ∃ ds, SignsInFrom c ds ∧
      ds.Perm (selected env (c.start.parsedList env c.bytes.tail)
        (requestedAssertion env c.start c.bytes.tail)) ∧
      ((∀ d ∈ ds, d.count < 2 ^ 31) → ds.Pairwise fun x y => y.count ≤ x.count) := by
  have hperm := sortedList_perm hsort happart
  exact ⟨_, c.signsInFrom hsort hcmd hlist, hperm, sortedList_latestFirst hsort hperm⟩

/-- Two entries of the device with two accounts, behind an unknown one. -/
def demoWithList : List UInt8 :=
  demoAssertion (List.replicate 70 1 :: (demoAccounts.rks.filter ctapRkIsValid).map fun rk => rk.id.bytes)

theorem sign_in_with_list_demo : ∃ (c : AnsweredChain Sample.env) (ds : List CredentialDescriptor),
    SignsInFrom c ds ∧ ds.length = 2 ∧ c.rest.length = 1 := by
  have hchain : (chainOf Sample.env demoAccounts demoWithList Sample.touch 1).any
      (fun c => c.rest.length = 1) = true := by decide +kernel
  obtain ⟨c, hstart, hbytes, hrest⟩ := exists_chain hchain
  have hlist : (requestedAssertion Sample.env demoAccounts demoWithList.tail).credLen ≠ 0 := by
    decide +kernel
  have hselected : ∀ x ∈ selected Sample.env (demoAccounts.parsedList Sample.env demoWithList.tail)
      (requestedAssertion Sample.env demoAccounts demoWithList.tail), 0 < x.count ∧ x.count < 2 ^ 31 := by
    decide +kernel
  have hlength : (selected Sample.env (demoAccounts.parsedList Sample.env demoWithList.tail)
      (requestedAssertion Sample.env demoAccounts demoWithList.tail)).length = 2 := by
    decide +kernel
  rw [← hstart, ← hbytes] at hlist hselected hlength
  obtain ⟨ds, hds, hperm, -⟩ := sign_in_with_list Sample.isSort c (by rw [hbytes]; rfl) hlist
    fun x hx _ _ _ => hselected x hx
  exact ⟨c, ds, hds, hperm.length_eq.trans hlength, of_decide_eq_true hrest⟩

end NitrokeyFido2.Ctap
