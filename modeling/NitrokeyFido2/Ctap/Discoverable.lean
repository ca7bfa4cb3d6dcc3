import NitrokeyFido2.Ctap.Lockout
import NitrokeyFido2.Ctap.Selection

/-!
Signing in without a list.

A getAssertion without an allowList takes the resident keys of the relying party
that it may see, the first 20 of them, sorts them, and signs for the first one.
Each getNextAssertion behind it signs for one more, until none is left.
-/

namespace NitrokeyFido2.Ctap

open Proc Resumption Sorting

variable (env : Env)

/-- The request has a pinAuth. -/
def verifiesUser (a : Authenticator) (bytes : List UInt8) : Bool :=
  (requestedAssertion env a bytes.tail).pinAuthPresent ≠ 0

/-- The resident keys of the relying party that a request without a list may see. -/
def Authenticator.visibleKeys (a : Authenticator) (bytes : List UInt8) : List ResidentKey :=
  a.rks.filter fun rk => ctapRkIsValid rk &&
    checkCredentialMetadata env a.secrets rk.id (verifiesUser env a bytes) false &&
      CredentialId.rpIdHash rk.id =
        (env.sha256 (requestedAssertion env a bytes.tail).rp.bytes).bytes

/-- Those that it may sign with; there is no room for more. -/
def Authenticator.accounts (a : Authenticator) (bytes : List UInt8) : List ResidentKey :=
  (a.visibleKeys env bytes).take allowListMaxSize

/-- The entry of the list that a resident key becomes. -/
def ResidentKey.descriptor (rk : ResidentKey) : CredentialDescriptor :=
  ⟨pubKeyCredPubKey, rk.credential⟩

/-! ### What the filter reads -/

section Filter

variable {env} {v u : Authenticator}

theorem loadNthValidRk_congr (h : v.rks = u.rks) : loadNthValidRk v = loadNthValidRk u := by
  have hload : ctapLoadRk v = ctapLoadRk u := by
    funext i rk
    unfold ctapLoadRk
    rw [h]
  have hfrom (fuel i n : ℕ) (rk : ResidentKey) :
      loadNthValidRkFrom v fuel i n rk = loadNthValidRkFrom u fuel i n rk := by
    induction fuel generalizing i n rk with
    | zero => rfl
    | succ fuel ih => simp only [loadNthValidRkFrom, hload, ih]
  funext n rk
  exact hfrom ctapRkSize 0 n rk

/-- The filter looks at the assertion state, the secrets and the resident keys. -/
theorem filter_congr (hgas : v.gas = u.gas) (hsecrets : v.secrets = u.secrets)
    (hrks : v.rks = u.rks) (hstate : v.state = u.state) (ga : GetAssertion) :
    ctapFilterInvalidCredentials env v ga = ctapFilterInvalidCredentials env u ga := by
  have huser : addExistingUserInfo v = addExistingUserInfo u := by
    funext cred
    unfold addExistingUserInfo
    rw [addExistingUserInfoFrom_eq, addExistingUserInfoFrom_eq, loadNthValidRk_congr hrks, hstate]
  have hentry : filterEntry env v ga.rp = filterEntry env u ga.rp := by
    funext cred
    unfold filterEntry
    rw [hgas, hsecrets, huser]
  have hlisted : listedRks env v ga.rp = listedRks env u ga.rp := by
    unfold listedRks rkIsListed
    rw [hgas, hsecrets, hrks]
  unfold ctapFilterInvalidCredentials
  rw [hentry, hlisted, hgas]

end Filter

/-! ### What is told about an entry -/

/-- The user id lies in its field. -/
def UserEntity.IdFits (u : UserEntity) : Prop := u.idSize.toNat ≤ userIdMaxSize

theorem UserEntity.IdFits.idBytes {u : UserEntity} (h : u.IdFits) :
    u.idBytes = u.id.bytes.take u.idSize.toNat := by
  have hle : u.idSize.toNat ≤ u.id.bytes.length := h.trans_eq u.id.length_bytes.symm
  unfold UserEntity.idBytes UserEntity.toBytes
  simp only [List.append_assoc]
  exact List.take_append_of_le_length hle

theorem returnedUser_clearName {d : CredentialDescriptor} (hfits : d.credential.user.IdFits)
    (isVerified : Bool) :
    returnedUser d.clearName.credential.user isVerified = returnedUser d.credential.user false := by
  have hname : (Buf.zero userNameLimit).byte 0 = 0 := by decide +kernel
  have hid : d.clearName.credential.user.idBytes = d.credential.user.idBytes :=
    (UserEntity.IdFits.idBytes (u := d.clearName.credential.user) hfits).trans hfits.idBytes.symm
  unfold returnedUser userItems
  rw [hid]
  simp [CredentialDescriptor.clearName, hname]

/-- The entry of the list is that of the account; without a verification its name may
have been cleared. -/
def GetAssertionState.HoldsAt (g : GetAssertionState) (i : ℕ) (rk : ResidentKey) : Prop :=
  g.creds.getD i default = rk.descriptor ∨
    g.userVerified = 0 ∧ g.creds.getD i default = rk.descriptor.clearName

theorem getD_set_clearName (creds : List CredentialDescriptor) (i j : ℕ) :
    (creds.set i (creds.getD i default).clearName).getD j default = creds.getD j default ∨
      (creds.set i (creds.getD i default).clearName).getD j default =
        (creds.getD j default).clearName := by
  simp only [List.getD_eq_getElem?_getD, List.getElem?_set]
  split
  · subst i
    split
    · exact .inr rfl
    · rw [List.getElem?_eq_none (not_lt.mp ‹_›)]
      exact .inl rfl
  · exact .inl rfl

theorem HoldsAt.next {g : GetAssertionState} {i : ℕ} {rk : ResidentKey} (h : g.HoldsAt i rk)
    (count : UInt32) : (g.next count).HoldsAt i rk := by
  unfold GetAssertionState.HoldsAt GetAssertionState.next at *
  dsimp only
  by_cases huv : g.userVerified = 0
  · rw [if_pos huv]
    rcases getD_set_clearName g.creds g.index i with hsame | hcleared
    · rw [hsame]
      exact h
    · -- a name that is cleared twice
      refine .inr ⟨huv, hcleared.trans ?_⟩
      rcases h with h | ⟨-, h⟩ <;> rw [h]
      rfl
  · rw [if_neg huv]
    exact h

theorem returnedId_pubKey (g : GetAssertionState) {d : CredentialDescriptor}
    (htype : d.type = pubKeyCredPubKey) : g.returnedId d = d.credential.id.bytes := by
  have hsize : getCredentialIdSize g.custom d.type = credentialIdSize := by
    rw [htype]
    rfl
  unfold GetAssertionState.returnedId Credential.prefixBytes
  rw [hsize]
  exact List.take_left' d.credential.id.length_bytes

/-- The response tells this account, its user with the names if they are shown, and so
many credentials. -/
def Writer.Tells (w : Writer) (rk : ResidentKey) (isShown : Bool) (total : List EncOp) : Prop :=
  ∃ x : AssertionAnswer, w.ops = x.items ∧ x.credentialId = rk.id.bytes ∧
    (rk.user.IdFits → x.user = returnedUser rk.user isShown) ∧ x.total = total

theorem HoldsAt.tells {g : GetAssertionState} {i : ℕ} {rk : ResidentKey} (h : g.HoldsAt i rk) :
    g.returnedId (g.creds.getD i default) = rk.id.bytes ∧
      (rk.user.IdFits → returnedUser (g.creds.getD i default).credential.user (g.userVerified ≠ 0) =
        returnedUser rk.user (g.userVerified ≠ 0)) := by
  rcases h with h | ⟨huv, h⟩ <;> rw [h]
  · exact ⟨returnedId_pubKey g rfl, fun _ => rfl⟩
  · refine ⟨returnedId_pubKey g rfl, fun hfits => ?_⟩
    rw [huv]
    exact returnedUser_clearName (d := rk.descriptor) hfits _

/-! ### One getNextAssertion -/

section Next

variable {env} {a t : Authenticator} {bytes : List UInt8} {h : Answers} {w : Writer}

theorem getNextAssertion_tells (hcmd : bytes.getD 0 0 = getNextAssertionCmd)
    (hrun : a.dispatch env bytes h = (.ok (some w), t)) :
    a.gas.index < a.gas.count ∧ Continues a.gas t.gas ∧
      (∀ i rk, a.gas.HoldsAt i rk → t.gas.HoldsAt i rk) ∧
      ∀ rk, a.gas.HoldsAt a.gas.index rk → w.Tells rk (a.gas.userVerified ≠ 0) [] := by
  obtain ⟨-, x, s, ret, b, hnext, hw, e, he, ht⟩ := dispatch_getNextAssertion_ok hcmd hrun
  obtain ⟨count, hs⟩ := NextAssertion.gas env hnext
  obtain ⟨hd, buf, hgas, -⟩ := Changed.gas ht
  refine ⟨hnext.left, continues_of_extended hs he ht, fun i rk hi => ?_, fun rk hrk => ?_⟩
  · have hholds := HoldsAt.next hi count
    rw [← hs] at hholds
    rw [hgas, he]
    exact hholds
  · have hholds := HoldsAt.next hrk count
    rw [← hs] at hholds
    have huv : s.gas.userVerified = a.gas.userVerified := by
      rw [hs]
      rfl
    have hcustom : s.gas.custom = a.gas.custom := by
      rw [hs]
      rfl
    obtain ⟨hid, huser⟩ := HoldsAt.tells hholds
    unfold GetAssertionState.returnedId at hid
    rw [hcustom] at hid
    rw [huv] at huser
    exact ⟨x, hw, hnext.credentialId.trans hid, fun hfits => hnext.user.trans (huser hfits),
      hnext.total⟩

instance : Foreign ctap2ErrNotAllowed := ⟨by decide +kernel⟩

theorem popCredential_some {a : Authenticator} (hleft : a.gas.index < a.gas.count) :
    popCredential a = (.ok (some a.gas.index),
      { a with gas := { a.gas with index := a.gas.index + 1 } }) := by
  unfold popCredential
  rw [get_bind, if_pos ⟨Nat.zero_lt_of_lt hleft, hleft⟩]
  rfl

theorem beginNextAssertion_notAllowed_iff :
    (beginNextAssertion env w a).1 = .error (.status ctap2ErrNotAllowed) ↔
      a.gas.count ≤ a.gas.index := by
  unfold beginNextAssertion
  by_cases hleft : a.gas.index < a.gas.count
  · refine iff_of_false ?_ (not_le.mpr hleft)
    rw [bind_of_ok (popCredential_some hleft)]
    exact Never.ne _
  · refine iff_of_true ?_ (not_lt.mp hleft)
    rw [bind_of_ok (popCredential_none fun hpending => hleft hpending.2)]
    rfl

instance {code : UInt8} [Distant code] (ext : Extensions) :
    StepNeverSays code (extendNextAssertion env ext) := by
  unfold extendNextAssertion
  infer_instance

instance {code : UInt8} [Distant code] (cred : CredentialDescriptor) (size : ℕ)
    (hash : Buf clientDataHashSize) : StepNeverSays code
      (CtapM.answered h (ctapEndGetAssertion env w cred size hash)) :=
  (inferInstance : RoutineNeverSays code (ctapEndGetAssertion env w cred size hash)).answered h.answer

/-- A getNextAssertion is refused as not allowed when no entry is left. -/
theorem getNextAssertion_notAllowed_iff (hlast : a.gas.lastcmd = ctapGetAssertionCmd)
    (hcmd : bytes.getD 0 0 = getNextAssertionCmd) :
    (a.dispatch env bytes h).1 = .error (.status ctap2ErrNotAllowed) ↔
      a.gas.count ≤ a.gas.index := by
  have hbegin := @beginNextAssertion_notAllowed_iff env { a with trace := [] } freshWriter
  rw [dispatch_getNextAssertion env hcmd, failIf_neg (not_not.mpr hlast), pure_bind,
    answered_ctapGetNextAssertion]
  simp only [bind_assoc]
  rcases hrun : beginNextAssertion env freshWriter { a with trace := [] } with ⟨e | x, s⟩ <;>
    rw [hrun] at hbegin
  · rw [bind_of_error hrun, ← hbegin]
    simp only [Except.error.injEq]
  · rw [bind_of_ok hrun]
    refine iff_of_false (Never.ne _) fun hnone => ?_
    cases hbegin.mpr hnone

end Next

/-! ### The requests behind a getAssertion -/

variable {env}

/-- The list goes on, so many entries further. -/
structure FurtherBy (n : ℕ) (g g' : GetAssertionState) : Prop where
  index : g'.index = g.index + n
  count : g'.count = g.count
  custom : g'.custom = g.custom
  userVerified : g'.userVerified = g.userVerified
  entry : ∀ i, g'.entry i = g.entry i
  holds : ∀ i rk, g.HoldsAt i rk → g'.HoldsAt i rk

/-- Every answer is made for the entry that its place in the chain says. -/
structure InTurn (env : Env) (a : Authenticator) (ws : List Writer) (u : Authenticator) : Prop where
  lastcmd : u.gas.lastcmd = ctapGetAssertionCmd
  further : FurtherBy ws.length a.gas u.gas
  answers : ∀ i w, ws[i]? = some w → ∃ (b t : Authenticator) (bytes : List UInt8) (h : Answers),
    FurtherBy i a.gas b.gas ∧ bytes.getD 0 0 = getNextAssertionCmd ∧
      b.dispatch env bytes h = (.ok (some w), t)

theorem Chain.inTurn {a u : Authenticator} {ws : List Writer} (hchain : Chain env a ws u)
    (hlast : a.gas.lastcmd = ctapGetAssertionCmd) : InTurn env a ws u := by
  induction hchain with
  | nil a => exact ⟨hlast, ⟨rfl, rfl, rfl, rfl, fun _ => rfl, fun _ _ => id⟩, by simp⟩
  | @cons a t u bytes h w ws hcmd hrun hrest ih =>
      obtain ⟨-, hcont, hkept, -⟩ := getNextAssertion_tells hcmd hrun
      have hplus (i j : ℕ) (hj : j = (t.setLastcmd ctapGetAssertionCmd).gas.index + i) :
          j = a.gas.index + (i + 1) := by
        rw [hj, Nat.add_comm i 1, ← Nat.add_assoc]
        exact congrArg (· + i) hcont.index
      -- one entry further, and then as far as the rest of the chain
      have hfurther {n : ℕ} {g : GetAssertionState}
          (hg : FurtherBy n (t.setLastcmd ctapGetAssertionCmd).gas g) :
          FurtherBy (n + 1) a.gas g :=
        { index := hplus n _ hg.index
          count := hg.count.trans hcont.count
          custom := hg.custom.trans hcont.custom
          userVerified := hg.userVerified.trans hcont.userVerified
          entry := fun i => (hg.entry i).trans (hcont.entry i)
          holds := fun i rk hi => hg.holds i rk (hkept i rk hi) }
      have hrest := ih rfl
      refine ⟨hrest.lastcmd, hfurther hrest.further, ?_⟩
      rintro (_ | i) w' hw'
      · obtain rfl := Option.some.inj hw'
        exact ⟨a, t, bytes, h, ⟨rfl, rfl, rfl, rfl, fun _ => rfl, fun _ _ => id⟩, hcmd, hrun⟩
      · obtain ⟨b, s, bytes', h', hb, hnext⟩ := hrest.answers i w' hw'
        exact ⟨b, s, bytes', h', hfurther hb, hnext⟩

section InTurn

variable {a u : Authenticator} {ws : List Writer} (hturn : InTurn env a ws u)

include hturn

theorem InTurn.left {i : ℕ} (hi : i < ws.length) : a.gas.index + i < a.gas.count := by
  obtain ⟨b, t, bytes, h, hb, hcmd, hrun⟩ := hturn.answers i _ (List.getElem?_eq_getElem hi)
  have hleft := (getNextAssertion_tells hcmd hrun).1
  rwa [hb.index, hb.count] at hleft

theorem InTurn.tells {i : ℕ} {w : Writer} {rk : ResidentKey} (hw : ws[i]? = some w)
    (hholds : a.gas.HoldsAt (a.gas.index + i) rk) : w.Tells rk (a.gas.userVerified ≠ 0) [] := by
  obtain ⟨b, t, bytes, h, hb, hcmd, hrun⟩ := hturn.answers i w hw
  have htells := (getNextAssertion_tells hcmd hrun).2.2.2 rk
  rw [hb.index, hb.userVerified] at htells
  exact htells (hb.holds _ _ hholds)

variable {n : ℕ} (hindex : a.gas.index = 0) (hcount : a.gas.count = n - 1)

include hindex hcount

/-- One of the `n` entries was returned before the chain. -/
theorem InTurn.lt {i : ℕ} (hi : i < ws.length) : i + 1 < n := by
  have hleft := hturn.left hi
  omega

/-- The next request is refused as not allowed when all of them were taken. -/
theorem InTurn.ends (hn : 0 < n) {bytes : List UInt8} {h : Answers}
    (hcmd : bytes.getD 0 0 = getNextAssertionCmd) :
    (u.dispatch env bytes h).1 = .error (.status ctap2ErrNotAllowed) ↔ ws.length + 1 = n := by
  rw [getNextAssertion_notAllowed_iff hturn.lastcmd hcmd, hturn.further.count, hturn.further.index,
    hindex, hcount]
  rcases Nat.eq_zero_or_pos ws.length with hnone | hsome
  · rw [hnone]
    omega
  · have hlast := hturn.lt hindex hcount (Nat.sub_one_lt_of_lt hsome)
    omega

end InTurn

/-! ### The list that is saved -/

/-- The list in which the first answer is made: the accounts, and the name of the
first one is cleared where it is not shown. -/
structure HasAccounts (g : GetAssertionState) (keys : List ResidentKey) (isVerified : Bool) :
    Prop where
  verified : decide (g.userVerified ≠ 0) = isVerified
  length : keys.length ≤ g.creds.length
  first : ∀ rk, keys[0]? = some rk → g.creds.getD 0 default =
    if isVerified && decide (2 ≤ keys.length) then rk.descriptor else rk.descriptor.clearName
  others : ∀ i rk, keys[i + 1]? = some rk → g.creds.getD (i + 1) default = rk.descriptor

/-- The accounts behind the first one are left for the getNextAssertion requests. -/
structure LeavesAccounts (g : GetAssertionState) (keys : List ResidentKey) (isVerified : Bool) :
    Prop where
  verified : decide (g.userVerified ≠ 0) = isVerified
  index : g.index = 0
  count : g.count = keys.length - 1
  holds : ∀ i rk, keys[i + 1]? = some rk → g.HoldsAt i rk

/-- The entries are shifted by one when they are saved. -/
theorem getD_saved {creds : List CredentialDescriptor} {n i : ℕ} (hi : i < n)
    (hn : n < creds.length) :
    ((creds.drop 1).take n ++ creds.drop n).getD i default = creds.getD (i + 1) default := by
  have hlen : i < ((creds.drop 1).take n).length := by
    rw [List.length_take, List.length_drop]
    omega
  rw [List.getD_append _ _ _ _ hlen, List.getD_eq_getElem?_getD, List.getElem?_take_of_lt hi,
    List.getElem?_drop, Nat.add_comm 1 i, List.getD_eq_getElem?_getD]

theorem HasAccounts.saved {g : GetAssertionState} {keys : List ResidentKey} {isVerified : Bool}
    (h : HasAccounts g keys isVerified) (hash : Buf clientDataHashSize) (ext : Extensions) :
    LeavesAccounts (g.saved hash (keys.length - 1) ext) keys isVerified := by
  unfold GetAssertionState.saved
  split
  case isTrue hone =>
    refine ⟨h.verified, rfl, hone.symm, fun i rk hrk => ?_⟩
    obtain ⟨hlt, -⟩ := List.getElem?_eq_some_iff.mp hrk
    omega
  case isFalse hmany =>
    refine ⟨h.verified, rfl, rfl, fun i rk hrk => .inl ?_⟩
    obtain ⟨hlt, -⟩ := List.getElem?_eq_some_iff.mp hrk
    have hlength := h.length
    exact (getD_saved (by omega) (by omega)).trans (h.others i rk hrk)

theorem getD_map_descriptor {keys : List ResidentKey} (rest : List CredentialDescriptor) {i : ℕ}
    {rk : ResidentKey} (hk : keys[i]? = some rk) :
    (keys.map ResidentKey.descriptor ++ rest).getD i default = rk.descriptor := by
  obtain ⟨hlt, -⟩ := List.getElem?_eq_some_iff.mp hk
  have hlen : i < (keys.map ResidentKey.descriptor).length := by rwa [List.length_map]
  rw [List.getD_append _ _ _ _ hlen, List.getD_eq_getElem?_getD, List.getElem?_map, hk]
  rfl

theorem HasAccounts.firstCleared {g : GetAssertionState} {keys : List ResidentKey}
    (rest : List CredentialDescriptor) (hcreds : g.creds = keys.map ResidentKey.descriptor ++ rest) :
    HasAccounts (g.firstCleared keys.length) keys (g.userVerified ≠ 0) := by
  have hlength : keys.length ≤ g.creds.length := by
    rw [hcreds, List.length_append, List.length_map]
    omega
  unfold GetAssertionState.firstCleared
  split
  case isTrue hclear =>
    refine ⟨rfl, by rwa [List.length_set], fun rk hrk => ?_, fun i rk hrk => ?_⟩
    · have hhidden : (decide (g.userVerified ≠ 0) && decide (2 ≤ keys.length)) = false := by
        rcases hclear with hfew | hnot
        · simp [hfew]
        · simp [hnot]
      have hfirst := getD_map_descriptor rest hrk
      rw [← hcreds] at hfirst
      rw [hhidden, hfirst]
      dsimp only
      rw [List.getD_eq_getElem?_getD, List.getElem?_set_self]
      · rfl
      · exact lt_of_lt_of_le (List.getElem?_eq_some_iff.mp hrk).1 hlength
    · have hother := getD_map_descriptor rest hrk
      rw [← hcreds, List.getD_eq_getElem?_getD] at hother
      dsimp only
      rw [List.getD_eq_getElem?_getD, List.getElem?_set_ne (Nat.succ_ne_zero i).symm, hother]
  case isFalse hkeep =>
    rw [not_or, not_lt] at hkeep
    refine ⟨rfl, hlength, fun rk hrk => ?_, fun i rk hrk => ?_⟩
    · have hshown : (decide (g.userVerified ≠ 0) && decide (2 ≤ keys.length)) = true := by
        simp [hkeep.1, hkeep.2]
      rw [hshown, hcreds, getD_map_descriptor rest hrk]
      rfl
    · rw [hcreds, getD_map_descriptor rest hrk]

theorem HasAccounts.tells_first {g : GetAssertionState} {keys : List ResidentKey}
    {isVerified : Bool} {rk : ResidentKey} (h : HasAccounts g keys isVerified)
    (hrk : keys[0]? = some rk) :
    g.returnedId (g.creds.getD 0 default) = rk.id.bytes ∧ (rk.user.IdFits →
      returnedUser (g.creds.getD 0 default).credential.user (g.userVerified ≠ 0) =
        returnedUser rk.user (isVerified && decide (2 ≤ keys.length))) := by
  rw [h.first rk hrk, h.verified]
  split
  case isTrue hshown =>
    refine ⟨returnedId_pubKey g rfl, fun _ => ?_⟩
    rw [hshown, (Bool.and_eq_true_iff.mp hshown).1]
    rfl
  case isFalse hhidden =>
    refine ⟨returnedId_pubKey g rfl, fun hfits => ?_⟩
    rw [Bool.eq_false_of_not_eq_true hhidden]
    exact returnedUser_clearName (d := rk.descriptor) hfits _

section First

variable {a t v : Authenticator} {bytes : List UInt8} {h : Answers} {w : Writer}

theorem verified_of_parsed (hv : Parsed env a bytes.tail v) :
    decide (v.gas.userVerified ≠ 0) = verifiesUser env a bytes := by
  rw [hv.gas, verifiesUser]
  dsimp only
  split
  case isTrue h => simp [h]
  case isFalse h => simp [not_not.mp h]

theorem listedRks_eq (hv : Parsed env a bytes.tail v) :
    listedRks env v (requestedAssertion env a bytes.tail).rp =
      (a.accounts env bytes).map ResidentKey.descriptor := by
  unfold listedRks Authenticator.accounts Authenticator.visibleKeys rkIsListed
  rw [verified_of_parsed hv, hv.rks, hv.secrets]
  rfl

theorem AssertionData.kept {ga : GetAssertion} {cred : Credential} {b d : Authenticator} {size : ℕ}
    (hd : AssertionData env ga cred h b size d) :
    d.gas.creds = b.gas.creds ∧ d.gas.userVerified = b.gas.userVerified ∧
      d.gas.custom = b.gas.custom := by
  cases hd with
  | extension _ hgas =>
      rw [hgas]
      exact ⟨rfl, rfl, rfl⟩
  | ordinary _ _ hheader _ hgas =>
      rw [hgas, hheader]
      exact ⟨rfl, rfl, rfl⟩

/-- Only the list and the verification count. -/
theorem HasAccounts.congr {g g' : GetAssertionState} {keys : List ResidentKey} {isVerified : Bool}
    (h : HasAccounts g keys isVerified) (hcreds : g'.creds = g.creds)
    (hverified : g'.userVerified = g.userVerified) : HasAccounts g' keys isVerified := by
  refine ⟨?_, ?_, fun rk hrk => ?_, fun i rk hrk => ?_⟩
  · rw [hverified, h.verified]
  · rw [hcreds]
    exact h.length
  · rw [hcreds, h.first rk hrk]
  · rw [hcreds, h.others i rk hrk]

/-- A sorted list of entries is the list of the sorted keys. -/
theorem exists_sorted_keys {l : List ResidentKey} {sorted : List CredentialDescriptor}
    (hperm : sorted.Perm (l.map ResidentKey.descriptor)) :
    ∃ keys : List ResidentKey, sorted = keys.map ResidentKey.descriptor ∧ keys.Perm l := by
  have hcomp := congrFun (congrFun (List.eq_map_comp_perm ResidentKey.descriptor) sorted) l
  exact hcomp.mpr hperm

/-- Without a list, the filter leaves the sorted accounts in front. -/
theorem filter_accounts (hv : Parsed env a bytes.tail v)
    (hnolist : (requestedAssertion env a bytes.tail).credLen = 0) {keys : List ResidentKey}
    (hkeys : env.qsort credCmpFunc ((a.accounts env bytes).map ResidentKey.descriptor) =
      keys.map ResidentKey.descriptor) (hperm : keys.Perm (a.accounts env bytes)) :
    ctapFilterInvalidCredentials env v (requestedAssertion env a bytes.tail) =
      (keys.length, keys.length,
        keys.map ResidentKey.descriptor ++ v.gas.creds.drop keys.length) := by
  unfold ctapFilterInvalidCredentials
  dsimp only
  rw [if_pos hnolist, listedRks_eq hv, hkeys, List.length_map, hperm.length_eq]

theorem getAssertion_tells (hsort : IsSort env.qsort) (hcmd : bytes.getD 0 0 = ctapGetAssertionCmd)
    (hnolist : (requestedAssertion env a bytes.tail).credLen = 0)
    (hrun : a.dispatch env bytes h = (.ok (some w), t)) :
    ∃ keys : List ResidentKey, keys.map ResidentKey.descriptor =
        env.qsort credCmpFunc ((a.accounts env bytes).map ResidentKey.descriptor) ∧
      keys.Perm (a.accounts env bytes) ∧ LeavesAccounts t.gas keys (verifiesUser env a bytes) ∧
      ∃ rk, keys[0]? = some rk ∧
        w.Tells rk (verifiesUser env a bytes && decide (2 ≤ keys.length))
          (if 1 < keys.length then [.int 5, .int keys.length] else []) := by
  obtain ⟨x, n, ga₀, v, s, b, d, size, hx, hw, e, he, rfl⟩ := dispatch_getAssertion_ok hcmd hrun
  obtain ⟨hvgas, hvsecrets, hvrks, hvstate⟩ := hx.selected.parsed
  have hv : Parsed env a bytes.tail v := ⟨hvgas, hvsecrets, hvrks, hvstate⟩
  obtain ⟨keys, hkeys, hperm⟩ := exists_sorted_keys
    (hsort credCmpFunc ((a.accounts env bytes).map ResidentKey.descriptor)).perm
  have hfilter := filter_accounts hv hnolist hkeys hperm
  have hcount : n = keys.length := by
    have hn := hx.selected.count
    change n = (ctapFilterInvalidCredentials env v (requestedAssertion env a bytes.tail)).1 at hn
    rw [hn, hfilter]
  have hgas := hx.selected.gas
  change s.gas = { v.gas with
    creds := (ctapFilterInvalidCredentials env v (requestedAssertion env a bytes.tail)).2.2 } at hgas
  rw [hfilter] at hgas
  obtain ⟨first, hfirst⟩ : ∃ rk, keys[0]? = some rk := by
    rcases keys with _ | ⟨rk, rest⟩
    · exact absurd hcount hx.selected.found
    · exact ⟨rk, rfl⟩
  -- the accounts stand in the list in which the answer is made
  have haccounts : HasAccounts d.gas keys (verifiesUser env a bytes) := by
    have hcleared : HasAccounts (s.gas.firstCleared keys.length) keys (s.gas.userVerified ≠ 0) :=
      .firstCleared (v.gas.creds.drop keys.length) (by rw [hgas])
    have hverified : decide (s.gas.userVerified ≠ 0) = verifiesUser env a bytes := by
      rw [hgas, ← verified_of_parsed hv]
    have hb : b.gas = s.gas.firstCleared keys.length := by rw [hx.cleared, hcount]
    rw [hverified, ← hb] at hcleared
    exact hcleared.congr hx.data.kept.1 hx.data.kept.2.1
  obtain ⟨hd, buf, hegas, -⟩ := Changed.gas he
  refine ⟨keys, hkeys.symm, hperm, ?_, first, hfirst, ?_⟩
  · rw [hcount]
    exact HasAccounts.saved (haccounts.congr (by rw [hegas]) (by rw [hegas])) _ _
  · obtain ⟨hid, huser⟩ := haccounts.tells_first hfirst
    exact ⟨x, hw, hx.credentialId.trans hid, fun hfits => hx.user.trans (huser hfits),
      by rw [hx.total, hcount]⟩

end First

/-! ### All accounts -/

/-- What the requests of a chain tell about these keys, one after the other. -/
structure SignsInWith (c : AnsweredChain env) (keys : List ResidentKey) : Prop where
  /-- They are those that the request may sign with, each of them once. -/
  all : keys.Perm (c.start.accounts env c.bytes)
  /-- The latest comes first. -/
  latestFirst : (∀ rk ∈ keys, rk.descriptor.count < 2 ^ 31) →
    keys.Pairwise fun x y => y.descriptor.count ≤ x.descriptor.count
  /-- The first answer tells how many there are, if there is more than one. The names
  are only told if the user is verified and has a choice. -/
  first : ∃ rk, keys[0]? = some rk ∧ c.answer.Tells rk
    (verifiesUser env c.start c.bytes && decide (2 ≤ keys.length))
    (if 1 < keys.length then [.int 5, .int keys.length] else [])
  /-- The others are told in turn. -/
  others : ∀ i w, c.rest[i]? = some w →
    ∃ rk, keys[i + 1]? = some rk ∧ w.Tells rk (verifiesUser env c.start c.bytes) []
  /-- The next request is refused as not allowed when all of them were told. -/
  ends : ∀ bytes h, bytes.getD 0 0 = getNextAssertionCmd →
    ((c.last.dispatch env bytes h).1 = .error (.status ctap2ErrNotAllowed) ↔
      c.rest.length + 1 = keys.length)

theorem sorted_latestFirst (hsort : IsSort env.qsort) {keys l : List ResidentKey}
    (hkeys : keys.map ResidentKey.descriptor = env.qsort credCmpFunc (l.map ResidentKey.descriptor))
    (hcounts : ∀ rk ∈ keys, rk.descriptor.count < 2 ^ 31) :
    keys.Pairwise fun x y => y.descriptor.count ≤ x.descriptor.count := by
  obtain ⟨hperm, horder⟩ := hsort credCmpFunc (l.map ResidentKey.descriptor)
  rw [← hkeys] at hperm horder
  have hsmall : ∀ d ∈ keys.map ResidentKey.descriptor, d.count < 2 ^ 31 :=
    List.forall_mem_map.mpr hcounts
  have hconsistent : Consistent credCmpFunc (l.map ResidentKey.descriptor) :=
    consistent_of_lt fun d hd => hsmall d (hperm.mem_iff.mpr hd)
  have hpairs := List.pairwise_map.mp (horder hconsistent)
  refine hpairs.imp_of_mem fun {x y} hx hy hle => ?_
  have hxlt := hcounts x hx
  have hylt := hcounts y hy
  rw [credCmpFunc_nonpos_iff] at hle
  omega

theorem AnsweredChain.signsInWith (hsort : IsSort env.qsort) (c : AnsweredChain env)
    (hcmd : c.bytes.getD 0 0 = ctapGetAssertionCmd)
    (hnolist : (requestedAssertion env c.start c.bytes.tail).credLen = 0) :
    ∃ keys, SignsInWith c keys := by
  obtain ⟨keys, hkeys, hperm, hleaves, first, hfirst, htells⟩ :=
    getAssertion_tells hsort hcmd hnolist c.answered
  have hrest := c.continued.inTurn rfl
  have hindex : (c.after.setLastcmd ctapGetAssertionCmd).gas.index = 0 := hleaves.index
  have hcount : (c.after.setLastcmd ctapGetAssertionCmd).gas.count = keys.length - 1 := hleaves.count
  have huv : decide ((c.after.setLastcmd ctapGetAssertionCmd).gas.userVerified ≠ 0) =
    verifiesUser env c.start c.bytes := hleaves.verified
  have hlen : 0 < keys.length := (List.getElem?_eq_some_iff.mp hfirst).1
  refine ⟨keys, hperm, sorted_latestFirst hsort hkeys, ⟨first, hfirst, htells⟩, fun i w hw => ?_,
    fun bytes h hnext => hrest.ends hindex hcount hlen hnext⟩
  obtain ⟨rk, hrk⟩ : ∃ rk, keys[i + 1]? = some rk :=
    ⟨_, List.getElem?_eq_getElem (hrest.lt hindex hcount (List.getElem?_eq_some_iff.mp hw).1)⟩
  have hholds := hleaves.holds i rk hrk
  rw [← Nat.zero_add i, ← hindex] at hholds
  have hanswer := hrest.tells hw hholds
  rw [huv] at hanswer
  exact ⟨rk, hrk, hanswer⟩

/-- A getAssertion without an allowList and the getNextAssertion requests behind it
sign for each resident key of the relying party that they may see, the first 20 of
them. -/
theorem sign_in_without_list (hsort : IsSort env.qsort) (c : AnsweredChain env)
    (hcmd : c.bytes.getD 0 0 = ctapGetAssertionCmd)
    (hnolist : (requestedAssertion env c.start c.bytes.tail).credLen = 0) :
    ∃ keys, SignsInWith c keys :=
  c.signsInWith hsort hcmd hnolist

/-- A device with two accounts. -/
def demoAccounts : Authenticator :=
  (Transition.run (Machine.step Sample.env) (Machine.powerUp Sample.env Sample.device)
    [Sample.request ctapMakeCredentialCmd (Sample.createResidentOps [1]),
      Sample.request ctapMakeCredentialCmd (Sample.createResidentOps [2])]).auth

/-- A getAssertion without a list. -/
def demoWithoutList : List UInt8 :=
  ctapGetAssertionCmd :: Sample.encodeOps
    [.createMap 2, .int 1, .text "a.example", .int 2, .byteString (List.replicate 32 6)]

theorem sign_in_without_list_demo : ∃ (c : AnsweredChain Sample.env) (keys : List ResidentKey),
    SignsInWith c keys ∧ keys.length = 2 ∧ c.rest.length = 1 := by
  have hchain : (chainOf Sample.env demoAccounts demoWithoutList Sample.touch 1).any
      (fun c => c.rest.length = 1) = true := by decide +kernel
  obtain ⟨c, hstart, hbytes, hrest⟩ := exists_chain hchain
  have hnolist : (requestedAssertion Sample.env demoAccounts demoWithoutList.tail).credLen = 0 ∧
      (demoAccounts.accounts Sample.env demoWithoutList).length = 2 := by
    decide +kernel
  rw [← hstart, ← hbytes] at hnolist
  obtain ⟨keys, hkeys⟩ := sign_in_without_list Sample.isSort c (by rw [hbytes]; rfl) hnolist.1
  exact ⟨c, keys, hkeys, hkeys.all.length_eq.trans hnolist.2, of_decide_eq_true hrest⟩

end NitrokeyFido2.Ctap
