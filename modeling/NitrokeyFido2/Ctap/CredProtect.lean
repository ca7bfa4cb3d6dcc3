import NitrokeyFido2.Ctap.AllowList
import NitrokeyFido2.Ctap.Registration

/-!
The level of protection over the life of a credential.

The level that a credential was registered with is masked into its id. Whatever is
requested later, short of a reset, no getAssertion and no getNextAssertion behind it
answers with the id unless the level permits it.
-/

namespace NitrokeyFido2.Ctap

open Proc Resumption Transition Sorting

/-! ### What a level permits -/

/-- Who may use a credential of this level. -/
def MayUse (level : UInt32) (isVerified isFromList : Prop) : Prop :=
  isVerified ∨ level ≠ extCredProtectRequired ∧
    (level = extCredProtectOptionalWithCredid → isFromList)

theorem mayUse_of_check {env : Env} {s : Secrets} {id : CredentialId} {isVerified isFromList : Bool}
    (h : checkCredentialMetadata env s id isVerified isFromList = true) :
    MayUse (readMetadataFromMaskedCredential env s id) (isVerified = true) (isFromList = true) := by
  unfold checkCredentialMetadata at h
  dsimp only at h
  split at h
  case isTrue hoptional =>
    rcases Bool.or_eq_true_iff.mp h with hlist | hverified
    · refine .inr ⟨?_, fun _ => hlist⟩
      rw [hoptional]
      decide
    · exact .inl hverified
  case isFalse hoptional =>
    split at h
    case isTrue => exact .inl h
    case isFalse hrequired => exact .inr ⟨hrequired, fun hlevel => absurd hlevel hoptional⟩

theorem MayUse.mono {level : UInt32} {p q p' q' : Prop} (h : MayUse level p q) (hp : p → p')
    (hq : q → q') : MayUse level p' q' :=
  Or.imp hp (And.imp_right fun hlist hlevel => hq (hlist hlevel)) h

/-! ### What a verification is -/

/-- The request carries the pinAuth of its hash under the PIN token. -/
def CarriesPinAuth (env : Env) (a : Authenticator) (bytes : List UInt8) : Prop :=
  verifiesUser env a bytes = true ∧
    verifyPinAuthEx env a (requestedAssertion env a bytes.tail).pinAuth
      (requestedAssertion env a bytes.tail).clientDataHash.bytes = true

section Verified

variable {env : Env} {a t : Authenticator} {bytes : List UInt8} {h : Answers} {w : Writer}

theorem verifyUser_checked {ga : GetAssertion} (hrun : verifyUser env ga a = (.ok (), t))
    (hpresent : ga.pinAuthPresent ≠ 0) :
    verifyPinAuthEx env a ga.pinAuth ga.clientDataHash.bytes = true := by
  unfold verifyUser at hrun
  rw [if_pos hpresent] at hrun
  obtain ⟨_, b, hverify, -⟩ := bind_ok.mp hrun
  unfold verifyPinAuth at hverify
  rw [get_bind] at hverify
  obtain ⟨_, c, hcheck, -⟩ := bind_ok.mp hverify
  rw [failIf, stopIf_ok] at hcheck
  exact Bool.eq_true_of_not_eq_false hcheck.1

theorem selectCredentials_checked {request : List UInt8} {n : ℕ} {ga : GetAssertion}
    (hrun : CtapM.answered h (selectCredentials env request) a = (.ok (n, ga), t))
    (hpresent : (requestedAssertion env a request).pinAuthPresent ≠ 0) :
    verifyPinAuthEx env a (requestedAssertion env a request).pinAuth
      (requestedAssertion env a request).clientDataHash.bytes = true := by
  unfold selectCredentials at hrun
  simp only [CtapM.answered, Routine.answered_bind, Routine.answered_liftM] at hrun
  obtain ⟨ga₁, a₁, hparse, hrest⟩ := bind_ok.mp hrun
  obtain ⟨rfl, rfl⟩ := parseGetAssertion_ok env hparse
  obtain ⟨_, a₂, hempty, hrest⟩ := bind_ok.mp hrest
  obtain ⟨_, v, hverify, -⟩ := bind_ok.mp hrest
  rw [Routine.answered_ite] at hempty
  split at hempty
  case isTrue => exact absurd hempty (emptyPinAuth_not_ok h _ _)
  case isFalse =>
    obtain ⟨-, rfl⟩ := pure_ok.mp hempty
    have hchecked := verifyUser_checked hverify hpresent
    exact hchecked

/-- An answered getAssertion with a pinAuth carries the right one. -/
theorem getAssertion_checked (hcmd : bytes.getD 0 0 = ctapGetAssertionCmd)
    (hrun : a.dispatch env bytes h = (.ok (some w), t)) (hverifies : verifiesUser env a bytes = true) :
    CarriesPinAuth env a bytes := by
  obtain ⟨x, n, ga₀, v, s, b, d, size, hx, -⟩ := dispatch_getAssertion_ok hcmd hrun
  obtain ⟨w₁, hbegin⟩ := hx.began
  unfold beginAssertion at hbegin
  simp only [CtapM.answered, Routine.answered_bind] at hbegin
  obtain ⟨⟨n', ga'⟩, s', hselect, -⟩ := bind_ok.mp hbegin
  have hchecked := selectCredentials_checked hselect (of_decide_eq_true hverifies)
  exact ⟨hverifies, hchecked⟩

end Verified

/-! ### What an answer with an id was made for -/

section Entries

variable {env : Env} {a : Authenticator} {bytes : List UInt8}

theorem filterEntry_identity {v : Authenticator} {ga : GetAssertion} {cred : CredentialDescriptor}
    (h : isSelected env v ga cred = true) :
    (filterEntry env v ga.rp cred).2.identity = cred.identity := by
  unfold isSelected at h
  unfold filterEntry
  split
  case isTrue hauth =>
    rw [if_pos hauth] at h
    rw [if_pos h]
    exact addExistingUserInfo_identity v cred
  case isFalse hauth =>
    rw [if_neg hauth] at h
    rw [if_pos h]

/-- An entry of the sorted list has no count, or was found to count. -/
theorem mem_sortedList (hsort : IsSort env.qsort) {d : CredentialDescriptor}
    (hd : d ∈ a.sortedList env bytes) : d.count = 0 ∨
      ∃ cred, cred.credential.id = d.credential.id ∧
        isSelected env (a.parsedList env bytes.tail) (requestedAssertion env a bytes.tail) cred =
          true := by
  have hperm := (hsort credCmpFunc (filtered env (a.parsedList env bytes.tail)
    (requestedAssertion env a bytes.tail))).perm
  have hmem := (hperm.trans filtered_perm).mem_iff.mp (List.mem_of_mem_take hd)
  rcases List.mem_append.mp hmem with hselected | hrefused
  · obtain ⟨cred, hcred, rfl⟩ := List.mem_map.mp hselected
    have hcounts := (List.mem_filter.mp hcred).2
    exact .inr ⟨cred, (congrArg Prod.snd (filterEntry_identity hcounts)).symm, hcounts⟩
  · exact .inl (count_refused hrefused)

/-- A whole id is that of the entry it is named for. -/
theorem Writer.Names.id_eq {w : Writer} {custom : CustomCred} {d : CredentialDescriptor}
    {total : List EncOp} (h : w.Names custom d.identity total) {id : CredentialId}
    (hid : w.credentialId = id.bytes) : d.credential.id = id := by
  obtain ⟨x, hops, -, hnamed⟩ := h
  rw [← credentialId_of_items hops, hid, List.take_of_length_le id.length_bytes.le] at hnamed
  have hlength := congrArg List.length hnamed
  have hwhole : d.identity.2.bytes.length = credentialIdSize := d.identity.2.length_bytes
  rw [id.length_bytes, List.length_take, hwhole] at hlength
  exact Buf.ext (hnamed.trans (List.take_of_length_le (by omega))).symm

end Entries

section Chains

variable {env : Env} {c : AnsweredChain env}

/-- Every answer names an entry. -/
theorem SignsInFrom.exists_entry {ds : List CredentialDescriptor} (h : SignsInFrom c ds) {w : Writer}
    (hw : w ∈ c.answer :: c.rest) : ∃ d ∈ ds, ∃ total, w.Names c.custom d.identity total := by
  rcases List.mem_cons.mp hw with rfl | hw
  · obtain ⟨d, hd, hnames⟩ := h.first
    exact ⟨d, List.mem_of_getElem? hd, _, hnames⟩
  · obtain ⟨i, hi⟩ := List.mem_iff_getElem?.mp hw
    obtain ⟨d, hd, hnames⟩ := h.others i w hi
    exact ⟨d, List.mem_of_getElem? hd, _, hnames⟩

/-- The id of an answer has passed the check of its level. -/
theorem AnsweredChain.checked (hsort : IsSort env.qsort)
    (hcmd : c.bytes.getD 0 0 = ctapGetAssertionCmd) {id : CredentialId}
    (hcount : CredentialId.count id ≠ 0)
    (hordinary : isExtensionRequest id.bytes credentialIdSize = false) {w : Writer}
    (hw : w ∈ c.answer :: c.rest) (hid : w.credentialId = id.bytes) :
    checkCredentialMetadata env c.start.secrets id (verifiesUser env c.start c.bytes)
      ((requestedAssertion env c.start c.bytes.tail).credLen ≠ 0) = true := by
  by_cases hlist : (requestedAssertion env c.start c.bytes.tail).credLen = 0
  case pos =>
    obtain ⟨keys, hkeys⟩ := c.signsInWith hsort hcmd hlist
    obtain ⟨rk, hrk, hnamed⟩ := hkeys.exists_key hw
    have hrkid : rk.id = id := Buf.ext (hnamed.symm.trans hid)
    have hvisible := List.mem_of_mem_take (hkeys.all.mem_iff.mp hrk)
    have hseen := (List.mem_filter.mp hvisible).2
    rw [Bool.and_eq_true, Bool.and_eq_true, hrkid] at hseen
    rw [decide_eq_false (not_not.mpr hlist)]
    exact hseen.1.2
  case neg =>
    obtain ⟨d, hd, total, hnames⟩ := (c.signsInFrom hsort hcmd hlist).exists_entry hw
    have hdid : d.credential.id = id := hnames.id_eq hid
    rcases mem_sortedList hsort hd with hzero | ⟨cred, hcred, hselected⟩
    · -- a refused entry is returned without its count
      unfold CredentialDescriptor.count at hzero
      rw [hdid] at hzero
      exact absurd (UInt32.toNat_inj.mp hzero) hcount
    · have hverified : decide ((c.start.parsedList env c.bytes.tail).gas.userVerified ≠ 0) = _ :=
        verified_of_parsed (parsed_parsedList c.start c.bytes.tail)
      unfold isSelected at hselected
      rw [hcred, hdid, hverified] at hselected
      split at hselected
      case isTrue =>
        rw [decide_eq_true hlist]
        exact hselected
      case isFalse => exact absurd hselected (Bool.eq_false_iff.mp hordinary)

end Chains

/-- A makeCredential of the highest level. -/
def demoProtected : List UInt8 :=
  ctapMakeCredentialCmd :: Sample.encodeOps (.createMap 5 :: Sample.createEntries [1] ++
    [.int 6, .createMap 1, .text "credProtect", .int 3])

/-- A getAssertion for an id with the pinAuth of its hash. -/
def demoVerified (a : Authenticator) (id : List UInt8) : List UInt8 :=
  ctapGetAssertionCmd :: Sample.encodeOps (.createMap 5 :: (Sample.assertOps 6 [id]).tail ++
    [.int 6, .byteString ((cryptoSha256Hmac Sample.env a.secrets (.bytes a.pinToken.bytes)
      (List.replicate 32 6)).slice 0 16), .int 7, .int 1])

/-- The device is plugged in again, and the credential is used. -/
def demoUses (r : Registration Sample.env) : Bool :=
  let a := (run (Machine.step Sample.env) r.done [.reboot]).auth
  decide (r.CountsValid ∧ isExtensionRequest r.answer.newId credentialIdSize = false ∧
    r.credential.extensions.credProtect = extCredProtectRequired) &&
  (chainOf Sample.env a (demoVerified a r.answer.newId) Sample.touch 0).any fun c =>
    decide (c.answer.credentialId = r.answer.newId)

end NitrokeyFido2.Ctap
