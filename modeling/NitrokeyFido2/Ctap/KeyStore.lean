import NitrokeyFido2.Ctap.CredentialIds
import NitrokeyFido2.Ctap.ResidentKeys
import NitrokeyFido2.Ctap.Sample

/-!
The store of resident keys over whole runs.
-/

namespace NitrokeyFido2.Ctap

open Proc Resumption KeyedSlots

variable (env : Env)

/-! ### makeCredential -/

/-- `CTAP2_ERR_KEY_STORE_FULL`. -/
abbrev storeFull : Stop := .status ctap2ErrKeyStoreFull

/-- What the steps of a makeCredential besides the store may change. -/
abbrev quietChanges : List Aspect :=
  [.custom, .events .presence, .events .verified, .events .created, .events .derived,
    .events .otherKey]

section Make

variable {env} {a : Authenticator} {α : Type}

/-- A step that leaves the slots alone and does not say that they are full. -/
def Quiet (a : Authenticator) (r : Except Stop α) (t : Authenticator) : Prop :=
  Changed quietChanges a t ∧ r ≠ .error storeFull

theorem quiet_ends {m : Device α} (hm : Keeps (Changed quietChanges) m) 
    (hnever : StepNeverSays ctap2ErrKeyStoreFull m) :
    Ends m a (Quiet a) :=
  (Ends.keeps hm).and (.never hnever)

theorem quiet_ends_answered {m : CtapM α} (hm : Routine.Keeps (Changed quietChanges) m)
    (hnever : RoutineNeverSays ctap2ErrKeyStoreFull m) (h : Answers) : Ends (CtapM.answered h m) a (Quiet a) :=
  quiet_ends (hm.answered h.answer) (hnever.answered h.answer)

/-- The parameters of a makeCredential, as it is parsed. -/
def requestedCredential (env : Env) (a : Authenticator) (bytes : List UInt8) :
    MakeCredential env.reader.Cursor :=
  (ctapParseMakeCredential env bytes ⟨default, a.gas.custom⟩).2.val

/-- The key of the slot that the credential belongs to. -/
def MakeCredential.rkKey (env : Env) {C : Type} (mc : MakeCredential C) : RkKey :=
  ((env.sha256 mc.rp.bytes).bytes, mc.credInfo.user.idSize, mc.credInfo.user.idBytes)

theorem parsedWithCustom_ends {τ : Type} (m : Parse (WithCustom τ) Unit) (v : τ) :
    Ends (parsedWithCustom m v) a fun r _ => ∀ x, r = .ok x → x = (m ⟨v, a.gas.custom⟩).2.val := by
  unfold parsedWithCustom
  refine Ends.seq (P := fun r _ => ∀ x, r = .ok x → x.2 = (m ⟨v, a.gas.custom⟩).2.val) ?_ ?_ ?_
  · intro x hx
    rw [← Except.ok.inj hx]
  · rintro ⟨_ | _, x⟩ t hx
    · refine Ends.seq (Ends.mono (P := fun _ _ => True) trivial fun _ _ h => h) ?_ ?_
      · intro _ _ _ y hy
        rw [← Except.ok.inj hy]
        exact hx _ rfl
      · intro e t _ x hx
        exact nomatch hx
    · intro y hy
      rw [← Except.ok.inj hy]
      exact hx _ rfl
  · intro e t _ x hx
    exact nomatch hx

theorem ctapMakeAuthDataHeader_ends (rp : RpId) (h : Answers) :
    Ends (CtapM.answered h (ctapMakeAuthDataHeader env (fun _ => pure ()) rp)) a fun r t =>
      Quiet a r t ∧ ∀ hd, r = .ok hd → hd.rpIdHash = env.sha256 rp.bytes := by
  refine (quiet_ends_answered inferInstance inferInstance h).and ?_
  have hany {α β : Type} {m : CtapM α} {f : α → CtapM β} {b : Authenticator}
      {Q : β → Prop} (hf : ∀ x t, Ends (CtapM.answered h (f x)) t fun r _ => ∀ y, r = .ok y → Q y) :
      Ends (CtapM.answered h (m >>= f)) b fun r _ => ∀ y, r = .ok y → Q y :=
    Routine.ends_seq (P := fun _ _ => True) trivial (fun x t _ => hf x t)
      fun _ _ _ _ hy => nomatch hy
  unfold ctapMakeAuthDataHeader
  dsimp only
  repeat refine hany fun _ _ => ?_
  intro hd hhd
  rw [← Except.ok.inj hhd]

theorem makeCredentialId_ends (hd : AuthDataHeader) (l : UInt32) :
    Ends (makeCredentialId env hd l) a fun r t => Quiet a r t ∧
      ∀ id, r = .ok id → CredentialId.rpIdHash id = hd.rpIdHash.bytes ∧
        ∃ s l, Trace.created s id l ∈ t.trace := by
  refine (quiet_ends inferInstance inferInstance).and ?_
  intro id hid
  rw [← Except.ok.inj hid]
  exact ⟨rpIdHash_newCredentialId .., _, _, List.mem_append_right _ (List.mem_singleton_self _)⟩

/-! ### What becomes of the slots -/

/-- An id that is made has a count that a valid slot can have. -/
def Trace.CountValid : Trace → Prop
  | .created _ id _ => CredentialId.count id ≠ 0 ∧ CredentialId.count id ≠ 0xffffffff
  | _ => True

instance : DecidablePred Trace.CountValid := fun e => by
  cases e <;> unfold Trace.CountValid <;> infer_instance

def CountsValid (t : Authenticator) : Prop := ∀ e ∈ t.trace, e.CountValid

instance (t : Authenticator) : Decidable (CountsValid t) :=
  inferInstanceAs (Decidable (∀ e ∈ t.trace, e.CountValid))

/-- What a makeCredential may do to the slots: nothing, put the credential
where it belongs, or find the store full. -/
inductive RkMade (rk : UInt8) (key : RkKey) (a : Authenticator) (r : Except Stop α)
    (t : Authenticator) : Prop
  | untouched (hrks : t.rks = a.rks) (hstatus : r ≠ .error storeFull)
      (hrk : ∀ x, r = .ok x → rk = 0)
  | put (i : ℕ) (x : ResidentKey) (htarget : RkTarget a key i) (hrks : t.rks = a.rks.set i x)
      (hkey : x.key = key) (hvalid : ctapRkIsValid x = true) (hstatus : r ≠ .error storeFull)
      (hrk : rk ≠ 0)
  | full (hrks : t.rks = a.rks) (hstatus : r = .error storeFull)
      (hfull : ∀ x ∈ a.rks, ctapRkIsValid x = true) (habsent : RkAbsent a key) (hrk : rk ≠ 0)

variable {rk : UInt8} {key : RkKey} {t u : Authenticator} {β : Type}

theorem Changed.rks_eq (h : Changed quietChanges a t) : t.rks = a.rks := h .rks (by decide)

theorem Changed.countsValid (h : Changed quietChanges a t) (ht : CountsValid t) : CountsValid a :=
  fun e hmem => ht e ((h .trace (by decide)).subset hmem)

theorem RkStoreOk.quiet (ha : RkStoreOk a) (h : Changed quietChanges a t) : RkStoreOk t :=
  ha.congr (Unchanged.sameStore h (by decide) (by decide))

/-- Steps before the slots are looked at. -/
theorem RkMade.of_rks_eq {r : Except Stop α} (h : RkMade rk key t r u) (hrks : t.rks = a.rks) :
    RkMade rk key a r u := by
  cases h with
  | untouched hu hstatus hrk => exact .untouched (hu.trans hrks) hstatus hrk
  | put i x htarget hu hkey hvalid hstatus hrk =>
      unfold RkTarget at htarget
      rw [hrks] at htarget hu
      exact .put i x htarget hu hkey hvalid hstatus hrk
  | full hu hstatus hfull habsent hrk =>
      unfold RkAbsent at habsent
      rw [hrks] at hu hfull habsent
      exact .full hu hstatus hfull habsent hrk

/-- Steps behind the store. -/
theorem RkMade.quiet {x : α} {r : Except Stop β} (h : RkMade rk key a (.ok x) t) (hu : Quiet t r u) :
    RkMade rk key a r u := by
  have hrks := hu.1.rks_eq
  cases h with
  | untouched ht hstatus hrk => exact .untouched (hrks.trans ht) hu.2 fun _ _ => hrk x rfl
  | put i x htarget ht hkey hvalid hstatus hrk =>
      exact .put i x htarget (hrks.trans ht) hkey hvalid hu.2 hrk
  | full ht hstatus => exact nomatch hstatus

/-- The slots fit their number again, and the request did to them what it may
do; this only as long as the counts are valid. -/
def RkKept (rk : UInt8) (key : RkKey) (a : Authenticator) (r : Except Stop α) (t : Authenticator) :
    Prop :=
  CountsValid t → RkStoreOk t ∧ RkMade rk key a r t

theorem RkKept.of_error {e : Stop} (ha : RkStoreOk a) (ht : Quiet a (.error e : Except Stop α) t) :
    RkKept rk key a (.error e : Except Stop β) t := fun _ =>
  ⟨ha.quiet ht.1, .untouched ht.1.rks_eq (fun h => ht.2 (congrArg Except.error (Except.error.inj h)))
    fun _ h => nomatch h⟩

theorem RkKept.error {e : Stop} (h : RkKept rk key a (.error e : Except Stop α) t) :
    RkKept rk key a (.error e : Except Stop β) t := by
  intro hvalid
  obtain ⟨hok, hmade⟩ := h hvalid
  refine ⟨hok, ?_⟩
  have hne {γ δ : Type} (h : (.error e : Except Stop γ) ≠ .error storeFull) :
      (.error e : Except Stop δ) ≠ .error storeFull :=
    fun he => h (congrArg Except.error (Except.error.inj he))
  cases hmade with
  | untouched hrks hstatus => exact .untouched hrks (hne hstatus) fun _ h => nomatch h
  | put i x htarget hrks hkey hvalid hstatus hrk =>
      exact .put i x htarget hrks hkey hvalid (hne hstatus) hrk
  | full hrks hstatus hfull habsent hrk =>
      exact .full hrks (congrArg Except.error (Except.error.inj hstatus)) hfull habsent hrk

/-- A quiet step in front. -/
theorem RkKept.ends_seq {m : CtapM α} {f : α → CtapM β} {h : Answers} {P : α → Authenticator → Prop}
    (ha : RkStoreOk a)
    (hm : Ends (CtapM.answered h m) a fun r t => Quiet a r t ∧ ∀ x, r = .ok x → P x t)
    (hf : ∀ x t, RkStoreOk t → P x t → Ends (CtapM.answered h (f x)) t (RkKept rk key t)) :
    Ends (CtapM.answered h (m >>= f)) a (RkKept rk key a) := by
  refine Routine.ends_seq hm (fun x t ht => ?_) fun e t ht => .of_error ha ht.1
  refine (hf x t (ha.quiet ht.1.1) (ht.2 x rfl)).mono fun r u hu hvalid => ?_
  obtain ⟨hok, hmade⟩ := hu hvalid
  exact ⟨hok, hmade.of_rks_eq ht.1.1.rks_eq⟩

/-- A quiet step behind. -/
theorem RkKept.ends_quiet {x : α} {m : CtapM β} {h : Answers} (ht : RkKept rk key a (.ok x) t)
    (hm : Ends (CtapM.answered h m) t (Quiet t)) :
    Ends (CtapM.answered h m) t (RkKept rk key a) :=
  hm.mono fun r u hu hvalid => by
    obtain ⟨hok, hmade⟩ := ht (hu.1.countsValid hvalid)
    exact ⟨hok.quiet hu.1, hmade.quiet hu⟩

theorem storeResidentKey_kept {x : ResidentKey} (ha : RkStoreOk a) (hkey : x.key = key)
    (hrk : rk ≠ 0) (hcounts : ∃ s l, Trace.created s x.id l ∈ a.trace) :
    Ends (storeResidentKey x) a (RkKept rk key a) := by
  intro hcounted
  have htrace : a.trace <+: (storeResidentKey x a).2.trace :=
    (inferInstance : Keeps (Changed [.rks, .rkStored]) _).state a .trace (by decide)
  obtain ⟨s, l, hmem⟩ := hcounts
  obtain ⟨hzero, hones⟩ := hcounted _ (htrace.subset hmem)
  have hvalid : ctapRkIsValid x = true := by
    unfold ctapRkIsValid
    rw [Bool.and_eq_true, decide_eq_true_iff, decide_eq_true_iff]
    exact ⟨UInt32.pos_iff_ne_zero.mpr hzero, hones⟩
  rcases storeResidentKey_cases ha hvalid with ⟨i, t, htarget, hrun, hrks, hok⟩ | ⟨hrun, hfull, habsent⟩
  · rw [hkey] at htarget
    rw [hrun]
    exact ⟨hok, .put i x htarget hrks hkey hvalid (fun h => nomatch h) hrk⟩
  · rw [hkey] at habsent
    rw [hrun]
    exact ⟨ha, .full rfl rfl hfull habsent hrk⟩

theorem makeResidentKey_key (id : CredentialId) (user : UserEntity) (rp : RpId) :
    (makeResidentKey id user rp).key = (CredentialId.rpIdHash id, user.idSize, user.idBytes) := rfl

theorem ctapMakeAuthData_kept (mc : MakeCredential env.reader.Cursor) (ha : RkStoreOk a)
    (h : Answers) :
    Ends (CtapM.answered h (ctapMakeAuthData env mc.rp mc.credInfo mc.extensions)) a
      (RkKept mc.credInfo.rk (mc.rkKey env) a) := by
  unfold ctapMakeAuthData
  refine RkKept.ends_seq (P := fun hd _ => hd.rpIdHash = env.sha256 mc.rp.bytes) ha
    (ctapMakeAuthDataHeader_ends mc.rp h) fun hd t ht hhash => ?_
  refine RkKept.ends_seq (P := fun id t => CredentialId.rpIdHash id = hd.rpIdHash.bytes ∧
    ∃ s l, Trace.created s id l ∈ t.trace) ht
    (Routine.ends_liftM (makeCredentialId_ends hd mc.extensions.credProtect)) fun id u hu hid => ?_
  have hkey : (makeResidentKey id mc.credInfo.user mc.rp).key = mc.rkKey env := by
    rw [makeResidentKey_key, hid.1, hhash]
    rfl
  refine Routine.ends_seq (P := RkKept mc.credInfo.rk (mc.rkKey env) u) ?_ (fun _ v hv => ?_)
    fun e v hv hvalid => ?_
  · refine Ends.ite (fun hrk => storeResidentKey_kept hu hkey hrk hid.2) fun hrk => ?_
    exact fun _ => ⟨hu, .untouched rfl (fun h => nomatch h) fun _ _ => not_not.mp hrk⟩
  · refine Routine.ends_get_bind (hv.ends_quiet ?_)
    exact ⟨refl_of (Changed quietChanges) v, fun hstop => nomatch hstop⟩
  · exact hv.error hvalid

/-- The entries of a makeCredential: the store is kept, and the request does to
it what it may do. -/
theorem ctapMakeCredential_kept (hinit : env.InitNeverSays ctap2ErrKeyStoreFull) (ha : RkStoreOk a) (w : Writer)
    (request : List UInt8) (h : Answers) :
    Ends (CtapM.answered h (ctapMakeCredential env w request)) a
      (RkKept (requestedCredential env a request).credInfo.rk
        ((requestedCredential env a request).rkKey env) a) := by
  have hparse := neverSays_ctapParseMakeCredential hinit request
  unfold ctapMakeCredential
  refine RkKept.ends_seq (P := fun mc _ => mc = requestedCredential env a request) ha
    (Routine.ends_liftM ((quiet_ends inferInstance (stepNeverSays_parsedWithCustom (.inl hparse) _)).and
      (parsedWithCustom_ends _ _))) fun mc t ht hmc => ?_
  subst hmc
  generalize requestedCredential env a request = mc
  refine RkKept.ends_seq (P := fun _ _ => True) ht
    ((quiet_ends_answered inferInstance inferInstance h).and fun _ _ => trivial) fun _ u hu _ => ?_
  refine RkKept.ends_seq (P := fun _ _ => True) hu
    ((quiet_ends_answered inferInstance inferInstance h).and fun _ _ => trivial) fun w v hv _ => ?_
  refine Routine.ends_seq (ctapMakeAuthData_kept mc hv h) (fun ⟨hd, attested⟩ x hx => ?_)
    fun e x hx => hx.error
  dsimp only
  exact hx.ends_quiet (quiet_ends_answered inferInstance inferInstance h)

variable (env) in
/-- A makeCredential only stops with codes of its own. -/
theorem ctapMakeCredential_never {code : UInt8} [Foreign code] [Fact (ctap2ErrKeyStoreFull ≠ code)]
    {request : List UInt8} (hparse : NeverSays code (ctapParseMakeCredential env request) ∨ code = 0)
    (w : Writer) : RoutineNeverSays code (ctapMakeCredential env w request) := by
  have hparsed : StepNeverSays code
      (parsedWithCustom (ctapParseMakeCredential env request) default) :=
    stepNeverSays_parsedWithCustom hparse _
  unfold ctapMakeCredential
  refine Routine.Never.seq inferInstance fun mc => ?_
  refine Routine.Never.seq inferInstance fun _ => Routine.Never.seq inferInstance fun w => ?_
  refine Routine.Never.seq inferInstance fun made => ?_
  obtain ⟨hd, attested⟩ := made
  dsimp only
  infer_instance

end Make

/-! ### Credential management -/

section Manage

variable {env} {a t : Authenticator}

/-- The parameters of a credential management request, as it is parsed. -/
def requestedManagement (env : Env) (a : Authenticator) (bytes : List UInt8) : CredMgmt :=
  (ctapParseCredMgmt env bytes ⟨default, a.gas.custom⟩).2.val

/-- What credential management may do to the slots: nothing, or free a slot
with the id that is to be deleted. -/
inductive RkManaged (cm : CredMgmt) (a : Authenticator) (r : Except Stop Writer) (t : Authenticator) :
    Prop
  | untouched (hrks : t.rks = a.rks)
      (hnone : ∀ w, r = .ok w → cm.cmd = cmCmdRKDelete →
        ∀ x ∈ a.rks, ctapRkIsValid x = true → x.id ≠ cm.credentialDescriptor.credential.id)
  | deleted (i : ℕ) (x : ResidentKey) (hslot : a.rks[i]? = some x) (hvalid : ctapRkIsValid x = true)
      (hid : x.id = cm.credentialDescriptor.credential.id)
      (hrks : t.rks = a.rks.set i ResidentKey.erased) (hcmd : cm.cmd = cmCmdRKDelete)

/-- What the steps of credential management besides the deletion may change. -/
abbrev manageChanges : List Aspect := [.custom, .cursors, .pin, .attempts, .events .verified]

theorem RkManaged.of_rks_eq {cm : CredMgmt} {r : Except Stop Writer} {u : Authenticator}
    (h : RkManaged cm t r u) (hrks : t.rks = a.rks) : RkManaged cm a r u := by
  cases h with
  | untouched hu hnone =>
      rw [hrks] at hu hnone
      exact .untouched hu hnone
  | deleted i x hslot hvalid hid hu hcmd =>
      rw [hrks] at hslot hu
      exact .deleted i x hslot hvalid hid hu hcmd

/-- The slots fit their number again. -/
def RkKeptManaged (cm : CredMgmt) (a : Authenticator) (r : Except Stop Writer) (t : Authenticator) :
    Prop :=
  RkStoreOk t ∧ RkManaged cm a r t

theorem RkKeptManaged.of_changed {cm : CredMgmt} {r : Except Stop Writer} (ha : RkStoreOk a)
    (ht : Changed manageChanges a t) (hr : ∀ w, r = .ok w → cm.cmd ≠ cmCmdRKDelete) :
    RkKeptManaged cm a r t :=
  ⟨ha.congr (Unchanged.sameStore ht (by decide) (by decide)),
    .untouched (ht .rks (by decide)) fun w hw hcmd => absurd hcmd (hr w hw)⟩

theorem RkKeptManaged.seq {cm : CredMgmt} {α : Type} {m : Device α} {f : α → Device Writer}
    {P : α → Prop} (ha : RkStoreOk a)
    (hm : Ends m a fun r t => Changed manageChanges a t ∧ ∀ x, r = .ok x → P x)
    (hf : ∀ x t, RkStoreOk t → P x → Ends (f x) t (RkKeptManaged cm t)) :
    Ends (m >>= f) a (RkKeptManaged cm a) := by
  refine hm.seq (fun x t ht => ?_) fun e t ht => .of_changed ha ht.1 fun _ h => nomatch h
  have hok := ha.congr (Unchanged.sameStore ht.1 (by decide) (by decide))
  refine (hf x t hok (ht.2 x rfl)).mono fun r u hu => ⟨hu.1, hu.2.of_rks_eq (ht.1 .rks (by decide))⟩

variable (env) in
theorem ctapCredMgmt_kept (ha : RkStoreOk a) (w : Writer) (request : List UInt8) :
    Ends (ctapCredMgmt env w request) a (RkKeptManaged (requestedManagement env a request) a) := by
  unfold ctapCredMgmt
  refine RkKeptManaged.seq (P := fun cm => cm = requestedManagement env a request) ha
    ((Ends.keeps inferInstance).and (parsedWithCustom_ends _ _)) fun cm t ht hcm => ?_
  subst hcm
  generalize requestedManagement env a request = cm
  refine RkKeptManaged.seq (P := fun _ => True) ht
    ((Ends.keeps inferInstance).and fun _ _ => trivial) fun _ u hu _ => ?_
  refine Ends.get_bind (Ends.ite (fun hempty => ?_) fun _ => ?_)
  · refine ⟨hu, .untouched rfl fun _ _ _ x hx hvalid => ?_⟩
    have hpos : 0 < u.rks.countP ctapRkIsValid := List.countP_pos_iff.mpr ⟨x, hx, hvalid⟩
    rw [← hu.counted, hempty.1] at hpos
    exact absurd hpos (by decide)
  · refine RkKeptManaged.seq (P := fun _ => True) hu
      ((Ends.keeps inferInstance).and fun _ _ => trivial) fun counts v hv _ => ?_
    obtain ⟨rpCount, rkCount⟩ := counts
    dsimp only
    by_cases hcmd : cm.cmd = cmCmdRKDelete
    · rw [if_neg (by rw [hcmd]; decide), if_neg (by rw [hcmd]; decide),
        if_neg (by rw [hcmd]; decide), if_pos hcmd]
      refine (credMgmtDelete_ends hv w cm).mono ?_
      rintro r t (⟨i, x, hx, hvalid, hid, rfl, rfl⟩ | ⟨rfl, rfl, hnone⟩)
      · exact ⟨hv.deleted hx hvalid, .deleted i x hx hvalid hid rfl hcmd⟩
      · exact ⟨hv, .untouched rfl fun _ h => nomatch h⟩
    · rw [if_neg hcmd]
      have hkeeps : Keeps (Changed manageChanges)
          (if cm.cmd = cmCmdMetadata then do
            let a ← Proc.get
            encode w (ctapCredMetadata env a)
          else if cm.cmd = cmCmdRPBegin ∨ cm.cmd = cmCmdRPNext then credMgmtRp env w rpCount
          else if cm.cmd = cmCmdRKBegin ∨ cm.cmd = cmCmdRKNext then credMgmtRk env w rkCount
          else fail ctap1ErrInvalidCommand) := inferInstance
      exact (Ends.keeps hkeeps).mono fun r t ht => .of_changed hv ht fun _ _ => hcmd

end Manage

/-! ### Runs -/

/-- The counts of the ids that a step makes are none of those that mark a slot
as free. -/
def CountsAreValid (m : Machine) (e : Event) : Prop := CountsValid (m.step env e).auth

instance (m : Machine) (e : Event) : Decidable (CountsAreValid env m e) :=
  inferInstanceAs (Decidable (CountsValid _))

/-- What a makeCredential with these parameters may make of the slots. -/
structure RkMadeStep (rk : UInt8) (key : RkKey) (a : Authenticator) (status : Option UInt8)
    (rks : List ResidentKey) : Prop where
  notResident : rk = 0 → rks = a.rks
  atMost : rks = a.rks ∨ ∃ i x, RkTarget a key i ∧ x.key = key ∧ ctapRkIsValid x = true ∧
    rks = a.rks.set i x
  success : status = some 0 → rk ≠ 0 → ∃ i x, RkTarget a key i ∧ x.key = key ∧
    ctapRkIsValid x = true ∧ rks = a.rks.set i x
  full : status = some ctap2ErrKeyStoreFull →
    (∀ x ∈ a.rks, ctapRkIsValid x = true) ∧ RkAbsent a key

/-- A valid slot with the id that is to be deleted was freed. -/
def RkDeleted (cm : CredMgmt) (a : Authenticator) (rks : List ResidentKey) : Prop :=
  ∃ i x, a.rks[i]? = some x ∧ ctapRkIsValid x = true ∧
    x.id = cm.credentialDescriptor.credential.id ∧ rks = a.rks.set i ResidentKey.erased

/-- What a credential management request may make of the slots. -/
structure RkManagedStep (cm : CredMgmt) (a : Authenticator) (status : Option UInt8)
    (rks : List ResidentKey) : Prop where
  atMost : rks = a.rks ∨ (cm.cmd = cmCmdRKDelete ∧ RkDeleted cm a rks)
  success : status = some 0 → cm.cmd = cmCmdRKDelete →
    (∃ x ∈ a.rks, ctapRkIsValid x = true ∧ x.id = cm.credentialDescriptor.credential.id) →
      RkDeleted cm a rks

/-- What a request may make of the slots. -/
def RkRequestStep (a : Authenticator) (bytes : List UInt8) (status : Option UInt8)
    (rks : List ResidentKey) : Prop :=
  let cmd := bytes.getD 0 0
  if cmd = ctapMakeCredentialCmd then
    RkMadeStep (requestedCredential env a bytes.tail).credInfo.rk
      ((requestedCredential env a bytes.tail).rkKey env) a status rks
  else if cmd = ctapCborCredMgmtCmd ∨ cmd = ctapCborCredMgmtPreCmd then
    RkManagedStep (requestedManagement env a bytes.tail) a status rks
  else if cmd = ctapResetCmd ∧ status = some 0 then
    rks = List.replicate ctapRkSize ResidentKey.erased
  else rks = a.rks

/-- What a step may make of the slots; a device that halted does nothing. -/
def RkStep (m : Machine) (e : Event) : Prop :=
  match e with
  | .request bytes _ =>
      if m.running then
        RkRequestStep env m.auth bytes ((m.reply env e).map (·.status)) (m.step env e).auth.rks
      else (m.step env e).auth.rks = m.auth.rks
  | .reboot => (m.step env e).auth.rks = m.auth.rks

/-- The status that a command ends with. -/
def statusOf (r : Except Stop (Option Writer)) : Option UInt8 :=
  match r with
  | .ok _ => some 0
  | .error (.status c) => some c
  | .error .halted => none

section Step

variable {env} {m : Machine} {a t : Authenticator} {bytes : List UInt8} {h : Answers}
  {r : Except Stop (Option Writer)}

theorem request_of_dispatch (hd : a.dispatch env bytes h = (r, t)) :
    ((a.request env bytes h).2 = t ∨ ∃ c, (a.request env bytes h).2 = t.setLastcmd c) ∧
      (a.request env bytes h).1.toOption.map (·.status) = statusOf r := by
  rw [Authenticator.request_eq, hd]
  rcases r with (c | _) | _ | w
  · exact ⟨.inr ⟨_, rfl⟩, rfl⟩
  · exact ⟨.inl rfl, rfl⟩
  · exact ⟨.inr ⟨_, rfl⟩, rfl⟩
  · exact ⟨.inr ⟨_, rfl⟩, rfl⟩

/-- A gated command: the gate stops with other codes. -/
theorem gated_ends {m : Device Writer} {Q : Except Stop Writer → Authenticator → Prop}
    (hm : Ends m a Q) :
    Ends (failIfLocked >>= fun _ => m >>= fun w => pure (some w)) a fun r t =>
      (t = a ∧ ∃ c, c ≠ 0 ∧ c ≠ ctap2ErrKeyStoreFull ∧ r = .error (.status c)) ∨
        ∃ r', Q r' t ∧ r = r'.map some := by
  refine Ends.seq (P := fun r t => t = a ∧ ∀ e, r = .error e →
    ∃ c, c ≠ 0 ∧ c ≠ ctap2ErrKeyStoreFull ∧ e = .status c) ?_ ?_ ?_
  · unfold failIfLocked
    refine Ends.get_bind ?_
    refine Ends.seq (P := fun r t => t = a ∧ ∀ e, r = .error e →
      ∃ c, c ≠ 0 ∧ c ≠ ctap2ErrKeyStoreFull ∧ e = .status c) ?_ ?_ ?_
    · exact Ends.stopIf
        (fun _ => ⟨rfl, fun e he => ⟨_, by decide, by decide, (Except.error.inj he).symm⟩⟩)
        fun _ => ⟨rfl, fun e he => nomatch he⟩
    · rintro _ t ⟨rfl, -⟩
      exact Ends.stopIf
        (fun _ => ⟨rfl, fun e he => ⟨_, by decide, by decide, (Except.error.inj he).symm⟩⟩)
        fun _ => ⟨rfl, fun e he => nomatch he⟩
    · exact fun e t he => ⟨he.1, fun e' he' => he.2 e' (congrArg Except.error (Except.error.inj he'))⟩
  · rintro _ t ⟨rfl, -⟩
    exact hm.seq (fun w u hu => .inr ⟨_, hu, rfl⟩) fun e u hu => .inr ⟨_, hu, rfl⟩
  · rintro e t ⟨rfl, he⟩
    obtain ⟨c, hzero, hfull, rfl⟩ := he e rfl
    exact .inl ⟨rfl, c, hzero, hfull, rfl⟩

theorem dispatch_makeCredential_kept (hinit : env.InitNeverSays ctap2ErrKeyStoreFull)
    (ha : RkStoreOk a) (hcmd : bytes.getD 0 0 = ctapMakeCredentialCmd)
    (hd : a.dispatch env bytes h = (r, t)) (hcounts : CountsValid t) :
    RkStoreOk t ∧ RkMadeStep (requestedCredential env a bytes.tail).credInfo.rk
      ((requestedCredential env a bytes.tail).rkKey env) a (statusOf r) t.rks := by
  rw [dispatch_makeCredential env hcmd] at hd
  have : Fact (ctap2ErrKeyStoreFull ≠ 0) := ⟨by decide⟩
  have hmake := (ctapMakeCredential_kept (a := { a with trace := [] }) hinit
    (ha.congr ⟨rfl, rfl⟩) (Writer.init ctapResponseBufferSize) bytes.tail h).and
    (.never ((ctapMakeCredential_never env (.inr rfl)
      (Writer.init ctapResponseBufferSize)).answered h.answer))
  rcases (gated_ends hmake).elim hd with ⟨rfl, c, hzero, hfull, rfl⟩ | ⟨r', ⟨hkept, hstatus⟩, rfl⟩
  · exact ⟨ha.congr ⟨rfl, rfl⟩, fun _ => rfl, .inl rfl, fun hs => absurd (Option.some.inj hs) hzero,
      fun hs => absurd (Option.some.inj hs) hfull⟩
  · obtain ⟨hok, hmade⟩ := hkept hcounts
    have hsuccess : statusOf (r'.map some) = some 0 → ∃ w, r' = .ok w := by
      rcases r' with (c | _) | w
      · exact fun hs => absurd (by rw [Option.some.inj hs]) hstatus
      · exact fun hs => nomatch hs
      · exact fun _ => ⟨w, rfl⟩
    have hfull : statusOf (r'.map some) = some ctap2ErrKeyStoreFull → r' = .error storeFull := by
      rcases r' with (c | _) | w
      · exact fun hs => by rw [Option.some.inj hs]
      · exact fun hs => nomatch hs
      · exact fun hs => absurd (Option.some.inj hs) (by decide)
    cases hmade with
    | untouched hrks hne hrk =>
        exact ⟨hok, fun _ => hrks, .inl hrks, fun hs hne' => absurd (hrk _ (hsuccess hs).choose_spec) hne',
          fun hs => absurd (hfull hs) hne⟩
    | put i x htarget hrks hkey hvalid hne hrk =>
        exact ⟨hok, fun h => absurd h hrk, .inr ⟨i, x, htarget, hkey, hvalid, hrks⟩,
          fun _ _ => ⟨i, x, htarget, hkey, hvalid, hrks⟩, fun hs => absurd (hfull hs) hne⟩
    | full hrks heq hall habsent hrk =>
        refine ⟨hok, fun _ => hrks, .inl hrks, fun hs _ => ?_, fun _ => ⟨hall, habsent⟩⟩
        obtain ⟨w, hw⟩ := hsuccess hs
        exact nomatch heq.symm.trans hw

theorem dispatch_credMgmt_kept (ha : RkStoreOk a)
    (hcmd : bytes.getD 0 0 = ctapCborCredMgmtCmd ∨ bytes.getD 0 0 = ctapCborCredMgmtPreCmd)
    (hd : a.dispatch env bytes h = (r, t)) :
    RkStoreOk t ∧
      RkManagedStep (requestedManagement env a bytes.tail) a (statusOf r) t.rks := by
  rw [dispatch_credMgmt env hcmd] at hd
  have : Fact (ctap2ErrPinAuthBlocked ≠ 0) := ⟨by decide⟩
  have hmanage := (ctapCredMgmt_kept env (a := { a with trace := [] })
    (ha.congr ⟨rfl, rfl⟩) (Writer.init ctapResponseBufferSize) bytes.tail).and
    (.never (stepNeverSays_ctapCredMgmt env (.inr rfl) (Writer.init ctapResponseBufferSize)))
  rcases (gated_ends hmanage).elim hd with ⟨rfl, c, hzero, -, rfl⟩ | ⟨r', ⟨⟨hok, hmanaged⟩, hstatus⟩, rfl⟩
  · exact ⟨ha.congr ⟨rfl, rfl⟩, .inl rfl, fun hs => absurd (Option.some.inj hs) hzero⟩
  · cases hmanaged with
    | untouched hrks hnone =>
        refine ⟨hok, .inl hrks, fun hs hdelete ⟨x, hx, hvalid, hid⟩ => ?_⟩
        rcases r' with (c | _) | w
        · exact absurd (by rw [Option.some.inj hs]) hstatus
        · exact nomatch hs
        · exact absurd hid (hnone w rfl hdelete x hx hvalid)
    | deleted i x hslot hvalid hid hrks hdelete =>
        exact ⟨hok, .inr ⟨hdelete, i, x, hslot, hvalid, hid, hrks⟩,
          fun _ _ _ => ⟨i, x, hslot, hvalid, hid, hrks⟩⟩

theorem RkStoreOk.reset (ha : t.rks = List.replicate ctapRkSize ResidentKey.erased)
    (hstored : t.state.rkStored = 0) : RkStoreOk t := by
  have hfree : ∀ x ∈ t.rks, ctapRkIsValid x = false := by
    intro x hx
    rw [ha] at hx
    rw [List.eq_of_mem_replicate hx, ctapRkIsValid_erased]
  refine ⟨by rw [ha, List.length_replicate], ?_, unique_of_free hfree⟩
  rw [hstored, List.countP_eq_zero.mpr fun x hx => by rw [hfree x hx]; exact Bool.false_ne_true]
  rfl

variable (env) in
/-- The other commands leave the slots alone. -/
theorem dispatch_sameStore (hmake : bytes.getD 0 0 ≠ ctapMakeCredentialCmd)
    (hmanage : ¬ (bytes.getD 0 0 = ctapCborCredMgmtCmd ∨ bytes.getD 0 0 = ctapCborCredMgmtPreCmd))
    (hreset : bytes.getD 0 0 ≠ ctapResetCmd) : SameStore a (a.dispatch env bytes h).2 := by
  have hchanged (may : List Aspect) (hc : Changed may { a with trace := [] } (a.dispatch env bytes h).2)
      (hrks : Aspect.rks ∉ may) (hstored : Aspect.rkStored ∉ may) :
      SameStore a (a.dispatch env bytes h).2 := ⟨hc .rks hrks, hc .rkStored hstored⟩
  rcases command_cases (bytes.getD 0 0) with hc | hc | hc | hc | hc | hc | hc | hc
  · exact absurd hc hmake
  · exact hchanged _ (dispatch_assertion_changed env (.inl hc)) (by decide) (by decide)
  · exact absurd hc hmanage
  · rw [dispatch_getInfo env hc] at hchanged ⊢
    exact hchanged [] (changed_of_keeps inferInstance) (by decide) (by decide)
  · rw [dispatch_clientPin env hc] at hchanged ⊢
    exact hchanged [.pin, .attempts, .events .compared, .events .updated]
      (changed_of_keeps inferInstance) (by decide) (by decide)
  · exact absurd hc hreset
  · exact hchanged _ (dispatch_assertion_changed env (.inr hc)) (by decide) (by decide)
  · rw [dispatch_other env hc]
    exact ⟨rfl, rfl⟩

/-- What is kept along the run. -/
structure StoreInv (m : Machine) : Prop where
  persisted : Persisted m.auth
  store : RkStoreOk m.auth

theorem dispatch_rkStep (hinit : env.InitNeverSays ctap2ErrKeyStoreFull) (ha : RkStoreOk a)
    (hd : a.dispatch env bytes h = (r, t)) (hcounts : CountsValid t) :
    RkStoreOk t ∧ RkRequestStep env a bytes (statusOf r) t.rks := by
  unfold RkRequestStep
  dsimp only
  split
  case isTrue hmake => exact dispatch_makeCredential_kept hinit ha hmake hd hcounts
  case isFalse hmake =>
    split
    case isTrue hmanage => exact dispatch_credMgmt_kept ha hmanage hd
    case isFalse hmanage =>
      by_cases hreset : bytes.getD 0 0 = ctapResetCmd
      · obtain ⟨u, hu, hrun⟩ := dispatch_reset_cases env (a := a) (h := h) hreset
        rw [hd] at hrun
        rcases hrun with hrun | ⟨c, hc, hrun⟩ <;> obtain ⟨rfl, rfl⟩ := Prod.mk.inj hrun
        · rw [if_pos ⟨hreset, rfl⟩]
          exact ⟨.reset rfl rfl, rfl⟩
        · have hchanged : Changed [.events .presence] { a with trace := [] } t := hu.changed
          rw [if_neg fun hs => hc (Option.some.inj hs.2)]
          exact ⟨ha.congr ⟨hchanged .rks (by decide), hchanged .rkStored (by decide)⟩,
            hchanged .rks (by decide)⟩
      · have hsame := dispatch_sameStore env (a := a) (h := h) hmake hmanage hreset
        rw [hd] at hsame
        rw [if_neg fun hs => hreset hs.1]
        exact ⟨ha.congr hsame, hsame.1⟩

/-- A step of a device that is not halted, in terms of the command. -/
theorem step_request {m : Machine} (hrun : m.running = true)
    (hd : m.auth.dispatch env bytes h = (r, t)) :
    ((m.step env (.request bytes h)).auth = t ∨
        ∃ c, (m.step env (.request bytes h)).auth = t.setLastcmd c) ∧
      (m.reply env (.request bytes h)).map (·.status) = statusOf r := by
  have hstep : m.step env (.request bytes h) = .of (m.auth.request env bytes h) := if_pos hrun
  have hreply : m.reply env (.request bytes h) = (m.auth.request env bytes h).1.toOption :=
    if_pos hrun
  rw [hstep, hreply]
  exact request_of_dispatch hd

theorem StoreInv.step (hinit : env.InitNeverSays ctap2ErrKeyStoreFull) {m : Machine} (hm : StoreInv m)
    {e : Event} (he : CountsAreValid env m e) : StoreInv (m.step env e) ∧ RkStep env m e := by
  cases e with
  | reboot =>
      have hstep : m.step env .reboot = .of (m.auth.reboot env) := rfl
      unfold RkStep
      rw [hstep, hm.persisted.reboot]
      exact ⟨⟨⟨rfl, hm.persisted.2⟩, hm.store.congr ⟨rfl, rfl⟩⟩, rfl⟩
  | request bytes h =>
      unfold RkStep
      dsimp only
      by_cases hrun : m.running = true
      case neg =>
        have hstep : m.step env (.request bytes h) =
            { m with auth := { m.auth with trace := [] } } := if_neg hrun
        rw [if_neg hrun, hstep]
        exact ⟨⟨hm.persisted, hm.store.congr ⟨rfl, rfl⟩⟩, rfl⟩
      case pos =>
        have hpersisted : Persisted (m.step env (.request bytes h)).auth := by
          have hstep : m.step env (.request bytes h) = .of (m.auth.request env bytes h) :=
            if_pos hrun
          rw [hstep]
          exact hm.persisted.request
        rcases hd : m.auth.dispatch env bytes h with ⟨r, t⟩
        obtain ⟨hauth, hstatus⟩ := step_request hrun hd
        have hsame : SameStore t (m.step env (.request bytes h)).auth ∧
            (m.step env (.request bytes h)).auth.trace = t.trace := by
          rcases hauth with hauth | ⟨c, hauth⟩ <;> rw [hauth] <;> exact ⟨⟨rfl, rfl⟩, rfl⟩
        have hcounts : CountsValid t := fun e hmem => he e (hsame.2 ▸ hmem)
        obtain ⟨hok, hdone⟩ := dispatch_rkStep hinit hm.store hd hcounts
        rw [if_pos hrun, hstatus, hsame.1.1]
        exact ⟨⟨hpersisted, hok.congr hsame.1⟩, hdone⟩

end Step

/-- The store of resident keys over every run from a store that was reset, as
long as the ids that are made have counts that a valid slot can have: the
number of resident keys is the number of valid slots, no two of these hold the
same user of the same relying party, and each request does to the slots what
it may do. -/
theorem key_store_kept (hinit : env.InitNeverSays ctap2ErrKeyStoreFull) (m : Machine)
    (hpersisted : Persisted m.auth)
    (hrks : m.auth.rks = List.replicate ctapRkSize ResidentKey.erased)
    (hstored : m.auth.state.rkStored = 0) (es : List Event)
    (hes : Transition.Along (Machine.step env) (CountsAreValid env) m es) :
    RkStoreOk (Transition.run (Machine.step env) m es).auth ∧
      Transition.Along (Machine.step env) (RkStep env) m es := by
  have hinv : StoreInv m := ⟨hpersisted, .reset hrks hstored⟩
  have hkept : ∀ n e, StoreInv n → CountsAreValid env n e → StoreInv (n.step env e) :=
    fun _ _ hn he => (hn.step hinit he).1
  exact ⟨(Transition.invariant_run hkept hinv hes).store,
    .of_invariant hkept (fun _ _ hn he => (hn.step hinit he).2) hinv hes⟩

/-- Two users, the first of them twice, and a reset. -/
def demoStore : List Event :=
  [Sample.request ctapMakeCredentialCmd (Sample.createResidentOps [1]),
    Sample.request ctapMakeCredentialCmd (Sample.createResidentOps [2]),
    Sample.request ctapMakeCredentialCmd (Sample.createResidentOps [1]),
    Sample.request ctapResetCmd []]

theorem initNeverSays_sample : Sample.env.InitNeverSays ctap2ErrKeyStoreFull := by
  intro request e he
  have herr : e = 1 := by
    simp only [Sample.env, Sample.reader] at he
    split at he
    · exact (Except.error.inj he).symm
    · exact nomatch he
  rw [herr]
  decide

theorem key_store_kept_demo :
    RkStoreOk (Transition.run (Machine.step Sample.env)
        (Machine.powerUp Sample.env Sample.device) demoStore).auth ∧
      Transition.Along (Machine.step Sample.env) (RkStep Sample.env)
        (Machine.powerUp Sample.env Sample.device) demoStore :=
  key_store_kept Sample.env initNeverSays_sample (Machine.powerUp Sample.env Sample.device)
    ⟨by decide +kernel, by decide +kernel, by decide +kernel⟩ (by decide +kernel)
    (by decide +kernel) demoStore (by decide +kernel)

end NitrokeyFido2.Ctap
