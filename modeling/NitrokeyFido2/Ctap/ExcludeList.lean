import NitrokeyFido2.Ctap.Creation
import NitrokeyFido2.Ctap.RelyingParty

/-!
The exclude list of a makeCredential.

Each descriptor is looked at right after it was parsed: its id by the length it
had, in the buffer of the descriptor or, where the length is no credential's, in
the custom id of the assertion state. The level of protection is read from the
buffer in every case.
-/

namespace NitrokeyFido2.Ctap

open Proc Resumption

variable (env : Env)

/-! ### The descriptors -/

/-- The descriptors of an array as the loop gets to see them, if all of them
parse. -/
def listEntries : ℕ → env.reader.Cursor → WithCustom CredentialDescriptor →
    Option (List (WithCustom CredentialDescriptor))
  | 0, _, _ => some []
  | n + 1, arr, s =>
      match parseCredentialDescriptor env arr s with
      | (.error _, _) => none
      | (.ok (), t) =>
          match env.reader.advance arr with
          | .ok arr => (listEntries n arr t).map (t :: ·)
          | .error _ => none

section Entry

variable (s : Secrets) (rp : RpId) (pinAuthPresent : Bool) (e : WithCustom CredentialDescriptor)

/-- The descriptor ends the request. -/
def excludes : Bool :=
  ctapAuthenticateCredential env s e.custom rp e.val &&
    checkCredentialMetadata env s e.val.credential.id pinAuthPresent true

/-- A credential id of this device for the relying party. -/
def IsOurId : Prop :=
  e.val.type = pubKeyCredPubKey ∧
    isAuthenticId env s (env.sha256 rp.bytes).bytes e.val.credential.id = true

/-- A key handle of this device for the relying party. -/
def IsOurHandle : Prop :=
  e.val.type = pubKeyCredCtap1 ∧
    isAuthenticKeyHandle env s (env.sha256 rp.bytes).bytes e.val.credential.id.bytes = true

/-- An id of another length that looks like an extension request. -/
def IsExtensionId : Prop :=
  e.val.type = pubKeyCredCustom ∧ isExtensionRequest e.custom.id.bytes e.custom.size.toNat = true

/-- What the buffer holds in the place of the level lets the request see the
descriptor. -/
def Visible : Prop := checkCredentialMetadata env s e.val.credential.id pinAuthPresent true = true

/-- A credential of this device for the relying party which the request may
see; a key handle has no level of protection. -/
def ShouldExclude : Prop :=
  IsOurId env s rp e ∧ Visible env s pinAuthPresent e ∨ IsOurHandle env s rp e

variable {env s rp pinAuthPresent e}

theorem excludes_iff : excludes env s rp pinAuthPresent e = true ↔
    (IsOurId env s rp e ∨ IsOurHandle env s rp e ∨ IsExtensionId e) ∧
      Visible env s pinAuthPresent e := by
  unfold excludes ctapAuthenticateCredential IsOurId IsOurHandle IsExtensionId Visible
  rw [Bool.and_eq_true]
  refine and_congr_left fun _ => ?_
  dsimp only
  split
  case isTrue h => simp +decide [h]
  case isFalse hpub =>
    split
    case isTrue h => simp +decide [h, u2fAuthenticateCredential]
    case isFalse hctap =>
      split
      case isTrue h => simp +decide [h]
      case isFalse hcustom => simp [hpub, hctap, hcustom]

end Entry

variable {env}

/-! ### The loop -/

section Loop

variable {rp : RpId} {pinAuthPresent : Bool} {h : Answers}

/-- The status of a request that is ended by its exclude list. -/
def excludedStatus (a : Authenticator) (h : Answers) : UInt8 :=
  if presenceStatus (a.presence h) = 0 then ctap2ErrCredentialExcluded
  else presenceStatus (a.presence h)

theorem presenceStatus_ne_excluded (ret : ℤ) : presenceStatus ret ≠ ctap2ErrCredentialExcluded := by
  unfold presenceStatus
  split_ifs <;> decide

/-- A list with a descriptor that ends the request asks for a touch, and one
without is passed. -/
theorem checkExcludeList_ends {n : ℕ} {arr : env.reader.Cursor} {d : CredentialDescriptor}
    {l : List (WithCustom CredentialDescriptor)} {a : Authenticator}
    (hl : listEntries env n arr ⟨d, a.gas.custom⟩ = some l) :
    Ends (CtapM.answered h (checkExcludeList env rp pinAuthPresent n arr d)) a fun r _ =>
      r = if l.any (excludes env a.secrets rp pinAuthPresent) then
        .error (.status (excludedStatus a h)) else .ok () := by
  induction n generalizing arr d l a with
  | zero =>
      obtain rfl := Option.some.inj hl
      exact Ends.pure rfl
  | succ n ih =>
      rw [listEntries] at hl
      rcases hparse : parseCredentialDescriptor env arr ⟨d, a.gas.custom⟩ with ⟨c | u, t⟩ <;>
        rw [hparse] at hl
      · cases hl
      rcases hadvance : env.reader.advance arr with c | arr' <;> rw [hadvance] at hl
      · cases hl
      obtain ⟨l', hl', rfl⟩ := Option.map_eq_some_iff.mp hl
      have hparsed : withCustom (parseCredentialDescriptor env arr) d a =
          (.ok (.ok (), t.val), { a with gas := { a.gas with custom := t.custom } }) := by
        unfold withCustom
        dsimp only
        rw [hparse]
      have hexcludes : excludes env a.secrets rp pinAuthPresent t = true ↔
          ctapAuthenticateCredential env a.secrets t.custom rp t.val ∧
            checkCredentialMetadata env a.secrets t.val.credential.id pinAuthPresent true :=
        Bool.and_eq_true_iff
      unfold checkExcludeList
      simp only [CtapM.answered, Routine.answered_bind, Routine.answered_liftM]
      refine Ends.bind_ok hparsed ?_
      dsimp only
      rw [Routine.answered_bind]
      refine Ends.get_bind ?_
      dsimp only
      by_cases hfirst : excludes env a.secrets rp pinAuthPresent t = true
      · rw [List.any_cons, hfirst, Bool.true_or, if_pos rfl, if_pos (hexcludes.mp hfirst)]
        rw [Routine.answered_bind]
        refine Ends.bind_ok (answered_requestTest h _) ?_
        simp only [Routine.answered_bind, Routine.answered_liftM]
        have hpresence : Authenticator.presence { a with gas := { a.gas with custom := t.custom } } h =
          a.presence h := rfl
        rw [hpresence]
        unfold excludedStatus
        split
        case isTrue hzero =>
          rw [hzero, checkRetr, failIf_neg (fun h => h rfl)]
          exact Ends.stop rfl
        case isFalse hne =>
          rw [checkRetr, failIf_pos hne]
          exact Ends.of_eq (bind_of_error rfl) rfl
      · rw [List.any_cons, Bool.eq_false_of_not_eq_true hfirst, Bool.false_or,
          if_neg fun hboth => hfirst (hexcludes.mpr hboth)]
        rw [hadvance]
        exact ih (a := { a with gas := { a.gas with custom := t.custom } }) hl'

end Loop

/-! ### The request -/

section Request

variable {mc : MakeCredential env.reader.Cursor} {a s u t : Authenticator} {h : Answers}

/-- The request without its exclude list. -/
def MakeCredential.unlisted {C : Type} (mc : MakeCredential C) : MakeCredential C :=
  { mc with excludeList := none }

theorem answered_checkMakeCredential {arr : env.reader.Cursor} (hlist : mc.excludeList = some arr)
    (h : Answers) :
    CtapM.answered h (checkMakeCredential env mc) =
      CtapM.answered h (checkMakeCredential env mc.unlisted) >>= fun _ =>
        CtapM.answered h (checkExcludeList env mc.rp (mc.pinAuthPresent ≠ 0) mc.excludeListSize arr
          (uninitDescriptor env .excludedCredential)) := by
  unfold checkMakeCredential MakeCredential.unlisted
  rw [hlist]
  simp only [CtapM.answered, Routine.answered_bind, Routine.answered_pure, bind_assoc, pure_bind]

/-- The other checks leave a trace and nothing else. -/
theorem checkMakeCredential_unlisted_ok
    (hrun : CtapM.answered h (checkMakeCredential env mc.unlisted) s = (.ok (), u)) :
    ∃ events, u = { s with trace := events } := by
  unfold checkMakeCredential MakeCredential.unlisted at hrun
  simp only [CtapM.answered, Routine.answered_bind, Routine.answered_liftM] at hrun
  obtain ⟨_, a₁, hempty, hrest⟩ := bind_ok.mp hrun
  obtain ⟨_, a₂, hmissing, hrest⟩ := bind_ok.mp hrest
  rw [get_bind] at hrest
  obtain ⟨_, a₃, hrequired, hrest⟩ := bind_ok.mp hrest
  obtain ⟨_, a₄, hverify, hrest⟩ := bind_ok.mp hrest
  obtain ⟨_, a₅, hup, hret⟩ := bind_ok.mp hrest
  rw [failIf, stopIf_ok] at hmissing hrequired hup
  obtain ⟨-, rfl⟩ := hmissing
  obtain ⟨-, rfl⟩ := hrequired
  obtain ⟨-, rfl⟩ := hup
  obtain ⟨-, rfl⟩ := pure_ok.mp hret
  have hsame : a₁ = s := by
    rw [Routine.answered_ite] at hempty
    split at hempty
    · exact absurd hempty (emptyPinAuth_not_ok h _ _)
    · exact (pure_ok.mp hempty).2.symm
  subst hsame
  split at hverify
  · exact ⟨_, verifyPinAuth_ok env hverify⟩
  · exact ⟨_, (pure_ok.mp hverify).2.symm⟩

/-- What follows the checks. -/
def createChecked (env : Env) (mc : MakeCredential env.reader.Cursor) (w : Writer) : CtapM Writer := do
  let w ← encode w (env.writer.emitAll [.createMap 3, .int 1, .text "packed"])
  let (h, attested) ← ctapMakeAuthData env mc.rp mc.credInfo mc.extensions
  let authData ← appendExtensions env mc.extensions h attested
  let w ← encode w (env.writer.emitAll [.int 2, .byteString authData])
  let sigder ← signAttestation env authData mc.clientDataHash
  encode w (do
    ctapAddAttestStatement env sigder
    env.writer.emit .closeContainer)

theorem answered_ctapMakeCredential_checked (w : Writer) (request : List UInt8) (h : Answers) :
    CtapM.answered h (ctapMakeCredential env w request) =
      parsedWithCustom (ctapParseMakeCredential env request) default >>= fun mc =>
        CtapM.answered h (checkMakeCredential env mc) >>= fun _ =>
          CtapM.answered h (createChecked env mc w) := by
  unfold ctapMakeCredential createChecked
  simp only [CtapM.answered, Routine.answered_bind, Routine.answered_liftM]

instance : Fact (ctap2ErrKeyStoreFull ≠ ctap2ErrCredentialExcluded) := ⟨by decide⟩

/-- A request that has passed its exclude list is not excluded any more. -/
theorem createChecked_never (mc : MakeCredential env.reader.Cursor) (w : Writer) :
    RoutineNeverSays ctap2ErrCredentialExcluded (createChecked env mc w) := by
  unfold createChecked
  refine Routine.Never.seq inferInstance fun w => Routine.Never.seq inferInstance fun made => ?_
  obtain ⟨hd, attested⟩ := made
  dsimp only
  infer_instance

theorem parsedWithCustom_onlyCustom {τ : Type} {m : Parse (WithCustom τ) Unit} {v w : τ}
    (hrun : parsedWithCustom m v a = (.ok w, s)) :
    ∃ custom, s = { a with gas := { a.gas with custom := custom } } := by
  unfold parsedWithCustom at hrun
  obtain ⟨⟨r, t⟩, b, hparse, hret⟩ := bind_ok.mp hrun
  refine ⟨_, Eq.trans ?_ (Prod.mk.inj hparse).2.symm⟩
  rcases r with c | _
  · obtain ⟨_, b', hretr, hpure⟩ := bind_ok.mp hret
    rw [checkRetr, failIf, stopIf_ok] at hretr
    rw [← (pure_ok.mp hpure).2, hretr.2]
  · exact (pure_ok.mp hret).2.symm

/-- A makeCredential that passes all checks but that of its exclude list, whose
descriptors all parse: the request and the descriptors. -/
def Authenticator.listRequest (env : Env) (a : Authenticator) (bytes : List UInt8) (h : Answers) :
    Option (MakeCredential env.reader.Cursor × List (WithCustom CredentialDescriptor)) :=
  if bytes.getD 0 0 = ctapMakeCredentialCmd ∧ ¬ Locked a then
    match parsedWithCustom (ctapParseMakeCredential env bytes.tail) default { a with trace := [] } with
    | (.ok mc, s) =>
        match CtapM.answered h (checkMakeCredential env mc.unlisted) s with
        | (.ok (), _) => mc.excludeList.bind fun arr =>
            (listEntries env mc.excludeListSize arr
              ⟨uninitDescriptor env .excludedCredential, s.gas.custom⟩).map (mc, ·)
        | (.error _, _) => none
    | (.error _, _) => none
  else none

variable {bytes : List UInt8} {l : List (WithCustom CredentialDescriptor)}

theorem request_excluded_iff (hl : a.listRequest env bytes h = some (mc, l)) :
    (a.request env bytes h).1.toOption.map (·.status) = some ctap2ErrCredentialExcluded ↔
      presenceStatus (a.presence h) = 0 ∧
        l.any (excludes env a.secrets mc.rp (mc.pinAuthPresent ≠ 0)) = true := by
  unfold Authenticator.listRequest at hl
  split at hl
  case isFalse => cases hl
  case isTrue hgoes =>
    obtain ⟨hcmd, hopen⟩ := hgoes
    rcases hparse : parsedWithCustom (ctapParseMakeCredential env bytes.tail) default
      { a with trace := [] } with ⟨e | mc', s⟩ <;> rw [hparse] at hl
    · cases hl
    dsimp only at hl
    rcases hcheck : CtapM.answered h (checkMakeCredential env mc'.unlisted) s with ⟨e | u, s'⟩ <;>
      rw [hcheck] at hl
    · cases hl
    obtain ⟨arr, hlist, hentries⟩ := Option.bind_eq_some_iff.mp hl
    obtain ⟨l', hentries, heq⟩ := Option.map_eq_some_iff.mp hentries
    cases heq
    obtain ⟨custom, hs⟩ := parsedWithCustom_onlyCustom hparse
    obtain ⟨events, hs'⟩ := checkMakeCredential_unlisted_ok hcheck
    -- the list is looked at in a state that differs in its custom id and its trace
    have hsecrets : s'.secrets = a.secrets := by rw [hs', hs]
    have hpresence : s'.presence h = a.presence h := by
      rw [hs', hs]
      rfl
    have hcustom : s'.gas.custom = s.gas.custom := by rw [hs']
    have hlisted := @checkExcludeList_ends env mc.rp (mc.pinAuthPresent ≠ 0) h _ _ _ _ s'
      (hcustom ▸ hentries)
    rw [hsecrets] at hlisted
    rcases hloop : CtapM.answered h (checkExcludeList env mc.rp (mc.pinAuthPresent ≠ 0)
      mc.excludeListSize arr (uninitDescriptor env .excludedCredential)) s' with ⟨r, t⟩
    have hr := hlisted.elim hloop
    have hrun : CtapM.answered h (ctapMakeCredential env freshWriter bytes.tail) { a with trace := [] } =
        (CtapM.answered h (checkExcludeList env mc.rp (mc.pinAuthPresent ≠ 0) mc.excludeListSize arr
          (uninitDescriptor env .excludedCredential)) >>= fun _ =>
            CtapM.answered h (createChecked env mc freshWriter)) s' := by
      rw [answered_ctapMakeCredential_checked, bind_of_ok hparse, answered_checkMakeCredential hlist,
        bind_assoc, bind_of_ok hcheck]
    have hstatus {r : Except Stop Writer} {t : Authenticator}
        (hend : CtapM.answered h (ctapMakeCredential env freshWriter bytes.tail)
          { a with trace := [] } = (r, t)) :=
      (request_of_dispatch ((dispatch_of_not_locked hcmd hopen).trans (bind_some_of_eq hend))).2
    split at hr
    case isTrue hany =>
      subst hr
      rw [hstatus (hrun.trans (bind_of_error hloop)), hany]
      simp only [Except.map, statusOf, Option.some.injEq, and_true, excludedStatus, hpresence]
      split
      case isTrue hzero => simp [hzero]
      case isFalse hne =>
        exact iff_of_false (presenceStatus_ne_excluded _) hne
    case isFalse hnone =>
      subst hr
      refine iff_of_false (fun heq => ?_) fun hboth => hnone hboth.2
      rcases hrest : CtapM.answered h (createChecked env mc freshWriter) t with ⟨r, t'⟩
      rw [hstatus (hrun.trans ((bind_of_ok hloop).trans hrest))] at heq
      have hnever := ((createChecked_never mc freshWriter).answered h.answer).ne t
      rw [hrest] at hnever
      rcases r with (c | _) | w
      · exact hnever (congrArg (fun c => Except.error (Stop.status c)) (Option.some.inj heq))
      · cases heq
      · cases heq

/-- The request is ended by its list exactly if that names a credential of this
device. -/
def ExcludesExactly (env : Env) (a : Authenticator) (bytes : List UInt8) (h : Answers)
    (mc : MakeCredential env.reader.Cursor) (l : List (WithCustom CredentialDescriptor)) : Prop :=
  (a.request env bytes h).1.toOption.map (·.status) = some ctap2ErrCredentialExcluded ↔
    presenceStatus (a.presence h) = 0 ∧
      ∃ e ∈ l, ShouldExclude env a.secrets mc.rp (mc.pinAuthPresent ≠ 0) e

/-- A visible credential id is in the list, or what the classification gets
wrong does not decide: an id of another length that is let through has a key
handle next to it, and a key handle that is not seen has another descriptor that
ends the request. -/
def ListDecides (env : Env) (s : Secrets) (rp : RpId) (pinAuthPresent : Bool)
    (l : List (WithCustom CredentialDescriptor)) : Prop :=
  (∃ e ∈ l, IsOurId env s rp e ∧ Visible env s pinAuthPresent e) ∨
    ((∃ e ∈ l, IsExtensionId e ∧ Visible env s pinAuthPresent e) → ∃ e ∈ l, IsOurHandle env s rp e) ∧
      ((∃ e ∈ l, IsOurHandle env s rp e) →
        ∃ e ∈ l, (IsOurHandle env s rp e ∨ IsExtensionId e) ∧ Visible env s pinAuthPresent e)

theorem listDecides_iff {s : Secrets} {rp : RpId} {pinAuthPresent : Bool}
    {l : List (WithCustom CredentialDescriptor)} :
    (l.any (excludes env s rp pinAuthPresent) = true ↔
      ∃ e ∈ l, ShouldExclude env s rp pinAuthPresent e) ↔ ListDecides env s rp pinAuthPresent l := by
  have hany : l.any (excludes env s rp pinAuthPresent) = true ↔
      (∃ e ∈ l, IsOurId env s rp e ∧ Visible env s pinAuthPresent e) ∨
        ((∃ e ∈ l, IsOurHandle env s rp e ∧ Visible env s pinAuthPresent e) ∨
          ∃ e ∈ l, IsExtensionId e ∧ Visible env s pinAuthPresent e) := by
    simp only [List.any_eq_true, excludes_iff, or_and_right, and_or_left, exists_or]
  have hshould : (∃ e ∈ l, ShouldExclude env s rp pinAuthPresent e) ↔
      (∃ e ∈ l, IsOurId env s rp e ∧ Visible env s pinAuthPresent e) ∨
        ∃ e ∈ l, IsOurHandle env s rp e := by
    simp only [ShouldExclude, and_or_left, exists_or]
  have hseen : (∃ e ∈ l, (IsOurHandle env s rp e ∨ IsExtensionId e) ∧ Visible env s pinAuthPresent e) ↔
      (∃ e ∈ l, IsOurHandle env s rp e ∧ Visible env s pinAuthPresent e) ∨
        ∃ e ∈ l, IsExtensionId e ∧ Visible env s pinAuthPresent e := by
    simp only [or_and_right, and_or_left, exists_or]
  have hhandle : (∃ e ∈ l, IsOurHandle env s rp e ∧ Visible env s pinAuthPresent e) →
      ∃ e ∈ l, IsOurHandle env s rp e := fun ⟨e, he, hours, _⟩ => ⟨e, he, hours⟩
  unfold ListDecides
  rw [hany, hshould, hseen]
  by_cases hours : ∃ e ∈ l, IsOurId env s rp e ∧ Visible env s pinAuthPresent e
  · exact iff_of_true (iff_of_true (.inl hours) (.inl hours)) (.inl hours)
  · rw [or_iff_right hours, or_iff_right hours, or_iff_right hours]
    refine Iff.trans iff_def ?_
    rw [or_imp, and_iff_right hhandle]

theorem exclude_list_iff (hl : a.listRequest env bytes h = some (mc, l)) :
    ExcludesExactly env a bytes h mc l ↔
      (presenceStatus (a.presence h) = 0 →
        ListDecides env a.secrets mc.rp (mc.pinAuthPresent ≠ 0) l) := by
  unfold ExcludesExactly
  rw [request_excluded_iff hl, and_congr_right_iff, listDecides_iff]

end Request

/-! ### An id that nobody issued -/

instance (env : Env) (s : Secrets) (rp : RpId) (e : WithCustom CredentialDescriptor) :
    Decidable (IsOurId env s rp e) :=
  inferInstanceAs (Decidable (_ ∧ _))

instance (env : Env) (s : Secrets) (rp : RpId) (e : WithCustom CredentialDescriptor) :
    Decidable (IsOurHandle env s rp e) :=
  inferInstanceAs (Decidable (_ ∧ _))

instance (env : Env) (s : Secrets) (pinAuthPresent : Bool) (e : WithCustom CredentialDescriptor) :
    Decidable (Visible env s pinAuthPresent e) :=
  inferInstanceAs (Decidable (_ = _))

instance (env : Env) (s : Secrets) (rp : RpId) (pinAuthPresent : Bool)
    (e : WithCustom CredentialDescriptor) : Decidable (ShouldExclude env s rp pinAuthPresent e) :=
  inferInstanceAs (Decidable (_ ∧ _ ∨ _))

/-- A makeCredential that excludes one id. -/
def demoExcluding (id : List UInt8) : List UInt8 :=
  ctapMakeCredentialCmd :: Sample.encodeOps (.createMap 5 :: Sample.createEntries [1] ++
    [.int 5, .createArray 1, .createMap 2, .text "id", .byteString id, .text "type",
      .text "public-key"])

set_option maxRecDepth 100000 in
theorem demoExcluding_listed :
    (demoDevice.listRequest Sample.env (demoExcluding (Sample.twoIds.headD [])) Sample.touch).isSome =
      true := by
  decide +kernel

theorem exclude_list_iff_demo :
    ∃ mc l, demoDevice.listRequest Sample.env (demoExcluding (Sample.twoIds.headD [])) Sample.touch =
        some (mc, l) ∧
      (ExcludesExactly Sample.env demoDevice (demoExcluding (Sample.twoIds.headD [])) Sample.touch
          mc l ↔
        (presenceStatus (demoDevice.presence Sample.touch) = 0 →
          ListDecides Sample.env demoDevice.secrets mc.rp (mc.pinAuthPresent ≠ 0) l)) := by
  obtain ⟨⟨mc, l⟩, hl⟩ := Option.isSome_iff_exists.mp demoExcluding_listed
  exact ⟨mc, l, hl, exclude_list_iff hl⟩

/-- An id of thirty bytes that no device has issued. -/
def demoForeignId : List UInt8 :=
  [0, 0, 0, 0, 0x8C, 0x27, 0x90, 0xF6] ++ List.replicate 22 0

set_option maxRecDepth 100000 in
/-- A fresh device refuses to make a credential because of that id. -/
theorem exclude_list_counterexample :
    ∃ mc l, (Machine.powerUp Sample.env Sample.device).auth.listRequest Sample.env
        (demoExcluding demoForeignId) Sample.touch = some (mc, l) ∧
      ¬ ExcludesExactly Sample.env (Machine.powerUp Sample.env Sample.device).auth
        (demoExcluding demoForeignId) Sample.touch mc l := by
  have hrun : ((Machine.powerUp Sample.env Sample.device).auth.listRequest Sample.env
      (demoExcluding demoForeignId) Sample.touch).any (fun r => r.2.all fun e =>
        ¬ ShouldExclude Sample.env (Machine.powerUp Sample.env Sample.device).auth.secrets r.1.rp
          (r.1.pinAuthPresent ≠ 0) e) = true := by
    decide +kernel
  have hstatus : ((Machine.powerUp Sample.env Sample.device).auth.request Sample.env
      (demoExcluding demoForeignId) Sample.touch).1.toOption.map (·.status) =
        some ctap2ErrCredentialExcluded := by
    decide +kernel
  obtain ⟨⟨mc, l⟩, hl, hall⟩ := (Option.any_eq_true _ _).mp hrun
  refine ⟨mc, l, hl, fun hexact => ?_⟩
  obtain ⟨-, e, he, hshould⟩ := hexact.mp hstatus
  exact of_decide_eq_true (List.all_eq_true.mp hall e he) hshould

end NitrokeyFido2.Ctap
