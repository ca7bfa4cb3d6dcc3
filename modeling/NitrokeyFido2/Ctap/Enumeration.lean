import NitrokeyFido2.Ctap.Management

/-!
The enumeration of resident keys.

The Next commands come without a pinAuth. They are served as long as a flag
is set, and the flags are set by the Begin commands, whose pinAuth was right;
a run is looked at from the step that set a flag on.
-/

namespace NitrokeyFido2.Ctap

open Proc Resumption Transition

variable (env : Env)

/-! ### Steps of an enumeration -/

/-- The commands that list relying parties or credentials. -/
def CredMgmt.Enumerates (cm : CredMgmt) : Prop :=
  cm.cmd = cmCmdRPBegin ∨ cm.cmd = cmCmdRPNext ∨ cm.cmd = cmCmdRKBegin ∨ cm.cmd = cmCmdRKNext

instance (cm : CredMgmt) : Decidable cm.Enumerates := inferInstanceAs (Decidable (_ ∨ _ ∨ _ ∨ _))

/-- The request gets past the parser and the check of its pinAuth, while there
are resident keys. -/
structure Handled (m : Machine) (bytes : List UInt8) (cm : CredMgmt) : Prop where
  running : m.running = true
  command : isManagement bytes
  unlocked : ¬ Locked m.auth
  parsed : parsedManagement env m.auth bytes.tail = some cm
  verified : cm.NeedsPinAuth → cm.Verified env m.auth
  resident : m.auth.state.rkStored ≠ 0

/-- An RPBegin (RKBegin) whose pinAuth is right. -/
def Begins (cmd : ℤ) (m : Machine) : Event → Prop
  | .request bytes _ => ∃ cm, Handled env m bytes cm ∧ cm.cmd = cmd ∧ cm.Verified env m.auth
  | .reboot => False

/-- Another command than those that enumerate, or an enumeration that finds
nothing more. -/
def EndsEnumeration (m : Machine) : Event → Prop
  | .request bytes h => ∃ cm, Handled env m bytes cm ∧ (¬ cm.Enumerates ∨
      ∃ r, m.reply env (.request bytes h) = some r ∧ r.status = ctap2ErrNoCredentials)
  | .reboot => True

/-- The command is answered with data. -/
def Delivers (cmd : ℤ) (m : Machine) : Event → Prop
  | .request bytes h =>
      isManagement bytes ∧ (∃ cm, parsedManagement env m.auth bytes.tail = some cm ∧ cm.cmd = cmd) ∧
        ∃ r, m.reply env (.request bytes h) = some r ∧ r.status = 0 ∧
          r.data ≠ env.writer.buffer (Writer.init ctapResponseBufferSize)
  | .reboot => False

/-! ### The flags -/

section Flags

variable {env} {a t : Authenticator} {w : Writer} {cm : CredMgmt}

abbrev noCredentialsLeft : Except Stop Writer := .error (.status ctap2ErrNoCredentials)

/-- What listing an entry does to the flags, where one of them is asked for:
both are cleared if there is no entry to be listed, and none is otherwise. -/
def Listed (auth : Bool) (a : Authenticator) (r : Except Stop Writer) (t : Authenticator) : Prop :=
  (r = noCredentialsLeft ∧ t.credMgmt.rpAuth = false ∧ t.credMgmt.rkAuth = false) ∨
    (r ≠ noCredentialsLeft ∧ auth = true ∧ t.credMgmt.rpAuth = a.credMgmt.rpAuth ∧
      t.credMgmt.rkAuth = a.credMgmt.rkAuth)

/-- An entry that is encoded, and the cursor behind it. -/
theorem listed_encode {m : Encode Unit} [Never ctap2ErrNoCredentials m]
    {f : CredMgmtState → CredMgmtState} (hf : ∀ c, (f c).rpAuth = c.rpAuth ∧ (f c).rkAuth = c.rkAuth) :
    Ends (encode w m >>= fun w => modifyCredMgmt f >>= fun _ => pure w) a (Listed true a) := by
  refine Ends.seq (P := fun r t => t = a ∧ r ≠ noCredentialsLeft) ?_ ?_ ?_
  · have hreads : Reads (encode w m) := inferInstance
    have hnever : StepNeverSays ctap2ErrNoCredentials (encode w m) := inferInstance
    exact ⟨hreads.eq a, hnever.ne a⟩
  · rintro w t ⟨rfl, -⟩
    exact .inr ⟨(fun h => nomatch h), rfl, hf _⟩
  · rintro e t ⟨rfl, he⟩
    exact .inr ⟨he, rfl, rfl, rfl⟩

theorem listed_none {auth : Bool} : Ends noCredentials a (Listed auth a) := .inl ⟨rfl, rfl, rfl⟩

variable (env) in
theorem credMgmtRp_listed (w : Writer) (rpCount : ℕ) (a : Authenticator) :
    Ends (credMgmtRp env w rpCount) a (Listed a.credMgmt.rpAuth a) := by
  unfold credMgmtRp
  refine Ends.get_bind (Ends.ite (fun _ => listed_none) fun h => ?_)
  rw [Bool.eq_true_of_not_eq_false (not_or.mp h).2]
  have : Fact (ctap2ErrCborParsing ≠ ctap2ErrNoCredentials) := ⟨by decide⟩
  exact listed_encode fun _ => ⟨rfl, rfl⟩

variable (env) in
theorem credMgmtRk_listed (w : Writer) (rkCount : ℕ) (a : Authenticator) :
    Ends (credMgmtRk env w rkCount) a (Listed a.credMgmt.rkAuth a) := by
  unfold credMgmtRk
  refine Ends.get_bind (Ends.ite (fun _ => listed_none) fun h => ?_)
  rw [Bool.eq_true_of_not_eq_false (not_or.mp h).2]
  have : Fact (ctap2ErrCborParsing ≠ ctap2ErrNoCredentials) := ⟨by decide⟩
  exact listed_encode fun _ => ⟨rfl, rfl⟩

/-- The flags before a command is carried out. -/
structure Prepared (cm : CredMgmt) (a t : Authenticator) : Prop where
  rp : t.credMgmt.rpAuth = true → cm.cmd = cmCmdRPBegin ∨ a.credMgmt.rpAuth = true
  rk : t.credMgmt.rkAuth = true →
    cm.cmd = cmCmdRKBegin ∨ (cm.cmd ≠ cmCmdRPBegin ∧ a.credMgmt.rkAuth = true)
  other : ¬ cm.Enumerates → t.credMgmt.rpAuth = false ∧ t.credMgmt.rkAuth = false

theorem credMgmtPrepare_prepared (cm : CredMgmt) (a : Authenticator) :
    Ends (credMgmtPrepare cm) a fun r t => (∃ counts, r = .ok counts) ∧ Prepared cm a t := by
  unfold credMgmtPrepare
  refine Ends.get_bind (Ends.ite (fun hrp => ?_) fun hrp => Ends.ite (fun hrk => ?_) fun hrk =>
    Ends.ite (fun hother => ?_) fun hnext => ?_)
  · exact ⟨⟨_, rfl⟩, fun _ => .inl hrp, (fun h => nomatch h), fun h => absurd (.inl hrp) h⟩
  · exact ⟨⟨_, rfl⟩, fun h => .inr h, fun _ => .inl hrk, fun h => absurd (.inr (.inr (.inl hrk))) h⟩
  · exact ⟨⟨_, rfl⟩, (fun h => nomatch h), (fun h => nomatch h), fun _ => ⟨rfl, rfl⟩⟩
  · refine ⟨⟨_, rfl⟩, fun h => .inr h, fun h => .inr ⟨hrp, h⟩, fun h => absurd ?_ h⟩
    by_cases hcmd : cm.cmd = cmCmdRKNext
    · exact .inr (.inr (.inr hcmd))
    · exact .inr (.inl (not_not.mp fun h => hnext ⟨hcmd, h⟩))

/-- What carrying a command out does to the flags. -/
structure FlagsKept (cm : CredMgmt) (a : Authenticator) (r : Except Stop Writer) (t : Authenticator) :
    Prop where
  rp : t.credMgmt.rpAuth = true → cm.cmd = cmCmdRPBegin ∨
    (a.credMgmt.rpAuth = true ∧ cm.Enumerates ∧ r ≠ noCredentialsLeft)
  rk : t.credMgmt.rkAuth = true → cm.cmd = cmCmdRKBegin ∨
    (a.credMgmt.rkAuth = true ∧ cm.Enumerates ∧ cm.cmd ≠ cmCmdRPBegin ∧ r ≠ noCredentialsLeft)
  servedRp : cm.cmd = cmCmdRPNext → ∀ w, r = .ok w → a.credMgmt.rpAuth = true
  servedRk : cm.cmd = cmCmdRKNext → ∀ w, r = .ok w → a.credMgmt.rkAuth = true

theorem FlagsKept.congr {b : Authenticator} {r : Except Stop Writer} (h : FlagsKept cm b r t)
    (hflags : b.credMgmt = a.credMgmt) : FlagsKept cm a r t := by
  obtain ⟨h₁, h₂, h₃, h₄⟩ := h
  rw [hflags] at h₁ h₂ h₃ h₄
  exact ⟨h₁, h₂, h₃, h₄⟩

theorem FlagsKept.of_listed {auth : Bool} {u : Authenticator} {r : Except Stop Writer}
    (hprepared : Prepared cm a u) (hlisted : Listed auth u r t) (henum : cm.Enumerates)
    (hrp : cm.cmd = cmCmdRPNext → auth = u.credMgmt.rpAuth)
    (hrk : cm.cmd = cmCmdRKNext → auth = u.credMgmt.rkAuth) : FlagsKept cm a r t := by
  rcases hlisted with ⟨rfl, htrp, htrk⟩ | ⟨hr, rfl, htrp, htrk⟩
  · rw [← Bool.not_eq_true] at htrp htrk
    exact ⟨fun h => absurd h htrp, fun h => absurd h htrk, (fun _ _ h => nomatch h),
      (fun _ _ h => nomatch h)⟩
  · refine ⟨fun h => ?_, fun h => ?_, fun hcmd _ _ => ?_, fun hcmd _ _ => ?_⟩
    · exact (hprepared.rp (htrp ▸ h)).imp_right fun ha => ⟨ha, henum, hr⟩
    · exact (hprepared.rk (htrk ▸ h)).imp_right fun ⟨hne, ha⟩ => ⟨ha, henum, hne, hr⟩
    · exact (hprepared.rp (hrp hcmd).symm).resolve_left (by rw [hcmd]; decide)
    · exact ((hprepared.rk (hrk hcmd).symm).resolve_left (by rw [hcmd]; decide)).2

theorem FlagsKept.of_other {u : Authenticator} {r : Except Stop Writer} (hprepared : Prepared cm a u)
    (hother : ¬ cm.Enumerates) (hsame : t.credMgmt = u.credMgmt) : FlagsKept cm a r t := by
  obtain ⟨hrp, hrk⟩ := hprepared.other hother
  rw [← hsame, ← Bool.not_eq_true] at hrp hrk
  exact ⟨fun h => absurd h hrp, fun h => absurd h hrk, fun h => absurd (.inr (.inl h)) hother,
    fun h => absurd (.inr (.inr (.inr h))) hother⟩

variable (env) in
theorem credMgmtCarriedOut_flags (w : Writer) (cm : CredMgmt) (a : Authenticator) :
    Ends (credMgmtCarriedOut env w cm) a (FlagsKept cm a) := by
  unfold credMgmtCarriedOut
  refine (credMgmtPrepare_prepared cm a).seq (fun counts u hu => ?_) fun e u hu => ?_
  swap
  · obtain ⟨⟨_, h⟩, -⟩ := hu
    exact nomatch h
  obtain ⟨-, hprepared⟩ := hu
  obtain ⟨rpCount, rkCount⟩ := counts
  dsimp only
  refine Ends.ite (fun hcmd => ?_) fun hmeta => Ends.ite (fun hcmd => ?_) fun hrp =>
    Ends.ite (fun hcmd => ?_) fun hrk => ?_
  · -- the metadata
    have hreads : Reads (Proc.get >>= fun a => encode w (ctapCredMetadata env a) : Device Writer) :=
      inferInstance
    refine (Ends.keeps hreads).mono fun r t ht => .of_other hprepared ?_ (by rw [← ht])
    unfold CredMgmt.Enumerates
    rw [hcmd]
    decide
  · refine (credMgmtRp_listed env w rpCount u).mono fun r t ht =>
      .of_listed hprepared ht (by unfold CredMgmt.Enumerates; tauto) (fun _ => rfl) fun h => ?_
    rcases hcmd with hcmd | hcmd <;> exact absurd (hcmd.symm.trans h) (by decide)
  · refine (credMgmtRk_listed env w rkCount u).mono fun r t ht =>
      .of_listed hprepared ht (by unfold CredMgmt.Enumerates; tauto) (fun h => ?_) fun _ => rfl
    rcases hcmd with hcmd | hcmd <;> exact absurd (hcmd.symm.trans h) (by decide)
  · -- a deletion, or a command that is not known
    have hkeeps : Keeps (Changed [.rks, .rkStored])
        (if cm.cmd = cmCmdRKDelete then credMgmtDelete w cm
          else fail ctap1ErrInvalidCommand : Device Writer) := inferInstance
    refine (Ends.keeps hkeeps).mono fun r t ht => .of_other hprepared ?_ (ht .cursors (by decide))
    unfold CredMgmt.Enumerates
    tauto

/-! ### Requests -/

/-- The parameters of a request that gets past the parser and the check of its
pinAuth, while there are resident keys. -/
structure GetsThrough (env : Env) (a : Authenticator) (request : List UInt8) (cm : CredMgmt) :
    Prop where
  parsed : parsedManagement env a request = some cm
  verified : cm.NeedsPinAuth → cm.Verified env a
  resident : a.state.rkStored ≠ 0

/-- What a request that does not get through does to the flags. -/
structure FlagsSpared (env : Env) (w : Writer) (request : List UInt8) (a : Authenticator)
    (r : Except Stop Writer) (t : Authenticator) : Prop where
  rp : t.credMgmt.rpAuth = true → a.credMgmt.rpAuth = true
  rk : t.credMgmt.rkAuth = true → a.credMgmt.rkAuth = true
  empty : ∀ cm, parsedManagement env a request = some cm →
    cm.cmd = cmCmdRPNext ∨ cm.cmd = cmCmdRKNext → ∀ w', r = .ok w' → w' = w

theorem FlagsSpared.of_error {request : List UInt8} {e : Stop} (h : t.credMgmt = a.credMgmt) :
    FlagsSpared env w request a (.error e) t :=
  ⟨fun ht => h ▸ ht, fun ht => h ▸ ht, fun _ _ _ _ h => nomatch h⟩

variable (env) in
theorem ctapCredMgmt_flags (w : Writer) (request : List UInt8) (a : Authenticator) :
    Ends (ctapCredMgmt env w request) a fun r t =>
      (∃ cm, GetsThrough env a request cm ∧ FlagsKept cm a r t) ∨
        ((∀ cm, ¬ GetsThrough env a request cm) ∧ FlagsSpared env w request a r t) := by
  obtain ⟨custom, hafter⟩ := @afterParser_eq env a request
  rcases hparsed : parsedManagement env a request with _ | cm
  · obtain ⟨e, he⟩ := ctapCredMgmt_of_none (w := w) hparsed
    refine Ends.of_eq he (.inr ⟨fun cm h => ?_, .of_error (by rw [hafter])⟩)
    exact nomatch hparsed.symm.trans h.parsed
  have hflags : (a.afterParser env request).credMgmt = a.credMgmt := by rw [hafter]
  have hstored : (a.afterParser env request).state.rkStored = a.state.rkStored := by rw [hafter]
  have hcarried (u : Authenticator) (hu : u.credMgmt = a.credMgmt)
      (hustored : u.state.rkStored = a.state.rkStored) (hv : cm.NeedsPinAuth → cm.Verified env a) :
      Ends (Proc.get >>= fun a => if a.state.rkStored = 0 ∧ cm.cmd ≠ cmCmdMetadata then pure w
        else credMgmtCarriedOut env w cm) u fun r t =>
        (∃ cm, GetsThrough env a request cm ∧ FlagsKept cm a r t) ∨
          ((∀ cm, ¬ GetsThrough env a request cm) ∧ FlagsSpared env w request a r t) := by
    refine Ends.get_bind (Ends.ite (fun h => ?_) fun h => ?_)
    · refine .inr ⟨fun cm' hcm' => hcm'.resident (hustored.symm.trans h.1), ?_⟩
      exact ⟨fun ht => hu ▸ ht, fun ht => hu ▸ ht, fun _ _ _ w' hw => (Except.ok.inj hw).symm⟩
    · refine (credMgmtCarriedOut_flags env w cm u).mono fun r t ht => ?_
      have hkept := ht.congr hu
      by_cases hresident : a.state.rkStored = 0
      · -- only the metadata are served without a resident key
        have hmeta : cm.cmd = cmCmdMetadata := not_not.mp fun hne => h ⟨hustored.trans hresident, hne⟩
        have hother : ¬ cm.Enumerates := by
          unfold CredMgmt.Enumerates
          rw [hmeta]
          decide
        refine .inr ⟨fun cm' hcm' => hcm'.resident hresident, fun hrp => ?_, fun hrk => ?_, ?_⟩
        · exact (hkept.rp hrp).elim (fun hc => absurd (.inl hc) hother) And.left
        · exact (hkept.rk hrk).elim (fun hc => absurd (.inr (.inr (.inl hc))) hother) And.left
        · intro cm' hcm' hnext
          obtain rfl := Option.some.inj (hparsed.symm.trans hcm')
          rw [hmeta] at hnext
          exact absurd hnext (by decide)
      · exact .inl ⟨cm, ⟨hparsed, hv, hresident⟩, hkept⟩
  unfold Ends
  rw [ctapCredMgmt_of_some hparsed]
  by_cases hneeds : cm.NeedsPinAuth
  · by_cases hv : cm.Verified env a
    · have hpin := @ctapCredMgmtPinauth_of_needed env (a.afterParser env request) _ hneeds
      rw [if_pos (CredMgmt.verified_afterParser.mpr hv)] at hpin
      rw [bind_of_ok hpin]
      exact hcarried _ hflags hstored fun _ => hv
    · have hpin := @ctapCredMgmtPinauth_of_needed env (a.afterParser env request) _ hneeds
      rw [if_neg fun h => hv (CredMgmt.verified_afterParser.mp h)] at hpin
      rw [bind_of_error hpin]
      refine .inr ⟨fun cm' h' => hv ?_, .of_error ?_⟩
      · obtain rfl := Option.some.inj (hparsed.symm.trans h'.parsed)
        exact h'.verified hneeds
      have hkeeps : Keeps (Changed [.attempts, .pin]) ctapDecrementPinAttempts := inferInstance
      exact (hkeeps.state _ .cursors (by decide)).trans hflags
  · rw [bind_of_ok (ctapCredMgmtPinauth_of_not_needed hneeds)]
    exact hcarried _ hflags hstored fun h => absurd h hneeds

end Flags

/-! ### Runs -/

section Run

variable {env} {m : Machine} {a : Authenticator} {bytes : List UInt8} {h : Answers}

/-- What a request other than credential management and a reset may change. -/
abbrev otherMayChange : List Aspect :=
  [.pin, .attempts, .rks, .rkStored, .saved, .creds, .custom, .flags, .userVerified,
    .events .presence, .events .verified, .events .compared, .events .updated, .events .created,
    .events .listed, .events .flags, .events .derived, .events .otherKey, .events .bootloader]

theorem dispatch_cursors (hmanage : ¬ isManagement bytes) :
    (a.dispatch env bytes h).2.credMgmt = a.credMgmt := by
  have hchanged (may : List Aspect) (hc : Changed may { a with trace := [] } (a.dispatch env bytes h).2)
      (hcursors : Aspect.cursors ∉ may) : (a.dispatch env bytes h).2.credMgmt = a.credMgmt :=
    hc .cursors hcursors
  rcases command_cases (bytes.getD 0 0) with hc | hc | hc | hc | hc | hc | hc | hc
  · rw [dispatch_makeCredential env hc] at hchanged ⊢
    have hm := (inferInstance : Routine.Keeps (Changed otherMayChange)
      (ctapMakeCredential env (Writer.init ctapResponseBufferSize) bytes.tail)).answered h.answer
    exact hchanged otherMayChange (changed_of_keeps inferInstance) (by decide)
  · exact hchanged _ (dispatch_assertion_changed env (.inl hc)) (by decide)
  · exact absurd hc hmanage
  · rw [dispatch_getInfo env hc] at hchanged ⊢
    exact hchanged otherMayChange (changed_of_keeps inferInstance) (by decide)
  · rw [dispatch_clientPin env hc] at hchanged ⊢
    exact hchanged otherMayChange (changed_of_keeps inferInstance) (by decide)
  · obtain ⟨t, ht, hrun⟩ := dispatch_reset_cases env (a := a) (h := h) hc
    have hpresence : Changed [.events .presence] { a with trace := [] } t := ht.changed
    have hsame : t.credMgmt = a.credMgmt := hpresence .cursors (by decide)
    rcases hrun with hrun | ⟨c, -, hrun⟩ <;> rw [hrun] <;> exact hsame
  · exact hchanged _ (dispatch_assertion_changed env (.inr hc)) (by decide)
  · rw [dispatch_other env hc]

theorem getsThrough_iff {request : List UInt8} {cm : CredMgmt} :
    GetsThrough env { a with trace := [] } request cm ↔ GetsThrough env a request cm := by
  have hparsed : parsedManagement env { a with trace := [] } request =
      parsedManagement env a request := parsedManagement_congr (by rfl) request
  exact ⟨fun h => ⟨hparsed ▸ h.parsed, h.verified, h.resident⟩,
    fun h => ⟨hparsed.trans h.parsed, h.verified, h.resident⟩⟩

/-- `ctap_init` leaves the static variables as the power cycle has made
them. -/
theorem reboot_cursors (a : Authenticator) : (a.reboot env).2.credMgmt = ⟨0, 0, false, false⟩ :=
  (reboot_leaves env a).2

/-- What a step does to the flags. -/
structure FlagsStep (env : Env) (m : Machine) (e : Event) : Prop where
  rp : (m.step env e).auth.credMgmt.rpAuth = true → Begins env cmCmdRPBegin m e ∨
    (m.auth.credMgmt.rpAuth = true ∧ ¬ EndsEnumeration env m e)
  rk : (m.step env e).auth.credMgmt.rkAuth = true → Begins env cmCmdRKBegin m e ∨
    (m.auth.credMgmt.rkAuth = true ∧ ¬ (EndsEnumeration env m e ∨ Begins env cmCmdRPBegin m e))

theorem FlagsStep.of_not_handled (hnot : ∀ cm, ¬ Handled env m bytes cm)
    (hrp : (m.step env (.request bytes h)).auth.credMgmt.rpAuth = true →
      m.auth.credMgmt.rpAuth = true)
    (hrk : (m.step env (.request bytes h)).auth.credMgmt.rkAuth = true →
      m.auth.credMgmt.rkAuth = true) : FlagsStep env m (.request bytes h) := by
  refine ⟨fun ht => .inr ⟨hrp ht, ?_⟩, fun ht => .inr ⟨hrk ht, ?_⟩⟩
  · rintro ⟨cm, hcm, -⟩
    exact hnot cm hcm
  · rintro (⟨cm, hcm, -⟩ | ⟨cm, hcm, -⟩) <;> exact hnot cm hcm

theorem FlagsStep.of_handled {cm : CredMgmt} {r : Except Stop Writer} {t : Authenticator}
    (hcm : Handled env m bytes cm) (hkept : FlagsKept cm m.auth r t)
    (hstep : (m.step env (.request bytes h)).auth.credMgmt = t.credMgmt)
    (hreply : ∀ res, m.reply env (.request bytes h) = some res →
      res.status = ctap2ErrNoCredentials → r = noCredentialsLeft) :
    FlagsStep env m (.request bytes h) := by
  have hends : EndsEnumeration env m (.request bytes h) → ¬ cm.Enumerates ∨ r = noCredentialsLeft := by
    rintro ⟨cm', hcm', hends⟩
    obtain rfl := Option.some.inj (hcm.parsed.symm.trans hcm'.parsed)
    exact hends.imp_right fun ⟨res, hres, hcode⟩ => hreply res hres hcode
  constructor <;> rw [hstep]
  · refine fun hrp => (hkept.rp hrp).imp (fun hbegin => ?_) fun ⟨ha, henum, hne⟩ => ⟨ha, fun he => ?_⟩
    · exact ⟨cm, hcm, hbegin, hcm.verified (.inr (.inl hbegin))⟩
    · exact (hends he).elim (fun h => h henum) hne
  · refine fun hrk => (hkept.rk hrk).imp (fun hbegin => ?_) ?_
    · exact ⟨cm, hcm, hbegin, hcm.verified (.inr (.inr (.inl hbegin)))⟩
    · rintro ⟨ha, henum, hnotrp, hne⟩
      refine ⟨ha, ?_⟩
      rintro (he | ⟨cm', hcm', hbegin, -⟩)
      · exact (hends he).elim (fun h => h henum) hne
      · obtain rfl := Option.some.inj (hcm.parsed.symm.trans hcm'.parsed)
        exact hnotrp hbegin

/-- A request of credential management and its answer. -/
theorem request_management (hcmd : isManagement bytes) (hopen : ¬ Locked a) {r : Except Stop Writer}
    {t : Authenticator}
    (hrun : ctapCredMgmt env (Writer.init ctapResponseBufferSize) bytes.tail { a with trace := [] } =
      (r, t)) :
    (a.request env bytes h).2.credMgmt = t.credMgmt ∧
      (∀ res, (a.request env bytes h).1.toOption = some res →
        (∃ w, r = .ok w ∧ res = ⟨0, env.writer.buffer w⟩) ∨
          ∃ c, r = .error (.status c) ∧ res = ⟨c, []⟩) := by
  rw [Authenticator.request_eq, dispatch_management hcmd hopen hrun]
  rcases r with (c | _) | w
  · exact ⟨rfl, fun res hres => .inr ⟨c, rfl, (Option.some.inj hres).symm⟩⟩
  · exact ⟨rfl, fun res hres => nomatch hres⟩
  · exact ⟨rfl, fun res hres => .inl ⟨w, rfl, (Option.some.inj hres).symm⟩⟩

theorem flags_step (env : Env) (m : Machine) (e : Event) : FlagsStep env m e := by
  cases e with
  | reboot =>
      have hflags : (m.step env .reboot).auth.credMgmt = ⟨0, 0, false, false⟩ := reboot_cursors m.auth
      constructor <;> rw [hflags] <;> exact fun h => nomatch h
  | request bytes h =>
      by_cases hrun : m.running = true
      case neg =>
        have hsame : (m.step env (.request bytes h)).auth.credMgmt = m.auth.credMgmt := by
          rw [Machine.step, if_neg hrun]
        exact .of_not_handled (fun cm hcm => hrun hcm.running) (fun ht => hsame ▸ ht)
          fun ht => hsame ▸ ht
      have hstep := @Machine.step_of_running env _ bytes h hrun
      have hreply := @Machine.reply_of_running env _ bytes h hrun
      by_cases hmanage : isManagement bytes ∧ ¬ Locked m.auth
      case neg =>
        -- the request does not get to credential management
        have hdispatch : (m.auth.dispatch env bytes h).2.credMgmt = m.auth.credMgmt := by
          by_cases hcmd : isManagement bytes
          · have hlocked : Locked m.auth := not_not.mp fun hopen => hmanage ⟨hcmd, hopen⟩
            have hgated : isGated (bytes.getD 0 0) = true := by
              rcases hcmd with hcmd | hcmd <;> rw [hcmd] <;> decide
            obtain ⟨c, -, hd⟩ := @dispatch_locked env _ _ h hgated hlocked
            rw [hd]
          · exact dispatch_cursors hcmd
        have hsame : (m.step env (.request bytes h)).auth.credMgmt = m.auth.credMgmt := by
          rw [hstep]
          exact Authenticator.request_state (P := fun t => t.credMgmt = m.auth.credMgmt) env
            (fun _ _ ht => ht) hdispatch
        exact .of_not_handled (fun cm hcm => hmanage ⟨hcm.command, hcm.unlocked⟩)
          (fun ht => hsame ▸ ht) fun ht => hsame ▸ ht
      obtain ⟨hcmd, hopen⟩ := hmanage
      have hflags := ctapCredMgmt_flags env (Writer.init ctapResponseBufferSize) bytes.tail
        { m.auth with trace := [] }
      rcases hr : ctapCredMgmt env (Writer.init ctapResponseBufferSize) bytes.tail
        { m.auth with trace := [] } with ⟨r, t⟩
      obtain ⟨hcredMgmt, hanswer⟩ := request_management (h := h) hcmd hopen hr
      rw [← hstep] at hcredMgmt
      rw [← hreply] at hanswer
      rcases hflags.elim hr with ⟨cm, hcm, hkept⟩ | ⟨hnot, hspared⟩
      · rw [getsThrough_iff] at hcm
        refine .of_handled ⟨hrun, hcmd, hopen, hcm.parsed, hcm.verified, hcm.resident⟩
          (hkept.congr rfl) hcredMgmt fun res hres hcode => ?_
        rcases hanswer res hres with ⟨w, -, rfl⟩ | ⟨c, rfl, rfl⟩
        · exact absurd hcode.symm (by decide : ctap2ErrNoCredentials ≠ 0)
        · rw [show c = ctap2ErrNoCredentials from hcode]
      · refine .of_not_handled (fun cm hcm => hnot cm ?_) ?_ ?_
        · exact getsThrough_iff.mpr ⟨hcm.parsed, hcm.verified, hcm.resident⟩
        · rw [hcredMgmt]
          exact hspared.rp
        · rw [hcredMgmt]
          exact hspared.rk

/-- A Next command is only served while its flag is set. -/
theorem Delivers.flag {cmd : ℤ} {e : Event} (hd : Delivers env cmd m e) :
    (cmd = cmCmdRPNext → m.auth.credMgmt.rpAuth = true) ∧
      (cmd = cmCmdRKNext → m.auth.credMgmt.rkAuth = true) := by
  cases e with
  | reboot => exact hd.elim
  | request bytes h =>
      obtain ⟨hcmd, ⟨cm, hparsed, rfl⟩, res, hres, hstatus, hdata⟩ := hd
      have hrun : m.running = true := by
        by_contra hrun
        rw [Machine.reply, if_neg hrun] at hres
        exact nomatch hres
      rw [Machine.reply_of_running hrun] at hres
      have hopen : ¬ Locked m.auth := by
        intro hlocked
        have hgated : isGated (bytes.getD 0 0) = true := by
          rcases hcmd with hcmd | hcmd <;> rw [hcmd] <;> decide
        obtain ⟨c, hc, hrefused⟩ := @dispatch_locked env _ _ h hgated hlocked
        rw [request_of_error hrefused] at hres
        obtain rfl := Option.some.inj hres
        exact hc hstatus
      have hflags := ctapCredMgmt_flags env (Writer.init ctapResponseBufferSize) bytes.tail
        { m.auth with trace := [] }
      rcases hr : ctapCredMgmt env (Writer.init ctapResponseBufferSize) bytes.tail
        { m.auth with trace := [] } with ⟨r, t⟩
      obtain ⟨-, hanswer⟩ := request_management (h := h) hcmd hopen hr
      rcases hanswer res hres with ⟨w, rfl, rfl⟩ | ⟨c, rfl, rfl⟩
      case inr =>
        have : Fact (ctap2ErrPinAuthBlocked ≠ 0) := ⟨by decide⟩
        have hnever : StepNeverSays 0 (ctapCredMgmt env (Writer.init ctapResponseBufferSize)
          bytes.tail) := stepNeverSays_ctapCredMgmt env (.inr rfl) _
        refine absurd (congrArg Prod.fst hr) ?_
        rw [show c = 0 from hstatus]
        exact hnever.ne _
      rcases hflags.elim hr with ⟨cm', hcm, hkept⟩ | ⟨-, hspared⟩
      · rw [getsThrough_iff] at hcm
        obtain rfl := Option.some.inj (hparsed.symm.trans hcm.parsed)
        exact ⟨fun hnext => hkept.servedRp hnext w rfl, fun hnext => hkept.servedRk hnext w rfl⟩
      · -- without resident keys, nothing is encoded
        have hempty : cm.cmd = cmCmdRPNext ∨ cm.cmd = cmCmdRKNext → w = Writer.init _ := fun hnext =>
          hspared.empty cm ((parsedManagement_congr (by rfl) _).trans hparsed) hnext w rfl
        have hnot : ¬ (cm.cmd = cmCmdRPNext ∨ cm.cmd = cmCmdRKNext) := fun hnext =>
          hdata (congrArg env.writer.buffer (hempty hnext))
        exact ⟨fun hnext => absurd (.inl hnext) hnot, fun hnext => absurd (.inr hnext) hnot⟩

end Run

/-- Over every run from power-up on: a Next command of credential management
is only answered with data if an RPBegin (RKBegin) with the right pinAuth came
before it, and between both no other kind of command got through, no
enumeration found nothing more and, for credentials, no RPBegin got
through. -/
theorem next_needs_begin (a : Authenticator) (es : List Event) (e : Event) :
    (Delivers env cmCmdRPNext (Transition.run (Machine.step env) (Machine.powerUp env a) es) e →
        Since (Machine.step env) (Begins env cmCmdRPBegin) (fun m e => ¬ EndsEnumeration env m e)
          (Machine.powerUp env a) es) ∧
      (Delivers env cmCmdRKNext (Transition.run (Machine.step env) (Machine.powerUp env a) es) e →
        Since (Machine.step env) (Begins env cmCmdRKBegin)
          (fun m e => ¬ (EndsEnumeration env m e ∨ Begins env cmCmdRPBegin m e))
          (Machine.powerUp env a) es) := by
  have hnone : (Machine.powerUp env a).auth.credMgmt = ⟨0, 0, false, false⟩ := reboot_cursors a
  constructor <;> intro hd
  · exact @since_run _ _ _ (fun m => m.auth.credMgmt.rpAuth = true) _ _
      (fun m e => (flags_step env m e).rp) _ _ (by rw [hnone]; decide) (hd.flag.1 rfl)
  · exact @since_run _ _ _ (fun m => m.auth.credMgmt.rkAuth = true) _ _
      (fun m e => (flags_step env m e).rk) _ _ (by rw [hnone]; decide) (hd.flag.2 rfl)

/-- A resident key at this relying party. -/
def demoCreate (rp : String) : Event :=
  Sample.request ctapMakeCredentialCmd
    [.createMap 5, .int 1, .byteString (List.replicate 32 5), .int 2, .createMap 1, .text "id", .text rp,
      .int 3, .createMap 1, .text "id", .byteString [1],
      .int 4, .createArray 1, .createMap 2, .text "alg", .int (-7), .text "type", .text "public-key",
      .int 7, .createMap 1, .text "rk", .boolean true]

/-- An RPBegin with the right pinAuth. -/
def demoRPBegin : Event :=
  let a := (Machine.powerUp Sample.env Sample.device).auth
  Sample.request ctapCborCredMgmtPreCmd
    [.createMap 2, .int 1, .int cmCmdRPBegin, .int 4, .byteString
      ((cryptoSha256Hmac Sample.env a.secrets (.bytes a.pinToken.bytes) [2]).slice 0 16)]

def demoRPNext : Event :=
  Sample.request ctapCborCredMgmtPreCmd [.createMap 1, .int 1, .int cmCmdRPNext]

def demoListing : List Event := [demoCreate "a.example", demoCreate "b.example", demoRPBegin]

theorem next_needs_begin_demo :
    Since (Machine.step Sample.env) (Begins Sample.env cmCmdRPBegin)
      (fun m e => ¬ EndsEnumeration Sample.env m e) (Machine.powerUp Sample.env Sample.device)
      demoListing := by
  have hserved : ((Transition.run (Machine.step Sample.env)
      (Machine.powerUp Sample.env Sample.device) demoListing).reply Sample.env demoRPNext).any
      (fun r => decide (r.status = 0 ∧
        r.data ≠ Sample.env.writer.buffer (Writer.init ctapResponseBufferSize))) = true := by
    decide +kernel
  obtain ⟨r, hr, hdata⟩ := (Option.any_eq_true ..).mp hserved
  exact (next_needs_begin Sample.env Sample.device demoListing demoRPNext).1
    ⟨.inr (by decide), Option.map_eq_some_iff.mp (by decide +kernel), r, hr, of_decide_eq_true hdata⟩

end NitrokeyFido2.Ctap
