import NitrokeyFido2.Ctap.Atomicity
import NitrokeyFido2.Ctap.SavedAssertions

/-!
The authenticator data of every answer of a run.

A makeCredential and a getAssertion are refused when their extensions cannot be
made. A getNextAssertion is not: it is then answered with the flags and the whole
buffer that earlier requests have left.
-/

namespace NitrokeyFido2.Ctap

open Proc Resumption Transition

variable {env : Env}

/-! ### The flags that are left -/

/-- AT is not set, and the user verification that is recorded does not reach
it. -/
def FlagsSafe (a : Authenticator) : Prop :=
  a.gas.authData.flags &&& 0x40 = 0 ∧ (a.gas.userVerified = 0 ∨ a.gas.userVerified = 1)

def LeavesSafe (a t : Authenticator) : Prop := FlagsSafe a → FlagsSafe t

instance : IsPreorder Authenticator LeavesSafe where
  refl _ := id
  trans _ _ _ h₁ h₂ := h₂ ∘ h₁

theorem LeavesSafe.of_changed {may : List Aspect} {a t : Authenticator} (h : Changed may a t)
    (hflags : Aspect.flags ∉ may) (hverified : Aspect.userVerified ∉ may) : LeavesSafe a t := by
  have hf : t.gas.authData.flags = a.gas.authData.flags := h .flags hflags
  have hv : t.gas.userVerified = a.gas.userVerified := h .userVerified hverified
  intro hsafe
  rw [FlagsSafe, hf, hv]
  exact hsafe

/-- What a getAssertion and a getNextAssertion may change where they do not set
flags. -/
abbrev unflaggedMayChange : List Aspect :=
  [.saved, .creds, .custom, .events .presence, .events .verified, .events .listed, .events .flags,
    .events .derived, .events .otherKey, .events .bootloader]

instance (priority := low) {α : Type} (m : Device α) [hm : Keeps (Changed unflaggedMayChange) m] :
    Keeps LeavesSafe m :=
  hm.mono fun _ _ h => .of_changed h (by decide) (by decide)

instance (priority := low) {α : Type} (m : CtapM α)
    [hm : Routine.Keeps (Changed unflaggedMayChange) m] : Routine.Keeps LeavesSafe m :=
  ⟨fun h => (hm.answered h).mono fun _ _ hc => .of_changed hc (by decide) (by decide)⟩

/-- An update of the flags that does not set AT. -/
theorem keepsFlags_updateAuthData {f : AuthDataHeader → AuthDataHeader}
    (hf : ∀ hd, hd.flags &&& 0x40 = 0 → (f hd).flags &&& 0x40 = 0) :
    Keeps LeavesSafe (updateAuthData f) :=
  Keeps.modify fun _ hsafe => ⟨hf _ hsafe.1, hsafe.2⟩

theorem at_of_or {f v : UInt8} (hf : f &&& 0x40 = 0) (hv : v &&& 0x40 = 0) :
    (f ||| v) &&& 0x40 = 0 := by
  have hbits : f.toBitVec &&& 0x40#8 = 0#8 := congrArg UInt8.toBitVec hf
  have hbits' : v.toBitVec &&& 0x40#8 = 0#8 := congrArg UInt8.toBitVec hv
  refine UInt8.toBitVec_inj.mp ?_
  show (f.toBitVec ||| v.toBitVec) &&& 0x40#8 = 0#8
  rw [BitVec.and_comm, BitVec.and_or_distrib_left, BitVec.and_comm _ f.toBitVec, hbits,
    BitVec.and_comm _ v.toBitVec, hbits', BitVec.or_zero]

theorem at_of_and {f : UInt8} (v : UInt8) (hf : f &&& 0x40 = 0) : (f &&& v) &&& 0x40 = 0 := by
  rw [UInt8.and_assoc, UInt8.and_comm v, ← UInt8.and_assoc, hf, UInt8.zero_and]

section Header

variable (env)

instance (rp : RpId) : Routine.Keeps LeavesSafe (ctapMakeAuthDataHeader env updateAuthData rp) := by
  have hhash (hash : Buf 32) : Keeps LeavesSafe (updateAuthData fun h => { h with rpIdHash := hash }) :=
    keepsFlags_updateAuthData fun _ => id
  have hcount (c : UInt32) : Keeps LeavesSafe (updateAuthData fun h => { h with signCount := c }) :=
    keepsFlags_updateAuthData fun _ => id
  have hpin (a : Authenticator) : Keeps LeavesSafe (updateAuthData fun h =>
      { h with flags := h.flags ||| if ctapIsPinSet a then 4 else 0 }) :=
    keepsFlags_updateAuthData fun _ hf => at_of_or hf (by split <;> decide)
  refine ⟨fun h => ?_⟩
  have htest := (inferInstance : Routine.Keeps LeavesSafe (ctap2UserPresenceTest .request)).answered h
  unfold ctapMakeAuthDataHeader
  simp only [Routine.answered_bind, Routine.answered_liftM, Routine.answered_pure,
    answered_deviceSetStatus]
  refine Keeps.seq inferInstance fun _ => Keeps.seq inferInstance fun count =>
    Keeps.seq inferInstance fun _ => Keeps.seq inferInstance fun but => ?_
  refine Keeps.bind_of inferInstance (fun _ _ _ hflags => (presence_flags hflags).1) ?_
  rintro _ rfl
  have hset : Keeps LeavesSafe (updateAuthData fun h =>
      { h with flags := if but = ctap2ErrProcessing then 0 else 1 }) :=
    keepsFlags_updateAuthData fun _ _ => by dsimp only; split <;> decide
  infer_instance

instance (ga : GetAssertion) : Keeps LeavesSafe (verifyUser env ga) := by
  have hset (v : UInt8) (hv : v = 0 ∨ v = 1) :
      Keeps LeavesSafe (modifyGas fun g => { g with userVerified := v }) :=
    Keeps.modify fun _ hsafe => ⟨hsafe.1, hv⟩
  have hone := hset 1 (.inr rfl)
  have hzero := hset 0 (.inl rfl)
  unfold verifyUser
  infer_instance

instance (rp : RpId) : Keeps LeavesSafe (extensionAuthData env rp) := by
  have hhash (hash : Buf 32) : Keeps LeavesSafe (updateAuthData fun h => { h with rpIdHash := hash }) :=
    keepsFlags_updateAuthData fun _ => id
  have hup : Keeps LeavesSafe (updateAuthData fun h => { h with flags := 1 }) :=
    keepsFlags_updateAuthData fun _ _ => (by decide : (1 : UInt8) &&& 0x40 = 0)
  have huv : Keeps LeavesSafe (updateAuthData fun h => { h with flags := h.flags ||| 4 }) :=
    keepsFlags_updateAuthData fun _ hf => at_of_or hf (by decide)
  have hnote : May unflaggedMayChange (.events (Trace.flagsWritten true).kind) :=
    inferInstanceAs (May unflaggedMayChange (.events .flags))
  unfold extensionAuthData
  infer_instance

/-- The flags with the user verification as it is recorded. -/
theorem keepsFlags_verified : Keeps LeavesSafe (Proc.get >>= fun a : Authenticator =>
    updateAuthData (fun h => { h with flags := h.flags &&& 0xfb }) >>= fun _ =>
      updateAuthData fun h => { h with flags := h.flags ||| (a.gas.userVerified <<< 2) }) := by
  refine ⟨fun a ⟨hflags, hverified⟩ => ⟨at_of_or (at_of_and _ hflags) ?_, hverified⟩⟩
  rcases hverified with huv | huv <;> rw [huv] <;> decide

instance (ga : GetAssertion) : Routine.Keeps LeavesSafe (assertionHeader env ga) := by
  have hnote : May unflaggedMayChange (.events (Trace.flagsWritten false).kind) :=
    inferInstanceAs (May unflaggedMayChange (.events .flags))
  refine ⟨fun h => ?_⟩
  have hmade := (inferInstance : Routine.Keeps LeavesSafe
    (attempt (ctapMakeAuthDataHeader env updateAuthData ga.rp))).answered h
  unfold assertionHeader
  simp only [Routine.answered_bind, Routine.answered_liftM]
  refine Keeps.seq inferInstance fun _ => Keeps.seq hmade fun _ => Keeps.seq inferInstance fun _ =>
    Keeps.seq inferInstance fun _ => Keeps.seq inferInstance fun _ => keepsFlags_verified

instance (ext : Extensions) : Keeps LeavesSafe (extendAssertion env ext) := by
  have hed : Keeps LeavesSafe (updateAuthData fun h => { h with flags := h.flags ||| 0x80 }) :=
    keepsFlags_updateAuthData fun _ hf => at_of_or hf (by decide)
  unfold extendAssertion
  infer_instance

instance (w : Writer) (request : List UInt8) :
    Routine.Keeps LeavesSafe (beginAssertion env w request) := by
  have hselect : Routine.Keeps LeavesSafe (selectCredentials env request) := by
    unfold selectCredentials
    repeat first | infer_instance | refine Routine.Keeps.seq inferInstance fun _ => ?_
  unfold beginAssertion
  repeat first | infer_instance | refine Routine.Keeps.seq inferInstance fun _ => ?_

instance (n : ℕ) (ga : GetAssertion) (w : Writer) (size : ℕ) :
    Routine.Keeps LeavesSafe (finishAssertion env n ga w size) := by
  unfold finishAssertion
  repeat first | infer_instance | refine Routine.Keeps.seq inferInstance fun _ => ?_

theorem ctapGetAssertion_leavesSafe (w : Writer) (request : List UInt8) (h : Answers) :
    Keeps LeavesSafe (CtapM.answered h (ctapGetAssertion env w request)) := by
  have hbegin := (inferInstance : Routine.Keeps LeavesSafe (beginAssertion env w request)).answered
    h.answer
  have hheader (ga : GetAssertion) := (inferInstance :
    Routine.Keeps LeavesSafe (assertionHeader env ga)).answered h.answer
  have hfinish (n : ℕ) (ga : GetAssertion) (w : Writer) (size : ℕ) := (inferInstance :
    Routine.Keeps LeavesSafe (finishAssertion env n ga w size)).answered h.answer
  rw [answered_ctapGetAssertion]
  refine Keeps.seq hbegin fun ⟨n, ga, cred, w⟩ => Keeps.seq ?_ fun size => hfinish n ga w size
  split
  · infer_instance
  · rw [answered_assertionAuthData]
    exact Keeps.seq (hheader ga) fun _ => inferInstance

instance (ext : Extensions) : Keeps LeavesSafe (extendNextAssertion env ext) := by
  have hed (size : ℕ) : Keeps LeavesSafe (updateAuthData fun h =>
      { h with flags := if size ≠ 0 then h.flags ||| 0x80 else h.flags &&& 0x7f }) := by
    refine keepsFlags_updateAuthData fun hd hf => ?_
    dsimp only
    split
    · exact at_of_or hf (by decide)
    · exact at_of_and _ hf
  unfold extendNextAssertion
  infer_instance

instance (w : Writer) : Keeps LeavesSafe (beginNextAssertion env w) := by
  have hhash (count : UInt32) (hash : Buf 32) : Keeps LeavesSafe (updateAuthData fun h =>
      { h with signCount := count, rpIdHash := hash }) := keepsFlags_updateAuthData fun _ => id
  unfold beginNextAssertion
  refine Keeps.seq inferInstance fun popped => ?_
  rcases popped with _ | i <;> infer_instance

theorem ctapGetNextAssertion_leavesSafe (w : Writer) (h : Answers) :
    Keeps LeavesSafe (CtapM.answered h (ctapGetNextAssertion env w)) := by
  rw [answered_ctapGetNextAssertion]
  refine Keeps.seq inferInstance fun ⟨i, ext, w⟩ => Keeps.seq inferInstance fun size =>
    Keeps.seq inferInstance fun a => ?_
  have hend := (inferInstance : Routine.Keeps LeavesSafe (ctapEndGetAssertion env w
    (a.gas.creds.getD i default) size a.gas.clientDataHash)).answered h.answer
  exact Keeps.seq hend fun _ => inferInstance

/-- No request but a reset sets AT, and a reset clears the flags. -/
theorem dispatch_leavesSafe (a : Authenticator) (bytes : List UInt8) (h : Answers) :
    LeavesSafe { a with trace := [] } (a.dispatch env bytes h).2 := by
  by_cases hreset : bytes.getD 0 0 = ctapResetCmd
  · obtain ⟨t, ht, hrun | ⟨c, -, hrun⟩⟩ := dispatch_reset_cases env (a := a) (h := h) hreset <;> rw [hrun]
    · exact fun _ => ⟨(by decide : (0 : UInt8) &&& 0x40 = 0), .inl rfl⟩
    · have hpresence : Changed [.events .presence] { a with trace := [] } t := ht.changed
      exact .of_changed hpresence (by decide) (by decide)
  by_cases hget : bytes.getD 0 0 = ctapGetAssertionCmd
  · have hm := ctapGetAssertion_leavesSafe env freshWriter bytes.tail h
    rw [dispatch_getAssertion env hget]
    have hall : Keeps LeavesSafe (failIfLocked >>= fun _ => CtapM.answered h
      (ctapGetAssertion env freshWriter bytes.tail) >>= fun w => pure (some w)) := inferInstance
    exact hall.state _
  by_cases hnext : bytes.getD 0 0 = getNextAssertionCmd
  · have hm := ctapGetNextAssertion_leavesSafe env freshWriter h
    rw [dispatch_getNextAssertion env hnext]
    have hall : Keeps LeavesSafe (failIf (a.gas.lastcmd ≠ ctapGetAssertionCmd) ctap2ErrNotAllowed >>=
      fun _ => CtapM.answered h (ctapGetNextAssertion env freshWriter) >>= fun w =>
        pure (some w)) := inferInstance
    exact hall.state _
  · exact .of_changed (dispatch_unasserting_changed env ⟨hreset, hget, hnext⟩) (by decide) (by decide)

end Header

theorem flagsSafe_step (m : Machine) (e : Event) (hm : FlagsSafe m.auth) :
    FlagsSafe (m.step env e).auth := by
  cases e with
  | reboot =>
      have hzero : (m.step env .reboot).auth.gas = GetAssertionState.zero :=
        (reboot_leaves env m.auth).1
      rw [FlagsSafe, hzero]
      exact ⟨rfl, .inl rfl⟩
  | request bytes h =>
      by_cases hrun : m.running = true
      · rw [step_running hrun]
        exact Authenticator.request_state (P := FlagsSafe) env (fun _ _ => id)
          (dispatch_leavesSafe env m.auth bytes h hm)
      · rw [step_halted hrun]
        exact hm

theorem flagsSafe_powerUp (a : Authenticator) : FlagsSafe (Machine.powerUp env a).auth := by
  have hzero : (Machine.powerUp env a).auth.gas = GetAssertionState.zero := (reboot_leaves env a).1
  rw [FlagsSafe, hzero]
  exact ⟨rfl, .inl rfl⟩

/-! ### getNextAssertion -/

/-- The saltAuth of a hmac-secret input is the right one, and the extension map
fits into the room of the call. -/
def ExtensionsCall.Makeable (env : Env) (c : ExtensionsCall) : Prop :=
  ¬ WrongSaltAuth env c.state c.extensions ∧ ∀ output, c.output env = .ok output →
    ∃ w, env.writer.emitAll (extensionOps c.extensions output) (Writer.init c.room) = (.ok (), w)

/-- A call that does not halt the device has extension data if they can be
made. -/
theorem ExtensionsCall.data_ok_iff {c : ExtensionsCall} (hhalts : c.data env ≠ .error .halted) :
    (∃ bytes, c.data env = .ok bytes) ↔ c.Makeable env := by
  rcases houtput : c.output env with e | output
  · have hdata : c.data env = .error e := by
      unfold ExtensionsCall.data
      rw [houtput]
      rfl
    rw [hdata] at hhalts ⊢
    rcases e with code | _
    · obtain ⟨-, hwrong⟩ := c.output_refused_iff.mp houtput
      exact iff_of_false (fun ⟨_, h⟩ => nomatch h) fun hmakeable => hmakeable.1 hwrong
    · exact absurd rfl hhalts
  · have hright : ¬ WrongSaltAuth env c.state c.extensions := fun hwrong => by
      cases houtput.symm.trans (c.output_refused_iff.mpr ⟨rfl, hwrong⟩)
    rw [ExtensionsCall.data_of_output houtput, Makeable, houtput]
    rcases hemit : (env.writer.emitAll (extensionOps c.extensions output)).run (Writer.init c.room) with
      ⟨e | u, w⟩
    · refine iff_of_false (fun ⟨_, h⟩ => nomatch h) fun hmakeable => ?_
      obtain ⟨w', hw'⟩ := hmakeable.2 output rfl
      cases hemit.symm.trans hw'
    · refine iff_of_true ⟨_, rfl⟩ ⟨hright, ?_⟩
      rintro _ ⟨⟩
      exact ⟨w, hemit⟩

/-- The call of a getNextAssertion, as the state before the request has it. -/
def Authenticator.savedCall (a : Authenticator) : ExtensionsCall := ⟨a, a.gas.extensions, 80⟩

section NextAssertion

variable {a s t : Authenticator} {bytes : List UInt8} {h : Answers} {w : Writer}
  {x : AssertionAnswer} {ret : UInt8} {b : ExtBuf 80}

theorem getNextAssertion_call (hcmd : bytes.getD 0 0 = getNextAssertionCmd)
    (hx : NextAssertion env freshWriter { a with trace := [] } x s ret b) :
    a.extensionsCall env bytes h = some ⟨s, a.gas.extensions, 80⟩ := by
  obtain ⟨w₁, hbegin⟩ := hx.began
  unfold Authenticator.extensionsCall callInCommand
  rw [hcmd, if_neg (by decide), if_neg (by decide), if_pos rfl, CtapM.answered,
    Routine.answered_bind, Routine.answered_liftM, bind_of_ok hbegin]
  rfl

/-- What the request does before the call does not matter to it. -/
theorem savedCall_output (hx : NextAssertion env freshWriter { a with trace := [] } x s ret b) :
    (⟨s, a.gas.extensions, 80⟩ : ExtensionsCall).output env = a.savedCall.output env := by
  obtain ⟨count, counter, sc, pos, rfl⟩ := hx.state
  have hid : ((a.gas.next count).creds.getD 0 default).credential.id =
      (a.gas.creds.getD 0 default).credential.id := congrArg Prod.snd (entry_next a.gas count 0)
  have hderef : a.gas.extensions.hmacSecret.credential.deref env
      { a with trace := [], gas := a.gas.next count, counter := counter, sc := sc, rngPos := pos } =
      a.gas.extensions.hmacSecret.credential.deref env a := by
    rcases a.gas.extensions.hmacSecret.credential with _ | _
    · rfl
    · exact hid
  unfold ExtensionsCall.output Authenticator.savedCall hmacSecretOutput
  dsimp only
  rw [hderef]
  rfl

theorem savedCall_makeable (hx : NextAssertion env freshWriter { a with trace := [] } x s ret b) :
    (⟨s, a.gas.extensions, 80⟩ : ExtensionsCall).Makeable env ↔ a.savedCall.Makeable env := by
  have hwrong : WrongSaltAuth env s a.gas.extensions ↔ WrongSaltAuth env a a.gas.extensions := by
    obtain ⟨count, counter, sc, pos, rfl⟩ := hx.state
    exact Iff.rfl
  unfold ExtensionsCall.Makeable
  rw [savedCall_output hx]
  exact and_congr_left' (not_congr hwrong)

/-- A getNextAssertion that is answered has extension data if they can be
made. -/
theorem savedCall_data_iff (hx : NextAssertion env freshWriter { a with trace := [] } x s ret b) :
    (∃ data, (⟨s, a.gas.extensions, 80⟩ : ExtensionsCall).data env = .ok data) ↔
      a.savedCall.Makeable env := by
  refine (ExtensionsCall.data_ok_iff fun hhalted => ?_).trans (savedCall_makeable hx)
  let call : ExtensionsCall := ⟨s, a.gas.extensions, 80⟩
  rcases ctapMakeExtensions_eq call s.gas.bufExtensions with ⟨_, hdata, -⟩ | ⟨e, _, hdata, herror, -⟩
  · cases hdata.symm.trans hhalted
  · rcases hx.made with ⟨-, hok⟩ | ⟨-, hstatus⟩
    · cases herror.symm.trans hok
    · cases herror.symm.trans hstatus
      cases hdata.symm.trans hhalted

/-- The data of an answered getNextAssertion is well-formed exactly if its
extensions could be made. -/
theorem getNextAssertion_wellFormed_iff (hfits : env.writer.Fits) (hsafe : FlagsSafe a)
    (hcmd : bytes.getD 0 0 = getNextAssertionCmd)
    (hrun : a.dispatch env bytes h = (.ok (some w), t)) :
    WellFormedAuthData env (a.extensionsCall env bytes h) w.authData ↔ a.savedCall.Makeable env := by
  obtain ⟨-, x, s, ret, b, hx, hw, -⟩ := dispatch_getNextAssertion_ok hcmd hrun
  obtain ⟨count, hgas⟩ := NextAssertion.gas env hx
  have hat : s.gas.authData.flags &&& 0x40 = 0 := by
    rw [hgas]
    exact hsafe.1
  rw [getNextAssertion_call hcmd hx, authData_of_items hw, hx.authData, authBytes_header,
    ← savedCall_data_iff hx]
  let call : ExtensionsCall := ⟨s, a.gas.extensions, 80⟩
  rcases ctapMakeExtensions_eq call s.gas.bufExtensions with
    ⟨data, hdata, hmade⟩ | ⟨e, buf, hdata, hmade, hsize⟩
  · -- the extension data are there, and are flagged if there are some
    refine iff_of_true ?_ ⟨data, hdata⟩
    obtain ⟨rfl, rfl⟩ : ret = 0 ∧ b = ⟨s.gas.bufExtensions.write 0 data, data.length⟩ := by
      rcases hx.made with ⟨hret, hok⟩ | ⟨-, herror⟩
      · exact ⟨hret, (congrArg Prod.snd (hmade.symm.trans hok)).symm⟩
      · cases hmade.symm.trans herror
    have hslice : (s.gas.bufExtensions.write 0 data).bytes.take data.length = data :=
      slice_write_data (call.length_data hfits hdata)
    show WellFormedAuthData env _ ((s.gas.extended 0 _).authData.toBytes ++
      (s.gas.bufExtensions.write 0 data).bytes.take data.length)
    rw [hslice, ← List.append_nil (AuthDataHeader.toBytes _)]
    refine wellFormed_of_data hdata ?_ (fun hne => absurd rfl hne) ?_
    · refine iff_of_false (not_not.mpr ?_) fun hne => hne rfl
      show nextFlags _ 0 _ &&& 0x40 = 0
      rw [nextFlags, if_pos rfl]
      split
      · rw [at_of_ed_set, hat]
      · rw [at_of_ed_cleared, hat]
    · show nextFlags _ 0 _ &&& 0x80 ≠ 0 ↔ _
      unfold nextFlags
      by_cases hnil : data = []
      · simp [hnil, ed_cleared]
      · simp [hnil, ed_set]
  · -- the whole buffer is sent, and no extension data were made
    obtain ⟨hret, rfl, rfl⟩ : ret ≠ 0 ∧ e = .status ret ∧ b = buf := by
      rcases hx.made with ⟨-, hok⟩ | ⟨hret, herror⟩
      · cases hmade.symm.trans hok
      · obtain ⟨he, hbuf⟩ := Prod.mk.inj (hmade.symm.trans herror)
        exact ⟨hret, Except.error.inj he, hbuf.symm⟩
    refine iff_of_false ?_ ?_
    case refine_2 =>
      rintro ⟨data, hdata'⟩
      cases hdata.symm.trans hdata'
    rintro ⟨hd, attested, ext, hbytes, hattested, -, -, hext⟩
    rw [List.append_assoc] at hbytes
    obtain ⟨hflags, hrest⟩ := toBytes_append_inj hbytes
    have hnil : attested = [] := by
      by_contra hne
      refine hattested.mpr hne ?_
      rw [← hflags]
      show nextFlags _ ret _ &&& 0x40 = 0
      rw [nextFlags, if_neg hret, hat]
    have hne : ext ≠ [] := by
      rintro rfl
      have hlen := congrArg List.length hrest
      rw [hnil, hsize] at hlen
      have hzero : 0 = 80 := hlen.symm.trans (List.length_take_of_le b.buf.length_bytes.ge)
      exact absurd hzero (by decide)
    obtain ⟨c, hc, hmap⟩ := hext hne
    obtain rfl := Option.some.inj hc
    cases hdata.symm.trans hmap.data

end NextAssertion

/-! ### Runs -/

def Trace.isAssertion : Trace → Bool
  | .assertion _ _ _ => true
  | _ => false

/-- The event is answered, with a signature of `ctap_calculate_signature`. -/
def SignedAnswer (env : Env) (m : Machine) (e : Event) (w : Writer) : Prop :=
  m.answer env e = some (.ok (some w)) ∧ (m.traceOf env e).any Trace.isAssertion = true

theorem dispatch_of_answer {m : Machine} {bytes : List UInt8} {h : Answers} {w : Writer}
    (hw : m.answer env (.request bytes h) = some (.ok (some w))) :
    ∃ t, m.auth.dispatch env bytes h = (.ok (some w), t) := by
  rw [Machine.answer] at hw
  split at hw
  · rcases hd : m.auth.dispatch env bytes h with ⟨(_ | _) | _, t⟩ <;> rw [hd] at hw
    · cases hw
    · cases hw
    · cases hw
      exact ⟨t, rfl⟩
  · cases hw

theorem exists_answer {m : Machine} {e : Event}
    (h : (m.answer env e).map (Except.map Option.isSome) = some (.ok true)) :
    ∃ w, m.answer env e = some (.ok (some w)) := by
  obtain ⟨r, hr, hok⟩ := Option.map_eq_some_iff.mp h
  rcases r with _ | _ | w
  · cases hok
  · cases hok
  · exact ⟨w, hr⟩

/-- The authenticator data of the answer, if there is one, is well-formed. -/
def AnswersWellFormed (env : Env) (m : Machine) : Event → Prop
  | .request bytes h =>
      bytes.getD 0 0 ∈ [ctapMakeCredentialCmd, ctapGetAssertionCmd, getNextAssertionCmd] →
        ∀ w, SignedAnswer env m (.request bytes h) w →
          WellFormedAuthData env (m.auth.extensionsCall env bytes h) w.authData
  | .reboot => True

/-- A getNextAssertion that is answered finds extensions that can be made. -/
def FindsMakeable (env : Env) (m : Machine) : Event → Prop
  | .request bytes h =>
      bytes.getD 0 0 = getNextAssertionCmd → ∀ w, SignedAnswer env m (.request bytes h) w →
        m.auth.savedCall.Makeable env
  | .reboot => True

theorem answersWellFormed_iff (hfits : env.writer.Fits) {m : Machine} (hsafe : FlagsSafe m.auth)
    (e : Event) : AnswersWellFormed env m e ↔ FindsMakeable env m e := by
  cases e with
  | reboot => exact Iff.rfl
  | request bytes h =>
      simp only [AnswersWellFormed, FindsMakeable, List.mem_cons, List.not_mem_nil, or_false]
      constructor
      · rintro hformed hnext w hw
        obtain ⟨t, hrun⟩ := dispatch_of_answer hw.1
        exact (getNextAssertion_wellFormed_iff hfits hsafe hnext hrun).mp
          (hformed (.inr (.inr hnext)) w hw)
      · rintro hmakeable hcmd w hw
        obtain ⟨t, hrun⟩ := dispatch_of_answer hw.1
        rcases hcmd with hcmd | hcmd | hcmd
        · exact makeCredential_wellFormed hfits hcmd hrun
        · exact getAssertion_wellFormed hfits hcmd hrun
        · exact (getNextAssertion_wellFormed_iff hfits hsafe hcmd hrun).mpr (hmakeable hcmd w hw)

/-- In every run, all answers have well-formed authenticator data exactly if every
getNextAssertion that is answered finds extensions that can be made. -/
theorem authData_runs_iff (hfits : env.writer.Fits) (a : Authenticator) (es : List Event) :
    Along (Machine.step env) (AnswersWellFormed env) (Machine.powerUp env a) es ↔
      Along (Machine.step env) (FindsMakeable env) (Machine.powerUp env a) es := by
  have hsafe : FlagsSafe (Machine.powerUp env a).auth := flagsSafe_powerUp a
  constructor
  · exact Along.of_invariant (fun m e hm _ => flagsSafe_step m e hm)
      (fun m e hm he => (answersWellFormed_iff hfits hm e).mp he) hsafe
  · exact Along.of_invariant (fun m e hm _ => flagsSafe_step m e hm)
      (fun m e hm he => (answersWellFormed_iff hfits hm e).mpr he) hsafe

/-! ### A run -/

theorem Sample.length_emitAll {ops : List EncOp} {w w' : Writer}
    (hfull : (Sample.encodeOps w.ops).length ≤ w.capacity)
    (h : Sample.writer.emitAll ops w = (.ok (), w')) :
    (Sample.encodeOps w'.ops).length ≤ w.capacity := by
  induction ops generalizing w with
  | nil =>
      cases h
      exact hfull
  | cons op ops ih =>
      obtain ⟨_, w₁, hemit, hrest⟩ := bind_ok.mp h
      obtain ⟨hresult, rfl⟩ := Prod.mk.inj hemit
      have haccepts : (Sample.encodeOps (w.ops ++ [op])).length ≤ w.capacity := by
        by_contra hlong
        rw [show Sample.writer.accepts w.capacity w.ops op = false from decide_eq_false hlong] at hresult
        cases hresult
      exact @ih { w with ops := w.ops ++ [op] } haccepts hrest

theorem Sample.writer_fits : Sample.writer.Fits := by
  intro n ops w h
  exact @Sample.length_emitAll ops (Writer.init n) w (Nat.zero_le n) h

/-- An extension request as a credential id, with a count that comes first. -/
def demoExtensionId : List UInt8 :=
  [0x14, 0, 0, 0, 0x8C, 0x27, 0x90, 0xF6] ++ List.replicate 58 0 ++ [0xff, 0xff, 0xff, 0x7f]

/-- A getAssertion whose list begins with an extension request, and whose saltAuth
is zero. -/
def demoMixedAssertion : Event :=
  Sample.request ctapGetAssertionCmd (.createMap 4 ::
    (Sample.assertOps 6 (demoExtensionId :: Sample.twoIds.take 1)).tail ++
    [.int 4, .createMap 1, .text "hmac-secret", .createMap 3, .int 1] ++ Sample.platformKey ++
    [.int 2, .byteString (List.replicate 32 1), .int 3, .byteString (List.replicate 16 0)])

def demoNext : Event := .request [getNextAssertionCmd] Sample.touch

def demoMixedRun : List Event := Sample.twoCredentials ++ [demoMixedAssertion]

theorem authData_runs_iff_demo :
    Along (Machine.step Sample.env) (AnswersWellFormed Sample.env)
        (Machine.powerUp Sample.env Sample.device) (demoMixedRun ++ [demoNext]) ↔
      Along (Machine.step Sample.env) (FindsMakeable Sample.env)
        (Machine.powerUp Sample.env Sample.device) (demoMixedRun ++ [demoNext]) :=
  authData_runs_iff Sample.writer_fits Sample.device (demoMixedRun ++ [demoNext])

/-- The getNextAssertion is answered with the 80 bytes behind the header, and no
flag for them. -/
theorem authData_runs_counterexample :
    ¬ Along (Machine.step Sample.env) (AnswersWellFormed Sample.env)
      (Machine.powerUp Sample.env Sample.device) (demoMixedRun ++ [demoNext]) := by
  let m := run (Machine.step Sample.env) (Machine.powerUp Sample.env Sample.device) demoMixedRun
  have hanswered : (m.answer Sample.env demoNext).map (Except.map Option.isSome) = some (.ok true) ∧
      (m.traceOf Sample.env demoNext).any Trace.isAssertion = true ∧
      m.auth.savedCall.output Sample.env = .error (.status ctap2ErrExtensionFirst) := by
    decide +kernel
  obtain ⟨hanswer, hsigned, hrefused⟩ := hanswered
  obtain ⟨w, hw⟩ := exists_answer hanswer
  have hsafe : FlagsSafe m.auth := invariant_run_always flagsSafe_step demoMixedRun
    (flagsSafe_powerUp Sample.device)
  intro halong
  have hlast : AnswersWellFormed Sample.env m demoNext :=
    ((along_append ..).mp halong).2.1
  have hfound := (answersWellFormed_iff Sample.writer_fits hsafe demoNext).mp hlast
  exact (hfound rfl w ⟨hw, hsigned⟩).1 (ExtensionsCall.output_refused_iff.mp hrefused).2

end NitrokeyFido2.Ctap
