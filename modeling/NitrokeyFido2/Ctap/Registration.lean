import NitrokeyFido2.Ctap.Attempts
import NitrokeyFido2.Ctap.AuthData
import NitrokeyFido2.Ctap.Creation
import NitrokeyFido2.Ctap.CredentialIds
import NitrokeyFido2.Ctap.Discoverable

/-!
From a registration to a sign-in.

A makeCredential returns the id that it keeps in a slot, and the id tells what
protects it. As long as the slot is not given to the same user of the same relying
party again, nobody deletes it and the device is not reset, a getAssertion without a
list signs with it.
-/

namespace NitrokeyFido2.Ctap

open Proc Resumption Transition Sorting

variable (env : Env)

/-! ### The level of protection -/

namespace CredentialId

variable (c : CredentialId)

theorem metadata_eq : metadata c = Bytes.le32 ((nonce c).drop 14) := by
  unfold metadata nonce Buf.slice
  rw [List.drop_take, List.drop_drop]
  rfl

theorem noncePad_eq : noncePad c = (nonce c).take 14 := by
  unfold noncePad nonce Buf.slice
  rw [List.take_take]
  rfl

theorem nonce_setCount (v : UInt32) : nonce (setCount c v) = nonce c :=
  Buf.slice_write_before (by rw [Bytes.length_toLe32]) (by decide)

theorem metadata_setMetadata (v : UInt32) : metadata (setMetadata c v) = v := by
  have hself : (c.write 30 (Bytes.toLe32 v)).slice 30 4 = Bytes.toLe32 v :=
    Buf.slice_written (Bytes.length_toLe32 v) (by decide)
  unfold metadata setMetadata
  rw [hself, ← List.append_nil (Bytes.toLe32 v), Bytes.le32_toLe32]

theorem noncePad_setMetadata (v : UInt32) : noncePad (setMetadata c v) = noncePad c :=
  Buf.slice_write_before (by rw [Bytes.length_toLe32]; decide) (by decide)

end CredentialId

variable {env} in
/-- The level is in the nonce. -/
theorem readMetadata_congr {s : Secrets} {c d : CredentialId}
    (h : CredentialId.nonce c = CredentialId.nonce d) :
    readMetadataFromMaskedCredential env s c = readMetadataFromMaskedCredential env s d := by
  unfold readMetadataFromMaskedCredential metadataMask
  rw [CredentialId.metadata_eq, CredentialId.metadata_eq, CredentialId.noncePad_eq,
    CredentialId.noncePad_eq, h]

/-- A new id tells the level it was made with. -/
theorem readMetadata_newCredentialId (s : Secrets) (nonce : Buf credentialNonceSize)
    (h : AuthDataHeader) (l : UInt32) :
    readMetadataFromMaskedCredential env s (newCredentialId env s nonce h l) = l := by
  have hnonce : CredentialId.nonce (newCredentialId env s nonce h l) =
      CredentialId.nonce (addMaskedMetadataForCredential env s
        (CredentialId.setNonce (Buf.zero _) nonce.bytes) l) := by
    rw [newCredentialId_eq, CredentialId.nonce_setTag _ (length_makeAuthTag ..), untaggedId,
      CredentialId.nonce_setRpIdHash _ h.rpIdHash.length_bytes, CredentialId.nonce_setCount]
  rw [readMetadata_congr hnonce]
  unfold addMaskedMetadataForCredential readMetadataFromMaskedCredential
  generalize CredentialId.setNonce (Buf.zero _) nonce.bytes = id
  have hmask (v : UInt32) :
      metadataMask env s (CredentialId.setMetadata id v) = metadataMask env s id := by
    unfold metadataMask
    rw [CredentialId.noncePad_setMetadata]
  rw [CredentialId.metadata_setMetadata, hmask, UInt32.xor_comm, ← UInt32.xor_assoc,
    UInt32.xor_self, UInt32.zero_xor]

/-! ### What a makeCredential registers -/

/-- The credential id in the response of a makeCredential. -/
def Writer.newId (w : Writer) : List UInt8 := (w.authData.drop 55).take credentialIdSize

section Create

variable {env} {a t : Authenticator} {bytes : List UInt8} {h : Answers} {w : Writer}

theorem newId_eq {hd : AuthDataHeader} {id : CredentialId} {coseKey ext : List UInt8}
    (hdata : w.authData = hd.toBytes ++ attestedCredentialData env id coseKey ++ ext) :
    w.newId = id.bytes := by
  have hfront : (hd.toBytes ++ env.aaguid.bytes ++ [0, UInt8.ofNat credentialIdSize]).length = 55 := by
    rw [List.length_append, List.length_append, length_toBytes, env.aaguid.length_bytes]
    rfl
  have hsplit : w.authData = (hd.toBytes ++ env.aaguid.bytes ++ [0, UInt8.ofNat credentialIdSize]) ++
      (id.bytes ++ (coseKey ++ ext)) := by
    rw [hdata, attestedCredentialData]
    simp only [List.append_assoc]
  rw [Writer.newId, hsplit, List.drop_left' hfront]
  exact List.take_left' id.length_bytes

/-- The id that was made for these parameters, and the slot it is kept in. -/
structure Registered (env : Env) (mc : MakeCredential env.reader.Cursor) (a t : Authenticator)
    (id : CredentialId) : Prop where
  made : ∃ nonce hd, hd.rpIdHash = env.sha256 mc.rp.bytes ∧
    id = newCredentialId env a.secrets nonce hd mc.extensions.credProtect
  stored : mc.credInfo.rk ≠ 0 → makeResidentKey id mc.credInfo.user mc.rp ∈ t.rks
  valid : CredentialId.count id ≠ 0 ∧ CredentialId.count id ≠ 0xffffffff

theorem ctapRkIsValid_of_count {rk : ResidentKey}
    (hcount : CredentialId.count rk.id ≠ 0 ∧ CredentialId.count rk.id ≠ 0xffffffff) :
    ctapRkIsValid rk = true := by
  unfold ctapRkIsValid
  rw [Bool.and_eq_true, decide_eq_true_iff, decide_eq_true_iff]
  exact ⟨UInt32.pos_iff_ne_zero.mpr hcount.1, hcount.2⟩

theorem storeResidentKey_mem {rk : ResidentKey} {u : Unit} (ha : RkStoreOk a)
    (hvalid : ctapRkIsValid rk = true) (hrun : storeResidentKey rk a = (.ok u, t)) : rk ∈ t.rks := by
  rcases storeResidentKey_cases ha hvalid with ⟨i, s, htarget, hstore, hrks, -⟩ | ⟨hstore, -⟩
  · obtain ⟨-, rfl⟩ := Prod.mk.inj (hstore.symm.trans hrun)
    rw [hrks]
    exact List.mem_set htarget.lt rk
  · cases (Prod.mk.inj (hstore.symm.trans hrun)).1

theorem ctapMakeAuthData_registered {mc : MakeCredential env.reader.Cursor} {hd : AuthDataHeader}
    {attested : List UInt8} (ha : RkStoreOk a) (hcounts : CountsValid t)
    (hrun : CtapM.answered h (ctapMakeAuthData env mc.rp mc.credInfo mc.extensions) a =
      (.ok (hd, attested), t)) :
    ∃ id, Registered env mc a t id ∧
      attested = attestedCredentialData env id (coseKeyBytes env t id mc.credInfo) := by
  have hframe : Routine.Keeps (Changed [.events .presence])
      (ctapMakeAuthDataHeader env (fun _ => pure ()) mc.rp) := inferInstance
  unfold ctapMakeAuthData at hrun
  simp only [CtapM.answered, Routine.answered_bind, Routine.answered_liftM] at hrun
  obtain ⟨hd₀, u, hheader, hrest⟩ := bind_ok.mp hrun
  obtain ⟨id, v, hid, hrest⟩ := bind_ok.mp hrest
  obtain ⟨_, s, hstore, hrest⟩ := bind_ok.mp hrest
  rw [get_bind] at hrest
  obtain ⟨heq, rfl⟩ := pure_ok.mp hrest
  obtain ⟨rfl, rfl⟩ := Prod.mk.inj heq
  have hu : Changed [.events .presence] a u := (hframe.answered h.answer).apply hheader
  have hsecrets : u.secrets = a.secrets := congrArg Prod.fst (hu .secrets (by decide))
  have hv : RkStoreOk v := by
    have hmade : Changed [.events .created] u v :=
      (inferInstance : Keeps (Changed [.events .created])
        (makeCredentialId env hd₀ mc.extensions.credProtect)).apply hid
    exact (ha.congr (Unchanged.sameStore hu (by decide) (by decide))).congr
      (Unchanged.sameStore hmade (by decide) (by decide))
  obtain ⟨hidEq, hvEq⟩ := Prod.mk.inj hid
  -- the id that is made is noted, and counted
  have hnoted : Trace.created u.secrets id mc.extensions.credProtect ∈ v.trace := by
    rw [← Except.ok.inj hidEq, ← hvEq]
    exact List.mem_append_right _ List.mem_cons_self
  have hgrows : v.trace <+: s.trace := by
    have hkeeps : Keeps (Changed [.rks, .rkStored]) (if mc.credInfo.rk ≠ 0 then
      storeResidentKey (makeResidentKey id mc.credInfo.user mc.rp) else pure () : Device Unit) :=
      inferInstance
    exact hkeeps.apply hstore .trace (by decide)
  have hcount := hcounts _ (hgrows.subset hnoted)
  refine ⟨id, ⟨⟨u.drawn env credentialNonceSize, hd₀, (ctapMakeAuthDataHeader_value hheader).1, ?_⟩,
    fun hrk => ?_, hcount⟩, rfl⟩
  · rw [← hsecrets]
    exact (Except.ok.inj hidEq).symm
  · rw [if_pos hrk] at hstore
    exact storeResidentKey_mem hv (ctapRkIsValid_of_count hcount) hstore

theorem Registered.of_secrets {mc : MakeCredential env.reader.Cursor} {b : Authenticator}
    {id : CredentialId} (h : Registered env mc b t id) (hsecrets : b.secrets = a.secrets) :
    Registered env mc a t id := by
  obtain ⟨nonce, hd, hhash, hid⟩ := h.made
  rw [hsecrets] at hid
  exact ⟨⟨nonce, hd, hhash, hid⟩, h.stored, h.valid⟩

theorem Registered.of_rks {mc : MakeCredential env.reader.Cursor} {b : Authenticator}
    {id : CredentialId} (h : Registered env mc a b id) (hrks : t.rks = b.rks) :
    Registered env mc a t id :=
  ⟨h.made, fun hrk => hrks ▸ h.stored hrk, h.valid⟩

theorem beginMakeCredential_registered {w' : Writer} {request : List UInt8}
    {mc : MakeCredential env.reader.Cursor} {hd : AuthDataHeader} {attested : List UInt8}
    (ha : RkStoreOk a) (hcounts : CountsValid t)
    (hrun : CtapM.answered h (beginMakeCredential env w request) a = (.ok (mc, w', hd, attested), t)) :
    mc = requestedCredential env a request ∧ ∃ id, Registered env mc a t id ∧
      attested = attestedCredentialData env id (coseKeyBytes env t id mc.credInfo) := by
  unfold beginMakeCredential at hrun
  simp only [CtapM.answered, Routine.answered_bind, Routine.answered_liftM] at hrun
  obtain ⟨mc', a₁, hparse, hrest⟩ := bind_ok.mp hrun
  have hmc := (parsedWithCustom_ends (a := a) (ctapParseMakeCredential env request) default).elim
    hparse mc' rfl
  obtain ⟨_, a₂, hcheck, hrest⟩ := bind_ok.mp hrest
  obtain ⟨w₁, a₃, henc, hrest⟩ := bind_ok.mp hrest
  obtain ⟨rfl, rfl⟩ := (emits_emitAll _).encode henc
  obtain ⟨⟨hd', attested'⟩, a₄, hmake, hret⟩ := bind_ok.mp hrest
  obtain ⟨heq, rfl⟩ := pure_ok.mp hret
  simp only [Prod.mk.injEq] at heq
  obtain ⟨rfl, rfl, rfl, rfl⟩ := heq
  have hquiet : Changed quietChanges a a₂ := by
    have hchecks : Routine.Keeps (Changed quietChanges) (checkMakeCredential env mc') := inferInstance
    exact trans_of (Changed quietChanges)
      ((inferInstance : Keeps (Changed quietChanges) _).apply hparse)
      ((hchecks.answered h.answer).apply hcheck)
  obtain ⟨id, hid, hattested⟩ := ctapMakeAuthData_registered (ha.quiet hquiet) hcounts hmake
  exact ⟨hmc, id, hid.of_secrets (congrArg Prod.fst (hquiet .secrets (by decide))), hattested⟩

theorem finishMakeCredential_quiet (mc : MakeCredential env.reader.Cursor) (w : Writer)
    (authData : List UInt8) : Keeps (Changed quietChanges) (finishMakeCredential env mc w authData) := by
  unfold finishMakeCredential
  infer_instance

/-- An answered makeCredential returns the data that it has begun with. -/
theorem dispatch_makeCredential_made (hcmd : bytes.getD 0 0 = ctapMakeCredentialCmd)
    (hrun : a.dispatch env bytes h = (.ok (some w), t)) :
    ∃ mc w₁ hd attested s, CtapM.answered h (beginMakeCredential env freshWriter bytes.tail)
        { a with trace := [] } = (.ok (mc, w₁, hd, attested), s) ∧ Changed quietChanges s t ∧
      ∃ (hd' : AuthDataHeader) (ext : List UInt8), w.authData = hd'.toBytes ++ attested ++ ext := by
  rw [dispatch_makeCredential env hcmd] at hrun
  obtain ⟨_, a₁, hlocked, hrest⟩ := bind_ok.mp hrun
  obtain ⟨w', t', hrun', hret⟩ := bind_ok.mp hrest
  obtain ⟨heq, rfl⟩ := pure_ok.mp hret
  obtain rfl := Option.some.inj heq
  obtain rfl : { a with trace := [] } = a₁ := (inferInstance : Keeps Eq failIfLocked).apply hlocked
  rw [answered_ctapMakeCredential] at hrun'
  obtain ⟨⟨mc, w₁, hd, attested⟩, s, hbegin, hrest⟩ := bind_ok.mp hrun'
  obtain ⟨authData, s', happend, hfinish⟩ := bind_ok.mp hrest
  obtain ⟨rfl, ext, -, rfl⟩ := appendExtensions_ok happend
  have hlast : Changed quietChanges s' t' :=
    (finishMakeCredential_quiet mc w₁ _).apply hfinish
  obtain ⟨-, rfl, -, -⟩ := beginMakeCredential_ok hbegin
  obtain ⟨sigder, rfl⟩ := finishMakeCredential_ok hfinish
  exact ⟨mc, _, hd, attested, s', hbegin, hlast, _, _, authData_of_creationItems rfl⟩

/-- An answered makeCredential has made the id that it returns. -/
theorem dispatch_makeCredential_registered (ha : RkStoreOk a) (hcounts : CountsValid t)
    (hcmd : bytes.getD 0 0 = ctapMakeCredentialCmd)
    (hrun : a.dispatch env bytes h = (.ok (some w), t)) :
    ∃ id, Registered env (requestedCredential env a bytes.tail) a t id ∧ w.newId = id.bytes := by
  obtain ⟨mc, w₁, hd, attested, s, hbegin, hlast, hd', ext, hdata⟩ :=
    dispatch_makeCredential_made hcmd hrun
  have ha' : RkStoreOk { a with trace := [] } := ha.congr ⟨rfl, rfl⟩
  obtain ⟨hmc, id, hid, rfl⟩ := beginMakeCredential_registered ha' (hlast.countsValid hcounts) hbegin
  rw [hmc] at hid
  exact ⟨id, (hid.of_rks hlast.rks_eq).of_secrets rfl, newId_eq hdata⟩

end Create

/-! ### What a registration lives through -/

/-- A reset that is carried out. -/
def IsReset (m : Machine) (e : Event) : Prop :=
  match e with
  | .reboot => False
  | .request bytes _ => bytes.getD 0 0 = ctapResetCmd ∧ (m.reply env e).map (·.status) = some 0

instance (m : Machine) : (e : Event) → Decidable (IsReset env m e)
  | .reboot => .isFalse False.elim
  | .request bytes h => inferInstanceAs (Decidable (bytes.getD 0 0 = ctapResetCmd ∧
      (m.reply env (.request bytes h)).map (·.status) = some 0))

/-- The request puts a resident key where this key is, deletes this id, or resets the
device. -/
def Forgets (key : RkKey) (id : List UInt8) (m : Machine) (e : Event) : Prop :=
  match e with
  | .reboot => False
  | .request bytes _ =>
      if bytes.getD 0 0 = ctapMakeCredentialCmd then
        (requestedCredential env m.auth bytes.tail).credInfo.rk ≠ 0 ∧
          (requestedCredential env m.auth bytes.tail).rkKey env = key
      else if bytes.getD 0 0 = ctapCborCredMgmtCmd ∨ bytes.getD 0 0 = ctapCborCredMgmtPreCmd then
        (requestedManagement env m.auth bytes.tail).cmd = cmCmdRKDelete ∧
          (requestedManagement env m.auth bytes.tail).credentialDescriptor.credential.id.bytes = id
      else IsReset env m e

instance (key : RkKey) (id : List UInt8) (m : Machine) :
    (e : Event) → Decidable (Forgets env key id m e)
  | .reboot => .isFalse False.elim
  | .request bytes h => inferInstanceAs (Decidable (
      if bytes.getD 0 0 = ctapMakeCredentialCmd then
        (requestedCredential env m.auth bytes.tail).credInfo.rk ≠ 0 ∧
          (requestedCredential env m.auth bytes.tail).rkKey env = key
      else if bytes.getD 0 0 = ctapCborCredMgmtCmd ∨ bytes.getD 0 0 = ctapCborCredMgmtPreCmd then
        (requestedManagement env m.auth bytes.tail).cmd = cmCmdRKDelete ∧
          (requestedManagement env m.auth bytes.tail).credentialDescriptor.credential.id.bytes = id
      else IsReset env m (.request bytes h)))

/-- The secrets are those of the persistent state. -/
def SecretsLoaded (a : Authenticator) : Prop := a.secrets = cryptoLoadMasterSecret a.state.keySpace

section Lasts

variable {env} {m : Machine} {e : Event} {rk : ResidentKey}

/-- A valid slot stays as it is as long as the step does not forget it. -/
theorem kept_step (hinit : env.InitNeverSays ctap2ErrKeyStoreFull) (hm : StoreInv m)
    (he : CountsAreValid env m e) (hrk : rk ∈ m.auth.rks) (hvalid : ctapRkIsValid rk = true)
    (hspared : ¬ Forgets env rk.key rk.id.bytes m e) : rk ∈ (m.step env e).auth.rks := by
  obtain ⟨-, hstep⟩ := hm.step hinit he
  unfold Forgets at hspared
  cases e with
  | reboot => exact hstep.symm ▸ hrk
  | request bytes h =>
      unfold RkStep RkRequestStep at hstep
      dsimp only at hstep hspared
      split_ifs at hstep with hrun hmake hmanage hcleared
      · rw [if_pos hmake] at hspared
        rcases hstep.atMost with hsame | ⟨i, x, htarget, -, -, hput⟩
        · exact hsame ▸ hrk
        · rw [hput]
          by_cases hzero : (requestedCredential env m.auth bytes.tail).credInfo.rk = 0
          · rw [← hput, hstep.notResident hzero]
            exact hrk
          · exact htarget.mem_set hrk hvalid fun hkey => hspared ⟨hzero, hkey.symm⟩
      · rw [if_neg hmake, if_pos hmanage] at hspared
        rcases hstep.atMost with hsame | ⟨hdelete, i, x, hslot, -, hid, hfreed⟩
        · exact hsame ▸ hrk
        · obtain ⟨j, hj⟩ := List.mem_iff_getElem?.mp hrk
          have hij : i ≠ j := by
            rintro rfl
            rw [hj] at hslot
            obtain rfl := Option.some.inj hslot
            exact hspared ⟨hdelete, by rw [hid]⟩
          rw [hfreed]
          exact List.mem_iff_getElem?.mpr ⟨j, by rw [List.getElem?_set_ne hij, hj]⟩
      · rw [if_neg hmake, if_neg hmanage] at hspared
        exact absurd hcleared hspared
      · exact hstep ▸ hrk
      · exact hstep ▸ hrk

theorem IsReset.forgets {key : RkKey} {id : List UInt8} (h : IsReset env m e) :
    Forgets env key id m e := by
  unfold Forgets
  cases e with
  | reboot => exact h
  | request bytes h' =>
      dsimp only
      have hcmd : bytes.getD 0 0 = ctapResetCmd := h.1
      rw [if_neg (by rw [hcmd]; decide), if_neg (by rw [hcmd]; decide)]
      exact h

/-- Only a reset changes the secrets. -/
theorem secrets_step (hpersisted : Persisted m.auth) (hloaded : SecretsLoaded m.auth) :
    SecretsLoaded (m.step env e).auth ∧
      (¬ IsReset env m e → (m.step env e).auth.secrets = m.auth.secrets) := by
  unfold SecretsLoaded at *
  cases e with
  | reboot =>
      have hstep : m.step env .reboot = .of (m.auth.reboot env) := rfl
      rw [hstep, hpersisted.reboot]
      exact ⟨rfl, fun _ => hloaded.symm⟩
  | request bytes h =>
      by_cases hrun : m.running = true
      case neg =>
        rw [Machine.step, if_neg hrun]
        exact ⟨hloaded, fun _ => rfl⟩
      case pos =>
        rcases hd : m.auth.dispatch env bytes h with ⟨r, t⟩
        obtain ⟨hauth, hstatus⟩ := step_request hrun hd
        have hsame : (m.step env (.request bytes h)).auth.secrets = t.secrets ∧
            (m.step env (.request bytes h)).auth.state.keySpace = t.state.keySpace := by
          rcases hauth with hauth | ⟨c, hauth⟩ <;> rw [hauth] <;> exact ⟨rfl, rfl⟩
        rw [hsame.1, hsame.2]
        by_cases hreset : bytes.getD 0 0 = ctapResetCmd
        case neg =>
          have hchanged : Changed requestMayChange { m.auth with trace := [] }
              (m.auth.dispatch env bytes h).2 := dispatch_changed hreset
          rw [hd] at hchanged
          obtain ⟨hsecrets, hspace⟩ := Prod.mk.inj (hchanged .secrets (by decide))
          exact ⟨by rw [hsecrets, hspace, hloaded], fun _ => hsecrets⟩
        case pos =>
          obtain ⟨u, hu, hdone⟩ := dispatch_reset_cases env (a := m.auth) (h := h) hreset
          rw [hd] at hdone
          rcases hdone with hdone | ⟨c, hc, hdone⟩ <;> obtain ⟨rfl, rfl⟩ := Prod.mk.inj hdone
          · exact ⟨rfl, fun hspared => absurd ⟨hreset, hstatus⟩ hspared⟩
          · have hchanged : Changed [.events .presence] { m.auth with trace := [] } t := hu.changed
            obtain ⟨hsecrets, hspace⟩ := Prod.mk.inj (hchanged .secrets (by decide))
            exact ⟨by rw [hsecrets, hspace, hloaded], fun _ => hsecrets⟩

/-- The stored state is in use, and so are its secrets. -/
structure SecretsInv (m : Machine) : Prop where
  persisted : Persisted m.auth
  loaded : SecretsLoaded m.auth

theorem SecretsInv.step (hm : SecretsInv m) (e : Event) : SecretsInv (m.step env e) :=
  ⟨hm.persisted.step e, (secrets_step hm.persisted hm.loaded).1⟩

theorem SecretsInv.powerUp {a : Authenticator} (ha : a.stored.isInitialized ≠ initializedMarker) :
    SecretsInv (Machine.powerUp env a) := by
  rw [Machine.powerUp, reboot_of_not_initialized env ha]
  exact ⟨⟨rfl, rfl, rfl⟩, rfl⟩

/-- The secrets remain as long as the device is not reset. -/
theorem SecretsInv.run (hm : SecretsInv m) {es : List Event}
    (hes : Along (Machine.step env) (fun m e => ¬ IsReset env m e) m es) :
    (run (Machine.step env) m es).auth.secrets = m.auth.secrets := by
  have hstep (n : Machine) (e : Event) (hn : SecretsInv n ∧ n.auth.secrets = m.auth.secrets)
      (he : ¬ IsReset env n e) :
      SecretsInv (n.step env e) ∧ (n.step env e).auth.secrets = m.auth.secrets :=
    ⟨hn.1.step e, ((secrets_step hn.1.persisted hn.1.loaded).2 he).trans hn.2⟩
  exact (invariant_run hstep ⟨hm, rfl⟩ hes).2

/-- What holds in every state that valid counts lead to. -/
structure KeysInv (m : Machine) : Prop where
  store : StoreInv m
  loaded : SecretsLoaded m.auth

theorem KeysInv.step (hinit : env.InitNeverSays ctap2ErrKeyStoreFull) (hm : KeysInv m)
    (he : CountsAreValid env m e) : KeysInv (m.step env e) :=
  ⟨(hm.store.step hinit he).1, (secrets_step hm.store.persisted hm.loaded).1⟩

/-- A resident key is kept, and so are the secrets that belong to it. -/
structure StillKeeps (rk : ResidentKey) (s : Secrets) (m : Machine) : Prop where
  inv : KeysInv m
  kept : rk ∈ m.auth.rks
  secrets : m.auth.secrets = s

/-- The counts are valid, and nothing is forgotten. -/
def Spares (env : Env) (key : RkKey) (id : List UInt8) (m : Machine) (e : Event) : Prop :=
  CountsAreValid env m e ∧ ¬ Forgets env key id m e

instance (key : RkKey) (id : List UInt8) (m : Machine) (e : Event) :
    Decidable (Spares env key id m e) :=
  inferInstanceAs (Decidable (_ ∧ _))

theorem StillKeeps.step (hinit : env.InitNeverSays ctap2ErrKeyStoreFull) {s : Secrets}
    (hvalid : ctapRkIsValid rk = true) (hm : StillKeeps rk s m)
    (he : Spares env rk.key rk.id.bytes m e) : StillKeeps rk s (m.step env e) := by
  obtain ⟨hcounts, hspared⟩ := he
  have hsecrets := (secrets_step hm.inv.store.persisted hm.inv.loaded).2 fun h => hspared h.forgets
  exact
    { inv := hm.inv.step hinit hcounts
      kept := kept_step hinit hm.inv.store hcounts hm.kept hvalid hspared
      secrets := hsecrets.trans hm.secrets }

end Lasts

/-! ### Registrations -/

/-- A run of a device that was never used before, up to a makeCredential that is
answered. -/
structure Registration where
  device : Authenticator
  before : List Event
  bytes : List UInt8
  answers : Answers
  answer : Writer
  unused : device.stored.isInitialized ≠ initializedMarker
  cmd : bytes.getD 0 0 = ctapMakeCredentialCmd
  running : (run (Machine.step env) (Machine.powerUp env device) before).running = true
  answered : ((run (Machine.step env) (Machine.powerUp env device) before).auth.dispatch env bytes
    answers).1 = .ok (some answer)

namespace Registration

variable {env} (r : Registration env)

/-- The device before the makeCredential. -/
def start : Machine := run (Machine.step env) (Machine.powerUp env r.device) r.before

/-- The device behind it. -/
def done : Machine := r.start.step env (.request r.bytes r.answers)

/-- What was asked for. -/
def credential : MakeCredential env.reader.Cursor :=
  requestedCredential env r.start.auth r.bytes.tail

/-- The ids made so far have counts that a valid slot can have. -/
def CountsValid : Prop :=
  Along (Machine.step env) (CountsAreValid env) (Machine.powerUp env r.device)
    (r.before ++ [.request r.bytes r.answers])

instance : Decidable r.CountsValid := inferInstanceAs (Decidable (Along ..))

theorem inv_start (hinit : env.InitNeverSays ctap2ErrKeyStoreFull) (hcounts : r.CountsValid) :
    KeysInv r.start := by
  have hpower : Machine.powerUp env r.device = _ :=
    congrArg Machine.of (reboot_of_not_initialized env r.unused)
  have hinv : KeysInv (Machine.powerUp env r.device) := by
    rw [hpower]
    exact ⟨⟨⟨rfl, rfl, rfl⟩, .reset rfl rfl⟩, rfl⟩
  exact invariant_run (fun m e => KeysInv.step hinit) hinv ((along_append ..).mp hcounts).1

theorem registered (hinit : env.InitNeverSays ctap2ErrKeyStoreFull) (hcounts : r.CountsValid) :
    ∃ id, Registered env r.credential r.start.auth r.done.auth id ∧ r.answer.newId = id.bytes := by
  have hdone := r.answered
  have hlast : CountsAreValid env r.start (.request r.bytes r.answers) :=
    ((along_append ..).mp hcounts).2.1
  rcases hd : r.start.auth.dispatch env r.bytes r.answers with ⟨out, t⟩
  change (r.start.auth.dispatch env r.bytes r.answers).1 = _ at hdone
  rw [hd] at hdone
  obtain rfl : out = _ := hdone
  obtain ⟨hauth, -⟩ := step_request r.running hd
  have hsame : r.done.auth.rks = t.rks ∧ r.done.auth.trace = t.trace := by
    change r.done.auth = t ∨ ∃ c, r.done.auth = t.setLastcmd c at hauth
    rcases hauth with hauth | ⟨c, hauth⟩ <;> rw [hauth] <;> exact ⟨rfl, rfl⟩
  obtain ⟨id, hid, hnew⟩ := dispatch_makeCredential_registered (r.inv_start hinit hcounts).store.store
    (fun e he => hlast e (hsame.2 ▸ he)) r.cmd hd
  exact ⟨id, hid.of_rks hsame.1, hnew⟩

theorem secretsInv_start : SecretsInv r.start :=
  invariant_run_always (fun _ e hm => hm.step e) r.before (.powerUp r.unused)

theorem secretsInv_done : SecretsInv r.done := r.secretsInv_start.step _

theorem secrets_done : r.done.auth.secrets = r.start.auth.secrets := by
  have hinv := r.secretsInv_start
  refine (secrets_step hinv.persisted hinv.loaded).2 fun hreset => ?_
  have hcmd := r.cmd
  rw [hreset.1] at hcmd
  exact absurd hcmd (by decide)

theorem inv_done (hinit : env.InitNeverSays ctap2ErrKeyStoreFull) (hcounts : r.CountsValid) :
    KeysInv r.done :=
  (r.inv_start hinit hcounts).step hinit ((along_append ..).mp hcounts).2.1

end Registration

/-- Who may see a credential of this level without a list. -/
def ShownWithoutList (level : UInt32) (isVerified : Bool) : Prop :=
  isVerified = true ∨
    level ≠ extCredProtectOptionalWithCredid ∧ level ≠ extCredProtectRequired

/-- What a chain without a list tells about a registration. -/
structure SignsBackIn {env : Env} (r : Registration env) (c : AnsweredChain env) : Prop where
  /-- One of the answers returns the id and the user of the registration, if the request
  may see it. -/
  told : ShownWithoutList r.credential.extensions.credProtect (verifiesUser env c.start c.bytes) →
    ∃ rk : ResidentKey, rk.id.bytes = r.answer.newId ∧ rk.user = r.credential.credInfo.user ∧
      ∃ w ∈ c.answer :: c.rest, ∃ isShown total, w.Tells rk isShown total
  /-- None of them does otherwise. -/
  hidden : ¬ ShownWithoutList r.credential.extensions.credProtect
      (verifiesUser env c.start c.bytes) → ∀ w ∈ c.answer :: c.rest, w.credentialId ≠ r.answer.newId

section Final

variable {env}

theorem checkCredentialMetadata_iff {s : Secrets} {id : CredentialId} {isVerified : Bool} :
    checkCredentialMetadata env s id isVerified false = true ↔
      ShownWithoutList (readMetadataFromMaskedCredential env s id) isVerified := by
  unfold checkCredentialMetadata ShownWithoutList
  dsimp only
  split_ifs with hlist hrequired
  · simp [hlist]
  · simp [hrequired]
  · simp [hlist, hrequired]

theorem Writer.Tells.credentialId {w : Writer} {rk : ResidentKey} {isShown : Bool}
    {total : List EncOp} (h : w.Tells rk isShown total) : w.credentialId = rk.id.bytes := by
  obtain ⟨x, hops, hid, -⟩ := h
  rw [credentialId_of_items hops, hid]

/-- All the keys of a complete chain are told. -/
theorem SignsInWith.exists_answer {c : AnsweredChain env} {keys : List ResidentKey}
    (h : SignsInWith c keys) (hall : c.rest.length + 1 = keys.length) {rk : ResidentKey}
    (hrk : rk ∈ keys) : ∃ w ∈ c.answer :: c.rest, ∃ isShown total, w.Tells rk isShown total := by
  obtain ⟨i, hi⟩ := List.mem_iff_getElem?.mp hrk
  cases i with
  | zero =>
      obtain ⟨rk', hfirst, htells⟩ := h.first
      rw [hi] at hfirst
      obtain rfl := Option.some.inj hfirst
      exact ⟨c.answer, List.mem_cons_self, _, _, htells⟩
  | succ i =>
      have hlt : i < c.rest.length := by
        have := (List.getElem?_eq_some_iff.mp hi).1
        omega
      obtain ⟨rk', hother, htells⟩ := h.others i _ (List.getElem?_eq_getElem hlt)
      rw [hi] at hother
      obtain rfl := Option.some.inj hother
      exact ⟨_, List.mem_cons_of_mem _ (List.getElem_mem hlt), _, _, htells⟩

/-- Every answer tells a key. -/
theorem SignsInWith.exists_key {c : AnsweredChain env} {keys : List ResidentKey}
    (h : SignsInWith c keys) {w : Writer} (hw : w ∈ c.answer :: c.rest) :
    ∃ rk ∈ keys, w.credentialId = rk.id.bytes := by
  rcases List.mem_cons.mp hw with rfl | hw
  · obtain ⟨rk, hrk, htells⟩ := h.first
    exact ⟨rk, List.mem_of_getElem? hrk, htells.credentialId⟩
  · obtain ⟨i, hi⟩ := List.mem_iff_getElem?.mp hw
    obtain ⟨rk, hrk, htells⟩ := h.others i w hi
    exact ⟨rk, List.mem_of_getElem? hrk, htells.credentialId⟩

end Final

/-- A makeCredential that is answered, at the end of a run. -/
def registrationOf (env : Env) (device : Authenticator) (before : List Event) (bytes : List UInt8)
    (h : Answers) : Option (Registration env) :=
  let m := run (Machine.step env) (Machine.powerUp env device) before
  match hrun : (m.auth.dispatch env bytes h).1 with
  | .ok (some w) =>
      if hok : device.stored.isInitialized ≠ initializedMarker ∧
          bytes.getD 0 0 = ctapMakeCredentialCmd ∧ m.running = true then
        some ⟨device, before, bytes, h, w, hok.1, hok.2.1, hok.2.2, hrun⟩
      else none
  | _ => none

/-- A registration that is carried out and of which something is found to hold. -/
theorem exists_registration {env : Env} {device : Authenticator} {before : List Event}
    {bytes : List UInt8} {h : Answers} {p : Registration env → Bool}
    (hp : (registrationOf env device before bytes h).any p = true) :
    ∃ r : Registration env, p r = true := by
  rcases hr : registrationOf env device before bytes h with _ | r <;> rw [hr] at hp
  · exact absurd hp Bool.false_ne_true
  · exact ⟨r, hp⟩

/-- Another user is registered, and the device is plugged in again. -/
def demoMeanwhile : List Event :=
  [Sample.request ctapMakeCredentialCmd (Sample.createResidentOps [2]), .reboot]

/-- The registration signs back in behind these events, as one of two. -/
def demoSignsIn (r : Registration Sample.env) : Bool :=
  let a := (run (Machine.step Sample.env) r.done demoMeanwhile).auth
  let ga := requestedAssertion Sample.env a demoWithoutList.tail
  decide (r.CountsValid ∧ r.credential.credInfo.rk ≠ 0 ∧ r.credential.extensions.credProtect = 0 ∧
    Along (Machine.step Sample.env)
      (Spares Sample.env (r.credential.rkKey Sample.env) r.answer.newId) r.done demoMeanwhile ∧
    ga.credLen = 0 ∧ Sample.env.sha256 ga.rp.bytes = Sample.env.sha256 r.credential.rp.bytes ∧
    (a.visibleKeys Sample.env demoWithoutList).length = 2) &&
  (chainOf Sample.env a demoWithoutList Sample.touch 1).any fun c =>
    decide (c.last.gas.lastcmd = ctapGetAssertionCmd ∧ c.last.gas.count ≤ c.last.gas.index)

end NitrokeyFido2.Ctap
