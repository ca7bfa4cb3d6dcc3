import NitrokeyFido2.Ctap.AuthDataRuns

/-!
The credential that a hmac-secret output is made for.

`hmac_secret.credential` is set in a getAssertion, to the first entry of the list,
and is saved with it. A makeCredential never sets it, and a getNextAssertion keeps
it where it is.
-/

namespace NitrokeyFido2.Ctap

open Proc Resumption Transition

variable (env : Env)

/-! ### The pointer of a request -/

def SamePointer (s t : HmacSecret) : Prop := t.credential = s.credential

instance : IsPreorder HmacSecret SamePointer where
  refl _ := rfl
  trans _ _ _ h₁ h₂ := Eq.trans h₂ h₁

def SameExtPointer (s t : Extensions) : Prop := SamePointer s.hmacSecret t.hmacSecret

instance : IsPreorder Extensions SameExtPointer where
  refl _ := rfl
  trans _ _ _ h₁ h₂ := Eq.trans h₂ h₁

section Reading

variable {τ : Type} {R : τ → τ → Prop} [IsPreorder τ R]

instance {α : Type} (r : Except CborError α) : Keeps R (checkRet r : Parse τ α) :=
  inferInstanceAs (Keeps R (Proc.ofExcept _))

instance (e : CborError) : Keeps R (checkErr e : Parse τ Unit) :=
  inferInstanceAs (Keeps R (Proc.stopIf _ _))

instance (val : env.reader.Cursor) : Keeps R (enterMap env val : Parse τ _) := by
  unfold enterMap
  infer_instance

instance (unexpected : UInt8) (map : env.reader.Cursor) : Keeps R (intKey env unexpected map : Parse τ _) := by
  unfold intKey
  infer_instance

instance {γ : Type} (n : ℕ) (body : γ → Parse τ γ) (c : γ) [∀ c, Keeps R (body c)] :
    Keeps R (forEntries n body c) := by
  induction n generalizing c with
  | zero => exact Keeps.pure c
  | succ n ih => exact Keeps.seq inferInstance ih

instance (val : env.reader.Cursor) : Keeps R (enterArray env val : Parse τ _) := by
  unfold enterArray
  infer_instance

instance (initError : CborError → UInt8) (unexpected : UInt8) (request : List UInt8) :
    Keeps R (requestMap env initError unexpected request : Parse τ _) := by
  unfold requestMap
  infer_instance

instance (map : env.reader.Cursor) : Keeps R (parseInt env map : Parse τ ℤ) := by
  unfold parseInt
  infer_instance

end Reading

instance (s : env.reader.Cursor × UInt8) : Keeps SamePointer (parseHmacSecretEntry env s) := by
  have hkey (m : Parse CoseKey Unit) : Keeps SamePointer (Proc.zoom HmacSecret.keyAgreement
      (fun hs v => { hs with keyAgreement := v }) m) := Keeps.zoom fun _ _ => rfl
  have henc (b : List UInt8) : Keeps SamePointer
      (Proc.modify fun hs => { hs with saltEnc := hs.saltEnc.write 0 b } : Parse HmacSecret Unit) :=
    Keeps.modify fun _ => rfl
  have hlen (n : UInt8) : Keeps SamePointer
      (Proc.modify fun hs => { hs with saltLen := n } : Parse HmacSecret Unit) :=
    Keeps.modify fun _ => rfl
  have hauth (b : List UInt8) : Keeps SamePointer
      (Proc.modify fun hs => { hs with saltAuth := hs.saltAuth.write 0 b } : Parse HmacSecret Unit) :=
    Keeps.modify fun _ => rfl
  unfold parseHmacSecretEntry
  refine Keeps.seq inferInstance fun _ => Keeps.seq inferInstance fun map => ?_
  refine Keeps.seq ?_ fun _ => inferInstance
  split
  · infer_instance
  · split
    · infer_instance
    · infer_instance

instance (val : env.reader.Cursor) : Keeps SamePointer (ctapParseHmacSecret env val) := by
  unfold ctapParseHmacSecret
  infer_instance

instance (key : Buf 16) (map : env.reader.Cursor) :
    Keeps SameExtPointer (parseExtensionValue env key map) := by
  have hsecret : Keeps SameExtPointer (Proc.zoom Extensions.hmacSecret
      (fun ext v => { ext with hmacSecret := v }) (ctapParseHmacSecret env map)) :=
    Keeps.zoom_of (S := SamePointer) inferInstance fun _ _ h => h
  have hpresent (p : UInt8) : Keeps SameExtPointer
      (Proc.modify fun ext => { ext with hmacSecretPresent := p } : Parse Extensions Unit) :=
    Keeps.modify fun _ => rfl
  have hprotect (c : UInt32) : Keeps SameExtPointer
      (Proc.modify fun ext => { ext with credProtect := c } : Parse Extensions Unit) :=
    Keeps.modify fun _ => rfl
  unfold parseExtensionValue
  infer_instance

instance (val : env.reader.Cursor) : Keeps SameExtPointer (ctapParseExtensions env val) := by
  have hentry (s : env.reader.Cursor × Buf 16) : Keeps SameExtPointer (parseExtension env s) := by
    unfold parseExtension
    repeat first | infer_instance | refine Keeps.seq inferInstance fun _ => ?_
  unfold ctapParseExtensions
  infer_instance

/-- The pointer of a makeCredential request stays as it is. -/
def SameMcPointer {C : Type} (s t : MakeCredential C) : Prop := SameExtPointer s.extensions t.extensions

instance {C : Type} : IsPreorder (MakeCredential C) SameMcPointer where
  refl _ := rfl
  trans _ _ _ h₁ h₂ := Eq.trans h₂ h₁

/-- A step that leaves the extensions alone. -/
theorem keeps_mc {C : Type} {f : MakeCredential C → MakeCredential C}
    (hf : ∀ mc, (f mc).extensions = mc.extensions) :
    Keeps SameMcPointer (Proc.modify f : Parse (MakeCredential C) Unit) :=
  Keeps.modify fun mc => congrArg (fun ext : Extensions => ext.hmacSecret.credential) (hf mc)

theorem keeps_mc_zoom {C τ α : Type} {part : MakeCredential C → τ}
    {put : MakeCredential C → τ → MakeCredential C} (m : Parse τ α)
    (hput : ∀ mc v, (put mc v).extensions = mc.extensions) :
    Keeps SameMcPointer (Proc.zoom part put m) :=
  Keeps.zoom fun mc v => congrArg (fun ext : Extensions => ext.hmacSecret.credential) (hput mc v)

instance (val : env.reader.Cursor) : Keeps SameMcPointer (parseUser env val) := by
  unfold parseUser
  refine Keeps.seq inferInstance fun _ => Keeps.seq inferInstance fun ⟨map, length⟩ => ?_
  exact Keeps.seq (keeps_mc_zoom _ fun _ _ => rfl) fun _ => keeps_mc fun _ => rfl

instance (n : ℕ) (arr : env.reader.Cursor) : Keeps SameMcPointer (findPubKeyCredParam env n arr) := by
  induction n generalizing arr with
  | zero => exact Keeps.stop _
  | succ n ih =>
      unfold findPubKeyCredParam
      rcases (parsePubKeyCredParam env arr ()).1 with _ | ⟨credType, algType⟩
      · exact Keeps.seq inferInstance ih
      · dsimp only
        split
        · exact keeps_mc fun _ => rfl
        · exact Keeps.seq inferInstance ih

instance (val : env.reader.Cursor) : Keeps SameMcPointer (parsePubKeyCredParams env val) := by
  unfold parsePubKeyCredParams
  infer_instance

/-- The pointer in what is parsed together with a custom id. -/
def SameParsedPointer {C : Type} (s t : WithCustom (MakeCredential C)) : Prop :=
  SameMcPointer s.val t.val

instance {C : Type} : IsPreorder (WithCustom (MakeCredential C)) SameParsedPointer where
  refl _ := rfl
  trans _ _ _ h₁ h₂ := Eq.trans h₂ h₁

theorem keeps_onVal {C α : Type} {m : Parse (MakeCredential C) α} (hm : Keeps SameMcPointer m) :
    Keeps SameParsedPointer (onVal m) := Keeps.zoom_of hm fun _ _ h => h

instance (key : ℤ) (map : env.reader.Cursor) : Keeps SameParsedPointer (parseMcParameter env key map) := by
  unfold parseMcParameter
  split_ifs
  · exact keeps_onVal (Keeps.seq (keeps_mc_zoom _ fun _ _ => rfl) fun _ => keeps_mc fun _ => rfl)
  · exact keeps_onVal (Keeps.seq (keeps_mc_zoom _ fun _ _ => rfl) fun _ => keeps_mc fun _ => rfl)
  · exact keeps_onVal inferInstance
  · exact keeps_onVal inferInstance
  · -- the exclude list is checked with a custom id that is kept
    refine Keeps.seq (@Keeps.mapStop _ _ _ _ _ _ (Keeps.zoom fun _ _ => rfl)) fun _ => ?_
    exact Keeps.seq inferInstance fun _ => keeps_onVal (keeps_mc fun _ => rfl)
  · exact keeps_onVal (Keeps.seq inferInstance fun _ =>
      Keeps.zoom_of (S := SameExtPointer) inferInstance fun _ _ h => h)
  · exact keeps_onVal (keeps_mc_zoom _ fun _ _ => rfl)
  · refine keeps_onVal (Keeps.seq (keeps_mc_zoom _ fun _ _ => rfl) fun empty => keeps_mc fun mc => ?_)
    split <;> rfl
  · exact keeps_onVal (Keeps.seq inferInstance fun _ => keeps_mc fun _ => rfl)
  · infer_instance

/-- The pointer of a makeCredential request is null. -/
theorem requestedCredential_pointer (a : Authenticator) (bytes : List UInt8) :
    (requestedCredential env a bytes).extensions.hmacSecret.credential = .null := by
  have hrest : Keeps SameParsedPointer (requestMap env UInt32.toUInt8 ctap2ErrCborUnexpectedType bytes
      >>= fun p => forEntries p.2 (fun map => intKey env ctap2ErrCborUnexpectedType map >>= fun q =>
        parseMcParameter env q.1 q.2 >>= fun _ => checkRet (env.reader.advance q.2)) p.1 >>= fun _ =>
          pure ()) := inferInstance
  exact hrest.state ⟨{ (default : MakeCredential env.reader.Cursor) with up := 0xff }, a.gas.custom⟩

/-! ### The pointer that is saved -/

/-- What is saved leads to the first entry. -/
def PointsToFirst (a : Authenticator) : Prop :=
  a.gas.count ≠ 0 → a.gas.extensions.hmacSecret.credential = .firstCred

theorem PointsToFirst.of_kept {a t : Authenticator} (ha : PointsToFirst a) (h : SavedKept a t) :
    PointsToFirst t := by
  simp only [SavedKept, Prod.mk.injEq] at h
  obtain ⟨-, hext, hcount⟩ := h
  rw [PointsToFirst, hext, hcount]
  exact ha

variable {env} {m : Machine} {a t : Authenticator} {bytes : List UInt8} {h : Answers} {w : Writer}

theorem dispatch_pointsToFirst (ha : PointsToFirst a) :
    PointsToFirst (a.dispatch env bytes h).2 := by
  have hkept {may : List Aspect} {u : Authenticator} (hu : Changed may { a with trace := [] } u)
      (hsaved : Aspect.saved ∉ may) : PointsToFirst u := by
    have hsame := SavedKept.of_changed hu hsaved
    exact ha.of_kept hsame
  by_cases hreset : bytes.getD 0 0 = ctapResetCmd
  · obtain ⟨u, hu, hrun | ⟨c, -, hrun⟩⟩ := dispatch_reset_cases env (a := a) (h := h) hreset <;> rw [hrun]
    · exact fun hcount => absurd rfl hcount
    · have hpresence : Changed [.events .presence] { a with trace := [] } u := hu.changed
      exact hkept hpresence (by decide)
  by_cases hget : bytes.getD 0 0 = ctapGetAssertionCmd
  · rcases hrun : a.dispatch env bytes h with ⟨r | w, u⟩
    · exact hkept (dispatch_getAssertion_refused hget hrun) (by decide)
    · obtain ⟨w, rfl⟩ := answered_some (.inl hget) hrun
      obtain ⟨x, n, ga₀, v, s, b, d, size, -, -, e, -, rfl⟩ := dispatch_getAssertion_ok hget hrun
      unfold PointsToFirst GetAssertionState.saved
      dsimp only
      split
      · exact fun hcount => absurd rfl hcount
      · exact fun _ => rfl
  by_cases hnext : bytes.getD 0 0 = getNextAssertionCmd
  · exact ha.of_kept (dispatch_getNextAssertion_saved a hnext)
  · exact hkept (dispatch_unasserting_changed env ⟨hreset, hget, hnext⟩) (by decide)

theorem pointsToFirst_step (m : Machine) (e : Event) (hm : PointsToFirst m.auth) :
    PointsToFirst (m.step env e).auth := by
  cases e with
  | reboot =>
      have hzero : (m.step env .reboot).auth.gas = GetAssertionState.zero :=
        (reboot_leaves env m.auth).1
      rw [PointsToFirst, hzero]
      exact fun hcount => absurd rfl hcount
  | request bytes h =>
      by_cases hrun : m.running = true
      · rw [step_running hrun]
        exact Authenticator.request_state (P := PointsToFirst) env (fun _ _ => id)
          (dispatch_pointsToFirst hm)
      · rw [step_halted hrun]
        exact hm

theorem pointsToFirst_powerUp (a : Authenticator) : PointsToFirst (Machine.powerUp env a).auth := by
  have hzero : (Machine.powerUp env a).auth.gas = GetAssertionState.zero := (reboot_leaves env a).1
  rw [PointsToFirst, hzero]
  exact fun hcount => absurd rfl hcount

/-! ### The outputs -/

/-- The extension data of a call are there, with a hmac-secret output. -/
def ExtensionsCall.Carries (env : Env) (c : ExtensionsCall) : Prop :=
  (∃ out, c.output env = .ok (some out)) ∧ ∃ bytes, c.data env = .ok bytes

/-- The output of a call is made for the credential with this id. -/
def ExtensionsCall.MadeFor (env : Env) (c : ExtensionsCall) (id : List UInt8) : Prop :=
  c.extensions.hmacSecret.credential ≠ .null ∧ id.take credentialIdSize =
    (c.extensions.hmacSecret.credential.deref env c.state).bytes.take id.length

/-- What `credRandom` is made of. -/
def ExtensionsCall.credRandomInput (env : Env) (c : ExtensionsCall) : List UInt8 :=
  (c.extensions.hmacSecret.credential.deref env c.state).bytes ++ [c.state.gas.userVerified]

/-- Outputs that are made for different ids of one length are made of different
inputs. -/
theorem ExtensionsCall.MadeFor.input_ne {c c' : ExtensionsCall} {id id' : List UInt8}
    (h : c.MadeFor env id) (h' : c'.MadeFor env id') (hlen : id.length = id'.length)
    (hne : id.take credentialIdSize ≠ id'.take credentialIdSize) :
    c.credRandomInput env ≠ c'.credRandomInput env := by
  intro hinput
  obtain ⟨hbytes, -⟩ := List.append_inj hinput ((Buf.length_bytes _).trans (Buf.length_bytes _).symm)
  exact hne (by rw [h.2, h'.2, hbytes, hlen])

theorem ExtensionsCall.carries_iff {c : ExtensionsCall} (hdata : ∃ bytes, c.data env = .ok bytes) :
    c.Carries env ↔ c.extensions.hmacSecretPresent = extHmacSecretParsed := by
  obtain ⟨output, houtput⟩ : ∃ output, c.output env = .ok output := by
    obtain ⟨bytes, hbytes⟩ := hdata
    unfold ExtensionsCall.data at hbytes
    rcases houtput : c.output env with e | output
    · rw [houtput] at hbytes
      cases hbytes
    · exact ⟨output, rfl⟩
  have hsome := c.output_isSome houtput
  rw [Carries, houtput]
  rcases output with _ | out
  · refine iff_of_false (fun hc => by obtain ⟨⟨_, hc⟩, -⟩ := hc; cases hc) fun hparsed => ?_
    rw [hparsed] at hsome
    exact absurd hsome (by decide)
  · exact iff_of_true ⟨⟨out, rfl⟩, hdata⟩ (of_decide_eq_true hsome.symm)

/-- The id of an entry is what lies at the start of what is returned for it. -/
theorem madeFor_prefixBytes {c : ExtensionsCall} {cred : Credential} {n : ℕ} :
    c.MadeFor env (cred.prefixBytes n) ↔ c.extensions.hmacSecret.credential ≠ .null ∧
      cred.id.bytes.take n = (c.extensions.hmacSecret.credential.deref env c.state).bytes.take n := by
  have hid : (cred.prefixBytes n).take credentialIdSize = cred.id.bytes.take n := by
    have hlen : cred.id.bytes.length = credentialIdSize := cred.id.length_bytes
    rw [Credential.prefixBytes, List.take_take, Nat.min_comm, ← List.take_take,
      List.take_append_of_le_length hlen.ge, List.take_of_length_le hlen.le]
  have htake (l : List UInt8) (hl : l.length = credentialIdSize) :
      l.take (cred.prefixBytes n).length = l.take n := by
    have hlen : (cred.prefixBytes n).length = min n (credentialIdSize + cred.user.toBytes.length) := by
      rw [Credential.prefixBytes, List.length_take, List.length_append, cred.id.length_bytes]
    rcases le_total n (credentialIdSize + cred.user.toBytes.length) with hn | hn
    · rw [hlen, min_eq_left hn]
    · rw [hlen, min_eq_right hn, List.take_of_length_le (by omega), List.take_of_length_le (by omega)]
  rw [ExtensionsCall.MadeFor, hid, htake _ (Buf.length_bytes _)]

/-- The credential id that is returned: behind the AAGUID and the length in the
attested credential data of a new credential, or by itself. -/
def Writer.answeredId (w : Writer) (cmd : UInt8) : List UInt8 :=
  if cmd = ctapMakeCredentialCmd then (w.authData.drop 55).take credentialIdSize else w.credentialId

/-- The outputs of an answer are made for the credential that it returns. -/
def OutputsMadeFor (env : Env) (m : Machine) : Event → Prop
  | .request bytes h =>
      bytes.getD 0 0 ∈ [ctapMakeCredentialCmd, ctapGetAssertionCmd, getNextAssertionCmd] →
        ∀ w c, m.answer env (.request bytes h) = some (.ok (some w)) →
          m.auth.extensionsCall env bytes h = some c → c.Carries env →
            c.MadeFor env (w.answeredId (bytes.getD 0 0))
  | .reboot => True

/-- The entry that comes next has the id of the first one that was saved. -/
def Authenticator.ReturnsFirst (a : Authenticator) : Prop :=
  let n := getCredentialIdSize a.gas.custom (a.gas.entry a.gas.index).1
  (a.gas.entry a.gas.index).2.bytes.take n = (a.gas.entry 0).2.bytes.take n

instance (a : Authenticator) : Decidable a.ReturnsFirst := inferInstanceAs (Decidable (_ = _))

/-- No makeCredential that is answered brings salts, and a getNextAssertion that
is answered with an output returns the first entry that was saved. -/
def AsksForFirst (env : Env) (m : Machine) : Event → Prop
  | .request bytes h =>
      (∃ w, m.answer env (.request bytes h) = some (.ok (some w))) →
        (bytes.getD 0 0 = ctapMakeCredentialCmd →
          (requestedCredential env m.auth bytes.tail).extensions.hmacSecretPresent ≠
            extHmacSecretParsed) ∧
        (bytes.getD 0 0 = getNextAssertionCmd →
          m.auth.gas.extensions.hmacSecretPresent = extHmacSecretParsed →
            m.auth.savedCall.Makeable env → m.auth.ReturnsFirst)
  | .reboot => True

theorem makeCredential_madeFor_iff (hcmd : bytes.getD 0 0 = ctapMakeCredentialCmd)
    (hrun : a.dispatch env bytes h = (.ok (some w), t)) (id : List UInt8) :
    (∀ c, a.extensionsCall env bytes h = some c → c.Carries env → c.MadeFor env id) ↔
      (requestedCredential env a bytes.tail).extensions.hmacSecretPresent ≠ extHmacSecretParsed := by
  obtain ⟨s, hd, attested, ext, sigder, hc, hw⟩ := dispatch_makeCredential_ok hcmd hrun
  rw [makeCredential_call hcmd hc]
  let call : ExtensionsCall :=
    ⟨s, (requestedCredential env a bytes.tail).extensions, extensionRoom attested⟩
  have hdata : ∃ data, call.data env = .ok data := by
    rcases ctapMakeExtensions_eq call (env.uninit .extensions (extensionRoom attested)) with
      ⟨data, hdata, -⟩ | ⟨_, _, -, hmade, -⟩
    · exact ⟨data, hdata⟩
    · cases hc.made.symm.trans hmade
  have hcarries := ExtensionsCall.carries_iff hdata
  have hnull : call.extensions.hmacSecret.credential = .null :=
    requestedCredential_pointer env a bytes.tail
  constructor
  · exact fun hfor hparsed => (hfor call rfl (hcarries.mpr hparsed)).1 hnull
  · rintro hnot _ ⟨⟩ hc
    exact absurd (hcarries.mp hc) hnot

theorem getAssertion_madeFor (hcmd : bytes.getD 0 0 = ctapGetAssertionCmd)
    (hrun : a.dispatch env bytes h = (.ok (some w), t)) {c : ExtensionsCall}
    (hc : a.extensionsCall env bytes h = some c) : c.MadeFor env w.credentialId := by
  obtain ⟨x, n, ga₀, v, s, b, d, size, hx, hw, -⟩ := dispatch_getAssertion_ok hcmd hrun
  rw [credentialId_of_items hw, hx.credentialId]
  cases hx.data with
  | extension hext gas =>
      rw [getAssertion_call hcmd hx (.extension hext)] at hc
      cases hc
  | @ordinary s' _ e count hext began header made gas =>
      rw [getAssertion_call hcmd hx (.ordinary hext began)] at hc
      obtain rfl := Option.some.inj hc
      refine madeFor_prefixBytes.mpr ⟨nofun, ?_⟩
      rw [gas]
      rfl

theorem getNextAssertion_madeFor_iff (ha : PointsToFirst a)
    (hcmd : bytes.getD 0 0 = getNextAssertionCmd)
    (hrun : a.dispatch env bytes h = (.ok (some w), t)) :
    (∀ c, a.extensionsCall env bytes h = some c → c.Carries env → c.MadeFor env w.credentialId) ↔
      (a.gas.extensions.hmacSecretPresent = extHmacSecretParsed → a.savedCall.Makeable env →
        a.ReturnsFirst) := by
  obtain ⟨-, x, s, ret, b, hx, hw, -⟩ := dispatch_getNextAssertion_ok hcmd hrun
  obtain ⟨count, hgas⟩ := NextAssertion.gas env hx
  let call : ExtensionsCall := ⟨s, a.gas.extensions, 80⟩
  have hentry (i : ℕ) : s.gas.entry i = a.gas.entry i := by
    rw [hgas]
    exact entry_next a.gas count i
  have hfirst : a.gas.extensions.hmacSecret.credential = .firstCred :=
    ha (Nat.ne_of_gt (Nat.zero_lt_of_lt hx.left))
  have hmade : call.MadeFor env w.credentialId ↔ a.ReturnsFirst := by
    have htype : (s.gas.creds.getD a.gas.index default).type = (a.gas.entry a.gas.index).1 :=
      congrArg Prod.fst (hentry a.gas.index)
    have hid : (s.gas.creds.getD a.gas.index default).credential.id = (a.gas.entry a.gas.index).2 :=
      congrArg Prod.snd (hentry a.gas.index)
    have hzero : (s.gas.creds.getD 0 default).credential.id = (a.gas.entry 0).2 :=
      congrArg Prod.snd (hentry 0)
    have hderef : call.extensions.hmacSecret.credential.deref env call.state = (a.gas.entry 0).2 := by
      rw [← hzero]
      show a.gas.extensions.hmacSecret.credential.deref env s = _
      rw [hfirst]
      rfl
    rw [credentialId_of_items hw, hx.credentialId, GetAssertionState.returnedId, htype,
      madeFor_prefixBytes, hid, hderef]
    exact and_iff_right (by rw [hfirst]; rintro ⟨⟩)
  have hmakeable : (∃ data, call.data env = .ok data) ↔ a.savedCall.Makeable env :=
    savedCall_data_iff hx
  rw [getNextAssertion_call hcmd hx]
  constructor
  · intro hfor hparsed hcan
    exact hmade.mp (hfor call rfl ((ExtensionsCall.carries_iff (hmakeable.mpr hcan)).mpr hparsed))
  · rintro hreturns _ ⟨⟩ hc
    exact hmade.mpr (hreturns ((ExtensionsCall.carries_iff hc.2).mp hc) (hmakeable.mp hc.2))

theorem outputsMadeFor_iff {m : Machine} (hm : PointsToFirst m.auth) (e : Event) :
    OutputsMadeFor env m e ↔ AsksForFirst env m e := by
  cases e with
  | reboot => exact Iff.rfl
  | request bytes h =>
      simp only [OutputsMadeFor, AsksForFirst, List.mem_cons, List.not_mem_nil, or_false]
      constructor
      · rintro hfor ⟨w, hw⟩
        obtain ⟨t, hrun⟩ := dispatch_of_answer hw
        constructor
        · intro hcmd
          exact (makeCredential_madeFor_iff hcmd hrun _).mp fun c => hfor (.inl hcmd) w c hw
        · intro hcmd
          refine (getNextAssertion_madeFor_iff hm hcmd hrun).mp fun c hc hcarries => ?_
          have hid := hfor (.inr (.inr hcmd)) w c hw hc hcarries
          rwa [hcmd] at hid
      · rintro hasks hcmd w c hw hc hcarries
        obtain ⟨t, hrun⟩ := dispatch_of_answer hw
        obtain ⟨hcreate, hnext⟩ := hasks ⟨w, hw⟩
        rcases hcmd with hcmd | hcmd | hcmd
        · exact (makeCredential_madeFor_iff hcmd hrun _).mpr (hcreate hcmd) c hc hcarries
        · rw [hcmd]
          exact getAssertion_madeFor hcmd hrun hc
        · rw [hcmd]
          exact (getNextAssertion_madeFor_iff hm hcmd hrun).mpr (hnext hcmd) c hc hcarries

/-- In every run, all hmac-secret outputs are made for the credentials that they
are returned with exactly if the requests ask for nothing else than the first
entries of their lists. -/
theorem hmac_outputs_runs_iff (a : Authenticator) (es : List Event) :
    Along (Machine.step env) (OutputsMadeFor env) (Machine.powerUp env a) es ↔
      Along (Machine.step env) (AsksForFirst env) (Machine.powerUp env a) es := by
  have hfirst : PointsToFirst (Machine.powerUp env a).auth := pointsToFirst_powerUp a
  constructor
  · exact Along.of_invariant (fun m e hm _ => pointsToFirst_step m e hm)
      (fun m e hm he => (outputsMadeFor_iff hm e).mp he) hfirst
  · exact Along.of_invariant (fun m e hm _ => pointsToFirst_step m e hm)
      (fun m e hm he => (outputsMadeFor_iff hm e).mpr he) hfirst

/-! ### A chain of three -/

def demoThree : List Event :=
  [[1], [2], [3]].map fun user => Sample.request ctapMakeCredentialCmd (Sample.createOps user)

/-- A getAssertion for three credentials, with salts. -/
def demoSalted : Event :=
  Sample.request ctapGetAssertionCmd (.createMap 4 ::
    (Sample.assertOps 6 (Sample.createdIds (Machine.powerUp Sample.env Sample.device) demoThree)).tail ++
    [.int 4, .createMap 1, .text "hmac-secret", .createMap 3, .int 1] ++ Sample.platformKey ++
    [.int 2, .byteString (List.replicate 32 1),
      .int 3, .byteString (Sample.pinAuth (List.replicate 32 1))])

def demoSaltedRun : List Event := demoThree ++ [demoSalted, demoNext]

/-- The output of the third credential is made for the second one. -/
theorem hmac_outputs_runs_counterexample :
    ¬ Along (Machine.step Sample.env) (OutputsMadeFor Sample.env)
      (Machine.powerUp Sample.env Sample.device) (demoSaltedRun ++ [demoNext]) := by
  let m := run (Machine.step Sample.env) (Machine.powerUp Sample.env Sample.device) demoSaltedRun
  have hanswered : (m.answer Sample.env demoNext).map (Except.map Option.isSome) = some (.ok true) ∧
      (m.auth.savedCall.data Sample.env).isOk = true ∧
      m.auth.gas.extensions.hmacSecretPresent = extHmacSecretParsed ∧ ¬ m.auth.ReturnsFirst := by
    decide +kernel
  obtain ⟨hanswer, hdata, hparsed, hother⟩ := hanswered
  obtain ⟨w, hw⟩ := exists_answer hanswer
  have hmakeable : m.auth.savedCall.Makeable Sample.env := by
    rcases hd : m.auth.savedCall.data Sample.env with _ | data <;> rw [hd] at hdata
    · exact nomatch hdata
    · exact (ExtensionsCall.data_ok_iff (by rw [hd]; exact nofun)).mp ⟨data, hd⟩
  have hfirst : PointsToFirst m.auth := invariant_run_always pointsToFirst_step demoSaltedRun
    (pointsToFirst_powerUp Sample.device)
  intro halong
  have hlast : OutputsMadeFor Sample.env m demoNext := ((along_append ..).mp halong).2.1
  have hasks := (outputsMadeFor_iff hfirst demoNext).mp hlast
  exact hother ((hasks ⟨w, hw⟩).2 rfl hparsed hmakeable)

end NitrokeyFido2.Ctap
