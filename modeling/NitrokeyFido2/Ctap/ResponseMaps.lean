import NitrokeyFido2.Ctap.AuthData
import NitrokeyFido2.Ctap.Discoverable
import NitrokeyFido2.Ctap.Listing

/-!
The responses as CBOR.

Every response is one map whose length is told before its pairs. The functions tell
it from the object that the pairs are made of, but for two: a getAssertion looks for a
user in the last entry of its list and answers with that of the first one, and a
clientPIN that sets a PIN and is asked for the retries has no map to put them
into.
-/

namespace NitrokeyFido2.Ctap

open Proc Resumption Nesting

variable {env : Env}

theorem isMap_of_adds {k m : ℕ} {xs ops : List EncOp} (hadds : Adds EncOp.shape m xs)
    (hpairs : m = 2 * k) (hops : ops = .createMap k :: xs ++ [.closeContainer]) : IsMap ops := by
  rw [hops]
  exact (isMap_iff hadds).mpr hpairs

theorem IsMap.of_isItem {k : ℕ} {xs ops : List EncOp} (hitem : IsItem EncOp.shape ops)
    (hops : ops = .createMap k :: xs) : IsMap ops := ⟨⟨k, by rw [hops]; rfl⟩, hitem⟩

theorem not_isMap_nil : ¬ IsMap [] := by
  rintro ⟨⟨_, h⟩, -⟩
  cases h

/-! ### Assertions -/

/-- The pairs that an assertion is answered with. -/
theorem AssertionAnswer.adds (x : AssertionAnswer) {user total : ℕ}
    (huser : Adds EncOp.shape (2 * user) x.user) (htotal : Adds EncOp.shape (2 * total) x.total) :
    Adds EncOp.shape (2 * (3 + total + user)) (x.common ++ x.total) := by
  have hkey : Adds EncOp.shape 1 [.int 1] := Adds.item rfl
  have hdata : Adds EncOp.shape 4
      [.int 2, .byteString x.authData, .int 3, .byteString x.signature] :=
    Adds.items (by simp [EncOp.shape])
  have hpairs := ((hkey.append (adds_descriptorItems x.credentialId)).append hdata).append huser
  have hall := hpairs.append htotal
  rw [show 1 + 1 + 4 + 2 * user + 2 * total = 2 * (3 + total + user) by omega] at hall
  simpa only [AssertionAnswer.common, List.append_assoc, List.cons_append, List.nil_append] using hall

theorem AssertionAnswer.isMap_iff (x : AssertionAnswer) {user total : ℕ}
    (huser : Adds EncOp.shape (2 * user) x.user) (htotal : Adds EncOp.shape (2 * total) x.total) :
    IsMap x.items ↔ 3 + total + user = x.pairs := by
  unfold AssertionAnswer.items
  rw [NitrokeyFido2.Ctap.isMap_iff (x.adds huser htotal)]
  omega

/-- An entry comes with a user. -/
def CredentialDescriptor.hasUser (d : CredentialDescriptor) : Prop := d.credential.user.idSize ≠ 0

instance (d : CredentialDescriptor) : Decidable d.hasUser := inferInstanceAs (Decidable (_ ≠ _))

theorem adds_returnedUser (d : CredentialDescriptor) (isVerified : Bool) :
    Adds EncOp.shape (2 * if d.hasUser then 1 else 0) (returnedUser d.credential.user isVerified) := by
  unfold returnedUser
  by_cases huser : d.hasUser
  · rw [if_pos huser, if_pos (show d.credential.user.idSize ≠ 0 from huser)]
    exact @Adds.cons _ EncOp.shape 1 _ _ rfl (adds_userItems d.credential.user isVerified)
  · rw [if_neg huser, if_neg (show ¬ d.credential.user.idSize ≠ 0 from huser)]
    exact Adds.nil

theorem adds_total (n : ℕ) :
    Adds EncOp.shape (2 * if n > 1 then 1 else 0) (if n > 1 then [.int 5, .int n] else []) := by
  split
  · exact Adds.items (by simp [EncOp.shape])
  · exact Adds.nil

section Assertion

variable {a t : Authenticator} {bytes : List UInt8} {h : Answers} {w : Writer}

theorem hasUser_firstCleared (g : GetAssertionState) (n : ℕ) :
    ((g.firstCleared n).creds.getD 0 default).hasUser ↔ (g.creds.getD 0 default).hasUser := by
  unfold GetAssertionState.firstCleared
  split
  · rcases g.creds with _ | ⟨d, creds⟩ <;> exact Iff.rfl
  · exact Iff.rfl

theorem AssertionData.creds {ga : GetAssertion} {cred : Credential} {b d : Authenticator} {size : ℕ}
    (hdata : AssertionData env ga cred h b size d) : d.gas.creds = b.gas.creds := by
  cases hdata with
  | extension _ gas => rw [gas]
  | ordinary _ _ header _ gas => rw [gas, header]

/-- A getAssertion tells of a user if the last entry that counts has one, and
answers with the user of the first one. -/
theorem getAssertion_isMap_iff (hcmd : bytes.getD 0 0 = ctapGetAssertionCmd)
    (hrun : a.dispatch env bytes h = (.ok (some w), t)) :
    ∃ v, Parsed env { a with trace := [] } bytes.tail v ∧
      (IsMap w.ops ↔
        let r := ctapFilterInvalidCredentials env v (requestedAssertion env a bytes.tail)
        ((r.2.2.getD (r.1 - 1) default).hasUser ↔ (r.2.2.getD 0 default).hasUser)) := by
  obtain ⟨x, n, ga₀, v, s, b, d, size, hx, hw, -⟩ := dispatch_getAssertion_ok hcmd hrun
  refine ⟨v, hx.selected.parsed, ?_⟩
  have hcreds : s.gas.creds = (ctapFilterInvalidCredentials env v
      (requestedAssertion env a bytes.tail)).2.2 := by
    rw [hx.selected.gas]
    rfl
  have hcount : n = (ctapFilterInvalidCredentials env v (requestedAssertion env a bytes.tail)).1 :=
    hx.selected.count
  dsimp only
  rw [← hcreds, ← hcount]
  have hfirst : (d.gas.creds.getD 0 default).hasUser ↔ (s.gas.creds.getD 0 default).hasUser := by
    rw [hx.data.creds, hx.cleared]
    exact hasUser_firstCleared s.gas n
  have huser := adds_returnedUser (d.gas.creds.getD 0 default) (d.gas.userVerified ≠ 0)
  rw [← hx.user] at huser
  have htotal := adds_total n
  rw [← hx.total] at htotal
  rw [hw, x.isMap_iff huser htotal, hx.pairs, ← hfirst]
  have hpairs (p q : Prop) [Decidable p] [Decidable q] (k : ℕ) :
      3 + k + (if p then 1 else 0) = 3 + k + (if q then 1 else 0) ↔ (q ↔ p) := by
    by_cases hp : p <;> by_cases hq : q <;> simp [hp, hq]
  exact hpairs (d.gas.creds.getD 0 default).hasUser (s.gas.creds.getD (n - 1) default).hasUser _

theorem entry_hasUser_next (g : GetAssertionState) (count : UInt32) :
    ((g.next count).creds.getD g.index default).hasUser ↔ (g.creds.getD g.index default).hasUser := by
  unfold GetAssertionState.next CredentialDescriptor.hasUser
  dsimp only
  split
  · simp only [List.getD_eq_getElem?_getD, List.getElem?_set_self']
    rcases g.creds[g.index]? with _ | d <;> exact Iff.rfl
  · exact Iff.rfl

theorem getNextAssertion_isMap (hcmd : bytes.getD 0 0 = getNextAssertionCmd)
    (hrun : a.dispatch env bytes h = (.ok (some w), t)) : IsMap w.ops := by
  obtain ⟨-, x, s, ret, b, hx, hw, -⟩ := dispatch_getNextAssertion_ok hcmd hrun
  obtain ⟨count, hgas⟩ := NextAssertion.gas env hx
  have hsame : (s.gas.creds.getD a.gas.index default).hasUser ↔
      (a.gas.creds.getD a.gas.index default).hasUser := by
    rw [hgas]
    exact entry_hasUser_next a.gas count
  have huser := adds_returnedUser (s.gas.creds.getD a.gas.index default) (a.gas.userVerified ≠ 0)
  have hxuser : x.user = returnedUser (s.gas.creds.getD a.gas.index default).credential.user
    (a.gas.userVerified ≠ 0) := hx.user
  rw [← hxuser] at huser
  have htotal : Adds EncOp.shape (2 * 0) x.total := by
    rw [hx.total]
    exact Adds.nil
  have hpairs : x.pairs = if (a.gas.creds.getD a.gas.index default).hasUser then 4 else 3 := hx.pairs
  rw [hw, x.isMap_iff huser htotal, hpairs]
  by_cases hany : (a.gas.creds.getD a.gas.index default).hasUser
  · rw [if_pos (hsame.mpr hany), if_pos hany]
  · rw [if_neg fun hs => hany (hsame.mp hs), if_neg hany]

end Assertion

/-! ### The other commands -/

section Others

variable {a t : Authenticator} {bytes : List UInt8} {h : Answers} {w w' : Writer}

theorem makeCredential_isMap (hcmd : bytes.getD 0 0 = ctapMakeCredentialCmd)
    (hrun : a.dispatch env bytes h = (.ok (some w), t)) : IsMap w.ops := by
  obtain ⟨s, hd, attested, ext, sigder, -, hw⟩ := dispatch_makeCredential_ok hcmd hrun
  rw [hw]
  exact .of_isItem rfl rfl

theorem getInfo_isMap (hcmd : bytes.getD 0 0 = ctapGetInfoCmd)
    (hrun : a.dispatch env bytes h = (.ok (some w), t)) : IsMap w.ops := by
  rw [dispatch_getInfo env hcmd, get_bind] at hrun
  obtain ⟨w', s, henc, hret⟩ := bind_ok.mp hrun
  obtain ⟨heq, rfl⟩ := pure_ok.mp hret
  obtain rfl := Option.some.inj heq
  obtain ⟨rfl, rfl⟩ := (emits_emitAll _).encode henc
  exact .of_isItem rfl rfl

/-- The retries at the end of a map. -/
def retriesItems (a : Authenticator) (getRetries : Bool) : List EncOp :=
  if getRetries then [.int 3, .int a.state.remainingTries] else []

theorem adds_retriesItems (a : Authenticator) (getRetries : Bool) :
    Adds EncOp.shape (2 * if getRetries then 1 else 0) (retriesItems a getRetries) := by
  unfold retriesItems
  split
  · exact Adds.items (by simp [EncOp.shape])
  · exact Adds.nil

theorem clientPinFinish_created {getRetries : Bool}
    (hrun : clientPinFinish env w getRetries true a = (.ok w', t)) :
    w'.ops = w.ops ++ retriesItems a getRetries ++ [.closeContainer] := by
  unfold clientPinFinish at hrun
  rw [get_bind] at hrun
  obtain ⟨rfl, rfl⟩ := (emits_emitAll _).encode hrun
  simp [retriesItems]

/-- Without a map, the retries are encoded with an encoder that was never
initialised. -/
theorem clientPinFinish_not_created {getRetries : Bool}
    (hrun : clientPinFinish env w getRetries false a = (.ok w', t)) :
    w'.ops = w.ops ++ if getRetries then [.uninitialised (.int 3),
      .uninitialised (.int a.state.remainingTries), .uninitialised .closeContainer] else [] := by
  unfold clientPinFinish at hrun
  rw [get_bind] at hrun
  obtain ⟨rfl, rfl⟩ := (emits_emitAll _).encode hrun
  cases getRetries <;> rfl

theorem clientPinGetKeyAgreement_ok {k : ℕ}
    (hrun : clientPinGetKeyAgreement env w k a = (.ok w', t)) :
    ∃ pubkey, w'.ops =
      w.ops ++ (.createMap k :: .int 1 :: coseKeyItems pubkey coseAlgEcdhEsHkdf256) := by
  unfold clientPinGetKeyAgreement at hrun
  obtain ⟨w₁, s, henc, hrest⟩ := bind_ok.mp hrun
  obtain ⟨rfl, rfl⟩ := (emits_emitAll _).encode henc
  obtain ⟨_, s₁, -, hrest⟩ := bind_ok.mp hrest
  rw [get_bind] at hrest
  obtain ⟨rfl, rfl⟩ := (emits_ctapAddCoseKey _ _ _).encode hrest
  exact ⟨s₁.keyAgreementPub, by simp⟩

theorem clientPinGetPinToken_ok {cp : ClientPin} {k : ℕ}
    (hrun : clientPinGetPinToken env w cp k a = (.ok w', t)) :
    ∃ pinTokenEnc, w'.ops = w.ops ++ [.createMap k, .int 2, .byteString pinTokenEnc] := by
  unfold clientPinGetPinToken at hrun
  rw [get_bind] at hrun
  obtain ⟨_, s₁, -, hrest⟩ := bind_ok.mp hrun
  obtain ⟨w₂, s₂, henc, hrest⟩ := bind_ok.mp hrest
  obtain ⟨rfl, rfl⟩ := (emits_emit _).encode henc
  obtain ⟨_, s₃, -, hrest⟩ := bind_ok.mp hrest
  obtain ⟨w₃, s₄, henc, hrest⟩ := bind_ok.mp hrest
  obtain ⟨rfl, rfl⟩ := (emits_emit _).encode henc
  obtain ⟨pinTokenEnc, s₅, -, hrest⟩ := bind_ok.mp hrest
  obtain ⟨rfl, rfl⟩ := (emits_emit _).encode hrest
  exact ⟨pinTokenEnc, by simp⟩

/-- A subcommand that sets a PIN and has no data to return. -/
def setsPin (subCommand : ℤ) : Prop := subCommand = cpCmdSetPin ∨ subCommand = cpCmdChangePin

instance (subCommand : ℤ) : Decidable (setsPin subCommand) := inferInstanceAs (Decidable (_ ∨ _))

/-- What a clientPIN that succeeds has encoded. -/
theorem clientPinSubCommand_ops {cp : ClientPin}
    (hrun : clientPinSubCommand env freshWriter cp a = (.ok w, t)) :
    (¬ setsPin cp.subCommand ∧ IsMap w.ops) ∨
      (setsPin cp.subCommand ∧ (cp.getRetries = false ∧ w.ops = [] ∨
        cp.getRetries = true ∧ w.ops ≠ [] ∧ ¬ IsMap w.ops)) := by
  have hsets {b : Authenticator} (hfinish : clientPinFinish env freshWriter cp.getRetries false b = (.ok w, t)) :
      cp.getRetries = false ∧ w.ops = [] ∨ cp.getRetries = true ∧ w.ops ≠ [] ∧ ¬ IsMap w.ops := by
    rw [clientPinFinish_not_created hfinish]
    rcases cp.getRetries with _ | _
    · exact .inl ⟨rfl, rfl⟩
    · refine .inr ⟨rfl, List.cons_ne_nil _ _, ?_⟩
      rintro ⟨⟨_, hfirst⟩, -⟩
      cases hfirst
  -- the retries are one more pair
  have hpairs (k : ℕ) : 2 * ((if cp.getRetries = true then 1 else 0) + k) =
      2 * k + 2 * if cp.getRetries = true then 1 else 0 := by
    omega
  unfold clientPinSubCommand at hrun
  dsimp only at hrun
  by_cases hretries : cp.subCommand = cpCmdGetRetries
  · rw [if_pos hretries] at hrun
    obtain ⟨w₁, s, henc, hfinish⟩ := bind_ok.mp hrun
    obtain ⟨rfl, rfl⟩ := (emits_emit _).encode henc
    refine .inl ⟨by rw [hretries]; decide, ?_⟩
    exact isMap_of_adds (adds_retriesItems a true) rfl (clientPinFinish_created hfinish)
  rw [if_neg hretries] at hrun
  by_cases hagree : cp.subCommand = cpCmdGetKeyAgreement
  · rw [if_pos hagree] at hrun
    obtain ⟨w₁, s, hkey, hfinish⟩ := bind_ok.mp hrun
    obtain ⟨pubkey, hw₁⟩ := clientPinGetKeyAgreement_ok hkey
    refine .inl ⟨by rw [hagree]; decide, ?_⟩
    have hone : Adds EncOp.shape 1 [.int 1] := Adds.item rfl
    have hadds := (hone.append (adds_coseKeyItems pubkey coseAlgEcdhEsHkdf256)).append
      (adds_retriesItems s cp.getRetries)
    refine isMap_of_adds hadds (hpairs 1).symm ?_
    rw [clientPinFinish_created hfinish, hw₁]
    simp [freshWriter, Writer.init]
  rw [if_neg hagree] at hrun
  by_cases hset : cp.subCommand = cpCmdSetPin
  · rw [if_pos hset] at hrun
    obtain ⟨_, s, -, hfinish⟩ := bind_ok.mp hrun
    exact .inr ⟨.inl hset, hsets hfinish⟩
  rw [if_neg hset] at hrun
  by_cases hchange : cp.subCommand = cpCmdChangePin
  · rw [if_pos hchange] at hrun
    obtain ⟨_, s, -, hfinish⟩ := bind_ok.mp hrun
    exact .inr ⟨.inr hchange, hsets hfinish⟩
  rw [if_neg hchange] at hrun
  by_cases htoken : cp.subCommand = cpCmdGetPinToken
  · rw [if_pos htoken] at hrun
    obtain ⟨w₁, s, hget, hfinish⟩ := bind_ok.mp hrun
    obtain ⟨pinTokenEnc, hw₁⟩ := clientPinGetPinToken_ok hget
    refine .inl ⟨by rw [htoken]; decide, ?_⟩
    have htwo : Adds EncOp.shape 2 [.int 2, .byteString pinTokenEnc] :=
      Adds.items (by simp [EncOp.shape])
    refine isMap_of_adds (htwo.append (adds_retriesItems s cp.getRetries)) (hpairs 1).symm ?_
    rw [clientPinFinish_created hfinish, hw₁]
    simp [freshWriter, Writer.init]
  · rw [if_neg htoken] at hrun
    cases (Prod.mk.inj hrun).1

theorem clientPin_ops (hcmd : bytes.getD 0 0 = ctapClientPinCmd)
    (hrun : a.dispatch env bytes h = (.ok (some w), t)) :
    let cp := (ctapParseClientPin env bytes.tail default).2
    (¬ setsPin cp.subCommand ∧ IsMap w.ops) ∨
      (setsPin cp.subCommand ∧ (cp.getRetries = false ∧ w.ops = [] ∨
        cp.getRetries = true ∧ w.ops ≠ [] ∧ ¬ IsMap w.ops)) := by
  rw [dispatch_clientPin env hcmd] at hrun
  obtain ⟨w', t', hrun', hret⟩ := bind_ok.mp hrun
  obtain ⟨heq, rfl⟩ := pure_ok.mp hret
  obtain rfl := Option.some.inj heq
  unfold ctapClientPin at hrun'
  dsimp only at hrun'
  obtain ⟨_, s, -, hrest⟩ := bind_ok.mp hrun'
  obtain ⟨_, s₁, -, hrest⟩ := bind_ok.mp hrest
  obtain ⟨_, s₂, -, hsub⟩ := bind_ok.mp hrest
  exact clientPinSubCommand_ops hsub

theorem noCredentials_not_ok : noCredentials a ≠ (.ok w, t) := by
  intro hrun
  obtain ⟨_, _, -, hfail⟩ := bind_ok.mp hrun
  cases (Prod.mk.inj hfail).1

theorem credMgmtRp_isMap (hroomy : env.writer.Roomy) {rpCount : ℕ}
    (hrun : credMgmtRp env freshWriter rpCount a = (.ok w, t)) : IsMap w.ops := by
  unfold credMgmtRp at hrun
  rw [get_bind] at hrun
  split at hrun
  · exact absurd hrun noCredentials_not_ok
  · let rk := ctapLoadRk a a.credMgmt.currRpInd default
    have hencoded : encode freshWriter (ctapCredRp env rk rpCount) a =
        (.ok ⟨ctapResponseBufferSize, rpItems rk rpCount⟩, a) :=
      (writes_ctapCredRp hroomy rk rpCount).encode (isItem_rpItems rk rpCount)
        (encodedSize_rpItems rk rpCount) a
    rw [bind_of_ok hencoded] at hrun
    obtain ⟨_, s, -, hret⟩ := bind_ok.mp hrun
    rw [← (pure_ok.mp hret).1]
    exact .of_isItem (isItem_rpItems rk rpCount) rfl

theorem credMgmtRk_isMap (hroomy : env.writer.Roomy) {rkCount : ℕ}
    (hrun : credMgmtRk env freshWriter rkCount a = (.ok w, t)) : IsMap w.ops := by
  unfold credMgmtRk at hrun
  rw [get_bind] at hrun
  split at hrun
  · exact absurd hrun noCredentials_not_ok
  · let rk := ctapLoadRk a a.credMgmt.currRkInd default
    have hencoded : encode freshWriter (ctapCredRk env a rk rkCount) a =
        (.ok ⟨ctapResponseBufferSize, rkItems env a.secrets rk rkCount⟩, a) :=
      (writes_ctapCredRk hroomy a rk rkCount).encode (isItem_rkItems a.secrets rk rkCount)
        (encodedSize_rkItems a.secrets rk rkCount) a
    rw [bind_of_ok hencoded] at hrun
    obtain ⟨_, s, -, hret⟩ := bind_ok.mp hrun
    rw [← (pure_ok.mp hret).1]
    exact .of_isItem (isItem_rkItems a.secrets rk rkCount) rfl

theorem credMgmtDelete_writer (cm : CredMgmt) (a : Authenticator) :
    Ends (credMgmtDelete w cm) a fun r _ => ∀ w', r = .ok w' → w' = w := by
  unfold credMgmtDelete
  refine Ends.get_bind ?_
  generalize credentialIdToRkIndex a cm.credentialDescriptor.credential.id = index
  rcases index with _ | i
  · refine .stop ?_
    rintro _ ⟨⟩
  · have hdelete : Ends (ctapDeleteRk i) a fun _ _ => True := trivial
    refine hdelete.seq (fun _ s _ => ?_) (by rintro _ _ - _ ⟨⟩)
    have hdecrement : Ends ctapDecrementRkStore s fun _ _ => True := trivial
    refine hdecrement.seq (fun _ s₁ _ => .pure ?_) (by rintro _ _ - _ ⟨⟩)
    rintro _ ⟨⟩
    rfl

/-- The commands of credential management answer with one map or with nothing. -/
theorem ctapCredMgmt_isMap (hroomy : env.writer.Roomy) {request : List UInt8}
    (hrun : ctapCredMgmt env freshWriter request a = (.ok w, t)) : w.ops = [] ∨ IsMap w.ops := by
  unfold ctapCredMgmt at hrun
  obtain ⟨cm, s, -, hrest⟩ := bind_ok.mp hrun
  obtain ⟨_, s₁, -, hrest⟩ := bind_ok.mp hrest
  rw [get_bind] at hrest
  split at hrest
  · rw [← (pure_ok.mp hrest).1]
    exact .inl rfl
  obtain ⟨counts, s₂, -, hrest⟩ := bind_ok.mp hrest
  dsimp only at hrest
  split at hrest
  · rw [get_bind] at hrest
    obtain ⟨rfl, -⟩ := (emits_emitAll _).encode hrest
    exact .inr (.of_isItem rfl rfl)
  split at hrest
  · exact .inr (credMgmtRp_isMap hroomy hrest)
  split at hrest
  · exact .inr (credMgmtRk_isMap hroomy hrest)
  split at hrest
  · rw [(credMgmtDelete_writer cm s₂).elim hrest w rfl]
    exact .inl rfl
  · exact nomatch (Prod.mk.inj hrest).1

theorem credMgmt_isMap (hroomy : env.writer.Roomy) (hcmd : isManagement bytes)
    (hrun : a.dispatch env bytes h = (.ok (some w), t)) : w.ops = [] ∨ IsMap w.ops := by
  rw [dispatch_credMgmt env hcmd] at hrun
  obtain ⟨_, s, -, hrest⟩ := bind_ok.mp hrun
  obtain ⟨w', t', hrun', hret⟩ := bind_ok.mp hrest
  obtain ⟨heq, rfl⟩ := pure_ok.mp hret
  obtain rfl := Option.some.inj heq
  exact ctapCredMgmt_isMap hroomy hrun'

end Others

/-! ### All responses -/

/-- The commands that answer with data. -/
def dataCommands : List UInt8 :=
  [ctapMakeCredentialCmd, ctapGetAssertionCmd, getNextAssertionCmd, ctapGetInfoCmd,
    ctapClientPinCmd, ctapCborCredMgmtCmd, ctapCborCredMgmtPreCmd]

/-- A response to this request has data. Only the commands that set a PIN and those of
credential management may be answered without any. -/
def ReturnsData (env : Env) (bytes : List UInt8) (w : Writer) : Prop :=
  w.ops ≠ [] ∨ ¬ isManagement bytes ∧ ¬ (bytes.getD 0 0 = ctapClientPinCmd ∧
    setsPin (ctapParseClientPin env bytes.tail default).2.subCommand)

/-- In the list of a getAssertion, the last entry that counts comes with a user if the
first one does. -/
def FirstLikeLast (env : Env) (a : Authenticator) (request : List UInt8) : Prop :=
  let r := ctapFilterInvalidCredentials env (a.parsedList env request)
    (requestedAssertion env a request)
  (r.2.2.getD (r.1 - 1) default).hasUser ↔ (r.2.2.getD 0 default).hasUser

instance (a : Authenticator) (request : List UInt8) : Decidable (FirstLikeLast env a request) :=
  inferInstanceAs (Decidable (_ ↔ _))

/-- The length that a response begins with is told of what comes. -/
def TellsLength (env : Env) (a : Authenticator) (bytes : List UInt8) : Prop :=
  (bytes.getD 0 0 = ctapGetAssertionCmd → FirstLikeLast env a bytes.tail) ∧
    (bytes.getD 0 0 = ctapClientPinCmd →
      let cp := (ctapParseClientPin env bytes.tail default).2
      setsPin cp.subCommand → cp.getRetries = false)

/-- A response with data is one map, exactly if its length is told of what
comes. -/
theorem response_isMap_iff (hroomy : env.writer.Roomy) {a t : Authenticator} {bytes : List UInt8}
    {h : Answers} {w : Writer} (hcmd : bytes.getD 0 0 ∈ dataCommands)
    (hrun : a.dispatch env bytes h = (.ok (some w), t)) :
    (ReturnsData env bytes w → IsMap w.ops) ↔ TellsLength env a bytes := by
  simp only [dataCommands, List.mem_cons, List.not_mem_nil, or_false] at hcmd
  unfold ReturnsData TellsLength isManagement
  rcases hcmd with hc | hc | hc | hc | hc | hc
  · have hmap := makeCredential_isMap hc hrun
    rw [hc]
    simp +decide [hmap]
  · obtain ⟨v, hv, hmap⟩ := getAssertion_isMap_iff hc hrun
    have hfilter := @filter_congr env v (a.parsedList env bytes.tail) hv.gas hv.secrets hv.rks
      hv.state (requestedAssertion env a bytes.tail)
    rw [hfilter] at hmap
    rw [hc]
    simp +decide only [FirstLikeLast, ← hmap]
    simp
  · have hmap := getNextAssertion_isMap hc hrun
    rw [hc]
    simp +decide [hmap]
  · have hmap := getInfo_isMap hc hrun
    rw [hc]
    simp +decide [hmap]
  · have hops := clientPin_ops hc hrun
    rw [hc]
    simp +decide only [true_and, forall_const]
    rcases hops with ⟨hsets, hmap⟩ | ⟨hsets, ⟨hretries, hnil⟩ | ⟨hretries, hne, hmap⟩⟩
    · simp [hsets, hmap]
    · simp [hsets, hretries, hnil]
    · simp [hsets, hretries, hne, hmap]
  · have hmap := credMgmt_isMap hroomy hc hrun
    have hne : bytes.getD 0 0 ≠ ctapGetAssertionCmd ∧ bytes.getD 0 0 ≠ ctapClientPinCmd := by
      rcases hc with hc | hc <;> rw [hc] <;> decide
    simp only [hc, hne.1, hne.2, not_true_eq_false, false_and, or_false, false_imp_iff, and_true,
      iff_true]
    exact hmap.resolve_left

/-! ### A user that was left in the list -/

/-- A resident key and another credential. -/
def demoResidentAndOther : List Event :=
  [Sample.request ctapMakeCredentialCmd (Sample.createResidentOps [1]),
    Sample.request ctapMakeCredentialCmd (Sample.createOps [2])]

/-- A getAssertion without a list has left the resident key in the first entry. -/
def demoLeftUser : Authenticator :=
  (Transition.run (Machine.step Sample.env) (Machine.powerUp Sample.env Sample.device)
    (demoResidentAndOther ++ [Sample.request ctapGetAssertionCmd
      [.createMap 2, .int 1, .text "a.example", .int 2, .byteString (List.replicate 32 6)]])).auth

/-- A getAssertion whose list begins with the other credential. -/
def demoOtherFirst : List UInt8 :=
  demoAssertion (Sample.createdIds (Machine.powerUp Sample.env Sample.device)
    demoResidentAndOther).reverse

/-- The other credential is returned with the user, in a map that is told to have no
place for it. -/
theorem response_isMap_iff_leftUser : ∃ w t,
    demoLeftUser.dispatch Sample.env demoOtherFirst Sample.touch = (.ok (some w), t) ∧
      ReturnsData Sample.env demoOtherFirst w ∧ ¬ IsMap w.ops := by
  have hlost : (demoLeftUser.dispatch Sample.env demoOtherFirst Sample.touch).1.toOption.join.isSome =
      true ∧ ¬ FirstLikeLast Sample.env demoLeftUser demoOtherFirst.tail := by
    decide +kernel
  obtain ⟨hanswered, hunlike⟩ := hlost
  rcases hrun : demoLeftUser.dispatch Sample.env demoOtherFirst Sample.touch with
    ⟨e | _ | w, t⟩ <;> rw [hrun] at hanswered
  · cases hanswered
  · cases hanswered
  · have hdata : ReturnsData Sample.env demoOtherFirst w :=
      .inr ⟨by decide, fun hpin => absurd hpin.1 (by decide)⟩
    have htells : ¬ TellsLength Sample.env demoLeftUser demoOtherFirst := fun h => hunlike (h.1 rfl)
    refine ⟨w, t, rfl, hdata, fun hmap => htells ?_⟩
    exact (response_isMap_iff Sample.writer_roomy (by decide) hrun).mp fun _ => hmap

end NitrokeyFido2.Ctap
