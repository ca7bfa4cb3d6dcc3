import NitrokeyFido2.Ctap.CredRandom
import NitrokeyFido2.Ctap.Listing
import NitrokeyFido2.Ctap.Registration
import NitrokeyFido2.Ctap.Signature

/-!
What a relying party checks.

The key that an id stands for is derived from the secrets and the id alone. A
makeCredential shows its public half, a getAssertion and the getNextAssertion requests
behind it sign with it. So long as the device is not reset, what they sign is accepted
by the key that was shown.
-/

namespace NitrokeyFido2.Ctap

open Proc Resumption Transition

variable (env : Env)

/-! ### The algorithm -/

/-- An algorithm that was found is one that is supported. -/
def AlgorithmOk {C : Type} (mc : MakeCredential C) : Prop :=
  mc.paramsParsed &&& paramPubKeyCredParams ≠ 0 →
    pubKeyCredParamSupported mc.credInfo.publicKeyCredentialType
      mc.credInfo.coseAlgorithmIdentifier = true

/-- A step of the parser that keeps it so. -/
def KeepsAlgorithm {C : Type} (s t : MakeCredential C) : Prop := AlgorithmOk s → AlgorithmOk t

instance {C : Type} : IsPreorder (MakeCredential C) KeepsAlgorithm where
  refl _ := id
  trans _ _ _ h₁ h₂ := fun h => h₂ (h₁ h)

/-- The algorithm and its flag are the same. -/
def SameAlgorithm {C : Type} (s t : MakeCredential C) : Prop :=
  t.paramsParsed &&& paramPubKeyCredParams = s.paramsParsed &&& paramPubKeyCredParams ∧
    t.credInfo.publicKeyCredentialType = s.credInfo.publicKeyCredentialType ∧
    t.credInfo.coseAlgorithmIdentifier = s.credInfo.coseAlgorithmIdentifier

theorem SameAlgorithm.keeps {C : Type} {s t : MakeCredential C} (h : SameAlgorithm s t) :
    KeepsAlgorithm s t := by
  obtain ⟨hparams, htype, halg⟩ := h
  unfold KeepsAlgorithm AlgorithmOk
  rw [hparams, htype, halg]
  exact id

/-- The flag of another parameter. -/
theorem other_param {p : UInt32} (params : UInt32) (hp : p &&& paramPubKeyCredParams = 0) :
    (params ||| p) &&& paramPubKeyCredParams = params &&& paramPubKeyCredParams := by
  have hbits := congrArg UInt32.toBitVec hp
  rw [UInt32.toBitVec_and] at hbits
  apply UInt32.eq_of_toBitVec_eq
  rw [UInt32.toBitVec_and, UInt32.toBitVec_or, UInt32.toBitVec_and, BitVec.and_or_distrib_right,
    hbits]
  exact BitVec.or_zero

theorem keepsAlgorithm_modify {C : Type} {f : MakeCredential C → MakeCredential C}
    (hf : ∀ mc, SameAlgorithm mc (f mc)) :
    Keeps KeepsAlgorithm (Proc.modify f : Parse (MakeCredential C) Unit) :=
  Keeps.modify fun mc => (hf mc).keeps

theorem keepsAlgorithm_zoom {C τ α : Type} {part : MakeCredential C → τ}
    {put : MakeCredential C → τ → MakeCredential C} (m : Parse τ α)
    (hput : ∀ mc v, SameAlgorithm mc (put mc v)) : Keeps KeepsAlgorithm (Proc.zoom part put m) :=
  Keeps.zoom fun mc v => (hput mc v).keeps

instance (val : env.reader.Cursor) : Keeps KeepsAlgorithm (parseUser env val) := by
  unfold parseUser
  refine Keeps.seq inferInstance fun _ => Keeps.seq inferInstance fun ⟨map, length⟩ => ?_
  exact Keeps.seq (keepsAlgorithm_zoom _ fun _ _ => ⟨rfl, rfl, rfl⟩) fun _ =>
    keepsAlgorithm_modify fun mc => ⟨other_param _ (by decide), rfl, rfl⟩

instance (n : ℕ) (arr : env.reader.Cursor) : Keeps KeepsAlgorithm (findPubKeyCredParam env n arr) := by
  induction n generalizing arr with
  | zero => exact Keeps.stop _
  | succ n ih =>
      unfold findPubKeyCredParam
      rcases (parsePubKeyCredParam env arr ()).1 with _ | ⟨credType, algType⟩
      · exact Keeps.seq inferInstance ih
      · dsimp only
        split
        case isTrue hsupported => exact Keeps.modify fun _ _ _ => hsupported
        case isFalse => exact Keeps.seq inferInstance ih

instance (val : env.reader.Cursor) : Keeps KeepsAlgorithm (parsePubKeyCredParams env val) := by
  unfold parsePubKeyCredParams
  infer_instance

/-- The same of what is parsed together with a custom id. -/
def KeepsParsedAlgorithm {C : Type} (s t : WithCustom (MakeCredential C)) : Prop :=
  KeepsAlgorithm s.val t.val

instance {C : Type} : IsPreorder (WithCustom (MakeCredential C)) KeepsParsedAlgorithm where
  refl _ := id
  trans _ _ _ h₁ h₂ := fun h => h₂ (h₁ h)

theorem keepsParsedAlgorithm_onVal {C α : Type} {m : Parse (MakeCredential C) α}
    (hm : Keeps KeepsAlgorithm m) : Keeps KeepsParsedAlgorithm (onVal m) :=
  Keeps.zoom_of hm fun _ _ h => h

instance (key : ℤ) (map : env.reader.Cursor) :
    Keeps KeepsParsedAlgorithm (parseMcParameter env key map) := by
  have hflag {p : UInt32} (hp : p &&& paramPubKeyCredParams = 0) :
      Keeps KeepsAlgorithm (Proc.modify fun mc => { mc with paramsParsed := mc.paramsParsed ||| p } :
        Parse (MakeCredential env.reader.Cursor) Unit) :=
    keepsAlgorithm_modify fun mc => ⟨other_param _ hp, rfl, rfl⟩
  unfold parseMcParameter
  split_ifs
  · exact keepsParsedAlgorithm_onVal (Keeps.seq (keepsAlgorithm_zoom _ fun _ _ => ⟨rfl, rfl, rfl⟩)
      fun _ => hflag (by decide))
  · exact keepsParsedAlgorithm_onVal (Keeps.seq (keepsAlgorithm_zoom _ fun _ _ => ⟨rfl, rfl, rfl⟩)
      fun _ => hflag (by decide))
  · exact keepsParsedAlgorithm_onVal inferInstance
  · exact keepsParsedAlgorithm_onVal inferInstance
  · -- the exclude list is checked in a descriptor of its own
    refine Keeps.seq (@Keeps.mapStop _ _ _ _ _ _ (Keeps.zoom fun _ _ => id)) fun _ => ?_
    exact Keeps.seq inferInstance fun _ =>
      keepsParsedAlgorithm_onVal (keepsAlgorithm_modify fun _ => ⟨rfl, rfl, rfl⟩)
  · exact keepsParsedAlgorithm_onVal (Keeps.seq inferInstance fun _ =>
      keepsAlgorithm_zoom _ fun _ _ => ⟨rfl, rfl, rfl⟩)
  · exact keepsParsedAlgorithm_onVal (keepsAlgorithm_zoom _ fun _ _ => ⟨rfl, rfl, rfl⟩)
  · refine keepsParsedAlgorithm_onVal (Keeps.seq (keepsAlgorithm_zoom _ fun _ _ => ⟨rfl, rfl, rfl⟩)
      fun empty => keepsAlgorithm_modify fun mc => ?_)
    split <;> exact ⟨rfl, rfl, rfl⟩
  · exact keepsParsedAlgorithm_onVal (Keeps.seq inferInstance fun _ =>
      keepsAlgorithm_modify fun _ => ⟨rfl, rfl, rfl⟩)
  · infer_instance

/-- The algorithm of a request is one that is supported. -/
theorem requestedCredential_algorithm (a : Authenticator) (bytes : List UInt8) :
    AlgorithmOk (requestedCredential env a bytes) := by
  have hrest : Keeps KeepsParsedAlgorithm (requestMap env UInt32.toUInt8 ctap2ErrCborUnexpectedType
      bytes >>= fun p => forEntries p.2 (fun map => intKey env ctap2ErrCborUnexpectedType map >>= fun q =>
        parseMcParameter env q.1 q.2 >>= fun _ => checkRet (env.reader.advance q.2)) p.1 >>= fun _ =>
          pure ()) := inferInstance
  exact hrest.state ⟨{ (default : MakeCredential env.reader.Cursor) with up := 0xff }, a.gas.custom⟩
    fun hflag => absurd (by decide : (0 : UInt32) &&& paramPubKeyCredParams = 0) hflag

/-! ### What is signed -/

/-- The key has signed these bytes, and this is the encoded signature. -/
def SignedBy (priv : Buf 32) (data sigder : List UInt8) : Prop :=
  ∃ rng raw drawn, env.sign priv (env.sha256 data).bytes rng = some (raw, drawn) ∧
    sigder = (ctapEncodeDerSig raw).1.slice 0 (ctapEncodeDerSig raw).2

/-- The signature of an assertion. -/
def Writer.signature (w : Writer) : List UInt8 := ((w.valueAt (.int 3)).map EncOp.payload).getD []

theorem signature_of_items {w : Writer} {x : AssertionAnswer} (h : w.ops = x.items) :
    w.signature = x.signature := by
  unfold Writer.signature Writer.valueAt
  rw [h]
  simp [AssertionAnswer.items, AssertionAnswer.common, descriptorItems, EncOp.text, EncOp.payload]

/-- An id that is no extension request. -/
def Ordinary (id : List UInt8) : Prop :=
  8 ≤ id.length ∧ isExtensionRequest id credentialIdSize = false

/-- The key that the returned id stands for has signed the authenticator data and the hash
of the client data. -/
def SignsFor (s : Secrets) (hash : Buf clientDataHashSize) (id authData signature : List UInt8) :
    Prop :=
  Ordinary id → SignedBy env (generatePrivateKey env s id) (authData ++ hash.bytes) signature

section Sign

variable {env} {a t : Authenticator} {h : Answers}

theorem isExtensionRequest_returned {g : GetAssertionState} {d : CredentialDescriptor}
    (hlen : 8 ≤ (g.returnedId d).length) :
    isExtensionRequest (g.returnedId d) credentialIdSize =
      isExtensionRequest d.credential.id.bytes credentialIdSize := by
  have hid := d.credential.id.length_bytes
  unfold GetAssertionState.returnedId Credential.prefixBytes at *
  generalize getCredentialIdSize g.custom d.type = n at *
  have hn : 8 ≤ n := hlen.trans (List.length_take_le _ _)
  have htag : (((d.credential.id.bytes ++ d.credential.user.toBytes).take n).drop 4).take 4 =
      (d.credential.id.bytes.drop 4).take 4 := by
    rw [List.drop_take, List.take_take, min_eq_left (by omega), List.drop_append_of_le_length
      (by rw [hid]; decide), List.take_append_of_le_length]
    rw [List.length_drop, hid]
    decide
  unfold isExtensionRequest
  rw [htag]

theorem signAssertion_signed {size : ℕ} {hash : Buf clientDataHashSize} {sigder : List UInt8}
    (hrun : signAssertion env size hash a = (.ok sigder, t)) :
    SignedBy env a.signingKey.key (a.gas.authBytes size ++ hash.bytes) sigder := by
  unfold signAssertion at hrun
  rw [get_bind] at hrun
  dsimp only at hrun
  obtain ⟨⟨digest, sig⟩, b, hsign, hrest⟩ := bind_ok.mp hrun
  obtain ⟨_, c, -, hret⟩ := bind_ok.mp hrest
  obtain ⟨rfl, -⟩ := pure_ok.mp hret
  rw [ctapCalculateSignature_apply] at hsign
  dsimp only at hsign
  split at hsign
  case h_1 => cases (Prod.mk.inj hsign).1
  case h_2 raw drawn hraw =>
    obtain ⟨-, rfl⟩ := Prod.mk.inj (Except.ok.inj (Prod.mk.inj hsign).1)
    exact ⟨_, raw, drawn, hraw, rfl⟩

theorem ctapEndGetAssertion_signed {w w' : Writer} {cred : CredentialDescriptor} {size : ℕ}
    {hash : Buf clientDataHashSize}
    (hrun : CtapM.answered h (ctapEndGetAssertion env w cred size hash) a = (.ok w', t)) :
    ∃ x : AssertionAnswer, w' = { w with ops := w.ops ++ x.common } ∧
      SignsFor env a.secrets hash x.credentialId x.authData x.signature := by
  unfold ctapEndGetAssertion at hrun
  simp only [CtapM.answered, Routine.answered_bind, Routine.answered_liftM, get_bind] at hrun
  obtain ⟨w₁, a₁, henc₁, hrun⟩ := bind_ok.mp hrun
  obtain ⟨rfl, rfl⟩ := ((emits_emit _).seq fun _ =>
    (emits_ctapAddCredentialDescriptor ..).seq fun _ => emits_emitAll _).encode henc₁
  obtain ⟨_, a₂, hload, hrun⟩ := bind_ok.mp hrun
  obtain ⟨ext, a₃, hext, hrun⟩ := bind_ok.mp hrun
  obtain ⟨sig, a₄, hsign, hrun⟩ := bind_ok.mp hrun
  obtain ⟨w₂, a₅, henc₂, hrun⟩ := bind_ok.mp hrun
  obtain ⟨rfl, rfl⟩ := (emits_emitAll _).encode henc₂
  rw [get_bind] at hrun
  have huser : Emits (if cred.credential.user.idSize ≠ 0 then do
      env.writer.emit (.int 4)
      ctapAddUserEntity env cred.credential.user (a₄.gas.userVerified ≠ 0)
    else pure ()) (returnedUser cred.credential.user (a₄.gas.userVerified ≠ 0)) :=
    .ite ((emits_emit _).seq fun _ => emits_ctapAddUserEntity env _ _) .pure
  obtain ⟨rfl, -⟩ := huser.encode hrun
  refine ⟨⟨0, a.gas.returnedId cred, a.gas.authBytes size, sig,
    returnedUser cred.credential.user (a₄.gas.userVerified ≠ 0), []⟩, ?_, ?_⟩
  · simp only [AssertionAnswer.common, GetAssertionState.returnedId, GetAssertionState.authBytes,
      List.append_assoc, List.cons_append, List.nil_append]
  · rintro ⟨hlen, hordinary⟩
    rw [isExtensionRequest_returned hlen] at hordinary
    unfold extendFido2 at hext
    rw [if_neg (by rw [hordinary]; exact Bool.false_ne_true)] at hext
    obtain ⟨rfl, rfl⟩ := pure_ok.mp hext
    rw [loadKey, modify_ok] at hload
    subst hload
    exact signAssertion_signed hsign

theorem finishAssertion_signed {n size : ℕ} {ga : GetAssertion} {w w' : Writer}
    (hrun : CtapM.answered h (finishAssertion env n ga w size) a = (.ok w', t)) :
    ∃ x : AssertionAnswer,
      w' = { w with ops := w.ops ++ (x.common ++ x.total ++ [.closeContainer]) } ∧
      SignsFor env a.secrets ga.clientDataHash x.credentialId x.authData x.signature := by
  unfold finishAssertion at hrun
  simp only [CtapM.answered, Routine.answered_bind, Routine.answered_liftM, get_bind] at hrun
  obtain ⟨w₁, a₁, hend, hrest⟩ := bind_ok.mp hrun
  obtain ⟨x, rfl, hsigned⟩ := ctapEndGetAssertion_signed hend
  obtain ⟨w₂, a₂, hclose, hrest⟩ := bind_ok.mp hrest
  obtain ⟨rfl, rfl⟩ := ((emits_emitAll _).seq fun _ => emits_emit _).encode hclose
  obtain ⟨_, a₃, -, hret⟩ := bind_ok.mp hrest
  obtain ⟨rfl, -⟩ := pure_ok.mp hret
  refine ⟨{ x with total := if n > 1 then [.int 5, .int n] else [] }, ?_, hsigned⟩
  simp only [AssertionAnswer.common, List.append_assoc]

variable {bytes : List UInt8} {w : Writer}

/-- The answer is signed with the key of the id that it returns. -/
def Writer.Signed (env : Env) (s : Secrets) (hash : Buf clientDataHashSize) (w : Writer) : Prop :=
  SignsFor env s hash w.credentialId w.authData w.signature

theorem signed_of_items {x : AssertionAnswer} {s : Secrets} {hash : Buf clientDataHashSize}
    (hw : w.ops = x.items) (hx : SignsFor env s hash x.credentialId x.authData x.signature) :
    w.Signed env s hash := by
  rw [Writer.Signed, credentialId_of_items hw, authData_of_items hw, signature_of_items hw]
  exact hx

theorem getAssertion_signed (hcmd : bytes.getD 0 0 = ctapGetAssertionCmd)
    (hrun : a.dispatch env bytes h = (.ok (some w), t)) :
    w.Signed env a.secrets (requestedAssertion env a bytes.tail).clientDataHash := by
  rw [dispatch_getAssertion env hcmd] at hrun
  obtain ⟨_, a₁, hlocked, hrest⟩ := bind_ok.mp hrun
  obtain ⟨w', t', hrun', hret⟩ := bind_ok.mp hrest
  obtain ⟨heq, rfl⟩ := pure_ok.mp hret
  obtain rfl := Option.some.inj heq
  obtain rfl : { a with trace := [] } = a₁ := (inferInstance : Keeps Eq failIfLocked).apply hlocked
  rw [answered_ctapGetAssertion] at hrun'
  obtain ⟨⟨n, ga, cred, w₁⟩, b, hbegin, hrest⟩ := bind_ok.mp hrun'
  obtain ⟨ga₀, v, s, hselected, rfl, rfl, rfl, rfl⟩ := beginAssertion_ok env hbegin
  obtain ⟨size, d, hdata, hfinish⟩ := bind_ok.mp hrest
  obtain ⟨x, rfl, hsigned⟩ := finishAssertion_signed hfinish
  have hkeeps : Keeps (Changed assertionMayChange)
      (if isExtensionRequest (s.gas.creds.getD 0 default).credential.id.bytes credentialIdSize
        then extensionAuthData env ga₀.withFirstCred.rp
        else CtapM.answered h (assertionAuthData env ga₀.withFirstCred)) := by
    have hordinary := (inferInstance : Routine.Keeps (Changed assertionMayChange)
      (assertionAuthData env ga₀.withFirstCred)).answered h.answer
    infer_instance
  have hd : d.secrets = a.secrets :=
    (congrArg Prod.fst (hkeeps.apply hdata .secrets (by decide))).trans hselected.secrets
  have hhash : ga₀.withFirstCred.clientDataHash =
      (requestedAssertion env { a with trace := [] } bytes.tail).clientDataHash := by
    rw [hselected.asked]
    rfl
  rw [hd, hhash] at hsigned
  refine signed_of_items (x := { x with pairs := 3 + (if n > 1 then 1 else 0) +
    (if (s.gas.creds.getD (n - 1) default).credential.user.idSize ≠ 0 then 1 else 0) }) ?_ hsigned
  simp only [AssertionAnswer.items, AssertionAnswer.common, Writer.init, List.append_assoc,
    List.cons_append, List.nil_append]

theorem getNextAssertion_signed (hcmd : bytes.getD 0 0 = getNextAssertionCmd)
    (hrun : a.dispatch env bytes h = (.ok (some w), t)) :
    w.Signed env a.secrets a.gas.clientDataHash := by
  rw [dispatch_getNextAssertion env hcmd] at hrun
  obtain ⟨_, a₁, hlast, hrest⟩ := bind_ok.mp hrun
  obtain ⟨w', t', hrun', hret⟩ := bind_ok.mp hrest
  obtain ⟨heq, rfl⟩ := pure_ok.mp hret
  obtain rfl := Option.some.inj heq
  rw [failIf, stopIf_ok] at hlast
  obtain ⟨-, rfl⟩ := hlast
  rw [answered_ctapGetNextAssertion] at hrun'
  obtain ⟨⟨i, ext, w₁⟩, s, hbegin, hrest⟩ := bind_ok.mp hrun'
  obtain ⟨rfl, -, rfl, rfl, count, hstate⟩ := beginNextAssertion_ok env hbegin
  obtain ⟨size, e, hextend, hrest⟩ := bind_ok.mp hrest
  obtain ⟨ret, b, -, rfl, he⟩ := extendNextAssertion_ok env hextend
  rw [get_bind] at hrest
  obtain ⟨w₂, u, hend, hclose⟩ := bind_ok.mp hrest
  obtain ⟨x, rfl, hsigned⟩ := ctapEndGetAssertion_signed hend
  obtain ⟨rfl, rfl⟩ := (emits_emit _).encode hclose
  have hkeeps : Keeps (Changed [.flags]) (extendNextAssertion env a.gas.extensions) := by
    unfold extendNextAssertion
    infer_instance
  have hsecrets : e.secrets = a.secrets := by
    rw [show e.secrets = s.secrets from congrArg Prod.fst (hkeeps.apply hextend .secrets (by decide))]
    obtain ⟨counter, sc, pos, rfl⟩ := hstate
    rfl
  have hhash : e.gas.clientDataHash = a.gas.clientDataHash := by
    rw [he, GetAssertionState.extended, hstate.gas]
    rfl
  rw [hsecrets, hhash] at hsigned
  refine signed_of_items (x := { x with
    pairs := if (a.gas.creds.getD a.gas.index default).credential.user.idSize ≠ 0 then 4 else 3
    total := [] }) ?_ hsigned
  simp only [AssertionAnswer.items, AssertionAnswer.common, Writer.init, List.append_assoc,
    List.cons_append, List.nil_append, List.append_nil]

theorem secrets_of_assertion (hcmd : bytes.getD 0 0 = ctapGetAssertionCmd ∨
    bytes.getD 0 0 = getNextAssertionCmd) (hrun : a.dispatch env bytes h = (.ok (some w), t)) :
    t.secrets = a.secrets := by
  have hchanged := dispatch_assertion_changed env (a := a) (h := h) hcmd
  rw [hrun] at hchanged
  exact congrArg Prod.fst (hchanged .secrets (by decide))

/-- The requests of a chain are signed over the hash that was saved. -/
theorem Chain.signed {u : Authenticator} {ws : List Writer} (hchain : Chain env a ws u) :
    ∀ w ∈ ws, w.Signed env a.secrets a.gas.clientDataHash := by
  induction hchain with
  | nil a => simp
  | @cons a t u bytes h w ws hcmd hrun hrest ih =>
      have hsecrets : (t.setLastcmd ctapGetAssertionCmd).secrets = a.secrets :=
        secrets_of_assertion (t := t) (.inr hcmd) hrun
      have hhash : (t.setLastcmd ctapGetAssertionCmd).gas.clientDataHash = a.gas.clientDataHash :=
        (getNextAssertion_tells hcmd hrun).2.1.clientDataHash
      rw [hsecrets, hhash] at ih
      exact List.forall_mem_cons.mpr ⟨getNextAssertion_signed hcmd hrun, ih⟩

/-- The first answer saves its hash if anything is left behind it. -/
theorem saved_clientDataHash (hcmd : bytes.getD 0 0 = ctapGetAssertionCmd)
    (hrun : a.dispatch env bytes h = (.ok (some w), t)) (hleft : 0 < t.gas.count) :
    t.gas.clientDataHash = (requestedAssertion env a bytes.tail).clientDataHash := by
  obtain ⟨x, n, ga₀, v, s, b, d, size, hx, -, e, -, rfl⟩ := dispatch_getAssertion_ok hcmd hrun
  unfold GetAssertionState.saved at *
  dsimp only at *
  split at hleft
  case isTrue => exact absurd hleft (Nat.lt_irrefl 0)
  case isFalse hmany =>
    rw [if_neg hmany, hx.selected.asked]
    rfl

/-- Every answer of a chain is signed over the hash of its getAssertion. -/
theorem AnsweredChain.signed (c : AnsweredChain env) (hcmd : c.bytes.getD 0 0 = ctapGetAssertionCmd) :
    ∀ w ∈ c.answer :: c.rest, w.Signed env c.start.secrets
      (requestedAssertion env c.start c.bytes.tail).clientDataHash := by
  refine List.forall_mem_cons.mpr ⟨getAssertion_signed hcmd c.answered, fun w hw => ?_⟩
  have hsigned := c.continued.signed w hw
  have hleft := (c.continued.inTurn rfl).left (List.length_pos_of_mem hw)
  have hsecrets : (c.after.setLastcmd ctapGetAssertionCmd).secrets = c.start.secrets :=
    secrets_of_assertion (t := c.after) (.inl hcmd) c.answered
  have hhash : (c.after.setLastcmd ctapGetAssertionCmd).gas.clientDataHash = _ :=
    saved_clientDataHash (t := c.after) hcmd c.answered (Nat.zero_lt_of_lt hleft)
  rw [hsecrets, hhash] at hsigned
  exact hsigned

end Sign

/-! ### What is shown of the key -/

section Create

variable {env} {a t : Authenticator} {bytes : List UInt8} {h : Answers} {w : Writer}

/-- What stands behind the id in the response of a makeCredential. -/
def Writer.behindId (w : Writer) : List UInt8 := w.authData.drop 125

theorem behindId_eq {hd : AuthDataHeader} {id : CredentialId} {coseKey ext : List UInt8}
    (hdata : w.authData = hd.toBytes ++ attestedCredentialData env id coseKey ++ ext) :
    w.behindId = coseKey ++ ext := by
  have hfront : (hd.toBytes ++ env.aaguid.bytes ++ [0, UInt8.ofNat credentialIdSize] ++
      id.bytes).length = 125 := by
    simp only [List.length_append, length_toBytes, Buf.length_bytes, List.length_cons,
      List.length_nil]
    rfl
  have hsplit : w.authData = (hd.toBytes ++ env.aaguid.bytes ++ [0, UInt8.ofNat credentialIdSize] ++
      id.bytes) ++ (coseKey ++ ext) := by
    rw [hdata, attestedCredentialData]
    simp only [List.append_assoc]
  rw [Writer.behindId, hsplit, List.drop_left' hfront]

/-- The bytes of a public key. -/
def publicKeyBytes (env : Env) (pub : Buf 64) : List UInt8 :=
  env.writer.buffer (ctapAddCoseKey env pub coseAlgEs256 (Writer.init (310 - 125))).2

theorem checkMakeCredential_params {mc : MakeCredential env.reader.Cursor} {u : Unit}
    (hrun : CtapM.answered h (checkMakeCredential env mc) a = (.ok u, t)) :
    mc.paramsParsed &&& paramPubKeyCredParams ≠ 0 := by
  unfold checkMakeCredential at hrun
  simp only [CtapM.answered, Routine.answered_bind, Routine.answered_liftM] at hrun
  obtain ⟨_, a₁, -, hrest⟩ := bind_ok.mp hrun
  obtain ⟨_, a₂, hparams, -⟩ := bind_ok.mp hrest
  rw [failIf, stopIf_ok] at hparams
  have hflag : (mc.paramsParsed &&& mcRequiredMask) &&& paramPubKeyCredParams =
      paramPubKeyCredParams := by
    rw [not_not.mp hparams.1]
    decide
  rw [UInt32.and_assoc, show mcRequiredMask &&& paramPubKeyCredParams = paramPubKeyCredParams by decide]
    at hflag
  rw [hflag]
  decide

theorem coseKeyBytes_eq {id : CredentialId} {credInfo : CredInfo}
    (hsupported : pubKeyCredParamSupported credInfo.publicKeyCredentialType
      credInfo.coseAlgorithmIdentifier = true) :
    coseKeyBytes env a id credInfo =
      publicKeyBytes env (cryptoEcc256DerivePublicKey env a.secrets id.bytes) := by
  unfold pubKeyCredParamSupported at hsupported
  rw [Bool.and_eq_true, decide_eq_true_iff, decide_eq_true_iff] at hsupported
  obtain ⟨htype, halg⟩ := hsupported
  unfold coseKeyBytes ctapGenerateCoseKey
  rw [if_neg (by simp [htype, halg]), halg]
  rfl

theorem beginMakeCredential_shows {w w' : Writer} {request : List UInt8}
    {mc : MakeCredential env.reader.Cursor} {hd : AuthDataHeader} {attested : List UInt8}
    (hrun : CtapM.answered h (beginMakeCredential env w request) a = (.ok (mc, w', hd, attested), t)) :
    mc = requestedCredential env a request ∧ ∃ id : CredentialId,
      isAuthenticId env a.secrets (env.sha256 mc.rp.bytes).bytes id = true ∧
      attested = attestedCredentialData env id
        (publicKeyBytes env (cryptoEcc256DerivePublicKey env a.secrets id.bytes)) := by
  unfold beginMakeCredential at hrun
  simp only [CtapM.answered, Routine.answered_bind, Routine.answered_liftM] at hrun
  obtain ⟨mc', a₁, hparse, hrest⟩ := bind_ok.mp hrun
  obtain rfl := (parsedWithCustom_ends (a := a) (ctapParseMakeCredential env request) default).elim
    hparse mc' rfl
  obtain ⟨_, a₂, hcheck, hrest⟩ := bind_ok.mp hrest
  obtain ⟨w₁, a₃, henc, hrest⟩ := bind_ok.mp hrest
  obtain ⟨rfl, rfl⟩ := (emits_emitAll _).encode henc
  obtain ⟨⟨hd', attested'⟩, a₄, hmake, hret⟩ := bind_ok.mp hrest
  obtain ⟨heq, rfl⟩ := pure_ok.mp hret
  simp only [Prod.mk.injEq] at heq
  obtain ⟨rfl, rfl, rfl, rfl⟩ := heq
  have hsupported := requestedCredential_algorithm env a request (checkMakeCredential_params hcheck)
  obtain ⟨hd₀, nonce, u, hheader, -, rfl⟩ := ctapMakeAuthData_ok hmake
  have hchecks := (inferInstance : Routine.Keeps (Changed requestMayChange)
    (checkMakeCredential env (requestedCredential env a request))).answered h.answer
  have hmakes : Routine.Keeps (Changed requestMayChange) (ctapMakeAuthData env
      (requestedCredential env a request).rp (requestedCredential env a request).credInfo
      (requestedCredential env a request).extensions) := inferInstance
  have hchecked : Changed requestMayChange a a₂ :=
    trans_of (Changed requestMayChange)
      ((inferInstance : Keeps (Changed requestMayChange) _).apply hparse) (hchecks.apply hcheck)
  have hchanged : Changed requestMayChange a a₄ :=
    trans_of (Changed requestMayChange) hchecked ((hmakes.answered h.answer).apply hmake)
  have hbefore : a₂.secrets = a.secrets := congrArg Prod.fst (hchecked .secrets (by decide))
  have hsecrets : a₄.secrets = a.secrets := congrArg Prod.fst (hchanged .secrets (by decide))
  refine ⟨rfl, _, ?_, congrArg _ ((coseKeyBytes_eq hsupported).trans (by rw [hsecrets]))⟩
  rw [hbefore, ← (ctapMakeAuthDataHeader_value hheader).1]
  exact isAuthenticId_newCredentialId ..

/-- A makeCredential shows the public key that belongs to the id it returns. -/
theorem dispatch_makeCredential_shows (hcmd : bytes.getD 0 0 = ctapMakeCredentialCmd)
    (hrun : a.dispatch env bytes h = (.ok (some w), t)) :
    ∃ id ext, isAuthenticId env a.secrets
        (env.sha256 (requestedCredential env a bytes.tail).rp.bytes).bytes id = true ∧
      w.newId = id.bytes ∧
      w.behindId = publicKeyBytes env (cryptoEcc256DerivePublicKey env a.secrets id.bytes) ++ ext := by
  obtain ⟨mc, w₁, hd, attested, s, hbegin, -, hd', ext, hdata⟩ :=
    dispatch_makeCredential_made hcmd hrun
  obtain ⟨rfl, id, hid, rfl⟩ := beginMakeCredential_shows hbegin
  exact ⟨id, ext, hid, newId_eq hdata, behindId_eq hdata⟩

end Create

/-! ### The relying party -/

/-- A relying party that reads the public keys that the encoder writes, whatever follows
them, and accepts what the keys of the curve sign. -/
structure RelyingParty (env : Env) where
  readKey : List UInt8 → Option (Buf 64)
  /-- The public key, the hash that was signed, and the two numbers. -/
  accepts : Buf 64 → List UInt8 → ℕ × ℕ → Bool
  readKey_bytes : ∀ pub rest, readKey (publicKeyBytes env pub ++ rest) = some pub
  accepts_signed : ∀ priv pub hash rng raw drawn, env.computePublicKey priv = some pub →
    env.sign priv hash rng = some (raw, drawn) →
      sigR raw ≠ 0 ∧ sigS raw ≠ 0 ∧ accepts pub hash (sigR raw, sigS raw) = true

/-- The relying party accepts an answer over this hash for the registration that was
answered so. -/
def RelyingParty.Verifies {env : Env} (rp : RelyingParty env) (created : Writer)
    (hash : Buf clientDataHashSize) (w : Writer) : Prop :=
  ∃ pub rs, rp.readKey created.behindId = some pub ∧ Der.readPair w.signature = some rs ∧
    rp.accepts pub (env.sha256 (w.authData ++ hash.bytes)).bytes rs = true

section Verify

variable {env}

/-- A strict decoder reads the two numbers. -/
theorem readPair_encoded {raw : Buf 64} (hr : sigR raw ≠ 0) (hs : sigS raw ≠ 0) :
    Der.readPair ((ctapEncodeDerSig raw).1.slice 0 (ctapEncodeDerSig raw).2) =
      some (sigR raw, sigS raw) := by
  have hlen := length_pair_le raw
  have hle : (Der.pair (sigR raw) (sigS raw)).length ≤ 72 := by
    simp [Der.pair] at *
    omega
  have hslice : (Buf.ofList 72 (Der.pair (sigR raw) (sigS raw))).slice 0
      (Der.pair (sigR raw) (sigS raw)).length = Der.pair (sigR raw) (sigS raw) := by
    simpa using @Buf.slice_ofList 72 [] (Der.pair (sigR raw) (sigS raw)) [] (by simpa using hle)
  rw [ctapEncodeDerSig_eq hr hs, hslice]
  exact (Der.readPair_eq_some (by omega)).mpr rfl

/-- What a key signs is accepted by its public half. -/
theorem RelyingParty.accepts_signedBy (rp : RelyingParty env) {priv : Buf 32} {pub : Buf 64}
    {data sigder : List UInt8} (hpub : env.computePublicKey priv = some pub)
    (hsigned : SignedBy env priv data sigder) :
    ∃ rs, Der.readPair sigder = some rs ∧ rp.accepts pub (env.sha256 data).bytes rs = true := by
  obtain ⟨rng, raw, drawn, hraw, rfl⟩ := hsigned
  obtain ⟨hr, hs, haccepts⟩ := rp.accepts_signed _ pub _ rng raw drawn hpub hraw
  exact ⟨(sigR raw, sigS raw), readPair_encoded hr hs, haccepts⟩

/-- What the key of an id signs is accepted by the public key that was shown with it. -/
theorem RelyingParty.verifies_signed (rp : RelyingParty env) {created w : Writer} {s : Secrets}
    {hash : Buf clientDataHashSize} {pub : Buf 64} {ext : List UInt8}
    (hpub : env.computePublicKey (generatePrivateKey env s w.credentialId) = some pub)
    (hshown : created.behindId =
      publicKeyBytes env (cryptoEcc256DerivePublicKey env s w.credentialId) ++ ext)
    (hsigned : SignedBy env (generatePrivateKey env s w.credentialId) (w.authData ++ hash.bytes)
      w.signature) : rp.Verifies created hash w := by
  obtain ⟨rs, hread, haccepts⟩ := rp.accepts_signedBy hpub hsigned
  have hderived : cryptoEcc256DerivePublicKey env s w.credentialId = pub := by
    rw [cryptoEcc256DerivePublicKey, hpub, Option.getD_some]
  refine ⟨pub, rs, ?_, hread, haccepts⟩
  rw [hshown, hderived, rp.readKey_bytes]

/-- Whatever was requested since a registration, so long as it was no reset that was
carried out, the answers of a getAssertion and of the getNextAssertion requests behind it
that return the id of the registration are accepted by the key that it has shown. -/
theorem assertion_verifies (rp : RelyingParty env) (r : Registration env) (es : List Event)
    (hes : Along (Machine.step env) (fun m e => ¬ IsReset env m e) r.done es) (c : AnsweredChain env)
    (hstart : c.start = (run (Machine.step env) r.done es).auth)
    (hcmd : c.bytes.getD 0 0 = ctapGetAssertionCmd)
    (hkey : (env.computePublicKey
      (generatePrivateKey env r.start.auth.secrets r.answer.newId)).isSome = true)
    (hordinary : isExtensionRequest r.answer.newId credentialIdSize = false) :
    ∀ w ∈ c.answer :: c.rest, w.credentialId = r.answer.newId →
      rp.Verifies r.answer (requestedAssertion env c.start c.bytes.tail).clientDataHash w := by
  intro w hw hid
  have hsecrets : c.start.secrets = r.start.auth.secrets := by
    rw [hstart, r.secretsInv_done.run hes, r.secrets_done]
  obtain ⟨t, hanswered⟩ : ∃ t, r.start.auth.dispatch env r.bytes r.answers = (.ok (some r.answer), t) :=
    ⟨_, Prod.ext r.answered rfl⟩
  obtain ⟨id, ext, -, hnew, hshown⟩ := dispatch_makeCredential_shows r.cmd hanswered
  rw [← hnew] at hshown
  obtain ⟨pub, hpub⟩ := Option.isSome_iff_exists.mp hkey
  have hsigned := c.signed hcmd w hw
  rw [hsecrets] at hsigned
  rw [← hid] at hshown hpub hordinary
  refine rp.verifies_signed hpub hshown (hsigned ⟨?_, hordinary⟩)
  rw [hid, hnew, id.length_bytes]
  decide

end Verify

/-- Half of a signature that can be computed: the bytes behind a one. -/
def demoHalf (b : List UInt8) : List UInt8 := 1 :: (b ++ List.replicate 31 0).take 31

/-- A scheme in which a signature is the hash and the private key. -/
def demoSigning : Env :=
  { Sample.env with
    sign := fun priv hash _ => some (Buf.ofList 64 (demoHalf hash ++ demoHalf priv.bytes), 0) }

theorem length_demoHalf (b : List UInt8) : (demoHalf b).length = 32 := by
  unfold demoHalf
  rw [List.length_cons, List.length_take, List.length_append, List.length_replicate]
  omega

theorem beNat_demoHalf (b : List UInt8) : Der.beNat (demoHalf b) ≠ 0 := by
  intro hzero
  have hmag := Der.magnitude_beNat (demoHalf b)
  rw [hzero, demoHalf, List.dropWhile_cons_of_neg (by decide)] at hmag
  exact absurd hmag (by simp [Der.magnitude])

/-- The items of a public key. -/
def demoKeyItems (pub : Buf 64) : List EncOp :=
  [.createMap 5, .int 1, .int 2, .int 3, .int coseAlgEs256, .int (-1), .int 1,
    .int (-2), .byteString (pub.slice 0 32), .int (-3), .byteString (pub.slice 32 32),
    .closeContainer]

theorem demoKey_bytes (pub : Buf 64) : publicKeyBytes demoSigning pub =
    [0xa5, 1, 2, 3, 0x26, 0x20, 1, 0x21, 0x58, 0x20] ++ pub.slice 0 32 ++ [0x22, 0x58, 0x20] ++
      pub.slice 32 32 := by
  have hx : (pub.slice 0 32).length = 32 := Buf.length_slice (by decide)
  have hy : (pub.slice 32 32).length = 32 := Buf.length_slice (by decide)
  have hwrites : demoSigning.writer.emitAll (demoKeyItems pub) (Writer.init (310 - 125)) =
      (.ok (), ⟨310 - 125, demoKeyItems pub⟩) := by
    have hwrites : Writes (demoSigning.writer.emitAll (demoKeyItems pub)) (demoKeyItems pub) :=
      writes_emitAll Sample.writer_roomy _
    refine hwrites.run (Writer.init (310 - 125)) ?_ ((encodedSize_le_bound _).trans ?_)
    · intro hnone
      cases hnone
    · simp [demoKeyItems, Writer.init, hx, hy]
  unfold publicKeyBytes ctapAddCoseKey
  change demoSigning.writer.buffer (demoSigning.writer.emitAll (demoKeyItems pub)
    (Writer.init (310 - 125))).2 = _
  rw [hwrites]
  show Sample.encodeOps (demoKeyItems pub) = _
  simp [Sample.encodeOps, demoKeyItems, Sample.encodeOp, Sample.head, hx, hy, coseAlgEs256]

/-- The two halves of an array of 64 bytes. -/
theorem slice_halves (pub : Buf 64) : pub.slice 0 32 ++ pub.slice 32 32 = pub.bytes := by
  have hrest : (pub.bytes.drop 32).take 32 = pub.bytes.drop 32 := by
    apply List.take_of_length_le
    rw [List.length_drop, pub.length_bytes]
  rw [Buf.slice, Buf.slice, List.drop_zero, hrest, List.take_append_drop]

theorem slice_first {x y : List UInt8} (hx : x.length = 32) (hy : y.length = 32) :
    (Buf.ofList 64 (x ++ y)).slice 0 32 = x := by
  have h := @Buf.slice_ofList 64 [] x y (by simp [hx, hy])
  rwa [hx] at h

theorem slice_second {x y : List UInt8} (hx : x.length = 32) (hy : y.length = 32) :
    (Buf.ofList 64 (x ++ y)).slice 32 32 = y := by
  have h := @Buf.slice_ofList 64 x y [] (by simp [hx, hy])
  rwa [hx, hy, List.append_nil] at h

/-- The relying party of the scheme. -/
def demoParty : RelyingParty demoSigning where
  readKey b := some (Buf.ofList 64 ((b.drop 10).take 32 ++ (b.drop 45).take 32))
  accepts pub hash rs :=
    rs = (Der.beNat (demoHalf hash), Der.beNat (demoHalf (pub.slice 0 32)))
  readKey_bytes pub rest := by
    have hx : (pub.slice 0 32).length = 32 := Buf.length_slice (by decide)
    have hy : (pub.slice 32 32).length = 32 := Buf.length_slice (by decide)
    rw [demoKey_bytes]
    generalize hfront : ([0xa5, 1, 2, 3, 0x26, 0x20, 1, 0x21, 0x58, 0x20] : List UInt8) = front
    generalize hmiddle : ([0x22, 0x58, 0x20] : List UInt8) = middle
    have hlen : front.length = 10 ∧ middle.length = 3 := by
      rw [← hfront, ← hmiddle]
      exact ⟨rfl, rfl⟩
    have hfirst : ((front ++ pub.slice 0 32 ++ middle ++ pub.slice 32 32 ++ rest).drop 10).take 32 =
        pub.slice 0 32 := by
      simp only [List.append_assoc]
      rw [List.drop_left' hlen.1, List.take_left' hx]
    have hsecond : ((front ++ pub.slice 0 32 ++ middle ++ pub.slice 32 32 ++ rest).drop 45).take 32 =
        pub.slice 32 32 := by
      rw [List.append_assoc, List.drop_left' (by simp [hlen, hx]), List.take_left' hy]
    rw [hfirst, hsecond, slice_halves]
    exact congrArg some (Buf.ext (by rw [Buf.bytes_ofList pub.length_bytes.le, pub.length_bytes]; simp))
  accepts_signed priv pub hash rng raw drawn hpub hraw := by
    obtain ⟨rfl, -⟩ := Prod.mk.inj (Option.some.inj hraw)
    have hkey : pub.slice 0 32 = priv.bytes := by
      rw [← Option.some.inj hpub]
      exact slice_first priv.length_bytes priv.length_bytes
    rw [sigR, sigS, slice_first (length_demoHalf _) (length_demoHalf _),
      slice_second (length_demoHalf _) (length_demoHalf _), hkey]
    exact ⟨beNat_demoHalf _, beNat_demoHalf _, decide_eq_true rfl⟩

/-- The registration signs in with a list, once another user was registered and the device
plugged in again. -/
def demoVerifies (r : Registration demoSigning) : Bool :=
  let a := (run (Machine.step demoSigning) r.done demoMeanwhile).auth
  decide (Along (Machine.step demoSigning) (fun m e => ¬ IsReset demoSigning m e) r.done demoMeanwhile ∧
    isExtensionRequest r.answer.newId credentialIdSize = false) &&
  (chainOf demoSigning a (ctapGetAssertionCmd :: Sample.encodeOps
    (Sample.assertOps 6 [r.answer.newId])) Sample.touch 0).any fun c =>
      c.answer.credentialId = r.answer.newId

theorem assertion_verifies_demo : ∃ (r : Registration demoSigning) (c : AnsweredChain demoSigning),
    demoParty.Verifies r.answer
      (requestedAssertion demoSigning c.start c.bytes.tail).clientDataHash c.answer := by
  have hdemo : (registrationOf demoSigning Sample.device []
      (ctapMakeCredentialCmd :: Sample.encodeOps (Sample.createOps [1])) Sample.touch).any
      demoVerifies = true := by decide +kernel
  obtain ⟨r, hr⟩ := exists_registration hdemo
  unfold demoVerifies at hr
  dsimp only at hr
  rw [Bool.and_eq_true, decide_eq_true_iff] at hr
  obtain ⟨⟨hes, hordinary⟩, hchain⟩ := hr
  obtain ⟨c, hstart, hbytes, hid⟩ := exists_chain hchain
  rw [decide_eq_true_iff] at hid
  exact ⟨r, c, assertion_verifies demoParty r demoMeanwhile hes c hstart (by rw [hbytes]; rfl) rfl
    hordinary c.answer List.mem_cons_self hid⟩

end NitrokeyFido2.Ctap
