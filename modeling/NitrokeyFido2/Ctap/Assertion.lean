import NitrokeyFido2.Ctap.Encoding
import NitrokeyFido2.Ctap.Frame
import NitrokeyFido2.Ctap.Statuses

/-!
What a getAssertion and a getNextAssertion answer with.
-/

namespace NitrokeyFido2.Ctap

open Proc Resumption

variable (env : Env)

/-! ### The answer -/

/-- What an assertion is answered with. -/
structure AssertionAnswer where
  pairs : ℕ
  credentialId : List UInt8
  authData : List UInt8
  signature : List UInt8
  user : List EncOp
  total : List EncOp

/-- The pairs of the credential, the authenticator data, the signature and the
user. -/
def AssertionAnswer.common (x : AssertionAnswer) : List EncOp :=
  .int 1 :: descriptorItems x.credentialId ++
    [.int 2, .byteString x.authData, .int 3, .byteString x.signature] ++ x.user

def AssertionAnswer.items (x : AssertionAnswer) : List EncOp :=
  .createMap x.pairs :: (x.common ++ x.total) ++ [.closeContainer]

/-- The first `size` bytes of the buffer that holds the authenticator data. -/
def GetAssertionState.authBytes (g : GetAssertionState) (size : ℕ) : List UInt8 :=
  (g.authData.toBytes ++ g.bufExtensions.bytes).take size

/-- The credential id that is returned for an entry. -/
def GetAssertionState.returnedId (g : GetAssertionState) (cred : CredentialDescriptor) : List UInt8 :=
  cred.credential.prefixBytes (getCredentialIdSize g.custom cred.type)

/-- The user entity that is returned with an entry. -/
def returnedUser (user : UserEntity) (isVerified : Bool) : List EncOp :=
  if user.idSize ≠ 0 then .int 4 :: userItems user isVerified else []

/-- What signing an assertion may change: events, and what no aspect looks
at. -/
abbrev signingMayChange : List Aspect :=
  [.events .presence, .events .bootloader, .events .derived, .events .otherKey]

theorem ctapEndGetAssertion_ok {w w' : Writer} {cred : CredentialDescriptor} {size : ℕ}
    {hash : Buf clientDataHashSize} {h : Answers} {a t : Authenticator}
    (hrun : CtapM.answered h (ctapEndGetAssertion env w cred size hash) a = (.ok w', t)) :
    ∃ x : AssertionAnswer, w' = { w with ops := w.ops ++ x.common } ∧
      x.credentialId = a.gas.returnedId cred ∧ x.authData = a.gas.authBytes size ∧
      x.user = returnedUser cred.credential.user (a.gas.userVerified ≠ 0) := by
  have hext : Routine.Keeps (Changed signingMayChange)
      (extendFido2 env cred.credential.id (env.uninit .signature 72)) := inferInstance
  have hsign : Keeps (Changed signingMayChange) (signAssertion env size hash) := inferInstance
  have hload : Keeps (Changed signingMayChange) (loadKey (cryptoEcc256LoadKey env a.secrets
      (a.gas.returnedId cred))) := inferInstance
  unfold ctapEndGetAssertion at hrun
  simp only [CtapM.answered, Routine.answered_bind, Routine.answered_liftM, get_bind] at hrun
  obtain ⟨w₁, a₁, henc₁, hrun⟩ := bind_ok.mp hrun
  obtain ⟨rfl, rfl⟩ := ((emits_emit _).seq fun _ =>
    (emits_ctapAddCredentialDescriptor ..).seq fun _ => emits_emitAll _).encode henc₁
  obtain ⟨_, a₂, hrun₂, hrun⟩ := bind_ok.mp hrun
  obtain ⟨ext, a₃, hrun₃, hrun⟩ := bind_ok.mp hrun
  obtain ⟨sig, a₄, hrun₄, hrun⟩ := bind_ok.mp hrun
  obtain ⟨w₂, a₅, henc₂, hrun⟩ := bind_ok.mp hrun
  obtain ⟨rfl, rfl⟩ := (emits_emitAll _).encode henc₂
  have hchanged : Changed signingMayChange a a₄ := by
    have h₂ := hload.apply hrun₂
    have h₃ := (hext.answered h.answer).apply hrun₃
    have h₄ : Changed signingMayChange a₃ a₄ := by
      rcases ext with _ | out
      · exact hsign.apply hrun₄
      · rw [(pure_ok.mp hrun₄).2]
        exact refl_of (Changed signingMayChange) _
    exact trans_of (Changed signingMayChange) (trans_of (Changed signingMayChange) h₂ h₃) h₄
  have huv : a₄.gas.userVerified = a.gas.userVerified := hchanged .userVerified (by decide)
  rw [get_bind, huv] at hrun
  have huser : Emits (if cred.credential.user.idSize ≠ 0 then do
      env.writer.emit (.int 4)
      ctapAddUserEntity env cred.credential.user (a.gas.userVerified ≠ 0)
    else pure ()) (returnedUser cred.credential.user (a.gas.userVerified ≠ 0)) :=
    .ite ((emits_emit _).seq fun _ => emits_ctapAddUserEntity env _ _) .pure
  obtain ⟨rfl, -⟩ := huser.encode hrun
  refine ⟨⟨0, a.gas.returnedId cred, a.gas.authBytes size, sig,
    returnedUser cred.credential.user (a.gas.userVerified ≠ 0), []⟩, ?_, rfl, rfl, rfl⟩
  simp only [AssertionAnswer.common, GetAssertionState.returnedId, GetAssertionState.authBytes,
    List.append_assoc, List.cons_append, List.nil_append]

/-! ### The extensions of an assertion -/

/-- The state with this buffer behind the authenticator data. -/
def Authenticator.withExtensions (a : Authenticator) (buf : Buf 80) : Authenticator :=
  { a with gas := { a.gas with bufExtensions := buf } }

/-- `ctap_make_extensions` fails with its own codes, and then leaves the size
variable alone. -/
theorem makeAssertionExtensions_ok {ext : Extensions} {ret : UInt8} {size : ℕ} {a t : Authenticator}
    (hrun : makeAssertionExtensions env ext a = (.ok (ret, size), t)) :
    ∃ b : ExtBuf 80, t = a.withExtensions b.buf ∧ size = b.size ∧
      ((ret = 0 ∧ ctapMakeExtensions env a ext ⟨a.gas.bufExtensions, 80⟩ = (.ok (), b)) ∨
        (ret ≠ 0 ∧ ctapMakeExtensions env a ext ⟨a.gas.bufExtensions, 80⟩ =
          (.error (.status ret), b))) := by
  have hne : (ctapMakeExtensions env a ext ⟨a.gas.bufExtensions, 80⟩).1 ≠ .error (.status 0) :=
    Never.ne _
  simp only [makeAssertionExtensions] at hrun
  rcases hr : (ctapMakeExtensions env a ext).run ⟨a.gas.bufExtensions, 80⟩ with ⟨(c | _) | u, b⟩ <;>
    rw [hr] at hrun hne
  · simp only [Prod.mk.injEq, Except.ok.injEq] at hrun
    obtain ⟨⟨rfl, rfl⟩, rfl⟩ := hrun
    exact ⟨b, rfl, rfl, .inr ⟨fun h => hne (by rw [h]), rfl⟩⟩
  · cases (Prod.mk.inj hrun).1
  · simp only [Prod.mk.injEq, Except.ok.injEq] at hrun
    obtain ⟨⟨rfl, rfl⟩, rfl⟩ := hrun
    exact ⟨b, rfl, rfl, .inl ⟨rfl, rfl⟩⟩

/-! ### getNextAssertion -/

/-- Only the counter and the random numbers have gone on. -/
def Counted (a t : Authenticator) : Prop :=
  ∃ counter sc pos, t = { a with counter := counter, sc := sc, rngPos := pos }

instance : IsPreorder Authenticator Counted where
  refl a := ⟨a.counter, a.sc, a.rngPos, rfl⟩
  trans _ _ _ := by
    rintro ⟨_, _, _, rfl⟩ ⟨counter, sc, pos, rfl⟩
    exact ⟨counter, sc, pos, rfl⟩

theorem Counted.gas {a t : Authenticator} (h : Counted a t) : t.gas = a.gas := by
  obtain ⟨_, _, _, rfl⟩ := h
  rfl

instance : Keeps Counted (ctapAtomicCount env) := by
  have hrng : Keeps Counted (ctapGenerateRng env 1) := ⟨fun a => ⟨a.counter, a.sc, _, rfl⟩⟩
  have hmodify (counter : Authenticator → CounterPages) (sc : Authenticator → UInt32) :
      Keeps Counted (Proc.modify fun a => { a with counter := counter a, sc := sc a } :
        Device Unit) :=
    Keeps.modify fun a => ⟨counter a, sc a, a.rngPos, rfl⟩
  unfold ctapAtomicCount
  refine Keeps.seq (Keeps.modify fun a => ?_) fun _ => Keeps.seq hrng fun rng => ?_
  · split
    · exact ⟨_, a.sc, a.rngPos, rfl⟩
    · exact refl_of Counted a
  · refine Keeps.seq inferInstance fun a => @Keeps.ite _ _ _ _ _ _ _ _ ?_ ?_
    · exact Keeps.seq (hmodify _ _) fun _ => inferInstance
    · exact Keeps.seq (hmodify _ _) fun _ => Keeps.seq inferInstance fun _ =>
        Keeps.seq (hmodify _ _) fun _ => inferInstance

instance : Keeps Counted (authDataUpdateCount env) := by
  unfold authDataUpdateCount
  infer_instance

/-- `ctap_get_next_assertion` up to the call of `ctap_make_extensions`: the
index of the entry, the extensions, and the encoder. -/
def beginNextAssertion (w : Writer) : Device (ℕ × Extensions × Writer) := do
  let popped ← popCredential
  match popped with
  | none => fail ctap2ErrNotAllowed
  | some i => do
      let count ← authDataUpdateCount env
      let a ← Proc.get
      let cred := a.gas.creds.getD i default
      updateAuthData fun h =>
        { h with
          signCount := count
          rpIdHash := Buf.ofList 32 (CredentialId.rpIdHash cred.credential.id) }
      let w ← encode w (env.writer.emit
        (.createMap (if cred.credential.user.idSize ≠ 0 then 4 else 3)))
      (if a.gas.userVerified = 0 then modifyCred i .clearName else pure () : Device Unit)
      pure (i, a.gas.extensions, w)

/-- The authenticator data behind the call, and its size. -/
def extendNextAssertion (ext : Extensions) : Device ℕ := do
  let (ret, size) ← makeAssertionExtensions env ext
  (if ret = 0 then
    updateAuthData fun h =>
      { h with flags := if size ≠ 0 then h.flags ||| 0x80 else h.flags &&& 0x7f }
    else pure () : Device Unit)
  pure (37 + size)

theorem answered_ctapGetNextAssertion (w : Writer) (h : Answers) :
    CtapM.answered h (ctapGetNextAssertion env w) =
      beginNextAssertion env w >>= fun (i, ext, w) => extendNextAssertion env ext >>= fun size =>
        Proc.get >>= fun a =>
          CtapM.answered h (ctapEndGetAssertion env w (a.gas.creds.getD i default) size
            a.gas.clientDataHash) >>= fun w => encode w (env.writer.emit .closeContainer) := by
  unfold ctapGetNextAssertion beginNextAssertion extendNextAssertion
  simp only [CtapM.answered, Routine.answered_bind, Routine.answered_liftM, bind_assoc]
  refine bind_congr fun popped => ?_
  rcases popped with _ | i
  · rfl
  · simp only [Routine.answered_bind, Routine.answered_liftM, bind_assoc, pure_bind]

/-- The assertion state when the next entry has been taken. -/
def GetAssertionState.next (g : GetAssertionState) (count : UInt32) : GetAssertionState :=
  let cred := g.creds.getD g.index default
  { g with
    index := g.index + 1
    authData := { g.authData with
      signCount := count, rpIdHash := Buf.ofList 32 (CredentialId.rpIdHash cred.credential.id) }
    creds := if g.userVerified = 0 then g.creds.set g.index cred.clearName else g.creds }

theorem popCredential_ok {i : Option ℕ} {a t : Authenticator} (hrun : popCredential a = (.ok i, t)) :
    (i = none ∧ a.gas.count ≤ a.gas.index ∧ t = a) ∨
      (i = some a.gas.index ∧ a.gas.index < a.gas.count ∧
        t = { a with gas := { a.gas with index := a.gas.index + 1 } }) := by
  unfold popCredential at hrun
  rw [get_bind] at hrun
  split at hrun
  · obtain ⟨_, b, hindex, hb⟩ := bind_ok.mp hrun
    rw [modifyGas, modify_ok] at hindex
    obtain ⟨rfl, rfl⟩ := pure_ok.mp hb
    exact .inr ⟨rfl, (‹_› : _ ∧ _).2, hindex.symm⟩
  · obtain ⟨rfl, rfl⟩ := pure_ok.mp hrun
    exact .inl ⟨rfl, by omega, rfl⟩

theorem beginNextAssertion_ok {w w' : Writer} {i : ℕ} {ext : Extensions} {a t : Authenticator}
    (hrun : beginNextAssertion env w a = (.ok (i, ext, w'), t)) :
    i = a.gas.index ∧ a.gas.index < a.gas.count ∧ ext = a.gas.extensions ∧
      w' = { w with ops := w.ops ++ [.createMap
        (if (a.gas.creds.getD i default).credential.user.idSize ≠ 0 then 4 else 3)] } ∧
      ∃ count, Counted { a with gas := a.gas.next count } t := by
  unfold beginNextAssertion at hrun
  obtain ⟨popped, a₁, hpop, hrest⟩ := bind_ok.mp hrun
  rcases popCredential_ok hpop with ⟨rfl, -, rfl⟩ | ⟨rfl, hlt, rfl⟩
  · exact nomatch (Prod.mk.inj hrest).1
  · obtain ⟨count, a₂, hcount, hrun⟩ := bind_ok.mp hrest
    obtain ⟨counter, sc, pos, rfl⟩ :=
      (inferInstance : Keeps Counted (authDataUpdateCount env)).apply hcount
    rw [get_bind] at hrun
    obtain ⟨_, a₃, hupdate, hrun⟩ := bind_ok.mp hrun
    obtain ⟨w₁, a₄, henc, hrun⟩ := bind_ok.mp hrun
    obtain ⟨rfl, rfl⟩ := (emits_emit _).encode henc
    obtain ⟨_, a₅, hclear, hrun⟩ := bind_ok.mp hrun
    obtain ⟨heq, rfl⟩ := pure_ok.mp hrun
    simp only [Prod.mk.injEq] at heq
    obtain ⟨rfl, rfl, rfl⟩ := heq
    rw [updateAuthData, modifyGas, modify_ok] at hupdate
    subst hupdate
    refine ⟨rfl, hlt, rfl, rfl, count, counter, sc, pos, ?_⟩
    by_cases huv : a.gas.userVerified = 0
    · rw [if_pos huv, modifyCred, modifyGas, modify_ok] at hclear
      subst hclear
      simp only [GetAssertionState.next, if_pos huv]
    · rw [if_neg huv] at hclear
      obtain ⟨-, rfl⟩ := pure_ok.mp hclear
      simp only [GetAssertionState.next, if_neg huv]

/-- The flags of the authenticator data behind its extensions; an error of
`ctap_make_extensions` leaves them as they are. -/
def nextFlags (flags ret : UInt8) (size : ℕ) : UInt8 :=
  if ret = 0 then (if size ≠ 0 then flags ||| 0x80 else flags &&& 0x7f) else flags

/-- The assertion state behind its extensions. -/
def GetAssertionState.extended (g : GetAssertionState) (ret : UInt8) (b : ExtBuf 80) :
    GetAssertionState :=
  { g with
    authData := { g.authData with flags := nextFlags g.authData.flags ret b.size }
    bufExtensions := b.buf }

/-- What `ctap_make_extensions` returned for an assertion and left in the
buffer. -/
def ExtensionsMade (a : Authenticator) (ext : Extensions) (ret : UInt8) (b : ExtBuf 80) : Prop :=
  (ret = 0 ∧ ctapMakeExtensions env a ext ⟨a.gas.bufExtensions, 80⟩ = (.ok (), b)) ∨
    (ret ≠ 0 ∧ ctapMakeExtensions env a ext ⟨a.gas.bufExtensions, 80⟩ = (.error (.status ret), b))

theorem extendNextAssertion_ok {ext : Extensions} {size : ℕ} {a t : Authenticator}
    (hrun : extendNextAssertion env ext a = (.ok size, t)) :
    ∃ ret b, ExtensionsMade env a ext ret b ∧ size = 37 + b.size ∧ t.gas = a.gas.extended ret b := by
  unfold extendNextAssertion at hrun
  obtain ⟨⟨ret, n⟩, a₁, hmake, hrest⟩ := bind_ok.mp hrun
  obtain ⟨b, rfl, rfl, hmade⟩ := makeAssertionExtensions_ok env hmake
  obtain ⟨_, a₂, hflags, hret⟩ := bind_ok.mp hrest
  obtain ⟨rfl, rfl⟩ := pure_ok.mp hret
  refine ⟨ret, b, hmade, rfl, ?_⟩
  by_cases hzero : ret = 0
  · rw [if_pos hzero, updateAuthData, modifyGas, modify_ok] at hflags
    subst hflags
    simp only [GetAssertionState.extended, nextFlags, if_pos hzero, Authenticator.withExtensions]
  · rw [if_neg hzero] at hflags
    obtain ⟨-, rfl⟩ := pure_ok.mp hflags
    simp only [GetAssertionState.extended, nextFlags, if_neg hzero, Authenticator.withExtensions]

/-- A getNextAssertion that succeeds: the entry it takes, the call of
`ctap_make_extensions` in a state `s`, and the answer. -/
structure NextAssertion (w : Writer) (a : Authenticator) (x : AssertionAnswer) (s : Authenticator)
    (ret : UInt8) (b : ExtBuf 80) : Prop where
  left : a.gas.index < a.gas.count
  began : ∃ w₁, beginNextAssertion env w a = (.ok (a.gas.index, a.gas.extensions, w₁), s)
  state : ∃ count, Counted { a with gas := a.gas.next count } s
  made : ExtensionsMade env s a.gas.extensions ret b
  pairs : x.pairs =
    if (a.gas.creds.getD a.gas.index default).credential.user.idSize ≠ 0 then 4 else 3
  credentialId : x.credentialId = a.gas.returnedId (s.gas.creds.getD a.gas.index default)
  authData : x.authData = (s.gas.extended ret b).authBytes (37 + b.size)
  user : x.user = returnedUser (s.gas.creds.getD a.gas.index default).credential.user
    (a.gas.userVerified ≠ 0)
  total : x.total = []

theorem NextAssertion.gas {w : Writer} {a : Authenticator} {x : AssertionAnswer} {s : Authenticator}
    {ret : UInt8} {b : ExtBuf 80} (h : NextAssertion env w a x s ret b) :
    ∃ count, s.gas = a.gas.next count := by
  obtain ⟨count, hstate⟩ := h.state
  exact ⟨count, hstate.gas⟩

theorem ctapGetNextAssertion_ok {w w' : Writer} {h : Answers} {a t : Authenticator}
    (hrun : CtapM.answered h (ctapGetNextAssertion env w) a = (.ok w', t)) :
    ∃ x s ret b, NextAssertion env w a x s ret b ∧ w' = { w with ops := w.ops ++ x.items } ∧
      ∃ e : Authenticator, e.gas = s.gas.extended ret b ∧ Changed signingMayChange e t := by
  rw [answered_ctapGetNextAssertion] at hrun
  obtain ⟨⟨i, ext, w₁⟩, s, hbegin, hrest⟩ := bind_ok.mp hrun
  obtain ⟨rfl, hlt, rfl, rfl, count, hstate⟩ := beginNextAssertion_ok env hbegin
  have hgas := hstate.gas
  obtain ⟨size, e, hextend, hrest⟩ := bind_ok.mp hrest
  obtain ⟨ret, b, hmade, rfl, he⟩ := extendNextAssertion_ok env hextend
  rw [get_bind] at hrest
  obtain ⟨w₂, u, hend, hclose⟩ := bind_ok.mp hrest
  obtain ⟨x, rfl, hid, hdata, huser⟩ := ctapEndGetAssertion_ok env hend
  obtain ⟨rfl, rfl⟩ := (emits_emit _).encode hclose
  have hcustom : e.gas.custom = a.gas.custom := by rw [he, GetAssertionState.extended, hgas]; rfl
  have huv : e.gas.userVerified = a.gas.userVerified := by
    rw [he, GetAssertionState.extended, hgas]; rfl
  have hcreds : e.gas.creds = s.gas.creds := by rw [he]; rfl
  refine ⟨⟨if (a.gas.creds.getD a.gas.index default).credential.user.idSize ≠ 0 then 4 else 3,
    x.credentialId, x.authData, x.signature, x.user, []⟩, s, ret, b,
    ⟨hlt, ⟨_, hbegin⟩, ⟨count, hstate⟩, hmade, rfl, ?_, ?_, ?_, rfl⟩, ?_, e, he, ?_⟩
  · rw [hid, hcreds]
    unfold GetAssertionState.returnedId
    rw [hcustom]
  · rw [hdata, he]
  · rw [huser, huv, hcreds]
  · simp only [AssertionAnswer.items, AssertionAnswer.common, List.append_assoc,
      List.cons_append, List.nil_append, List.append_nil]
  · exact ((inferInstance : Routine.Keeps (Changed signingMayChange) _).answered h.answer).apply hend

/-! ### The list of a getAssertion -/

/-- The parameters of a getAssertion, as they are parsed. -/
def requestedAssertion (a : Authenticator) (request : List UInt8) : GetAssertion :=
  (ctapParseGetAssertion env request ⟨default, a.gas.creds, a.gas.custom⟩).2.ga

/-- The state in which the list of a getAssertion is filtered: parsed, and the
user looked at. -/
structure Parsed (a : Authenticator) (request : List UInt8) (v : Authenticator) : Prop where
  gas : v.gas = { a.gas with
    creds := (ctapParseGetAssertion env request ⟨default, a.gas.creds, a.gas.custom⟩).2.creds
    custom := (ctapParseGetAssertion env request ⟨default, a.gas.creds, a.gas.custom⟩).2.custom
    userVerified := if (requestedAssertion env a request).pinAuthPresent ≠ 0 then 1 else 0 }
  secrets : v.secrets = a.secrets
  rks : v.rks = a.rks
  state : v.state = a.state

theorem parseGetAssertion_ok {request : List UInt8} {ga : GetAssertion} {a t : Authenticator}
    (hrun : parseGetAssertion env request a = (.ok ga, t)) :
    ga = requestedAssertion env a request ∧ t = { a with gas := { a.gas with
      creds := (ctapParseGetAssertion env request ⟨default, a.gas.creds, a.gas.custom⟩).2.creds
      custom := (ctapParseGetAssertion env request ⟨default, a.gas.creds, a.gas.custom⟩).2.custom } } := by
  unfold parseGetAssertion at hrun
  rw [get_bind] at hrun
  dsimp only at hrun
  obtain ⟨_, b, hgas, hret⟩ := bind_ok.mp hrun
  rw [modifyGas, modify_ok] at hgas
  rw [ofStatus, ofExcept_ok] at hret
  obtain ⟨hret, rfl⟩ := hret
  refine ⟨?_, hgas.symm⟩
  unfold requestedAssertion
  rcases hm : (ctapParseGetAssertion env request ⟨default, a.gas.creds, a.gas.custom⟩).1 with
    c | u <;> rw [hm] at hret
  · dsimp only at hret
    split at hret
    · exact (Except.ok.inj hret).symm
    · exact nomatch hret
  · exact (Except.ok.inj hret).symm

theorem verifyPinAuth_ok {pinAuth : Buf 16} {hash : Buf clientDataHashSize} {u : Unit}
    {a t : Authenticator} (hrun : verifyPinAuth env pinAuth hash a = (.ok u, t)) :
    t = { a with trace := a.trace ++ [.pinAuthVerified] } := by
  unfold verifyPinAuth at hrun
  rw [get_bind] at hrun
  obtain ⟨_, b, hcheck, hnote⟩ := bind_ok.mp hrun
  rw [failIf, stopIf_ok] at hcheck
  rw [note, modify_ok] at hnote
  rw [← hnote, hcheck.2]

theorem verifyUser_ok {ga : GetAssertion} {u : Unit} {a t : Authenticator}
    (hrun : verifyUser env ga a = (.ok u, t)) :
    t.gas = { a.gas with userVerified := if ga.pinAuthPresent ≠ 0 then 1 else 0 } ∧
      t.secrets = a.secrets ∧ t.rks = a.rks ∧ t.state = a.state := by
  unfold verifyUser at hrun
  split at hrun
  · obtain ⟨_, b, hverify, hset⟩ := bind_ok.mp hrun
    obtain rfl := verifyPinAuth_ok env hverify
    rw [modifyGas, modify_ok] at hset
    subst hset
    exact ⟨by rw [if_pos ‹_›], rfl, rfl, rfl⟩
  · rw [modifyGas, modify_ok] at hrun
    subst hrun
    exact ⟨by rw [if_neg ‹_›], rfl, rfl, rfl⟩

theorem emptyPinAuth_not_ok (h : Answers) (a t : Authenticator) :
    CtapM.answered h emptyPinAuth a ≠ (.ok (), t) := by
  intro hrun
  unfold emptyPinAuth at hrun
  simp only [CtapM.answered, Routine.answered_bind, Routine.answered_liftM] at hrun
  obtain ⟨_, _, _, hrest⟩ := bind_ok.mp hrun
  obtain ⟨_, _, _, hrest⟩ := bind_ok.mp hrest
  rw [get_bind] at hrest
  exact nomatch (Prod.mk.inj hrest).1

theorem filterCredentials_ok {ga ga' : GetAssertion} {n : ℕ} {a t : Authenticator}
    (hrun : filterCredentials env ga a = (.ok (n, ga'), t)) :
    n ≠ 0 ∧ n = (ctapFilterInvalidCredentials env a ga).1 ∧
      ga' = { ga with credLen := (ctapFilterInvalidCredentials env a ga).2.1 } ∧
      t.gas = { a.gas with creds := (ctapFilterInvalidCredentials env a ga).2.2 } ∧
      t.secrets = a.secrets ∧ t.rks = a.rks ∧ t.state = a.state := by
  unfold filterCredentials at hrun
  rw [get_bind] at hrun
  dsimp only at hrun
  obtain ⟨_, b, hnote, hrest⟩ := bind_ok.mp hrun
  obtain ⟨_, c, hset, hrest⟩ := bind_ok.mp hrest
  obtain ⟨_, d, hzero, hret⟩ := bind_ok.mp hrest
  rw [note, modify_ok] at hnote
  rw [modifyGas, modify_ok] at hset
  rw [failIf, stopIf_ok] at hzero
  obtain ⟨heq, rfl⟩ := pure_ok.mp hret
  obtain ⟨rfl, rfl⟩ := Prod.mk.inj heq
  obtain ⟨hne, rfl⟩ := hzero
  subst hset hnote
  exact ⟨hne, rfl, rfl, rfl, rfl, rfl, rfl⟩

/-- The checks of a getAssertion, and the list they leave. -/
structure SelectedCredentials (a : Authenticator) (request : List UInt8) (n : ℕ)
    (ga : GetAssertion) (v t : Authenticator) : Prop where
  parsed : Parsed env a request v
  found : n ≠ 0
  count : n = (ctapFilterInvalidCredentials env v (requestedAssertion env a request)).1
  asked : ga = { requestedAssertion env a request with
    credLen := (ctapFilterInvalidCredentials env v (requestedAssertion env a request)).2.1 }
  gas : t.gas = { v.gas with
    creds := (ctapFilterInvalidCredentials env v (requestedAssertion env a request)).2.2 }
  secrets : t.secrets = a.secrets
  rks : t.rks = a.rks
  state : t.state = a.state

theorem selectCredentials_ok {request : List UInt8} {n : ℕ} {ga : GetAssertion} {h : Answers}
    {a t : Authenticator}
    (hrun : CtapM.answered h (selectCredentials env request) a = (.ok (n, ga), t)) :
    ∃ v, SelectedCredentials env a request n ga v t := by
  unfold selectCredentials at hrun
  simp only [CtapM.answered, Routine.answered_bind, Routine.answered_liftM] at hrun
  obtain ⟨ga₁, a₁, hparse, hrest⟩ := bind_ok.mp hrun
  obtain ⟨rfl, rfl⟩ := parseGetAssertion_ok env hparse
  obtain ⟨_, a₂, hempty, hrest⟩ := bind_ok.mp hrest
  obtain ⟨_, v, hverify, hrest⟩ := bind_ok.mp hrest
  obtain ⟨_, a₃, hmissing, hfilter⟩ := bind_ok.mp hrest
  rw [failIf, stopIf_ok] at hmissing
  obtain ⟨-, rfl⟩ := hmissing
  rw [Routine.answered_ite] at hempty
  split at hempty
  · exact absurd hempty (emptyPinAuth_not_ok h _ _)
  · obtain ⟨-, rfl⟩ := pure_ok.mp hempty
    obtain ⟨hgas, hsecrets, hrks, hstate⟩ := verifyUser_ok env hverify
    obtain ⟨hne, hn, hga, htgas, htsecrets, htrks, htstate⟩ := filterCredentials_ok env hfilter
    exact ⟨v, ⟨hgas, hsecrets, hrks, hstate⟩, hne, hn, hga, htgas, htsecrets.trans hsecrets,
      htrks.trans hrks, htstate.trans hstate⟩

/-! ### getAssertion -/

/-- The request with `hmac_secret.credential` set to the first entry. -/
def GetAssertion.withFirstCred (ga : GetAssertion) : GetAssertion :=
  { ga with extensions :=
    { ga.extensions with hmacSecret := { ga.extensions.hmacSecret with credential := .firstCred } } }

/-- `ctap_get_assertion` up to the authenticator data: the number of entries,
the request, the first entry before its name was cleared, and the encoder. -/
def beginAssertion (w : Writer) (request : List UInt8) :
    CtapM (ℕ × GetAssertion × Credential × Writer) := do
  let (validCredCount, ga) ← selectCredentials env request
  let a ← (Proc.get : Device Authenticator)
  let last := a.gas.creds.getD (validCredCount - 1) default
  let w ← encode w (env.writer.emit (.createMap (3 + (if validCredCount > 1 then 1 else 0) +
    (if last.credential.user.idSize ≠ 0 then 1 else 0))))
  (if validCredCount < 2 ∨ a.gas.userVerified = 0 then modifyCred 0 .clearName
    else pure () : Device Unit)
  pure (validCredCount, ga.withFirstCred, (a.gas.creds.getD 0 default).credential, w)

/-- The authenticator data of an ordinary assertion, up to the call of
`ctap_make_extensions`. -/
def assertionHeader (ga : GetAssertion) : CtapM Unit := do
  deviceDisableUp (ga.up = 0)
  let ret ← attempt (ctapMakeAuthDataHeader env updateAuthData ga.rp)
  deviceDisableUp false
  let _ ← ofStatus ret
  note (.flagsWritten false)
  let a ← (Proc.get : Device Authenticator)
  updateAuthData fun h => { h with flags := h.flags &&& 0xfb }
  updateAuthData fun h => { h with flags := h.flags ||| (a.gas.userVerified <<< 2) }

/-- The authenticator data behind the call, and its size. -/
def extendAssertion (ext : Extensions) : Device ℕ := do
  let (ret, size) ← makeAssertionExtensions env ext
  checkRetr ret
  (if size ≠ 0 then updateAuthData fun h => { h with flags := h.flags ||| 0x80 }
    else pure () : Device Unit)
  pure (37 + size)

/-- `ctap_get_assertion` behind the authenticator data. -/
def finishAssertion (n : ℕ) (ga : GetAssertion) (w : Writer) (size : ℕ) : CtapM Writer := do
  let a ← (Proc.get : Device Authenticator)
  let w ← ctapEndGetAssertion env w (a.gas.creds.getD 0 default) size ga.clientDataHash
  let w ← encode w (do
    env.writer.emitAll (if n > 1 then [.int 5, .int n] else [])
    env.writer.emit .closeContainer)
  saveCredentialList ga.clientDataHash (n - 1) ga.extensions
  pure w

theorem answered_assertionAuthData (ga : GetAssertion) (h : Answers) :
    CtapM.answered h (assertionAuthData env ga) =
      CtapM.answered h (assertionHeader env ga) >>= fun _ => extendAssertion env ga.extensions := by
  unfold assertionAuthData assertionHeader extendAssertion
  simp only [CtapM.answered, Routine.answered_bind, Routine.answered_liftM, Routine.answered_pure,
    bind_assoc]

theorem answered_ctapGetAssertion (w : Writer) (request : List UInt8) (h : Answers) :
    CtapM.answered h (ctapGetAssertion env w request) =
      CtapM.answered h (beginAssertion env w request) >>= fun (n, ga, cred, w) =>
        (if isExtensionRequest cred.id.bytes credentialIdSize then extensionAuthData env ga.rp
          else CtapM.answered h (assertionAuthData env ga)) >>= fun size =>
          CtapM.answered h (finishAssertion env n ga w size) := by
  unfold ctapGetAssertion beginAssertion finishAssertion
  simp only [CtapM.answered, Routine.answered_bind, Routine.answered_liftM, Routine.answered_pure,
    bind_assoc, pure_bind, Routine.answered_ite, GetAssertion.withFirstCred]

/-- The assertion state when the name of the first entry has been cleared,
where it is not to be shown. -/
def GetAssertionState.firstCleared (g : GetAssertionState) (n : ℕ) : GetAssertionState :=
  if n < 2 ∨ g.userVerified = 0 then
    { g with creds := g.creds.set 0 (g.creds.getD 0 default).clearName }
  else g

theorem beginAssertion_ok {w w' : Writer} {request : List UInt8} {n : ℕ} {ga : GetAssertion}
    {cred : Credential} {h : Answers} {a t : Authenticator}
    (hrun : CtapM.answered h (beginAssertion env w request) a = (.ok (n, ga, cred, w'), t)) :
    ∃ ga₀ v s, SelectedCredentials env a request n ga₀ v s ∧ ga = ga₀.withFirstCred ∧
      cred = (s.gas.creds.getD 0 default).credential ∧
      w' = { w with ops := w.ops ++ [.createMap (3 + (if n > 1 then 1 else 0) +
        (if (s.gas.creds.getD (n - 1) default).credential.user.idSize ≠ 0 then 1 else 0))] } ∧
      t = { s with gas := s.gas.firstCleared n } := by
  unfold beginAssertion at hrun
  simp only [CtapM.answered, Routine.answered_bind, Routine.answered_liftM] at hrun
  obtain ⟨⟨n, ga₀⟩, s, hselect, hrest⟩ := bind_ok.mp hrun
  obtain ⟨v, hv⟩ := selectCredentials_ok env hselect
  rw [get_bind] at hrest
  obtain ⟨w₁, s₁, henc, hrest⟩ := bind_ok.mp hrest
  obtain ⟨rfl, rfl⟩ := (emits_emit _).encode henc
  obtain ⟨_, s₂, hclear, hrest⟩ := bind_ok.mp hrest
  obtain ⟨heq, rfl⟩ := pure_ok.mp hrest
  simp only [Prod.mk.injEq] at heq
  obtain ⟨rfl, rfl, rfl, rfl⟩ := heq
  refine ⟨ga₀, v, s, hv, rfl, rfl, rfl, ?_⟩
  split at hclear
  · rw [modifyCred, modifyGas, modify_ok] at hclear
    rw [GetAssertionState.firstCleared, if_pos ‹_›, ← hclear]
  · obtain ⟨-, rfl⟩ := pure_ok.mp hclear
    rw [GetAssertionState.firstCleared, if_neg ‹_›]

/-! The header, as it is made in the assertion state. -/

theorem updateAuthData_ok {f : AuthDataHeader → AuthDataHeader} {u : Unit} {a t : Authenticator} :
    updateAuthData f a = (.ok u, t) ↔
      { a with gas := { a.gas with authData := f a.gas.authData } } = t := by
  rw [updateAuthData, modifyGas, modify_ok]

/-- The user presence flag that the result of a presence test gives. -/
def presenceFlag (a : Authenticator) (h : Answers) : UInt8 :=
  if presenceStatus (a.presence h) = ctap2ErrProcessing then 0 else 1

theorem presence_flags {but flags : UInt8} {a t : Authenticator}
    (hrun : (if but = ctap2ErrProcessing then pure 0
      else do
        checkRetr but
        pure (1 : UInt8) : Device UInt8) a = (.ok flags, t)) :
    flags = (if but = ctap2ErrProcessing then 0 else 1) ∧ t = a := by
  split at hrun
  · obtain ⟨rfl, rfl⟩ := pure_ok.mp hrun
    exact ⟨(if_pos ‹_›).symm, rfl⟩
  · obtain ⟨_, b, hcheck, hret⟩ := bind_ok.mp hrun
    rw [checkRetr, failIf, stopIf_ok] at hcheck
    obtain ⟨rfl, rfl⟩ := pure_ok.mp hret
    exact ⟨(if_neg ‹_›).symm, hcheck.2.symm⟩

theorem waited_gas (a : Authenticator) (h : Answers) : (a.waited h).gas = a.gas := by
  unfold Authenticator.waited
  split_ifs <;> rfl

theorem ctapMakeAuthDataHeader_ok {rp : RpId} {hd : AuthDataHeader} {h : Answers}
    {a t : Authenticator}
    (hrun : CtapM.answered h (ctapMakeAuthDataHeader env updateAuthData rp) a = (.ok hd, t)) :
    ∃ count pin, (pin = 0 ∨ pin = 4) ∧ t.gas = { a.gas with
      authData := ⟨env.sha256 rp.bytes, presenceFlag a h ||| pin, count⟩ } := by
  unfold ctapMakeAuthDataHeader at hrun
  simp only [CtapM.answered, Routine.answered_bind, Routine.answered_liftM,
    answered_deviceSetStatus] at hrun
  obtain ⟨_, a₁, hhash, hrest⟩ := bind_ok.mp hrun
  obtain ⟨count, a₂, hcount, hrest⟩ := bind_ok.mp hrest
  obtain ⟨_, a₃, hset, hrest⟩ := bind_ok.mp hrest
  obtain ⟨but, a₄, hbut, hrest⟩ := bind_ok.mp hrest
  obtain ⟨flags, a₅, hflags, hrest⟩ := bind_ok.mp hrest
  obtain ⟨_, a₆, hup, hrest⟩ := bind_ok.mp hrest
  rw [pure_bind, get_bind] at hrest
  obtain ⟨_, a₇, hpin, hrest⟩ := bind_ok.mp hrest
  obtain ⟨-, rfl⟩ := pure_ok.mp hrest
  have htest := (answered_requestTest h a₃).symm.trans hbut
  rw [Prod.mk.injEq, Except.ok.injEq] at htest
  obtain ⟨rfl, rfl⟩ := htest
  obtain ⟨rfl, rfl⟩ := presence_flags hflags
  obtain ⟨counter, sc, pos, rfl⟩ :=
    (inferInstance : Keeps Counted (authDataUpdateCount env)).apply hcount
  rw [updateAuthData_ok] at hhash hset hup hpin
  have hpresence : a₃.presence h = a.presence h := by
    rw [← hset, ← hhash]
    rfl
  have hgas : (a₃.waited h).gas = { a.gas with
      authData := ⟨env.sha256 rp.bytes, a.gas.authData.flags, count⟩ } := by
    rw [waited_gas, ← hset, ← hhash]
  refine ⟨count, if ctapIsPinSet a₆ then 4 else 0, by split <;> simp, ?_⟩
  rw [← hpin, ← hup, hgas, hpresence]
  rfl

/-- The device with the presence test disabled or not. -/
def Authenticator.withUpDisabled (a : Authenticator) (disable : Bool) : Authenticator :=
  { a with upDisabled := disable }

/-- The flags of an assertion: presence as tested, verification as recorded. -/
def assertionFlags (a : Authenticator) (ga : GetAssertion) (h : Answers) : UInt8 :=
  presenceFlag (a.withUpDisabled (ga.up = 0)) h ||| (a.gas.userVerified <<< 2)

theorem masked_presenceFlag (a : Authenticator) (h : Answers) {pin : UInt8}
    (hpin : pin = 0 ∨ pin = 4) : (presenceFlag a h ||| pin) &&& 0xfb = presenceFlag a h := by
  unfold presenceFlag
  rcases hpin with rfl | rfl <;> split <;> decide

theorem assertionHeader_ok {ga : GetAssertion} {h : Answers} {u : Unit} {a t : Authenticator}
    (hrun : CtapM.answered h (assertionHeader env ga) a = (.ok u, t)) :
    ∃ count, t.gas = { a.gas with
      authData := ⟨env.sha256 ga.rp.bytes, assertionFlags a ga h, count⟩ } := by
  unfold assertionHeader at hrun
  simp only [CtapM.answered, Routine.answered_bind, Routine.answered_liftM, answered_attempt] at hrun
  obtain ⟨_, a₁, hdisable, hrest⟩ := bind_ok.mp hrun
  obtain ⟨ret, a₂, hattempt, hrest⟩ := bind_ok.mp hrest
  obtain ⟨_, a₃, henable, hrest⟩ := bind_ok.mp hrest
  obtain ⟨hd, a₄, hret, hrest⟩ := bind_ok.mp hrest
  obtain ⟨_, a₅, hnote, hrest⟩ := bind_ok.mp hrest
  rw [get_bind] at hrest
  obtain ⟨_, a₆, hmask, hflags⟩ := bind_ok.mp hrest
  rw [deviceDisableUp, modify_ok] at hdisable henable
  rw [ofStatus, ofExcept_ok] at hret
  rw [note, modify_ok] at hnote
  rw [updateAuthData_ok] at hmask hflags
  obtain ⟨hret, rfl⟩ := hret
  rw [Device.attempt_apply] at hattempt
  rcases hhead : (Routine.answered h.answer
    (ctapMakeAuthDataHeader env updateAuthData ga.rp)).run a₁ with ⟨(c | _) | hd', b⟩ <;>
    rw [hhead] at hattempt <;> simp only [Prod.mk.injEq, Except.ok.injEq, reduceCtorEq, false_and] at hattempt
  · obtain ⟨rfl, -⟩ := hattempt
    exact nomatch hret
  · obtain ⟨rfl, rfl⟩ := hattempt
    obtain ⟨count, pin, hpin, hgas⟩ := ctapMakeAuthDataHeader_ok env hhead
    refine ⟨count, ?_⟩
    rw [← hflags, ← hmask, ← hnote, ← henable]
    dsimp only
    rw [hgas]
    dsimp only
    rw [masked_presenceFlag a₁ h hpin, ← hdisable]
    rfl

theorem extendAssertion_ok {ext : Extensions} {size : ℕ} {a t : Authenticator}
    (hrun : extendAssertion env ext a = (.ok size, t)) :
    ∃ b : ExtBuf 80, ctapMakeExtensions env a ext ⟨a.gas.bufExtensions, 80⟩ = (.ok (), b) ∧
      size = 37 + b.size ∧ t.gas = { a.gas with
        authData := { a.gas.authData with
          flags := if b.size ≠ 0 then a.gas.authData.flags ||| 0x80 else a.gas.authData.flags }
        bufExtensions := b.buf } := by
  unfold extendAssertion at hrun
  obtain ⟨⟨ret, n⟩, a₁, hmake, hrest⟩ := bind_ok.mp hrun
  obtain ⟨b, rfl, rfl, hmade⟩ := makeAssertionExtensions_ok env hmake
  obtain ⟨_, a₂, hcheck, hrest⟩ := bind_ok.mp hrest
  rw [checkRetr, failIf, stopIf_ok] at hcheck
  obtain ⟨hzero, rfl⟩ := hcheck
  obtain ⟨_, a₃, hflags, hret⟩ := bind_ok.mp hrest
  obtain ⟨rfl, rfl⟩ := pure_ok.mp hret
  refine ⟨b, hmade.elim (·.2) fun h => absurd h.1 hzero, rfl, ?_⟩
  by_cases hsize : b.size ≠ 0
  · rw [if_pos hsize, updateAuthData_ok] at hflags
    rw [← hflags, if_pos hsize]
    rfl
  · rw [if_neg hsize] at hflags
    obtain ⟨-, rfl⟩ := pure_ok.mp hflags
    rw [if_neg hsize]
    rfl

theorem extensionAuthData_ok {rp : RpId} {size : ℕ} {a t : Authenticator}
    (hrun : extensionAuthData env rp a = (.ok size, t)) :
    size = 37 ∧ t.gas = { a.gas with authData := { a.gas.authData with
      rpIdHash := env.sha256 rp.bytes, flags := 5 } } := by
  unfold extensionAuthData at hrun
  obtain ⟨_, a₁, hhash, hrest⟩ := bind_ok.mp hrun
  obtain ⟨_, a₂, hup, hrest⟩ := bind_ok.mp hrest
  obtain ⟨_, a₃, huv, hrest⟩ := bind_ok.mp hrest
  obtain ⟨_, a₄, hnote, hret⟩ := bind_ok.mp hrest
  rw [updateAuthData_ok] at hhash hup huv
  rw [note, modify_ok] at hnote
  obtain ⟨rfl, rfl⟩ := pure_ok.mp hret
  subst hhash hup huv hnote
  have hflags : (5 : UInt8) = 1 ||| 4 := by decide
  exact ⟨rfl, by rw [hflags]⟩

/-- The assertion state behind `save_credential_list`. -/
def GetAssertionState.saved (g : GetAssertionState) (hash : Buf clientDataHashSize) (count : ℕ)
    (ext : Extensions) : GetAssertionState :=
  if count = 0 then { g with count := 0, index := 0 }
  else { g with
    clientDataHash := hash
    creds := (g.creds.drop 1).take count ++ g.creds.drop count
    extensions := ext
    count := count
    index := 0 }

theorem saveCredentialList_ok {hash : Buf clientDataHashSize} {count : ℕ} {ext : Extensions}
    {u : Unit} {a t : Authenticator}
    (hrun : saveCredentialList hash count ext a = (.ok u, t)) :
    count ≤ allowListMaxSize - 1 ∧ t = { a with gas := a.gas.saved hash count ext } := by
  unfold saveCredentialList at hrun
  obtain ⟨_, b, hfew, hsave⟩ := bind_ok.mp hrun
  rw [failIf, stopIf_ok] at hfew
  rw [modifyGas, modify_ok] at hsave
  obtain ⟨hfew, rfl⟩ := hfew
  exact ⟨not_lt.mp hfew, hsave.symm⟩

theorem finishAssertion_ok {n size : ℕ} {ga : GetAssertion} {w w' : Writer} {h : Answers}
    {a t : Authenticator}
    (hrun : CtapM.answered h (finishAssertion env n ga w size) a = (.ok w', t)) :
    n - 1 ≤ allowListMaxSize - 1 ∧ ∃ x : AssertionAnswer,
      w' = { w with ops := w.ops ++ (x.common ++ x.total ++ [.closeContainer]) } ∧
      x.credentialId = a.gas.returnedId (a.gas.creds.getD 0 default) ∧
      x.authData = a.gas.authBytes size ∧
      x.user = returnedUser (a.gas.creds.getD 0 default).credential.user (a.gas.userVerified ≠ 0) ∧
      x.total = (if n > 1 then [.int 5, .int n] else []) ∧
      ∃ e : Authenticator, Changed signingMayChange a e ∧
        t = { e with gas := e.gas.saved ga.clientDataHash (n - 1) ga.extensions } := by
  unfold finishAssertion at hrun
  simp only [CtapM.answered, Routine.answered_bind, Routine.answered_liftM, get_bind] at hrun
  obtain ⟨w₁, a₁, hend, hrest⟩ := bind_ok.mp hrun
  obtain ⟨x, rfl, hid, hdata, huser⟩ := ctapEndGetAssertion_ok env hend
  obtain ⟨w₂, a₂, hclose, hrest⟩ := bind_ok.mp hrest
  obtain ⟨rfl, rfl⟩ := ((emits_emitAll _).seq fun _ => emits_emit _).encode hclose
  obtain ⟨_, a₃, hsave, hret⟩ := bind_ok.mp hrest
  obtain ⟨hfew, rfl⟩ := saveCredentialList_ok hsave
  obtain ⟨rfl, rfl⟩ := pure_ok.mp hret
  have hchanged := ((inferInstance : Routine.Keeps (Changed signingMayChange) _).answered
    h.answer).apply hend
  refine ⟨hfew, { x with total := if n > 1 then [.int 5, .int n] else [] }, ?_, hid, hdata, huser,
    rfl, a₁, hchanged, rfl⟩
  simp only [AssertionAnswer.common, List.append_assoc]

/-- The authenticator data of a getAssertion in a state `b`, where the list is
there and nothing of the data is: an extension request or a call of
`ctap_make_extensions` in a state `s`. -/
inductive AssertionData (ga : GetAssertion) (cred : Credential) (h : Answers) (b : Authenticator) :
    ℕ → Authenticator → Prop
  | extension {t : Authenticator} (hext : isExtensionRequest cred.id.bytes credentialIdSize = true)
      (gas : t.gas = { b.gas with authData := { b.gas.authData with
        rpIdHash := env.sha256 ga.rp.bytes, flags := 5 } }) : AssertionData ga cred h b 37 t
  | ordinary {s t : Authenticator} {e : ExtBuf 80} {count : UInt32}
      (hext : isExtensionRequest cred.id.bytes credentialIdSize = false)
      (began : CtapM.answered h (assertionHeader env ga) b = (.ok (), s))
      (header : s.gas = { b.gas with
        authData := ⟨env.sha256 ga.rp.bytes, assertionFlags b ga h, count⟩ })
      (made : ctapMakeExtensions env s ga.extensions ⟨s.gas.bufExtensions, 80⟩ = (.ok (), e))
      (gas : t.gas = { s.gas with
        authData := { s.gas.authData with
          flags := if e.size ≠ 0 then s.gas.authData.flags ||| 0x80 else s.gas.authData.flags }
        bufExtensions := e.buf }) : AssertionData ga cred h b (37 + e.size) t

/-- A getAssertion that succeeds: the list, the authenticator data and the
answer. -/
structure Asserted (w : Writer) (a : Authenticator) (request : List UInt8) (h : Answers)
    (x : AssertionAnswer) (n : ℕ) (ga₀ : GetAssertion) (v s b d : Authenticator) (size : ℕ) :
    Prop where
  selected : SelectedCredentials env a request n ga₀ v s
  cleared : b = { s with gas := s.gas.firstCleared n }
  began : ∃ w₁, CtapM.answered h (beginAssertion env w request) a =
    (.ok (n, ga₀.withFirstCred, (s.gas.creds.getD 0 default).credential, w₁), b)
  data : AssertionData env ga₀.withFirstCred (s.gas.creds.getD 0 default).credential h b size d
  few : n - 1 ≤ allowListMaxSize - 1
  pairs : x.pairs = 3 + (if n > 1 then 1 else 0) +
    (if (s.gas.creds.getD (n - 1) default).credential.user.idSize ≠ 0 then 1 else 0)
  credentialId : x.credentialId = d.gas.returnedId (d.gas.creds.getD 0 default)
  authData : x.authData = d.gas.authBytes size
  user : x.user =
    returnedUser (d.gas.creds.getD 0 default).credential.user (d.gas.userVerified ≠ 0)
  total : x.total = (if n > 1 then [.int 5, .int n] else [])

theorem ctapGetAssertion_ok {w w' : Writer} {request : List UInt8} {h : Answers}
    {a t : Authenticator}
    (hrun : CtapM.answered h (ctapGetAssertion env w request) a = (.ok w', t)) :
    ∃ x n ga₀ v s b d size, Asserted env w a request h x n ga₀ v s b d size ∧
      w' = { w with ops := w.ops ++ x.items } ∧
      ∃ e : Authenticator, Changed signingMayChange d e ∧
        t = { e with gas := e.gas.saved ga₀.clientDataHash (n - 1) ga₀.withFirstCred.extensions } := by
  rw [answered_ctapGetAssertion] at hrun
  obtain ⟨⟨n, ga, cred, w₁⟩, b, hbegin, hrest⟩ := bind_ok.mp hrun
  obtain ⟨ga₀, v, s, hselected, rfl, rfl, rfl, hb⟩ := beginAssertion_ok env hbegin
  obtain ⟨size, d, hdata, hfinish⟩ := bind_ok.mp hrest
  obtain ⟨hfew, x, rfl, hid, hauth, huser, htotal, e, he, ht⟩ := finishAssertion_ok env hfinish
  have hd : AssertionData env ga₀.withFirstCred (s.gas.creds.getD 0 default).credential h b size d := by
    split at hdata
    case isTrue hext =>
      obtain ⟨rfl, hgas⟩ := extensionAuthData_ok env hdata
      exact .extension hext hgas
    case isFalse hext =>
      rw [answered_assertionAuthData] at hdata
      obtain ⟨_, s', hheader, hextend⟩ := bind_ok.mp hdata
      obtain ⟨count, hgas⟩ := assertionHeader_ok env hheader
      obtain ⟨eb, hmade, rfl, htgas⟩ := extendAssertion_ok env hextend
      exact .ordinary (Bool.eq_false_iff.mpr hext) hheader hgas hmade htgas
  refine ⟨{ x with pairs := 3 + (if n > 1 then 1 else 0) +
    (if (s.gas.creds.getD (n - 1) default).credential.user.idSize ≠ 0 then 1 else 0) }, n, ga₀, v, s,
    b, d, size, ⟨hselected, hb, ⟨_, hbegin⟩, hd, hfew, rfl, hid, hauth, huser, htotal⟩, ?_, e, he, ht⟩
  simp only [AssertionAnswer.items, AssertionAnswer.common, List.append_assoc,
    List.cons_append, List.nil_append]

end NitrokeyFido2.Ctap
