import NitrokeyFido2.Ctap.Chain
import NitrokeyFido2.Ctap.KeyStore

/-!
What a makeCredential answers with.
-/

namespace NitrokeyFido2.Ctap

open Proc Resumption

variable (env : Env)

/-- `ctap_make_credential` up to the call of `ctap_make_extensions`: the
request, the encoder, the header and the attested credential data. -/
def beginMakeCredential (w : Writer) (request : List UInt8) :
    CtapM (MakeCredential env.reader.Cursor × Writer × AuthDataHeader × List UInt8) := do
  let mc ← parsedWithCustom (ctapParseMakeCredential env request) default
  checkMakeCredential env mc
  let w ← encode w (env.writer.emitAll [.createMap 3, .int 1, .text "packed"])
  let (h, attested) ← ctapMakeAuthData env mc.rp mc.credInfo mc.extensions
  pure (mc, w, h, attested)

/-- `ctap_make_credential` behind the authenticator data. -/
def finishMakeCredential (mc : MakeCredential env.reader.Cursor) (w : Writer)
    (authData : List UInt8) : Device Writer := do
  let w ← encode w (env.writer.emitAll [.int 2, .byteString authData])
  let sigder ← signAttestation env authData mc.clientDataHash
  encode w (do
    ctapAddAttestStatement env sigder
    env.writer.emit .closeContainer)

theorem answered_ctapMakeCredential (w : Writer) (request : List UInt8) (h : Answers) :
    CtapM.answered h (ctapMakeCredential env w request) =
      CtapM.answered h (beginMakeCredential env w request) >>= fun (mc, w, hd, attested) =>
        appendExtensions env mc.extensions hd attested >>= fun authData =>
          finishMakeCredential env mc w authData := by
  unfold ctapMakeCredential beginMakeCredential finishMakeCredential
  simp only [CtapM.answered, Routine.answered_bind, Routine.answered_liftM, Routine.answered_pure,
    bind_assoc, pure_bind]

variable {env}

theorem bind_some_of_eq {m : Device Writer} {s t : Authenticator} {r : Except Stop Writer}
    (h : m s = (r, t)) : (m >>= fun w => pure (some w)) s = (r.map some, t) := by
  rw [bind_apply, h]
  rcases r with e | w <;> rfl

theorem dispatch_of_not_locked {a : Authenticator} {bytes : List UInt8} {h : Answers}
    (hcmd : bytes.getD 0 0 = ctapMakeCredentialCmd) (hopen : ¬ Locked a) :
    a.dispatch env bytes h =
      (CtapM.answered h (ctapMakeCredential env freshWriter bytes.tail) >>= fun w =>
        pure (some w)) { a with trace := [] } :=
  (dispatch_makeCredential env hcmd).trans
    (bind_of_ok (failIfLocked_of_not_locked (a := { a with trace := [] }) hopen))

/-! ### The authenticator data -/

theorem ctapMakeAuthDataHeader_value {rp : RpId} {hd : AuthDataHeader} {h : Answers}
    {a t : Authenticator}
    (hrun : CtapM.answered h (ctapMakeAuthDataHeader env (fun _ => pure ()) rp) a = (.ok hd, t)) :
    hd.rpIdHash = env.sha256 rp.bytes ∧ ∃ up pin, (up = 0 ∨ up = 1) ∧ (pin = 0 ∨ pin = 4) ∧
      hd.flags = up ||| pin := by
  unfold ctapMakeAuthDataHeader at hrun
  simp only [CtapM.answered, Routine.answered_bind, Routine.answered_liftM,
    answered_deviceSetStatus, pure_bind] at hrun
  obtain ⟨count, a₁, -, hrest⟩ := bind_ok.mp hrun
  obtain ⟨but, a₂, -, hrest⟩ := bind_ok.mp hrest
  obtain ⟨flags, a₃, hflags, hrest⟩ := bind_ok.mp hrest
  rw [get_bind] at hrest
  obtain ⟨rfl, -⟩ := pure_ok.mp hrest
  refine ⟨rfl, flags, if ctapIsPinSet a₃ then 4 else 0, ?_, by split <;> simp, rfl⟩
  rw [(presence_flags hflags).1]
  split <;> simp

/-- The id of a new credential, and the data that attest it. -/
theorem ctapMakeAuthData_ok {rp : RpId} {credInfo : CredInfo} {ext : Extensions}
    {hd : AuthDataHeader} {attested : List UInt8} {h : Answers} {a t : Authenticator}
    (hrun : CtapM.answered h (ctapMakeAuthData env rp credInfo ext) a = (.ok (hd, attested), t)) :
    ∃ hd₀ nonce u, CtapM.answered h (ctapMakeAuthDataHeader env (fun _ => pure ()) rp) a =
        (.ok hd₀, u) ∧
      hd = { hd₀ with flags := hd₀.flags ||| 0x40 } ∧
      attested = attestedCredentialData env (newCredentialId env a.secrets nonce hd₀ ext.credProtect)
        (coseKeyBytes env t (newCredentialId env a.secrets nonce hd₀ ext.credProtect) credInfo) := by
  have hframe : Routine.Keeps (Changed [.events .presence])
      (ctapMakeAuthDataHeader env (fun _ => pure ()) rp) := inferInstance
  unfold ctapMakeAuthData at hrun
  simp only [CtapM.answered, Routine.answered_bind, Routine.answered_liftM] at hrun
  obtain ⟨hd₀, u, hheader, hrest⟩ := bind_ok.mp hrun
  obtain ⟨id, v, hid, hrest⟩ := bind_ok.mp hrest
  obtain ⟨_, s, hstore, hrest⟩ := bind_ok.mp hrest
  rw [get_bind] at hrest
  obtain ⟨heq, rfl⟩ := pure_ok.mp hrest
  obtain ⟨rfl, rfl⟩ := Prod.mk.inj heq
  have hsecrets : u.secrets = a.secrets :=
    congrArg Prod.fst ((hframe.answered h.answer).apply hheader .secrets (by decide))
  refine ⟨hd₀, u.drawn env credentialNonceSize, u, hheader, rfl, ?_⟩
  have hid' : id = newCredentialId env a.secrets (u.drawn env credentialNonceSize) hd₀ ext.credProtect := by
    rw [← hsecrets]
    exact (Except.ok.inj (Prod.mk.inj hid).1).symm
  rw [hid']

/-! ### The answer -/

/-- The items of a makeCredential response. -/
def creationItems (env : Env) (authData sigder : List UInt8) : List EncOp :=
  [.createMap 3, .int 1, .text "packed", .int 2, .byteString authData,
    .int 3, .createMap 3, .text "alg", .int coseAlgEs256, .text "sig", .byteString sigder,
    .text "x5c", .createArray 1, .byteString env.attestationCertDer, .closeContainer,
    .closeContainer, .closeContainer]

/-- The buffer behind the attested credential data. -/
def creationBuffer (env : Env) (n : ℕ) : ExtBuf n := ⟨env.uninit .extensions n, n⟩

/-- The room that is left for the extensions. -/
abbrev extensionRoom (attested : List UInt8) : ℕ := 310 - (37 + attested.length)

theorem appendExtensions_ok {extensions : Extensions} {hd : AuthDataHeader}
    {attested authData : List UInt8} {a t : Authenticator}
    (hrun : appendExtensions env extensions hd attested a = (.ok authData, t)) :
    t = a ∧ ∃ ext : ExtBuf (extensionRoom attested),
      ctapMakeExtensions env a extensions (creationBuffer env (extensionRoom attested)) = (.ok (), ext) ∧
      authData = (if ext.buf.slice 0 ext.size = [] then hd
        else { hd with flags := hd.flags ||| 0x80 }).toBytes ++ attested ++ ext.buf.slice 0 ext.size := by
  unfold appendExtensions at hrun
  rw [get_bind] at hrun
  obtain ⟨out, b, hmake, hret⟩ := bind_ok.mp hrun
  rw [ofExcept_ok] at hmake
  obtain ⟨hmake, rfl⟩ := hmake
  obtain ⟨rfl, rfl⟩ := pure_ok.mp hret
  rcases hr : (ctapMakeExtensions env a extensions).run
    (creationBuffer env (extensionRoom attested)) with ⟨e | u, ext⟩ <;>
    rw [creationBuffer] at hr <;> rw [hr] at hmake
  · exact nomatch hmake
  · obtain rfl := Except.ok.inj hmake
    exact ⟨rfl, ext, rfl, rfl⟩

theorem finishMakeCredential_ok {mc : MakeCredential env.reader.Cursor} {w w' : Writer}
    {authData : List UInt8} {a t : Authenticator}
    (hrun : finishMakeCredential env mc w authData a = (.ok w', t)) :
    ∃ sigder, w' = { w with ops := w.ops ++ (creationItems env authData sigder).drop 3 } := by
  unfold finishMakeCredential at hrun
  obtain ⟨w₁, a₁, henc, hrest⟩ := bind_ok.mp hrun
  obtain ⟨rfl, rfl⟩ := (emits_emitAll _).encode henc
  obtain ⟨sigder, a₂, -, hclose⟩ := bind_ok.mp hrest
  refine ⟨sigder, ?_⟩
  obtain ⟨hclose, -⟩ := encode_ok.mp hclose
  unfold ctapAddAttestStatement at hclose
  split at hclose
  · exact nomatch (Prod.mk.inj hclose).1
  · have hitems := ((emits_emitAll _).seq fun _ => emits_emit _).writer_eq _ _ hclose
    rw [hitems]
    simp [creationItems]

/-- A makeCredential that succeeds: the call of `ctap_make_extensions` in a
state `s`, and the authenticator data. -/
structure Created (env : Env) (a : Authenticator) (request : List UInt8) (h : Answers)
    (s : Authenticator) (hd : AuthDataHeader) (attested : List UInt8)
    (ext : ExtBuf (extensionRoom attested)) : Prop where
  began : ∃ w₁, CtapM.answered h (beginMakeCredential env freshWriter request) a =
    (.ok (requestedCredential env a request, w₁, hd, attested), s)
  attests : ∃ id credInfo, attested = attestedCredentialData env id (coseKeyBytes env s id credInfo)
  flags : ∃ up pin, (up = 0 ∨ up = 1) ∧ (pin = 0 ∨ pin = 4) ∧ hd.flags = up ||| pin ||| 0x40
  made : ctapMakeExtensions env s (requestedCredential env a request).extensions
    (creationBuffer env (extensionRoom attested)) = (.ok (), ext)

/-- The authenticator data, with the flag of the extensions set if there are
some. -/
def createdAuthData (hd : AuthDataHeader) (attested : List UInt8)
    (ext : ExtBuf (extensionRoom attested)) : List UInt8 :=
  (if ext.buf.slice 0 ext.size = [] then hd else { hd with flags := hd.flags ||| 0x80 }).toBytes ++
    attested ++ ext.buf.slice 0 ext.size

theorem beginMakeCredential_ok {w w' : Writer} {request : List UInt8}
    {mc : MakeCredential env.reader.Cursor} {hd : AuthDataHeader} {attested : List UInt8}
    {h : Answers} {a t : Authenticator}
    (hrun : CtapM.answered h (beginMakeCredential env w request) a = (.ok (mc, w', hd, attested), t)) :
    mc = requestedCredential env a request ∧
      w' = { w with ops := w.ops ++ [.createMap 3, .int 1, .text "packed"] } ∧
      (∃ id credInfo, attested = attestedCredentialData env id (coseKeyBytes env t id credInfo)) ∧
      ∃ up pin, (up = 0 ∨ up = 1) ∧ (pin = 0 ∨ pin = 4) ∧ hd.flags = up ||| pin ||| 0x40 := by
  unfold beginMakeCredential at hrun
  simp only [CtapM.answered, Routine.answered_bind, Routine.answered_liftM] at hrun
  obtain ⟨mc', a₁, hparse, hrest⟩ := bind_ok.mp hrun
  have hmc := (parsedWithCustom_ends (a := a) (ctapParseMakeCredential env request) default).elim
    hparse mc' rfl
  obtain ⟨_, a₂, -, hrest⟩ := bind_ok.mp hrest
  obtain ⟨w₁, a₃, henc, hrest⟩ := bind_ok.mp hrest
  obtain ⟨rfl, rfl⟩ := (emits_emitAll _).encode henc
  obtain ⟨⟨hd', attested'⟩, a₄, hmake, hret⟩ := bind_ok.mp hrest
  obtain ⟨heq, rfl⟩ := pure_ok.mp hret
  simp only [Prod.mk.injEq] at heq
  obtain ⟨rfl, rfl, rfl, rfl⟩ := heq
  obtain ⟨hd₀, nonce, u, hheader, rfl, rfl⟩ := ctapMakeAuthData_ok hmake
  obtain ⟨-, up, pin, hup, hpin, hflags⟩ := ctapMakeAuthDataHeader_value hheader
  exact ⟨hmc, rfl, ⟨_, _, rfl⟩, up, pin, hup, hpin, by rw [hflags]⟩

theorem ctapMakeCredential_ok {w' : Writer} {request : List UInt8} {h : Answers}
    {a t : Authenticator}
    (hrun : CtapM.answered h (ctapMakeCredential env freshWriter request) a = (.ok w', t)) :
    ∃ s hd attested ext sigder, Created env a request h s hd attested ext ∧
      w'.ops = creationItems env (createdAuthData hd attested ext) sigder := by
  rw [answered_ctapMakeCredential] at hrun
  obtain ⟨⟨mc, w₁, hd, attested⟩, s, hbegin, hrest⟩ := bind_ok.mp hrun
  obtain ⟨rfl, rfl, hattests, hflags⟩ := beginMakeCredential_ok hbegin
  obtain ⟨authData, s', happend, hfinish⟩ := bind_ok.mp hrest
  obtain ⟨rfl, ext, hmade, rfl⟩ := appendExtensions_ok happend
  obtain ⟨sigder, rfl⟩ := finishMakeCredential_ok hfinish
  refine ⟨s', hd, attested, ext, sigder, ⟨⟨_, hbegin⟩, hattests, hflags, hmade⟩, ?_⟩
  simp [creationItems, createdAuthData, freshWriter, Writer.init]

theorem authData_of_creationItems {w : Writer} {authData sigder : List UInt8}
    (h : w.ops = creationItems env authData sigder) : w.authData = authData := by
  unfold Writer.authData Writer.valueAt
  rw [h]
  simp [creationItems, EncOp.text, EncOp.payload]

theorem dispatch_makeCredential_ok {a t : Authenticator} {bytes : List UInt8} {h : Answers}
    {w : Writer} (hcmd : bytes.getD 0 0 = ctapMakeCredentialCmd)
    (hrun : a.dispatch env bytes h = (.ok (some w), t)) :
    ∃ s hd attested ext sigder, Created env { a with trace := [] } bytes.tail h s hd attested ext ∧
      w.ops = creationItems env (createdAuthData hd attested ext) sigder := by
  rw [dispatch_makeCredential env hcmd] at hrun
  obtain ⟨_, a₁, hlocked, hrest⟩ := bind_ok.mp hrun
  obtain ⟨w', t', hrun', hret⟩ := bind_ok.mp hrest
  obtain ⟨heq, rfl⟩ := pure_ok.mp hret
  obtain rfl := Option.some.inj heq
  obtain rfl : { a with trace := [] } = a₁ := (inferInstance : Keeps Eq failIfLocked).apply hlocked
  exact ctapMakeCredential_ok hrun'

end NitrokeyFido2.Ctap
