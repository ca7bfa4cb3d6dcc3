import NitrokeyFido2.Ctap.Verification
import NitrokeyFido2.Hid.Leftovers

/-!
Keys that are used over both protocols.

A U2F key handle and a credential id are told apart by their length. Both carry a tag that
binds them to an application, and the key is derived from all of their bytes, so a key that
was given out over one protocol can be used over the other until the device is reset.
-/

namespace NitrokeyFido2.Hid

open Ctap Proc Transition
open Resumption (Routine)

variable (env : Env)

/-! ### Runs of both protocols -/

/-- A message of either protocol, or a power cycle. -/
inductive Exchange
  | msg (data : Buf ctaphidBufferSize) (answers : Answers)
  | ctap (e : Ctap.Event)

/-- The device between two messages, and whether it runs. -/
structure Token where
  world : World
  running : Bool

namespace Token

/-- The authenticator in it. -/
def machine (d : Token) : Machine := ⟨d.world.auth, d.running⟩

def withMachine (d : Token) (m : Machine) : Token := ⟨d.world.withAuth m.auth, m.running⟩

/-- A U2F message is all that is in `ctap_buffer` when it is handled. -/
def step (d : Token) : Exchange → Token
  | .msg data h =>
      if d.running then
        let r := Routine.answered h.answer (u2fRequest env) (d.world.withBytes data)
        ⟨r.2, r.1.isOk⟩
      else d
  | .ctap e => d.withMachine (d.machine.step env e)

/-- A device at power-up. -/
def powerUp (w : World) : Token := (⟨w, true⟩ : Token).withMachine (Machine.powerUp env w.auth)

/-- A reset that is carried out. -/
def Resets (d : Token) : Exchange → Prop
  | .msg _ _ => False
  | .ctap e => IsReset env d.machine e

instance (d : Token) (x : Exchange) : Decidable (d.Resets env x) := by
  cases x with
  | msg data h => exact .isFalse id
  | ctap e => exact inferInstanceAs (Decidable (IsReset env d.machine e))

end Token

/-! ### What a message may change -/

/-- What may have changed in the authenticator. -/
def AuthChanged (may : List Aspect) (w t : World) : Prop := Changed may w.auth t.auth

instance (may : List Aspect) : IsPreorder World (AuthChanged may) where
  refl w := refl_of (Changed may) w.auth
  trans _ _ _ h₁ h₂ := trans_of (Changed may) h₁ h₂

section Frame

variable {may : List Aspect}

instance {α : Type} (m : Ctap.Device α) [hm : Keeps (Changed may) m] :
    Keeps (AuthChanged may) (onDevice m) :=
  hm.zoom_of fun _ _ h => h

instance {α : Type} (m : CtapM α) [hm : Routine.Keeps (Changed may) m] :
    Routine.Keeps (AuthChanged may) (onAuth m) := by
  refine ⟨fun h => ?_⟩
  have hpart (w : World) (a : Authenticator) : (w.withAuth a).auth = a := rfl
  have hput (w : World) (a b : Authenticator) : (w.withAuth a).withAuth b = w.withAuth b := rfl
  rw [onAuth, Routine.answered_zoom hpart hput]
  exact (hm.answered h).zoom_of fun _ _ h => h

instance (off : ℕ) (src : List UInt8) : Keeps (AuthChanged may) (writeMessage off src) :=
  Keeps.modify fun w => refl_of (Changed may) w.auth

/-- What a U2F message may change of the authenticator. -/
abbrev messageMayChange : List Aspect :=
  [.events .presence, .events .derived, .events .otherKey, .events .bootloader, .events .carriedOut]

instance (hash : List UInt8) : Keeps (AuthChanged messageMayChange) (u2fSign env hash) := by
  unfold u2fSign
  refine Keeps.seq inferInstance fun sig => Keeps.seq inferInstance fun _ => ?_
  rcases ctapEncodeDerSig sig with ⟨sigder, len⟩
  infer_instance

instance (resp : CtapResponse) (up : UInt8) :
    Keeps (AuthChanged messageMayChange) (u2fAuthenticateSigned env resp up) := by
  have hnote : May messageMayChange (.events (Trace.carriedOut (.authenticate up)).kind) :=
    inferInstanceAs (May messageMayChange (.events .carriedOut))
  unfold u2fAuthenticateSigned
  infer_instance

instance (resp : CtapResponse) :
    Keeps (AuthChanged messageMayChange) (u2fRegisterSigned env resp) := by
  have hnote : May messageMayChange (.events (Trace.carriedOut .register).kind) :=
    inferInstanceAs (May messageMayChange (.events .carriedOut))
  unfold u2fRegisterSigned
  refine Keeps.seq inferInstance fun key => Keeps.seq inferInstance fun w => ?_
  infer_instance

instance : Routine.Keeps (AuthChanged messageMayChange) (bridgeU2fToExtensions env) := by
  have hsource : Keeps (Changed messageMayChange) (Proc.modify fun a : Authenticator =>
      { a with requestSource := .u2f } : Ctap.Device Unit) :=
    keeps_modify fun a i _ => by cases i <;> first | exact rfl | exact id | exact List.prefix_rfl
  unfold bridgeU2fToExtensions
  refine Routine.Keeps.seq inferInstance fun w => Routine.Keeps.seq inferInstance fun _ => ?_
  refine Routine.Keeps.seq inferInstance fun _ => Routine.Keeps.seq inferInstance fun ⟨_, _⟩ => ?_
  infer_instance

instance (len : ℕ) : Routine.Keeps (AuthChanged messageMayChange) (extendU2f env len) := by
  unfold extendU2f
  infer_instance

instance (resp : CtapResponse) (control : UInt8) :
    Routine.Keeps (AuthChanged messageMayChange) (u2fAuthenticate env resp control) := by
  unfold u2fAuthenticate ctapUserPresenceTest
  infer_instance

instance (resp : CtapResponse) :
    Routine.Keeps (AuthChanged messageMayChange) (u2fRegister env resp) := by
  unfold u2fRegister ctapUserPresenceTest
  infer_instance

instance (resp : CtapResponse) (len : ℕ) :
    Routine.Keeps (AuthChanged messageMayChange) (u2fSwitch env resp len) := by
  unfold u2fSwitch
  infer_instance

instance : Routine.Keeps (AuthChanged messageMayChange) (u2fRequest env) := by
  unfold u2fRequest
  infer_instance

end Frame

namespace Token

variable {env} {d : Token}

/-- The stored state is in use in every state of a run, and so are its secrets. -/
theorem secretsInv_step (hd : SecretsInv d.machine) (x : Exchange) :
    SecretsInv (d.step env x).machine ∧
      (¬ d.Resets env x → (d.step env x).world.auth.secrets = d.world.auth.secrets) := by
  cases x with
  | ctap e => exact ⟨hd.step e, (secrets_step hd.persisted hd.loaded).2⟩
  | msg data h =>
      by_cases hrun : d.running = true
      case neg =>
        have hstep : d.step env (.msg data h) = d := if_neg hrun
        exact ⟨hstep.symm ▸ hd, fun _ => hstep.symm ▸ rfl⟩
      case pos =>
        have hchanged : AuthChanged messageMayChange (d.world.withBytes data)
            (Routine.answered h.answer (u2fRequest env) (d.world.withBytes data)).2 :=
          ((inferInstance : Routine.Keeps (AuthChanged messageMayChange)
            (u2fRequest env)).answered h.answer).state _
        have hauth : (d.step env (.msg data h)).world.auth =
            (Routine.answered h.answer (u2fRequest env) (d.world.withBytes data)).2.auth := by
          rw [step, if_pos hrun]
        obtain ⟨hsecrets, hspace⟩ := Prod.mk.inj (hchanged .secrets (by decide))
        have hloaded : d.world.auth.secrets = cryptoLoadMasterSecret d.world.auth.state.keySpace := hd.loaded
        refine ⟨⟨?_, ?_⟩, fun _ => hauth ▸ hsecrets⟩
        · show Persisted (d.step env (.msg data h)).world.auth
          rw [hauth]
          exact Persisted.changed hd.persisted hchanged (by decide) (by decide)
        · show (d.step env (.msg data h)).world.auth.secrets = _
          rw [machine, hauth, hsecrets, hspace]
          exact hloaded

theorem secretsInv_powerUp {w : World} (hw : w.auth.stored.isInitialized ≠ initializedMarker) :
    SecretsInv (powerUp env w).machine :=
  SecretsInv.powerUp hw

theorem secretsInv_run (hd : SecretsInv d.machine) (xs : List Exchange) :
    SecretsInv (run (Token.step env) d xs).machine := by
  have hstep (e : Token) (x : Exchange) (he : SecretsInv e.machine) :
      SecretsInv (e.step env x).machine := (secretsInv_step he x).1
  exact invariant_run_always hstep xs hd

/-- The secrets remain as long as the device is not reset. -/
theorem secrets_run (hd : SecretsInv d.machine) {xs : List Exchange}
    (hxs : Along (Token.step env) (fun d x => ¬ d.Resets env x) d xs) :
    (run (Token.step env) d xs).world.auth.secrets = d.world.auth.secrets := by
  have hstep (e : Token) (x : Exchange)
      (he : SecretsInv e.machine ∧ e.world.auth.secrets = d.world.auth.secrets)
      (hx : ¬ e.Resets env x) :
      SecretsInv (e.step env x).machine ∧ (e.step env x).world.auth.secrets = d.world.auth.secrets :=
    ⟨(secretsInv_step he.1 x).1, ((secretsInv_step he.1 x).2 hx).trans he.2⟩
  exact (invariant_run hstep ⟨hd, rfl⟩ hxs).2

end Token

/-! ### A message that is no extension request -/

section Replies

variable {env} {h : Answers} {w : World} {reply : List UInt8}

/-- What the extensions do not answer is answered by the switch. -/
theorem u2fReply_of_switch (hcla : w.cla = 0) {resp : U2fResult}
    (hext : Routine.answered h.answer (extendU2f env w.lc) w = (.ok resp, w))
    (hnot : resp.1 ≠ u2fSwNoError ∧ resp.1 ≠ u2fSwConditionsNotSatisfied)
    (hreply : u2fReply env h w = .ok reply) :
    ∃ r t, Routine.answered h.answer (u2fSwitch env resp.2 w.lc) w = (.ok r, t) ∧
      reply = u2fFinish r := by
  unfold u2fReply u2fRequest at hreply
  simp only [Routine.answered_bind, Routine.answered_liftM, get_bind, Routine.answered_ite] at hreply
  rw [if_neg (not_not.mpr hcla), bind_of_ok hext, if_pos hnot] at hreply
  rcases hrun : Routine.answered h.answer (u2fSwitch env resp.2 w.lc) w with ⟨e | r, t⟩
  · rw [bind_of_error hrun] at hreply
    cases hreply
  · rw [bind_of_ok hrun, answered_onAuth] at hreply
    exact ⟨r, t, rfl, (Except.ok.inj hreply).symm⟩

theorem u2fFinish_status {sw : UInt16} (hsw : sw ≠ u2fSwNoError) (resp : CtapResponse) :
    u2fFinish (sw, resp) = [(sw >>> 8).toUInt8, sw.toUInt8] := by
  unfold u2fFinish
  dsimp only
  rw [if_neg hsw]
  rfl

theorem orHalt_ok {α : Type} {o : Option α} {x : α} {a t : Authenticator}
    (hrun : (orHalt o : Ctap.Device α) a = (.ok x, t)) : o = some x := by
  cases o with
  | none => cases (Prod.mk.inj hrun).1
  | some y => exact congrArg some (pure_ok.mp hrun).1

theorem u2fSign_ok {hash sigder : List UInt8} {t : World}
    (hrun : u2fSign env hash w = (.ok sigder, t)) :
    ∃ rng raw drawn, env.sign w.auth.signingKey.key hash rng = some (raw, drawn) ∧
      sigder = (ctapEncodeDerSig raw).1.slice 0 (ctapEncodeDerSig raw).2 := by
  unfold u2fSign at hrun
  obtain ⟨sig, w₁, hsign, hrest⟩ := bind_ok.mp hrun
  obtain ⟨_, w₂, -, hret⟩ := bind_ok.mp hrest
  obtain ⟨rfl, -⟩ := pure_ok.mp hret
  obtain ⟨a, hsign, -⟩ := zoom_ok.mp hsign
  unfold cryptoEcc256Sign at hsign
  rw [get_bind] at hsign
  dsimp only at hsign
  obtain ⟨⟨raw, drawn⟩, a₁, hdrawn, hrest⟩ := bind_ok.mp hsign
  obtain ⟨_, a₂, -, hrest⟩ := bind_ok.mp hrest
  obtain ⟨_, a₃, -, hret⟩ := bind_ok.mp hrest
  obtain ⟨rfl, -⟩ := pure_ok.mp hret
  exact ⟨_, raw, drawn, orHalt_ok hdrawn, rfl⟩

theorem length_sigder_le (raw : Buf 64) :
    ((ctapEncodeDerSig raw).1.slice 0 (ctapEncodeDerSig raw).2).length ≤ 72 := by
  refine (List.length_take_le' _ _).trans ?_
  rw [List.length_drop, Buf.length_bytes]

/-! ### Authentication -/

/-- A signature of an AUTHENTICATE message, over the application, the user presence byte, a
counter and the challenge. -/
def AssertedBy (env : Env) (priv : Buf 32) (w : World) (up : UInt8) (reply : List UInt8) : Prop :=
  ∃ (count : UInt32) (sigder : List UInt8), reply = up :: Bytes.toBe32 count ++ sigder ++ [0x90, 0] ∧
    SignedBy env priv (w.app ++ [up] ++ Bytes.toBe32 count ++ w.chal) sigder

/-- The counter is not part of the signing key. -/
theorem u2fAuthenticateSigned_ok {up : UInt8} {r : U2fResult} {t : World}
    (hrun : u2fAuthenticateSigned env ctapResponseInit up w = (.ok r, t)) :
    AssertedBy env w.auth.signingKey.key w up (u2fFinish r) := by
  unfold u2fAuthenticateSigned at hrun
  obtain ⟨count, w₁, hcount, hrest⟩ := bind_ok.mp hrun
  rw [get_bind] at hrest
  obtain ⟨sigder, w₂, hsign, hrest⟩ := bind_ok.mp hrest
  obtain ⟨_, w₃, -, hret⟩ := bind_ok.mp hrest
  obtain ⟨rfl, -⟩ := pure_ok.mp hret
  obtain ⟨a, hcounted, rfl⟩ := zoom_ok.mp hcount
  obtain ⟨counter, sc, pos, rfl⟩ := (inferInstance : Keeps Counted (ctapAtomicCount env)).apply hcounted
  obtain ⟨rng, raw, drawn, hraw, rfl⟩ := u2fSign_ok hsign
  have hlen := length_sigder_le raw
  have hdata : (u2fResponseWriteback ctapResponseInit (up :: Bytes.toBe32 count ++
      (ctapEncodeDerSig raw).1.slice 0 (ctapEncodeDerSig raw).2)).data =
      up :: Bytes.toBe32 count ++ (ctapEncodeDerSig raw).1.slice 0 (ctapEncodeDerSig raw).2 := by
    refine data_writeback ?_
    rw [List.length_append, List.length_cons, Bytes.length_toBe32]
    exact (show 0 + (4 + 1 + _) ≤ 4096 by omega)
  refine ⟨count, _, ?_, rng, raw, drawn, hraw, rfl⟩
  rw [u2fFinish_of_ok rfl, hdata]
  rw [hdata, List.length_append, List.length_cons, Bytes.length_toBe32]
  exact (show 4 + 1 + _ + 2 ≤ 4096 by omega)

/-- A key that was given out: the application it is for, its handle, and its public half. -/
structure GivenKey where
  app : List UInt8
  handle : List UInt8
  pub : Buf 64

/-- An AUTHENTICATE message with the handle of a key, for its application. -/
structure AsksFor (k : GivenKey) (w : World) : Prop where
  cla : w.cla = 0
  ins : w.ins = u2fAuthenticateIns
  app : w.app = k.app
  khl : w.khl = k.handle.length
  kh : w.kh.take k.handle.length = k.handle

/-- With these secrets the handle is authentic and not taken for an extension request, and
the public half is that of the key derived from it. -/
structure GivenKey.Genuine (env : Env) (s : Secrets) (k : GivenKey) : Prop where
  authentic : u2fAuthenticateCredential env s k.handle k.handle.length k.app = true
  ordinary : isExtensionRequest k.handle k.handle.length = false
  pub : env.computePublicKey (generatePrivateKey env s k.handle) = some k.pub

variable {k : GivenKey}

theorem AsksFor.authentic (hw : AsksFor k w) {s : Secrets} (hk : k.Genuine env s) :
    u2fAuthenticateCredential env s w.kh w.khl w.app = true := by
  have hsame : w.kh.take w.khl = k.handle.take w.khl := by
    rw [hw.khl, hw.kh, List.take_length]
  rw [u2fAuthenticateCredential_congr env s (fun _ => hsame), hw.app, hw.khl]
  exact hk.authentic

theorem AsksFor.ordinary (hw : AsksFor k w) {s : Secrets} (hk : k.Genuine env s) :
    isExtensionRequest w.kh w.khl = false := by
  have hlong : 8 ≤ k.handle.length := by
    rcases khl_of_authentic env hk.authentic with hlen | hlen <;> rw [hlen] <;> decide
  have htag : (w.kh.drop 4).take 4 = (k.handle.drop 4).take 4 := by
    rw [← hw.kh, List.drop_take, List.take_take, min_eq_left (by omega)]
  have hordinary := hk.ordinary
  unfold isExtensionRequest at *
  rw [hw.khl, htag]
  exact hordinary

/-- An AUTHENTICATE message that is no extension request gets to `u2f_authenticate`. -/
theorem u2fReply_authenticate (hcla : w.cla = 0) (hins : w.ins = u2fAuthenticateIns)
    (hordinary : isExtensionRequest w.kh w.khl = false) (hreply : u2fReply env h w = .ok reply) :
    ∃ r t, Routine.answered h.answer (u2fAuthenticate env ctapResponseInit w.p1) w = (.ok r, t) ∧
      reply = u2fFinish r := by
  have hno : ¬ isExtensionRequest w.kh w.khl = true := by
    rw [hordinary]
    exact Bool.false_ne_true
  have hext : Routine.answered h.answer (extendU2f env w.lc) w =
      (.ok (u2fSwWrongData, ctapResponseInit), w) := by
    unfold extendU2f
    simp only [Routine.answered_bind, Routine.answered_liftM, get_bind, Routine.answered_ite]
    rw [if_pos hins, if_neg hno, if_neg hno]
    split <;> rfl
  obtain ⟨r, t, hrun, hr⟩ := u2fReply_of_switch hcla hext ⟨by decide, by decide⟩ hreply
  refine ⟨r, t, ?_, hr⟩
  unfold u2fSwitch at hrun
  simp only [Routine.answered_bind, Routine.answered_liftM, get_bind, Routine.answered_ite] at hrun
  rw [if_neg (by rw [hins]; decide), if_pos hins] at hrun
  exact hrun

/-- What a message with the handle of a genuine key is answered with: a reply that is
`Signed` with a user presence byte, or a status. -/
structure Authenticates (h : Answers) (w : World) (reply : List UInt8) (Signed : UInt8 → Prop) :
    Prop where
  check : w.p1 = u2fAuthenticateCheck → reply = [0x69, 0x85]
  unconfirmed : w.p1 = u2fAuthenticateSign → w.auth.presence h = 0 → reply = [0x69, 0x85]
  confirmed : w.p1 = u2fAuthenticateSign → w.auth.presence h ≠ 0 → Signed 1
  noUser : w.p1 = u2fAuthenticateSignNoUser → Signed 0
  other : w.p1 ≠ u2fAuthenticateCheck → w.p1 ≠ u2fAuthenticateSign →
    w.p1 ≠ u2fAuthenticateSignNoUser → reply = [0x6a, 0x80]

theorem waited_signingKey (a : Authenticator) (h : Answers) :
    (a.waited h).signingKey = a.signingKey := by
  unfold Authenticator.waited
  split_ifs <;> rfl

theorem waited_secrets (a : Authenticator) (h : Answers) : (a.waited h).secrets = a.secrets := by
  unfold Authenticator.waited
  split_ifs <;> rfl

/-- A presence test in the world. -/
theorem answered_presence (h : Answers) (w : World) :
    Routine.answered h.answer (onAuth (ctapUserPresenceTest u2fUpDelayMs)) w =
      (.ok (w.auth.presence h), w.withAuth (w.auth.waited h)) := by
  rw [answered_onAuth]
  exact zoom_of_eq rfl (answered_feedback u2fUpDelayMs false h w.auth)

theorem u2fAuthenticate_ok {r : U2fResult} {t : World}
    (hauthentic : u2fAuthenticateCredential env w.auth.secrets w.kh w.khl w.app = true)
    (hrun : Routine.answered h.answer (u2fAuthenticate env ctapResponseInit w.p1) w = (.ok r, t)) :
    Authenticates h w (u2fFinish r) fun up =>
      AssertedBy env (generatePrivateKey env w.auth.secrets (w.kh.take w.khl)) w up (u2fFinish r) := by
  unfold u2fAuthenticate at hrun
  simp only [Routine.answered_bind, Routine.answered_liftM, get_bind, Routine.answered_ite,
    hauthentic] at hrun
  -- the key is loaded before the user is asked
  generalize hkey : cryptoEcc256LoadKey env w.auth.secrets (w.kh.take w.khl) = key at hrun
  have hpriv : key.key = generatePrivateKey env w.auth.secrets (w.kh.take w.khl) := hkey ▸ rfl
  have hload : onDevice (loadKey key) w = (.ok (), w.withAuth { w.auth with signingKey := key }) := rfl
  have hpresent : Routine.answered h.answer (onAuth (ctapUserPresenceTest u2fUpDelayMs))
      (w.withAuth { w.auth with signingKey := key }) =
      (.ok (w.auth.presence h), w.withAuth ({ w.auth with signingKey := key }.waited h)) :=
    answered_presence h _
  refine ⟨fun hp => ?_, fun hp hnone => ?_, fun hp hsome => ?_, fun hp => ?_,
    fun hcheck hsign hno => ?_⟩
  · rw [if_pos hp, if_pos trivial] at hrun
    obtain ⟨rfl, -⟩ := pure_ok.mp hrun
    exact u2fFinish_status (by decide) _
  · rw [if_neg (by rw [hp]; decide), if_neg (by simp [hp]), bind_of_ok hload,
      if_neg (by rw [hp]; decide), bind_of_ok hpresent, if_pos hnone] at hrun
    obtain ⟨rfl, -⟩ := pure_ok.mp hrun
    exact u2fFinish_status (by decide) _
  · rw [if_neg (by rw [hp]; decide), if_neg (by simp [hp]), bind_of_ok hload,
      if_neg (by rw [hp]; decide), bind_of_ok hpresent, if_neg hsome] at hrun
    have hasserted := u2fAuthenticateSigned_ok hrun
    have hwaited : (w.withAuth ({ w.auth with signingKey := key }.waited h)).auth.signingKey = key :=
      waited_signingKey ..
    rw [hwaited, hpriv] at hasserted
    exact hasserted
  · rw [if_neg (by rw [hp]; decide), if_neg (by simp [hp]), bind_of_ok hload, if_pos hp] at hrun
    rw [← hpriv]
    exact u2fAuthenticateSigned_ok hrun
  · -- no other control byte gets to a key
    rw [if_neg hcheck, if_pos (.inl ⟨hsign, hno⟩)] at hrun
    obtain ⟨rfl, -⟩ := pure_ok.mp hrun
    exact u2fFinish_status (by decide) _

/-- A message with the handle of a genuine key is answered with a signature of this key, or
with the status that its control byte and the user call for. -/
theorem AsksFor.authenticates (hw : AsksFor k w) (hk : k.Genuine env w.auth.secrets)
    (hreply : u2fReply env h w = .ok reply) :
    Authenticates h w reply fun up =>
      AssertedBy env (generatePrivateKey env w.auth.secrets k.handle) w up reply := by
  obtain ⟨r, t, hrun, rfl⟩ := u2fReply_authenticate hw.cla hw.ins (hw.ordinary hk) hreply
  have hauthenticates := u2fAuthenticate_ok (hw.authentic hk) hrun
  rw [hw.khl, hw.kh] at hauthenticates
  exact hauthenticates

/-! ### Registration -/

/-- A REGISTER message. -/
structure IsRegister (w : World) : Prop where
  cla : w.cla = 0
  ins : w.ins = u2fRegisterIns
  lc : w.lc = 64

/-- The key that the response of a registration gives out for an application. -/
def givenKey (app reply : List UInt8) : GivenKey where
  app := app
  handle := (reply.drop 67).take u2fKeyHandleSize
  pub := Buf.ofList 64 ((reply.drop 2).take 64)

/-- The response of a registration: the key and the attestation, signed with its key. -/
structure Registers (env : Env) (w : World) (reply : List UInt8) : Prop where
  authentic : u2fAuthenticateCredential env w.auth.secrets (givenKey w.app reply).handle
    u2fKeyHandleSize w.app = true
  derived : (givenKey w.app reply).pub =
    cryptoEcc256DerivePublicKey env w.auth.secrets (givenKey w.app reply).handle
  length : (givenKey w.app reply).handle.length = u2fKeyHandleSize
  attested : ∃ sigder, reply = [5, 4] ++ (givenKey w.app reply).pub.bytes ++
      [UInt8.ofNat u2fKeyHandleSize] ++ (givenKey w.app reply).handle ++ env.attestationCertDer ++
      sigder ++ [0x90, 0] ∧
    SignedBy env env.attestationKey ([0] ++ w.app ++ w.chal ++ (givenKey w.app reply).handle ++ [4] ++
      (givenKey w.app reply).pub.bytes) sigder

/-- The key is read where the response has it. -/
theorem givenKey_eq (app : List UInt8) (pub : Buf 64) (x : UInt8) {handle : List UInt8}
    (hlen : handle.length = u2fKeyHandleSize) (rest : List UInt8) :
    givenKey app ([5, 4] ++ pub.bytes ++ [x] ++ handle ++ rest) = ⟨app, handle, pub⟩ := by
  have hpub : (([5, 4] ++ pub.bytes ++ [x] ++ handle ++ rest).drop 2).take 64 = pub.bytes := by
    rw [List.append_assoc, List.append_assoc, List.append_assoc]
    exact List.take_left' pub.length_bytes
  have hhandle : (([5, 4] ++ pub.bytes ++ [x] ++ handle ++ rest).drop 67).take u2fKeyHandleSize =
      handle := by
    rw [List.append_assoc, List.drop_left' (by simp [pub.length_bytes]), List.take_left' hlen]
  rw [givenKey, hpub, hhandle]
  exact congrArg _ (Buf.ext (Buf.bytes_ofList pub.length_bytes.le |>.trans (by
    rw [pub.length_bytes]
    simp)))

/-- The handle that is made from these random bytes. -/
def madeHandle (env : Env) (s : Secrets) (key : Buf 32) (app : List UInt8) : List UInt8 :=
  u2fMakeAuthTag env s key.bytes app ++ key.bytes

theorem length_u2fMakeAuthTag (s : Secrets) (key app : List UInt8) :
    (u2fMakeAuthTag env s key app).length = credentialTagSize :=
  Buf.length_slice (by decide)

theorem length_madeHandle (s : Secrets) (key : Buf 32) (app : List UInt8) :
    (madeHandle env s key app).length = u2fKeyHandleSize := by
  rw [madeHandle, List.length_append, length_u2fMakeAuthTag, key.length_bytes]

theorem authentic_madeHandle (s : Secrets) (key : Buf 32) (app : List UInt8) :
    u2fAuthenticateCredential env s (madeHandle env s key app) u2fKeyHandleSize app = true := by
  have htag : (u2fMakeAuthTag env s key.bytes app).length = credentialTagSize :=
    length_u2fMakeAuthTag ..
  have hkey : ((madeHandle env s key app).drop 16).take 32 = key.bytes := by
    rw [madeHandle, List.drop_left' htag]
    exact List.take_of_length_le key.length_bytes.le
  unfold u2fAuthenticateCredential isAuthenticKeyHandle
  rw [if_neg (by decide), if_pos rfl, hkey, decide_eq_true_iff, madeHandle, List.take_left' htag]

/-- The response of three pieces that all have room. -/
theorem u2fFinish_pieces {front middle last : List UInt8}
    (hroom : front.length + middle.length + last.length + 2 ≤ ctapResponseBufferSize) :
    u2fFinish (u2fSwNoError, u2fResponseWriteback (u2fResponseWriteback
      (u2fResponseWriteback ctapResponseInit front) middle) last) =
      front ++ middle ++ last ++ [0x90, 0] := by
  have hfront : (u2fResponseWriteback ctapResponseInit front).data = front :=
    data_writeback (show 0 + front.length ≤ _ by omega)
  have hmiddle : (u2fResponseWriteback (u2fResponseWriteback ctapResponseInit front) middle).data =
      front ++ middle := by
    rw [data_writeback (by rw [hfront]; omega), hfront]
  have hlast : (u2fResponseWriteback (u2fResponseWriteback
      (u2fResponseWriteback ctapResponseInit front) middle) last).data = front ++ middle ++ last := by
    rw [data_writeback (by rw [hmiddle, List.length_append]; omega), hmiddle]
  rw [u2fFinish_of_ok rfl, hlast]
  rw [hlast, List.length_append, List.length_append]
  exact hroom

theorem u2fRegisterSigned_ok {r : U2fResult} {t : World} (hcert : env.attestationCertDer.length ≤ 1024)
    (hrun : u2fRegisterSigned env ctapResponseInit w = (.ok r, t)) :
    ∃ (key : Buf 32) (sigder : List UInt8),
      u2fFinish r = [5, 4] ++
        (cryptoEcc256DerivePublicKey env w.auth.secrets (madeHandle env w.auth.secrets key w.app)).bytes ++
        [UInt8.ofNat u2fKeyHandleSize] ++ madeHandle env w.auth.secrets key w.app ++
        env.attestationCertDer ++ sigder ++ [0x90, 0] ∧
      SignedBy env env.attestationKey ([0] ++ w.app ++ w.chal ++
        madeHandle env w.auth.secrets key w.app ++ [4] ++
        (cryptoEcc256DerivePublicKey env w.auth.secrets
          (madeHandle env w.auth.secrets key w.app)).bytes) sigder := by
  unfold u2fRegisterSigned at hrun
  obtain ⟨key, w₁, hkey, hrest⟩ := bind_ok.mp hrun
  obtain ⟨a, hdrawn, rfl⟩ := zoom_ok.mp hkey
  obtain ⟨-, rfl⟩ := Prod.mk.inj hdrawn
  rw [get_bind] at hrest
  obtain ⟨_, w₂, hload, hrest⟩ := bind_ok.mp hrest
  obtain ⟨b, hloaded, rfl⟩ := zoom_ok.mp hload
  rw [loadKey, modify_ok] at hloaded
  subst hloaded
  obtain ⟨sigder, w₃, hsign, hrest⟩ := bind_ok.mp hrest
  obtain ⟨_, w₄, -, hret⟩ := bind_ok.mp hrest
  obtain ⟨rfl, -⟩ := pure_ok.mp hret
  obtain ⟨rng, raw, drawn, hraw, rfl⟩ := u2fSign_ok hsign
  have hsig := length_sigder_le raw
  refine ⟨_, _, u2fFinish_pieces ?_, rng, raw, drawn, hraw, rfl⟩
  simp only [List.length_append, List.length_cons, List.length_nil, length_u2fMakeAuthTag,
    Buf.length_bytes]
  change 0 + 1 + 1 + 64 + (0 + 1) + (16 + 32) + _ + _ + 2 ≤ 4096
  omega

theorem u2fReply_register (hw : IsRegister w) (hreply : u2fReply env h w = .ok reply) :
    ∃ r t, Routine.answered h.answer (u2fRegister env ctapResponseInit) w = (.ok r, t) ∧
      reply = u2fFinish r := by
  have hext : Routine.answered h.answer (extendU2f env w.lc) w =
      (.ok (u2fSwInsNotSupported, ctapResponseInit), w) := by
    unfold extendU2f
    simp only [Routine.answered_bind, Routine.answered_liftM, get_bind, Routine.answered_ite]
    rw [if_neg (by rw [hw.ins]; decide), if_neg (by rw [hw.ins]; decide)]
    rfl
  obtain ⟨r, t, hrun, hr⟩ := u2fReply_of_switch hw.cla hext ⟨by decide, by decide⟩ hreply
  refine ⟨r, t, ?_, hr⟩
  unfold u2fSwitch at hrun
  simp only [Routine.answered_bind, Routine.answered_liftM, get_bind, Routine.answered_ite] at hrun
  rw [if_pos hw.ins, if_neg (not_not.mpr hw.lc)] at hrun
  exact hrun

/-- A registration that succeeds gives out a key that is derived from its handle. -/
theorem IsRegister.registers (hw : IsRegister w) (hreply : u2fReply env h w = .ok reply)
    (hok : reply.head? = some 5) : Registers env w reply := by
  obtain ⟨r, t, hrun, rfl⟩ := u2fReply_register hw hreply
  have hrefused {sw : UInt16} (hsw : sw ≠ u2fSwNoError) (hfive : (sw >>> 8).toUInt8 ≠ 5)
      (hr : r = (sw, ctapResponseInit)) : False := by
    rw [hr, u2fFinish_status hsw] at hok
    exact hfive (Option.some.inj hok)
  unfold u2fRegister at hrun
  simp only [Routine.answered_ite, Routine.answered_bind] at hrun
  split at hrun
  case isTrue => exact (hrefused (by decide) (by decide) (pure_ok.mp hrun).1.symm).elim
  case isFalse hcert =>
    rw [bind_of_ok (answered_presence h w)] at hrun
    split at hrun
    case isTrue => exact (hrefused (by decide) (by decide) (pure_ok.mp hrun).1.symm).elim
    case isFalse =>
      obtain ⟨key, sigder, heq, hsigned⟩ := u2fRegisterSigned_ok (not_lt.mp hcert) hrun
      have hsecrets : (w.withAuth (w.auth.waited h)).auth.secrets = w.auth.secrets :=
        waited_secrets ..
      rw [hsecrets] at heq hsigned
      have hlen : (madeHandle env w.auth.secrets key w.app).length = u2fKeyHandleSize :=
        length_madeHandle ..
      have hgiven : givenKey w.app (u2fFinish r) = ⟨w.app, madeHandle env w.auth.secrets key w.app,
          cryptoEcc256DerivePublicKey env w.auth.secrets (madeHandle env w.auth.secrets key w.app)⟩ := by
        rw [heq, List.append_assoc _ sigder, List.append_assoc _ env.attestationCertDer]
        exact givenKey_eq _ _ _ hlen _
      refine ⟨?_, ?_, ?_, sigder, ?_, ?_⟩ <;> rw [hgiven]
      · exact authentic_madeHandle ..
      · exact hlen
      · exact heq
      · exact hsigned

end Replies

/-! ### The relying party -/

section Verify

variable {env} (rp : RelyingParty env)

/-- A reply to an AUTHENTICATE message that the relying party accepts for this key. -/
def AcceptsReply (pub : Buf 64) (w : World) (reply : List UInt8) (up : UInt8) : Prop :=
  ∃ (count : UInt32) (sigder : List UInt8) (rs : ℕ × ℕ),
    reply = up :: Bytes.toBe32 count ++ sigder ++ [0x90, 0] ∧ Der.readPair sigder = some rs ∧
      rp.accepts pub (env.sha256 (w.app ++ [up] ++ Bytes.toBe32 count ++ w.chal)).bytes rs = true

/-- What is signed with the key is accepted over either protocol. -/
structure UsableOverBoth (k : GivenKey) (d : Token) : Prop where
  u2f : ∀ data h reply, AsksFor k (d.world.withBytes data) →
    u2fReply env h (d.world.withBytes data) = .ok reply →
      Authenticates h (d.world.withBytes data) reply
        (AcceptsReply rp k.pub (d.world.withBytes data) reply)
  ctap : ∀ c : AnsweredChain env, c.start = d.world.auth → c.bytes.getD 0 0 = ctapGetAssertionCmd →
    ∀ w ∈ c.answer :: c.rest, w.credentialId = k.handle →
      ∃ rs, Der.readPair w.signature = some rs ∧ rp.accepts k.pub (env.sha256 (w.authData ++
        (requestedAssertion env c.start c.bytes.tail).clientDataHash.bytes)).bytes rs = true

theorem GivenKey.Genuine.usable {k : GivenKey} {d : Token} (hk : k.Genuine env d.world.auth.secrets) :
    UsableOverBoth rp k d := by
  refine ⟨fun data h reply hw hreply => ?_, fun c hstart hcmd w hw hid => ?_⟩
  · have hanswered := hw.authenticates hk hreply
    refine ⟨hanswered.check, hanswered.unconfirmed, fun hp hsome => ?_, fun hp => ?_, hanswered.other⟩
    · obtain ⟨count, sigder, heq, hsigned⟩ := hanswered.confirmed hp hsome
      obtain ⟨rs, hread, haccepts⟩ := rp.accepts_signedBy hk.pub hsigned
      exact ⟨count, sigder, rs, heq, hread, haccepts⟩
    · obtain ⟨count, sigder, heq, hsigned⟩ := hanswered.noUser hp
      obtain ⟨rs, hread, haccepts⟩ := rp.accepts_signedBy hk.pub hsigned
      exact ⟨count, sigder, rs, heq, hread, haccepts⟩
  · have hlong : 24 ≤ k.handle.length := by
      rcases khl_of_authentic env hk.authentic with hlen | hlen <;> rw [hlen] <;> decide
    have hordinary : isExtensionRequest k.handle credentialIdSize = false := by
      have hsame := hk.ordinary
      unfold isExtensionRequest at *
      rw [decide_eq_true hlong] at hsame
      exact hsame
    have hsigned := c.signed hcmd w hw
    rw [Writer.Signed, hid, hstart] at hsigned
    rw [hstart]
    exact rp.accepts_signedBy hk.pub (hsigned ⟨by omega, hordinary⟩)

/-! ### Keys of U2F registrations -/

variable (env) in
/-- A run of a device that was never used before, up to a registration that succeeds. -/
structure HandleRegistration where
  device : World
  before : List Exchange
  data : Buf ctaphidBufferSize
  answers : Answers
  reply : List UInt8
  unused : device.auth.stored.isInitialized ≠ initializedMarker
  running : (run (Token.step env) (Token.powerUp env device) before).running = true
  asked : IsRegister ((run (Token.step env) (Token.powerUp env device) before).world.withBytes data)
  answered : u2fReply env answers
    ((run (Token.step env) (Token.powerUp env device) before).world.withBytes data) = .ok reply
  registered : reply.head? = some 5

namespace HandleRegistration

variable (r : HandleRegistration env)

/-- The device before the registration. -/
def start : Token := run (Token.step env) (Token.powerUp env r.device) r.before

/-- The message and the device that gets it. -/
def message : World := r.start.world.withBytes r.data

/-- The device behind it. -/
def done : Token := r.start.step env (.msg r.data r.answers)

def key : GivenKey := givenKey r.message.app r.reply

theorem registers : Registers env r.message r.reply := r.asked.registers r.answered r.registered

theorem secretsInv_start : SecretsInv r.start.machine :=
  Token.secretsInv_run (Token.secretsInv_powerUp r.unused) r.before

theorem secrets_done : r.done.world.auth.secrets = r.start.world.auth.secrets :=
  (Token.secretsInv_step r.secretsInv_start (.msg r.data r.answers)).2 id

end HandleRegistration

end Verify

/-- A registration that succeeds, at the end of a run. -/
def handleRegistrationOf (env : Env) (device : World) (before : List Exchange)
    (data : Buf ctaphidBufferSize) (h : Answers) : Option (HandleRegistration env) :=
  let d := run (Token.step env) (Token.powerUp env device) before
  let w := d.world.withBytes data
  match hreply : u2fReply env h w with
  | .ok reply =>
      if hok : device.auth.stored.isInitialized ≠ initializedMarker ∧ d.running = true ∧
          (w.cla = 0 ∧ w.ins = u2fRegisterIns ∧ w.lc = 64) ∧ reply.head? = some 5 then
        have hregister := hok.2.2.1
        some ⟨device, before, data, h, reply, hok.1, hok.2.1,
          ⟨hregister.1, hregister.2.1, hregister.2.2⟩, hreply, hok.2.2.2⟩
      else none
  | .error _ => none

/-- A registration that is carried out and of which something is found to hold. -/
theorem exists_handleRegistration {env : Env} {device : World} {before : List Exchange}
    {data : Buf ctaphidBufferSize} {h : Answers} {p : HandleRegistration env → Bool}
    (hp : (handleRegistrationOf env device before data h).any p = true) :
    ∃ r : HandleRegistration env, p r = true := by
  rcases hr : handleRegistrationOf env device before data h with _ | r <;> rw [hr] at hp
  · exact absurd hp Bool.false_ne_true
  · exact ⟨r, hp⟩

/-- An AUTHENTICATE message with this handle. -/
def demoAuthenticate (app handle : List UInt8) : Buf ctaphidBufferSize :=
  Buf.ofList _ ([0, u2fAuthenticateIns, u2fAuthenticateSign, 0, 0, 0, 0] ++ List.replicate 32 8 ++
    app ++ [UInt8.ofNat handle.length] ++ handle)

/-- Another user is registered over CTAP2, and the device is plugged in again. -/
def demoExchanges : List Exchange := demoMeanwhile.map .ctap

/-- The device behind these exchanges, with a message for a handle. -/
def demoAsked (d : Token) (app handle : List UInt8) : World :=
  (run (Token.step demoSigning) d demoExchanges).world.withBytes (demoAuthenticate app handle)

/-- The handle is asked for behind the exchanges, and the user agrees. -/
def demoSigns (d : Token) (app handle : List UInt8) : Bool :=
  let w := demoAsked d app handle
  decide (Along (Token.step demoSigning) (fun d x => ¬ d.Resets demoSigning x) d demoExchanges ∧
    isExtensionRequest handle handle.length = false ∧
    (w.cla = 0 ∧ w.ins = u2fAuthenticateIns ∧ w.app = app ∧ w.khl = handle.length ∧
      w.kh.take handle.length = handle) ∧
    w.p1 = u2fAuthenticateSign ∧ w.auth.presence Sample.touch ≠ 0) &&
  (u2fReply demoSigning Sample.touch w).isOk

theorem exists_accepted {d : Token} {k : GivenKey} (hd : demoSigns d k.app k.handle = true)
    (hk : UsableOverBoth demoParty k (run (Token.step demoSigning) d demoExchanges)) :
    ∃ w reply, AsksFor k w ∧ AcceptsReply demoParty k.pub w reply 1 := by
  unfold demoSigns at hd
  dsimp only at hd
  rw [Bool.and_eq_true, decide_eq_true_iff] at hd
  obtain ⟨⟨-, -, ⟨hcla, hins, happ, hkhl, hkh⟩, hp1, hsome⟩, hok⟩ := hd
  rcases hreply : u2fReply demoSigning Sample.touch (demoAsked d k.app k.handle) with e | reply <;>
    rw [hreply] at hok
  · cases hok
  · have hasked : AsksFor k (demoAsked d k.app k.handle) := ⟨hcla, hins, happ, hkhl, hkh⟩
    exact ⟨_, reply, hasked, (hk.u2f _ _ reply hasked hreply).confirmed hp1 hsome⟩

theorem along_of_demoSigns {d : Token} {app handle : List UInt8} (hd : demoSigns d app handle = true) :
    Along (Token.step demoSigning) (fun d x => ¬ d.Resets demoSigning x) d demoExchanges ∧
      isExtensionRequest handle handle.length = false := by
  unfold demoSigns at hd
  dsimp only at hd
  rw [Bool.and_eq_true, decide_eq_true_iff] at hd
  exact ⟨hd.1.1, hd.1.2.1⟩

/-- The device of a registration over CTAP2. -/
def demoToken (r : Ctap.Registration demoSigning) : Token :=
  ⟨Sample.world.withAuth r.done.auth, r.done.running⟩

end NitrokeyFido2.Hid
