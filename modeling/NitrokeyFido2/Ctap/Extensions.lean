import NitrokeyFido2.Ctap.Chain
import NitrokeyFido2.Ctap.Sample

/-!
What the responses to extension requests tell of the stack.

Both transports hand a local array to `bridge_u2f_to_solo` and send 72 bytes of
it, whatever the operation has written there. Here is the side of the CTAP2
requests, where these bytes take the place of a signature.
-/

namespace NitrokeyFido2.Ctap

open Proc Resumption

variable (env : Env)

/-! ### Contents of the array -/

/-- The same environment, with these contents in the array for signatures. -/
def withStale (env : Env) (stale : ℕ → UInt8) : Env :=
  { env with stack := fun v => if v = .signature then stale else env.stack v }

/-- The array before anything is written to it. -/
def staleBuf (stale : ℕ → UInt8) (n : ℕ) : Buf n := ⟨(List.range n).map stale, by simp⟩

section Stale

variable {env} {stale : ℕ → UInt8}

theorem uninit_withStale (n : ℕ) : (withStale env stale).uninit .signature n = staleBuf stale n := rfl

theorem bridgeU2fToSolo_withStale (output : Buf 71) (keyh : List UInt8) :
    bridgeU2fToSolo (withStale env stale) output keyh = bridgeU2fToSolo env output keyh := rfl

theorem extendFido2_withStale (id : CredentialId) (output : Buf 72) :
    extendFido2 (withStale env stale) id output = extendFido2 env id output := rfl

theorem ctapAtomicCount_withStale : ctapAtomicCount (withStale env stale) = ctapAtomicCount env := rfl

theorem signAssertion_withStale (size : ℕ) (hash : Buf clientDataHashSize) :
    signAssertion (withStale env stale) size hash = signAssertion env size hash := rfl

theorem ctapAddUserEntity_withStale (user : UserEntity) (v : Bool) :
    ctapAddUserEntity (withStale env stale) user v = ctapAddUserEntity env user v := rfl

end Stale

/-- What is sent does not depend on the contents of the array. -/
def NoLeak {α : Type} (sent : (ℕ → UInt8) → α) : Prop := ∀ stale stale', sent stale = sent stale'

/-! ### The operations -/

abbrev walletVersion : UInt8 := 0x14
abbrev walletRng : UInt8 := 0x15
abbrev walletBootloader : UInt8 := 0x20

/-- The operations that succeed, where the bootloader asks the user. -/
def Succeeds (op : UInt8) (agreed : Prop) : Prop :=
  op = walletVersion ∨ op = walletRng ∨ (op = walletBootloader ∧ agreed)

instance (op : UInt8) (agreed : Prop) [Decidable agreed] : Decidable (Succeeds op agreed) :=
  inferInstanceAs (Decidable (_ ∨ _ ∨ _ ∧ _))

/-- The user agrees to enter the bootloader. -/
def confirmed (a : Authenticator) (h : Answers) : Bool :=
  match a.requestSource with
  | .u2f => a.presence h = 1
  | .fido2 => presenceStatus (a.presence h) = 0
  | .unknown => false

/-- What an operation returns, and what it leaves in the array. -/
def soloReply (a : Authenticator) (h : Answers) (keyh : List UInt8) (output : Buf 71) :
    UInt8 × Buf 71 :=
  match keyh.getD 0 0 with
  | 0x14 => (0, output.write 0 env.soloVersion.bytes)
  | 0x20 => (if confirmed a h then 0 else ctap2ErrOperationDenied, output)
  | 0x15 => (0, a.drawn env 71)
  | _ => (ctap1ErrInvalidCommand, output)

section Solo

variable {env} {a : Authenticator} {h : Answers} {keyh : List UInt8}

theorem feedback_answered (a : Authenticator) (h : Answers) :
    ∃ t, CtapM.answered h (match a.requestSource with
      | .u2f => do
          let ret ← ctapUserPresenceTestExtended 10000
          pure (decide (ret = 1))
      | .fido2 => do
          let ret ← ctap2UserPresenceTest .bootloader
          pure (decide (ret = 0))
      | .unknown => pure false : CtapM Bool) a = (.ok (confirmed a h), t) := by
  unfold confirmed CtapM.answered
  cases a.requestSource with
  | u2f =>
      have htest : Routine.answered h.answer (ctapUserPresenceTestExtended 10000) a =
          (.ok (a.presence h), a.waited h) := answered_feedback 10000 true h a
      rw [Routine.answered_bind, bind_of_ok htest]
      exact ⟨_, rfl⟩
  | fido2 =>
      have htest : Routine.answered h.answer (ctap2UserPresenceTest .bootloader) a =
          (.ok (presenceStatus (a.presence h)), a.waited h) := answered_testWithStatus 10000 true h a
      rw [Routine.answered_bind, bind_of_ok htest]
      exact ⟨_, rfl⟩
  | unknown => exact ⟨a, rfl⟩

/-- Operations come to their end, in a state that the array does not tell. -/
theorem bridgeU2fToSolo_answered (a : Authenticator) (h : Answers) (keyh : List UInt8) :
    ∃ t, ∀ output, CtapM.answered h (bridgeU2fToSolo env output keyh) a =
      (.ok (soloReply env a h keyh output), t) := by
  unfold bridgeU2fToSolo soloReply
  generalize keyh.getD 0 0 = op
  split
  · exact ⟨a, fun _ => rfl⟩
  · -- the user is asked, on the transport that the request came from
    obtain ⟨t, ht⟩ := feedback_answered a h
    simp only [CtapM.answered, Routine.answered_bind, Routine.answered_liftM, get_bind,
      Routine.answered_ite]
    by_cases hc : confirmed a h = true
    · refine ⟨{ t with trace := t.trace ++ [.bootloader] }, fun output => (bind_of_ok ht).trans ?_⟩
      rw [if_pos hc, if_pos hc]
      rfl
    · refine ⟨t, fun output => (bind_of_ok ht).trans ?_⟩
      rw [if_neg hc, if_neg hc]
      rfl
  · exact ⟨_, fun _ => rfl⟩
  · refine ⟨a, fun output => ?_⟩
    first
    | rfl
    | split <;> first | contradiction | rfl

theorem soloReply_succeeds (output : Buf 71) :
    (soloReply env a h keyh output).1 = 0 ↔ Succeeds (keyh.getD 0 0) (confirmed a h = true) := by
  unfold soloReply Succeeds
  generalize keyh.getD 0 0 = op
  split
  · exact iff_of_true rfl (.inl rfl)
  · by_cases hc : confirmed a h = true
    · exact iff_of_true (if_pos hc) (.inr (.inr ⟨rfl, hc⟩))
    · refine iff_of_false ?_ ?_
      · rw [if_neg hc]
        exact (by decide : ctap2ErrOperationDenied ≠ 0)
      · rintro (hop | hop | ⟨-, hagreed⟩)
        · exact absurd hop (by decide)
        · exact absurd hop (by decide)
        · exact hc hagreed
  · exact iff_of_true rfl (.inr (.inl rfl))
  · refine iff_of_false (by decide : ctap1ErrInvalidCommand ≠ 0) ?_
    rintro (hop | hop | ⟨hop, -⟩) <;> contradiction

/-- What an operation returns is not in the array. -/
theorem soloReply_status (output output' : Buf 71) :
    (soloReply env a h keyh output).1 = (soloReply env a h keyh output').1 := by
  unfold soloReply
  split <;> rfl

/-- Only the random bytes take up all of the array. -/
theorem soloReply_output (hop : keyh.getD 0 0 = walletRng) (output output' : Buf 71) :
    soloReply env a h keyh output = soloReply env a h keyh output' := by
  unfold soloReply
  rw [hop]
  rfl

theorem soloReply_last (hop : keyh.getD 0 0 ≠ walletRng) (output : Buf 71) :
    (soloReply env a h keyh output).2.byte 70 = output.byte 70 := by
  unfold soloReply
  generalize keyh.getD 0 0 = op at *
  split
  · refine Buf.byte_write_other ?_ ?_
    · rw [env.soloVersion.length_bytes]
      decide
    · rw [env.soloVersion.length_bytes]
      decide
  · rfl
  · exact absurd rfl hop
  · rfl

end Solo

/-! ### What the encoder tells of a string -/

/-- The items are accepted, one after the other. -/
def CborWriter.takes (e : CborWriter) (capacity : ℕ) : List EncOp → List EncOp → Bool
  | _, [] => true
  | ops, op :: rest => e.accepts capacity ops op && e.takes capacity (ops ++ [op]) rest

/-- Whether items are accepted does not depend on the contents of a byte string,
and the contents can be read off the encoding. -/
structure CborWriter.Verbatim (e : CborWriter) : Prop where
  accepts_string : ∀ capacity ops (b b' : List UInt8), b.length = b'.length →
    e.accepts capacity ops (.byteString b) = e.accepts capacity ops (.byteString b')
  accepts_after : ∀ capacity ops rest op (b b' : List UInt8), b.length = b'.length →
    e.accepts capacity (ops ++ .byteString b :: rest) op =
      e.accepts capacity (ops ++ .byteString b' :: rest) op
  bytes_inj : ∀ capacity ops rest (b b' : List UInt8), b.length = b'.length →
    e.takes capacity ops (.byteString b :: rest) = true →
    e.bytes capacity (ops ++ .byteString b :: rest) = e.bytes capacity (ops ++ .byteString b' :: rest) →
    b = b'

section Takes

variable {e : CborWriter} {capacity : ℕ}

theorem CborWriter.takes_append (xs ys : List EncOp) (ops : List EncOp) :
    e.takes capacity ops (xs ++ ys) = (e.takes capacity ops xs && e.takes capacity (ops ++ xs) ys) := by
  induction xs generalizing ops with
  | nil => rw [List.nil_append, List.append_nil, takes, Bool.true_and]
  | cons x xs ih =>
      rw [List.cons_append, takes, takes, ih, List.append_assoc, List.singleton_append, Bool.and_assoc]

theorem CborWriter.emit_eq (op : EncOp) (w : Writer) :
    e.emit op w = (if e.accepts w.capacity w.ops op then .ok () else .error ctap2ErrCborParsing,
      { w with ops := w.ops ++ [op] }) := rfl

theorem CborWriter.emitAll_eq (ops : List EncOp) (w : Writer) :
    ∃ w', e.emitAll ops w =
      if e.takes w.capacity w.ops ops then (.ok (), { w with ops := w.ops ++ ops })
      else (.error ctap2ErrCborParsing, w') := by
  induction ops generalizing w with
  | nil => exact ⟨w, by rw [takes, if_pos rfl, List.append_nil]; rfl⟩
  | cons op ops ih =>
      obtain ⟨w', hw'⟩ := ih { w with ops := w.ops ++ [op] }
      unfold emitAll takes
      rcases hop : e.accepts w.capacity w.ops op with _ | _
      · refine ⟨{ w with ops := w.ops ++ [op] }, ?_⟩
        rw [Bool.false_and, if_neg Bool.false_ne_true]
        exact bind_of_error (by rw [emit_eq, hop]; rfl)
      · refine ⟨w', ?_⟩
        have hemit : e.emit op w = (.ok (), { w with ops := w.ops ++ [op] }) := by
          rw [emit_eq, hop]
          rfl
        rw [bind_of_ok hemit, hw', Bool.true_and, List.append_assoc, List.singleton_append]

theorem CborWriter.emitAll_append (xs ys : List EncOp) :
    e.emitAll (xs ++ ys) = e.emitAll xs >>= fun _ => e.emitAll ys := by
  induction xs with
  | nil => rfl
  | cons x xs ih => rw [List.cons_append, emitAll, emitAll, ih, bind_assoc]

theorem CborWriter.emitAll_singleton (op : EncOp) : e.emitAll [op] = e.emit op :=
  bind_pure_unit

/-- Items that a request writes. -/
theorem encode_emitAll (w : Writer) (ops : List EncOp) (a : Authenticator) :
    encode w (e.emitAll ops) a =
      if e.takes w.capacity w.ops ops then (.ok { w with ops := w.ops ++ ops }, a)
      else (.error (.status ctap2ErrCborParsing), a) := by
  obtain ⟨w', hw'⟩ := e.emitAll_eq ops w
  unfold encode ofStatus encodeInto
  rw [hw']
  by_cases htakes : e.takes w.capacity w.ops ops = true
  · rw [if_pos htakes, if_pos htakes]
    rfl
  · rw [if_neg htakes, if_neg htakes]
    rfl

theorem encode_bind_get {α : Type} (w : Writer) (m : Encode Unit) (f : Authenticator → Writer → Device α)
    (a : Authenticator) :
    (encode w m >>= fun w => Proc.get >>= fun b => f b w) a = (encode w m >>= f a) a := by
  unfold encode ofStatus
  rw [bind_apply, bind_apply]
  rcases encodeInto w m with _ | w' <;> rfl

theorem encode_emitAll_append (w : Writer) (xs ys : List EncOp) (a : Authenticator) :
    (encode w (e.emitAll xs) >>= fun w => encode w (e.emitAll ys)) a =
      encode w (e.emitAll (xs ++ ys)) a := by
  rw [encode_emitAll, CborWriter.takes_append]
  by_cases hxs : e.takes w.capacity w.ops xs = true
  · rw [bind_of_ok ((encode_emitAll w xs a).trans (if_pos hxs)), encode_emitAll, hxs, Bool.true_and,
      List.append_assoc]
  · rw [bind_of_error ((encode_emitAll w xs a).trans (if_neg hxs)), Bool.eq_false_iff.mpr hxs]
    rfl

theorem CborWriter.Verbatim.takes_congr (he : e.Verbatim) {b b' : List UInt8}
    (hlen : b.length = b'.length) (ops rest : List EncOp) :
    e.takes capacity ops (.byteString b :: rest) = e.takes capacity ops (.byteString b' :: rest) := by
  have hafter (xs : List EncOp) (pre : List EncOp) :
      e.takes capacity (ops ++ .byteString b :: pre) xs =
        e.takes capacity (ops ++ .byteString b' :: pre) xs := by
    induction xs generalizing pre with
    | nil => rfl
    | cons x xs ih =>
        rw [takes, takes, he.accepts_after _ _ _ _ _ _ hlen, List.append_assoc, List.append_assoc,
          List.cons_append, List.cons_append, ih]
  rw [takes, takes, he.accepts_string _ _ _ _ hlen, hafter rest []]

end Takes

/-! ### The credential id of an assertion -/

/-- A call of `ctap_end_get_assertion`, the items behind it, and the list that is
saved then. -/
structure EndCall where
  writer : Writer
  cred : CredentialDescriptor
  size : ℕ
  hash : Buf clientDataHashSize
  total : List EncOp
  saved : Option (ℕ × Extensions)

namespace EndCall

def answer (c : EndCall) : CtapM Writer := do
  let w ← ctapEndGetAssertion env c.writer c.cred c.size c.hash
  encode w (env.writer.emitAll (c.total ++ [.closeContainer]))

def save (c : EndCall) : Device Unit :=
  match c.saved with
  | some (count, ext) => saveCredentialList c.hash count ext
  | none => pure ()

/-- The list can be saved. -/
def Saves (c : EndCall) : Prop := ∀ s ∈ c.saved, s.1 ≤ allowListMaxSize - 1

/-- What is written in front of the signature, and behind it. -/
def start (c : EndCall) (d : Authenticator) : List EncOp :=
  .int 1 :: descriptorItems (d.gas.returnedId c.cred) ++
    [.int 2, .byteString (d.gas.authBytes c.size)]

def after (c : EndCall) (d : Authenticator) : List EncOp :=
  returnedUser c.cred.credential.user (d.gas.userVerified ≠ 0) ++ (c.total ++ [.closeContainer])

def items (c : EndCall) (d : Authenticator) (sigder : List UInt8) : List EncOp :=
  c.start d ++ [.int 3] ++ .byteString sigder :: c.after d

/-- The call asks for an extension. -/
abbrev IsExtension (c : EndCall) : Prop :=
  isExtensionRequest c.cred.credential.id.bytes credentialIdSize = true

/-- The operation that it asks for. -/
def operation (c : EndCall) : UInt8 := c.cred.credential.id.bytes.getD 0 0

end EndCall

/-- The call of a getAssertion. -/
def getAssertionEndCall (request : List UInt8) : CtapM EndCall := do
  (failIfLocked : Device Unit)
  let (n, ga, cred, w) ← beginAssertion env freshWriter request
  let size ← (
    if isExtensionRequest cred.id.bytes credentialIdSize then
      (extensionAuthData env ga.rp : Device ℕ)
    else assertionAuthData env ga : CtapM ℕ)
  let a ← (Proc.get : Device Authenticator)
  pure ⟨w, a.gas.creds.getD 0 default, size, ga.clientDataHash,
    if n > 1 then [.int 5, .int n] else [], some (n - 1, ga.extensions)⟩

/-- The call of a getNextAssertion. -/
def nextAssertionEndCall : CtapM EndCall := do
  let a ← (Proc.get : Device Authenticator)
  failIf (a.gas.lastcmd ≠ ctapGetAssertionCmd) ctap2ErrNotAllowed
  let (i, ext, w) ← (beginNextAssertion env freshWriter : Device _)
  let size ← (extendNextAssertion env ext : Device ℕ)
  let a ← (Proc.get : Device Authenticator)
  pure ⟨w, a.gas.creds.getD i default, size, a.gas.clientDataHash, [], none⟩

def endCallInCommand (cmd : UInt8) (request : List UInt8) : CtapM EndCall :=
  if cmd = ctapGetAssertionCmd then getAssertionEndCall env request else nextAssertionEndCall env

/-- The call of a request, and the state it is made in. -/
def Authenticator.endCall (a : Authenticator) (bytes : List UInt8) (h : Answers) :
    Except Stop EndCall × Authenticator :=
  CtapM.answered h (endCallInCommand env (bytes.getD 0 0) bytes.tail) { a with trace := [] }

section Fido2

variable {env} {stale : ℕ → UInt8} {h : Answers}

theorem endCall_withStale (a : Authenticator) (bytes : List UInt8) :
    a.endCall (withStale env stale) bytes h = a.endCall env bytes h := rfl

/-- An assertion request is a call of `ctap_end_get_assertion` and what comes
after it. -/
theorem dispatch_endCall {a : Authenticator} {bytes : List UInt8}
    (hcmd : bytes.getD 0 0 = ctapGetAssertionCmd ∨ bytes.getD 0 0 = getNextAssertionCmd) :
    a.dispatch env bytes h =
      (CtapM.answered h (endCallInCommand env (bytes.getD 0 0) bytes.tail) >>= fun c =>
        CtapM.answered h (c.answer env) >>= fun w => c.save >>= fun _ => pure (some w))
        { a with trace := [] } := by
  rcases hcmd with hcmd | hcmd
  · rw [dispatch_getAssertion env hcmd, hcmd, endCallInCommand, if_pos rfl,
      answered_ctapGetAssertion]
    unfold getAssertionEndCall finishAssertion EndCall.answer EndCall.save
    simp only [CtapM.answered, Routine.answered_bind, Routine.answered_liftM, Routine.answered_pure,
      Routine.answered_ite, bind_assoc, pure_bind, CborWriter.emitAll_append,
      CborWriter.emitAll_singleton]
  · rw [dispatch_getNextAssertion env hcmd, hcmd, endCallInCommand, if_neg (by decide),
      answered_ctapGetNextAssertion]
    unfold nextAssertionEndCall EndCall.answer EndCall.save
    simp only [CtapM.answered, Routine.answered_bind, Routine.answered_liftM, Routine.answered_pure,
      bind_assoc, pure_bind, CborWriter.emitAll_append, CborWriter.emitAll_singleton, get_bind]
    rfl

/-- The bytes in place of the signature. -/
def soloSigder (r : UInt8 × Buf 71) : List UInt8 := r.1 :: r.2.bytes

theorem length_soloSigder (r : UInt8 × Buf 71) : (soloSigder r).length = 72 := by
  rw [soloSigder, List.length_cons, r.2.length_bytes]

theorem extendFido2_answered {id : CredentialId}
    (hext : isExtensionRequest id.bytes credentialIdSize = true) (a : Authenticator) (h : Answers) :
    ∃ b t, t.gas.userVerified = a.gas.userVerified ∧ ∀ output,
      CtapM.answered h (extendFido2 env id output) a =
        (.ok (some (soloSigder (soloReply env b h id.bytes (Buf.ofList 71 (output.slice 1 71))))),
          t) := by
  obtain ⟨t, ht⟩ := @bridgeU2fToSolo_answered env { a with requestSource := .fido2 } h id.bytes
  have hrun (output : Buf 72) : CtapM.answered h (extendFido2 env id output) a =
      (.ok (some (soloSigder (soloReply env { a with requestSource := .fido2 } h id.bytes
        (Buf.ofList 71 (output.slice 1 71))))), t) := by
    unfold extendFido2
    rw [if_pos hext]
    simp only [CtapM.answered, Routine.answered_bind, Routine.answered_liftM]
    rw [bind_of_ok rfl, bind_of_ok (ht _)]
    rfl
  refine ⟨_, t, ?_, hrun⟩
  have hkeeps : Routine.Keeps (Changed signingMayChange) (extendFido2 env id (Buf.zero 72)) :=
    inferInstance
  exact (hkeeps.answered h.answer).apply (hrun _) .userVerified (by decide)

/-- The signature, unless an extension request has left bytes in its place. -/
def signedOr (env : Env) (c : EndCall) : Option (List UInt8) → Device (List UInt8)
  | some out => pure out
  | none => signAssertion env c.size c.hash

theorem answered_answer (env : Env) (c : EndCall) (h : Answers) (d : Authenticator) :
    CtapM.answered h (c.answer env) d =
      (encode c.writer (env.writer.emitAll (c.start d)) >>= fun w =>
        loadKey (cryptoEcc256LoadKey env d.secrets (d.gas.returnedId c.cred)) >>= fun _ =>
        CtapM.answered h (extendFido2 env c.cred.credential.id (env.uninit .signature 72)) >>=
          fun ext => signedOr env c ext >>= fun sigder =>
        encode w (env.writer.emitAll [.int 3, .byteString sigder]) >>= fun w => Proc.get >>= fun a =>
        encode w (env.writer.emitAll
          (returnedUser c.cred.credential.user (a.gas.userVerified ≠ 0))) >>= fun w =>
        encode w (env.writer.emitAll (c.total ++ [.closeContainer]))) d := by
  have huser (a : Authenticator) : (if c.cred.credential.user.idSize ≠ 0 then do
        env.writer.emit (.int 4)
        ctapAddUserEntity env c.cred.credential.user (a.gas.userVerified ≠ 0)
      else pure () : Encode Unit) =
      env.writer.emitAll (returnedUser c.cred.credential.user (a.gas.userVerified ≠ 0)) := by
    unfold returnedUser
    split <;> rfl
  have hstart : (do
      env.writer.emit (.int 1)
      ctapAddCredentialDescriptor env d.gas.custom c.cred.credential c.cred.type
      env.writer.emitAll [.int 2, .byteString (d.gas.authBytes c.size)] : Encode Unit) =
      env.writer.emitAll (c.start d) := by
    unfold EndCall.start
    rw [CborWriter.emitAll_append]
    exact (bind_assoc ..).symm
  unfold EndCall.answer ctapEndGetAssertion
  simp only [CtapM.answered, Routine.answered_bind, Routine.answered_liftM, get_bind, bind_assoc,
    huser]
  rw [← hstart]
  rfl

theorem answer_of_extension {c : EndCall} {d t : Authenticator} {sig : List UInt8}
    (hrun : CtapM.answered h (extendFido2 env c.cred.credential.id (env.uninit .signature 72))
      { d with signingKey := cryptoEcc256LoadKey env d.secrets (d.gas.returnedId c.cred) } =
        (.ok (some sig), t)) (huv : t.gas.userVerified = d.gas.userVerified) :
    ∃ t', CtapM.answered h (c.answer env) d =
      if env.writer.takes c.writer.capacity c.writer.ops (c.items d sig) then
        (.ok { c.writer with ops := c.writer.ops ++ c.items d sig }, t)
      else (.error (.status ctap2ErrCborParsing), t') := by
  have hsplit : c.items d sig = c.start d ++ ([.int 3, .byteString sig] ++ c.after d) := by
    unfold EndCall.items
    rw [List.append_assoc]
    rfl
  rw [hsplit, CborWriter.takes_append, answered_answer]
  by_cases h₁ : env.writer.takes c.writer.capacity c.writer.ops (c.start d) = true
  · rw [bind_of_ok ((encode_emitAll _ _ d).trans (if_pos h₁)), bind_of_ok rfl, bind_of_ok hrun,
      bind_of_ok rfl, h₁, Bool.true_and]
    refine ⟨t, ?_⟩
    -- nothing changes the state any more
    have hrest : (encode { c.writer with ops := c.writer.ops ++ c.start d }
          (env.writer.emitAll [.int 3, .byteString sig]) >>= fun w => Proc.get >>= fun a =>
        encode w (env.writer.emitAll
          (returnedUser c.cred.credential.user (a.gas.userVerified ≠ 0))) >>= fun w =>
        encode w (env.writer.emitAll (c.total ++ [.closeContainer]))) t =
        encode { c.writer with ops := c.writer.ops ++ c.start d }
          (env.writer.emitAll ([.int 3, .byteString sig] ++ c.after d)) t := by
      rw [encode_bind_get, ← encode_emitAll_append, EndCall.after, huv]
      exact bind_congr_of_ok fun w a _ => encode_emitAll_append w _ _ a
    rw [hrest, encode_emitAll, List.append_assoc]
  · rw [Bool.eq_false_iff.mpr h₁, Bool.false_and]
    exact ⟨d, bind_of_error ((encode_emitAll _ _ d).trans (if_neg h₁))⟩

/-- With an extension request in the credential id, the answer is written unless
the encoder refuses it. -/
theorem EndCall.answer_answered (he : env.writer.Verbatim) {c : EndCall} (hext : c.IsExtension)
    (d : Authenticator) (h : Answers) :
    ∃ b t, ∀ stale, ∃ t', CtapM.answered h (c.answer (withStale env stale)) d =
      if env.writer.takes c.writer.capacity c.writer.ops (c.items d (List.replicate 72 0)) then
        (.ok { c.writer with ops := c.writer.ops ++ c.items d (soloSigder (soloReply env b h
          c.cred.credential.id.bytes (Buf.ofList 71 ((staleBuf stale 72).slice 1 71)))) }, t)
      else (.error (.status ctap2ErrCborParsing), t') := by
  let k := cryptoEcc256LoadKey env d.secrets (d.gas.returnedId c.cred)
  obtain ⟨b, t, huv, hrun⟩ := @extendFido2_answered env _ hext { d with signingKey := k } h
  refine ⟨b, t, fun stale => ?_⟩
  have hlen : (List.replicate 72 (0 : UInt8)).length = (soloSigder (soloReply env b h
      c.cred.credential.id.bytes (Buf.ofList 71 ((staleBuf stale 72).slice 1 71)))).length := by
    rw [length_soloSigder]
    rfl
  have htakes := @he.takes_congr _ c.writer.capacity _ _ hlen
    (c.writer.ops ++ (c.start d ++ [.int 3])) (c.after d)
  unfold EndCall.items
  rw [CborWriter.takes_append, htakes, ← CborWriter.takes_append]
  exact @answer_of_extension (withStale env stale) _ _ _ _ _ (hrun (staleBuf stale 72)) huv

theorem save_cases (c : EndCall) (t : Authenticator) :
    (c.Saves ∧ ∃ t', c.save t = (.ok (), t')) ∨
      (¬ c.Saves ∧ c.save t = (.error (.status ctap2ErrTooManyElements), t)) := by
  unfold EndCall.Saves EndCall.save
  rcases c.saved with _ | ⟨count, ext⟩
  · exact .inl ⟨fun s hs => (nomatch hs), t, rfl⟩
  · by_cases hfew : count ≤ allowListMaxSize - 1
    · refine .inl ⟨fun s hs => by rwa [← Option.some.inj hs], ?_⟩
      dsimp only
      unfold saveCredentialList
      rw [failIf_neg (not_lt.mpr hfew)]
      exact ⟨_, rfl⟩
    · refine .inr ⟨fun hall => hfew (hall _ rfl), ?_⟩
      dsimp only
      unfold saveCredentialList
      rw [failIf_pos (not_le.mp hfew)]
      rfl

/-- The answer is sent. -/
def EndCall.Sent (env : Env) (c : EndCall) (d : Authenticator) : Prop :=
  env.writer.takes c.writer.capacity c.writer.ops (c.items d (List.replicate 72 0)) = true ∧ c.Saves

/-- What the host gets for an assertion request that asks for an extension. -/
theorem request_extension (he : env.writer.Verbatim) {a d : Authenticator} {bytes : List UInt8}
    (hcmd : bytes.getD 0 0 = ctapGetAssertionCmd ∨ bytes.getD 0 0 = getNextAssertionCmd)
    {c : EndCall} (hcall : a.endCall env bytes h = (.ok c, d)) (hext : c.IsExtension) :
    (¬ c.Sent env d ∧ ∃ code, ∀ stale, (a.request (withStale env stale) bytes h).1 = .ok ⟨code, []⟩) ∨
      (c.Sent env d ∧ ∃ b, ∀ stale, (a.request (withStale env stale) bytes h).1 =
        .ok ⟨0, env.writer.bytes c.writer.capacity (c.writer.ops ++ c.items d (soloSigder (soloReply env b h
          c.cred.credential.id.bytes (Buf.ofList 71 ((staleBuf stale 72).slice 1 71)))))⟩) := by
  obtain ⟨b, t, hanswer⟩ := EndCall.answer_answered he hext d h
  have hdispatch (stale : ℕ → UInt8) : a.dispatch (withStale env stale) bytes h =
      (CtapM.answered h (c.answer (withStale env stale)) >>= fun w => c.save >>= fun _ =>
        pure (some w)) d := by
    have hcall' : a.endCall (withStale env stale) bytes h = (.ok c, d) := hcall
    rw [dispatch_endCall hcmd, bind_of_ok hcall']
  by_cases htakes : env.writer.takes c.writer.capacity c.writer.ops (c.items d (List.replicate 72 0)) = true
  · rcases save_cases c t with ⟨hsaves, t', hsave⟩ | ⟨hsaves, hsave⟩
    · refine .inr ⟨⟨htakes, hsaves⟩, b, fun stale => ?_⟩
      obtain ⟨t₁, hrun⟩ := hanswer stale
      rw [if_pos htakes] at hrun
      rw [Authenticator.request_eq, hdispatch, bind_of_ok hrun, bind_of_ok hsave]
      rfl
    · refine .inl ⟨fun hsent => hsaves hsent.2, ctap2ErrTooManyElements, fun stale => ?_⟩
      obtain ⟨t₁, hrun⟩ := hanswer stale
      rw [if_pos htakes] at hrun
      rw [Authenticator.request_eq, hdispatch, bind_of_ok hrun, bind_of_error hsave]
      rfl
  · refine .inl ⟨fun hsent => htakes hsent.1, ctap2ErrCborParsing, fun stale => ?_⟩
    obtain ⟨t₁, hrun⟩ := hanswer stale
    rw [if_neg htakes] at hrun
    rw [Authenticator.request_eq, hdispatch, bind_of_error hrun]
    rfl

/-- The response depends on the array if and only if it is sent and is not a
string of random bytes. -/
theorem noLeak_fido2_iff (he : env.writer.Verbatim) {a d : Authenticator} {bytes : List UInt8}
    (hcmd : bytes.getD 0 0 = ctapGetAssertionCmd ∨ bytes.getD 0 0 = getNextAssertionCmd)
    {c : EndCall} (hcall : a.endCall env bytes h = (.ok c, d)) (hext : c.IsExtension) :
    NoLeak (fun stale => (a.request (withStale env stale) bytes h).1) ↔
      c.operation = walletRng ∨ ¬ c.Sent env d := by
  rcases request_extension he hcmd hcall hext with ⟨hsent, code, hreply⟩ | ⟨hsent, b, hreply⟩
  · exact iff_of_true (fun stale stale' => (hreply stale).trans (hreply stale').symm) (.inr hsent)
  by_cases hop : c.operation = walletRng
  · refine iff_of_true (fun stale stale' => ?_) (.inl hop)
    dsimp only
    rw [hreply, hreply, soloReply_output hop]
  · refine iff_of_false (fun hnone => ?_) fun hc => hc.elim hop fun hc => hc hsent
    have hsame := hnone (fun _ => 0) fun _ => 1
    dsimp only at hsame
    rw [hreply, hreply] at hsame
    have hbytes := congrArg CtapResult.data (Except.ok.inj hsame)
    dsimp only [EndCall.items] at hbytes
    have htakes := hsent.1
    rw [EndCall.items, CborWriter.takes_append, Bool.and_eq_true] at htakes
    have hlen (r : UInt8 × Buf 71) : (List.replicate 72 (0 : UInt8)).length = (soloSigder r).length := by
      rw [length_soloSigder]
      rfl
    have hbytes := (congrArg (env.writer.bytes _) (List.append_assoc ..)).trans
      (hbytes.trans (congrArg (env.writer.bytes _) (List.append_assoc ..).symm))
    have hsame := he.bytes_inj _ _ _ _ _ ((hlen _).symm.trans (hlen _))
      ((he.takes_congr (hlen _) _ _).symm.trans htakes.2) hbytes
    -- the last byte is as it was
    have hout : (soloReply env b h c.cred.credential.id.bytes
          (Buf.ofList 71 ((staleBuf (fun _ => 0) 72).slice 1 71))).2.byte 70 =
        (soloReply env b h c.cred.credential.id.bytes
          (Buf.ofList 71 ((staleBuf (fun _ => 1) 72).slice 1 71))).2.byte 70 :=
      congrArg (fun l : List UInt8 => l.getD 70 0) (List.cons.inj hsame).2
    rw [soloReply_last hop, soloReply_last hop] at hout
    exact absurd hout (by decide +kernel)

end Fido2

/-! ### The encoder of the sample environment -/

theorem Sample.length_encodeOps_string (ops rest : List EncOp) {b b' : List UInt8}
    (hlen : b.length = b'.length) :
    (encodeOps (ops ++ .byteString b :: rest)).length =
      (encodeOps (ops ++ .byteString b' :: rest)).length := by
  simp [encodeOps, encodeOp, hlen]

theorem Sample.writer_verbatim : Sample.writer.Verbatim where
  accepts_string capacity ops b b' hlen := by
    show decide _ = decide _
    rw [length_encodeOps_string ops [] hlen]
  accepts_after capacity ops rest op b b' hlen := by
    show decide _ = decide _
    rw [List.append_assoc, List.append_assoc, List.cons_append, List.cons_append,
      length_encodeOps_string ops (rest ++ [op]) hlen]
  bytes_inj capacity ops rest b b' hlen _ hbytes := by
    have hbytes : encodeOps (ops ++ .byteString b :: rest) =
        encodeOps (ops ++ .byteString b' :: rest) := hbytes
    simp only [encodeOps, List.flatMap_append, List.flatMap_cons, encodeOp, hlen,
      List.append_assoc, List.append_cancel_left_eq] at hbytes
    exact List.append_inj_left hbytes hlen

end NitrokeyFido2.Ctap
