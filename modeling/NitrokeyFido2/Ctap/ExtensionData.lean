import NitrokeyFido2.Ctap.Creation

/-!
The extension data of a response: the call of `ctap_make_extensions` that a
request makes, and what the call yields.
-/

namespace NitrokeyFido2.Ctap

open Proc Resumption Nesting

variable (env : Env)

/-! ### The call -/

/-- The arguments of a call of `ctap_make_extensions`, and the state that it
reads. -/
structure ExtensionsCall where
  state : Authenticator
  extensions : Extensions
  room : ℕ

/-- A command up to its call of `ctap_make_extensions`. -/
def callInCommand (cmd : UInt8) (request : List UInt8) : CtapM (Option ExtensionsCall) :=
  if cmd = ctapMakeCredentialCmd then do
    let (mc, _, _, attested) ← beginMakeCredential env freshWriter request
    let a ← (Proc.get : Device Authenticator)
    pure (some ⟨a, mc.extensions, extensionRoom attested⟩)
  else if cmd = ctapGetAssertionCmd then do
    let (_, ga, cred, _) ← beginAssertion env freshWriter request
    if isExtensionRequest cred.id.bytes credentialIdSize then pure none
    else do
      assertionHeader env ga
      let a ← (Proc.get : Device Authenticator)
      pure (some ⟨a, ga.extensions, 80⟩)
  else if cmd = getNextAssertionCmd then do
    let (_, ext, _) ← beginNextAssertion env freshWriter
    let a ← (Proc.get : Device Authenticator)
    pure (some ⟨a, ext, 80⟩)
  else pure none

/-- The call of `ctap_make_extensions` in a request, if there is one. -/
def Authenticator.extensionsCall (a : Authenticator) (bytes : List UInt8) (h : Answers) :
    Option ExtensionsCall :=
  match CtapM.answered h (callInCommand env (bytes.getD 0 0) bytes.tail) { a with trace := [] } with
  | (.ok c, _) => c
  | (.error _, _) => none

/-! ### What it yields -/

/-- The hmac-secret output of a call. -/
def ExtensionsCall.output (c : ExtensionsCall) : Except Stop (Option (List UInt8)) :=
  if c.extensions.hmacSecretPresent = extHmacSecretParsed then
    (hmacSecretOutput env c.state c.extensions.hmacSecret).map some
  else .ok none

/-- The extension data of a call: nothing, or the extension map. -/
def ExtensionsCall.data (c : ExtensionsCall) : Except Stop (List UInt8) := do
  let output ← c.output env
  match env.writer.emitAll (extensionOps c.extensions output) (Writer.init c.room) with
  | (.ok (), w) =>
      .ok (if extensionOps c.extensions output = [] then [] else env.writer.buffer w)
  | (.error e, _) => .error (.status e)

variable {env}

variable (env) in
theorem encodeExtensions_eq {n : ℕ} (ops : List EncOp) (buf : Buf n) :
    (∃ w, env.writer.emitAll ops (Writer.init n) = (.ok (), w) ∧
      encodeExtensions env ops ⟨buf, n⟩ = (.ok (),
        ⟨buf.write 0 (if ops = [] then [] else env.writer.buffer w),
          (if ops = [] then [] else env.writer.buffer w).length⟩)) ∨
    ∃ e w b, env.writer.emitAll ops (Writer.init n) = (.error e, w) ∧
      encodeExtensions env ops ⟨buf, n⟩ = (.error (.status e), b) ∧ b.size = n := by
  unfold encodeExtensions
  dsimp only
  rcases hr : (env.writer.emitAll ops).run (Writer.init n) with ⟨e | u, w⟩
  · exact .inr ⟨e, w, _, rfl, rfl, rfl⟩
  · exact .inl ⟨w, rfl, rfl⟩

/-- The data of a call whose hmac-secret output is known. -/
theorem ExtensionsCall.data_of_output {c : ExtensionsCall} {output : Option (List UInt8)}
    (h : c.output env = .ok output) :
    c.data env = match env.writer.emitAll (extensionOps c.extensions output) (Writer.init c.room) with
      | (.ok (), w) =>
          .ok (if extensionOps c.extensions output = [] then [] else env.writer.buffer w)
      | (.error e, _) => .error (.status e) := by
  unfold ExtensionsCall.data
  rw [h]
  rfl

theorem encoded_data {c : ExtensionsCall} {output : Option (List UInt8)}
    (h : c.output env = .ok output) (buf : Buf c.room) :
    (∃ bytes, c.data env = .ok bytes ∧
      encodeExtensions env (extensionOps c.extensions output) ⟨buf, c.room⟩ =
        (.ok (), ⟨buf.write 0 bytes, bytes.length⟩)) ∨
    ∃ e b, c.data env = .error e ∧
      encodeExtensions env (extensionOps c.extensions output) ⟨buf, c.room⟩ = (.error e, b) ∧
      b.size = c.room := by
  rw [ExtensionsCall.data_of_output h]
  rcases encodeExtensions_eq env (extensionOps c.extensions output) buf with
    ⟨w, hemit, henc⟩ | ⟨e, w, b, hemit, henc, hsize⟩ <;> rw [hemit]
  · exact .inl ⟨_, rfl, henc⟩
  · exact .inr ⟨_, b, rfl, henc, hsize⟩

/-- What `ctap_make_extensions` does to its buffer and its size. -/
theorem ctapMakeExtensions_eq (c : ExtensionsCall) (buf : Buf c.room) :
    (∃ bytes, c.data env = .ok bytes ∧
      ctapMakeExtensions env c.state c.extensions ⟨buf, c.room⟩ =
        (.ok (), ⟨buf.write 0 bytes, bytes.length⟩)) ∨
    ∃ e b, c.data env = .error e ∧
      ctapMakeExtensions env c.state c.extensions ⟨buf, c.room⟩ = (.error e, b) ∧ b.size = c.room := by
  unfold ctapMakeExtensions
  by_cases hparsed : c.extensions.hmacSecretPresent = extHmacSecretParsed
  · rw [if_pos hparsed]
    have houtput : c.output env = (hmacSecretOutput env c.state c.extensions.hmacSecret).map some :=
      if_pos hparsed
    cases hmac : hmacSecretOutput env c.state c.extensions.hmacSecret with
    | error e =>
        rw [hmac] at houtput
        refine .inr ⟨e, ⟨buf, c.room⟩, ?_, rfl, rfl⟩
        unfold ExtensionsCall.data
        rw [houtput]
        rfl
    | ok out =>
        rw [hmac] at houtput
        exact encoded_data houtput buf
  · rw [if_neg hparsed]
    exact encoded_data (if_neg hparsed) buf

/-! ### One map -/

/-- The hmac-secret output is there if the request gave salts for it. -/
theorem ExtensionsCall.output_isSome {c : ExtensionsCall} {output : Option (List UInt8)}
    (h : c.output env = .ok output) :
    output.isSome = decide (c.extensions.hmacSecretPresent = extHmacSecretParsed) := by
  unfold ExtensionsCall.output at h
  split at h
  case isTrue hparsed =>
    cases hmac : hmacSecretOutput env c.state c.extensions.hmacSecret with
    | error e =>
        rw [hmac] at h
        exact nomatch h
    | ok out =>
        rw [hmac] at h
        rw [← Except.ok.inj h, decide_eq_true hparsed]
        rfl
  case isFalse hparsed =>
    rw [← Except.ok.inj h, decide_eq_false hparsed]
    rfl

/-- The extension map declares as many pairs as it has. -/
theorem isMap_extensionOps {ext : Extensions} {output : Option (List UInt8)}
    (h : output.isSome = decide (ext.hmacSecretPresent = extHmacSecretParsed)) :
    extensionOps ext output = [] ∨ IsMap (extensionOps ext output) := by
  unfold extensionOps
  have hcred := Classical.em (ext.credProtect = extCredProtectOptional ∨
    ext.credProtect = extCredProtectOptionalWithCredid ∨ ext.credProtect = extCredProtectRequired)
  by_cases hparsed : ext.hmacSecretPresent = extHmacSecretParsed
  · rw [decide_eq_true hparsed, Option.isSome_iff_exists] at h
    obtain ⟨out, rfl⟩ := h
    have hrequested : ¬ ext.hmacSecretPresent = extHmacSecretRequested := by
      rw [hparsed]
      decide
    rcases hcred with hcred | hcred <;> simp only [hrequested, hcred, Option.isSome_some] <;>
      exact .inr ⟨⟨_, rfl⟩, rfl⟩
  · rw [decide_eq_false hparsed, Option.isSome_eq_false_iff, Option.isNone_iff_eq_none] at h
    subst h
    by_cases hrequested : ext.hmacSecretPresent = extHmacSecretRequested <;>
      rcases hcred with hcred | hcred <;> simp only [hrequested, hcred, Option.isSome_none] <;>
      first
        | exact .inl rfl
        | exact .inr ⟨⟨_, rfl⟩, rfl⟩

/-- The bytes are the extension map of the call. -/
def IsExtensionMap (env : Env) (c : ExtensionsCall) (bytes : List UInt8) : Prop :=
  ∃ output w, c.output env = .ok output ∧ IsMap (extensionOps c.extensions output) ∧
    env.writer.emitAll (extensionOps c.extensions output) (Writer.init c.room) = (.ok (), w) ∧
    bytes = env.writer.buffer w

theorem IsMap.ne_nil {ops : List EncOp} (h : IsMap ops) : ops ≠ [] := by
  rintro rfl
  obtain ⟨⟨n, hn⟩, -⟩ := h
  exact nomatch hn

theorem IsExtensionMap.data {c : ExtensionsCall} {bytes : List UInt8}
    (h : IsExtensionMap env c bytes) : c.data env = .ok bytes := by
  obtain ⟨output, w, houtput, hmap, hemit, rfl⟩ := h
  rw [ExtensionsCall.data_of_output houtput, hemit]
  dsimp only
  rw [if_neg hmap.ne_nil]

theorem ExtensionsCall.data_cases {c : ExtensionsCall} {bytes : List UInt8}
    (h : c.data env = .ok bytes) : bytes = [] ∨ IsExtensionMap env c bytes := by
  cases houtput : c.output env with
  | error e =>
      unfold ExtensionsCall.data at h
      rw [houtput] at h
      exact nomatch h
  | ok output =>
      rw [ExtensionsCall.data_of_output houtput] at h
      rcases hemit : (env.writer.emitAll (extensionOps c.extensions output)).run
        (Writer.init c.room) with ⟨e | u, w⟩ <;> rw [hemit] at h
      · exact nomatch h
      · obtain rfl := Except.ok.inj h
        rcases isMap_extensionOps (c.output_isSome houtput) with hnil | hmap
        · exact .inl (if_pos hnil)
        · exact .inr ⟨output, w, houtput, hmap, hemit, if_neg hmap.ne_nil⟩

/-- An encoder does not fill more than its buffer. -/
def CborWriter.Fits (e : CborWriter) : Prop :=
  ∀ n ops w, e.emitAll ops (Writer.init n) = (.ok (), w) → (e.buffer w).length ≤ n

theorem ExtensionsCall.length_data (hfits : env.writer.Fits) {c : ExtensionsCall}
    {bytes : List UInt8} (h : c.data env = .ok bytes) : bytes.length ≤ c.room := by
  rcases c.data_cases h with rfl | ⟨output, w, -, -, hemit, rfl⟩
  · exact Nat.zero_le _
  · exact hfits _ _ _ hemit

/-- The start of the buffer behind a call that succeeded. -/
theorem slice_write_data {n : ℕ} {buf : Buf n} {bytes : List UInt8} (h : bytes.length ≤ n) :
    (buf.write 0 bytes).slice 0 bytes.length = bytes :=
  Buf.slice_write_self ((Nat.zero_add _).trans_le h)

end NitrokeyFido2.Ctap
