import NitrokeyFido2.Ctap.Run

/-!
The status codes that requests end with.

Where a code means something, it matters that nothing else stops with it: the
success code is never the code of a failure, and `CTAP2_ERR_KEY_STORE_FULL`
comes from nowhere but the resident keys.
-/

namespace NitrokeyFido2.Ctap

open Proc Resumption

variable (env : Env)

/-! ### Codes -/

/-- The codes that the parsers and the steps of a makeCredential or a credential
management request stop with, besides the full key store and the blocked
pinAuth. -/
def ordinaryCodes : List UInt8 :=
  [ctap1ErrInvalidCommand, ctap1ErrInvalidLength, ctap2ErrCborUnexpectedType,
   ctap2ErrCborParsing, ctap2ErrMissingParameter, ctap2ErrLimitExceeded, ctap2ErrTooManyElements,
   ctap2ErrCredentialExcluded, ctap2ErrProcessing, ctap2ErrUnsupportedAlgorithm,
   ctap2ErrInvalidOption, ctap2ErrKeepaliveCancel, ctap2ErrNoCredentials, ctap2ErrPinRequired,
   ctap2ErrPinAuthInvalid, ctap2ErrPinNotSet, ctap2ErrActionTimeout, ctap2ErrExtensionFirst]

/-- The code is none of them. -/
class Foreign (code : UInt8) : Prop where
  ne : ∀ c ∈ ordinaryCodes, c ≠ code

instance : Foreign ctap2ErrKeyStoreFull := ⟨by decide +kernel⟩

instance : Foreign 0 := ⟨by decide +kernel⟩

/-- The code is none of them but that of an excluded credential, which the
exclude list alone stops with. -/
class Distant (code : UInt8) : Prop where
  ne : ∀ c ∈ ordinaryCodes, c ≠ ctap2ErrCredentialExcluded → c ≠ code

instance {code : UInt8} [h : Foreign code] : Distant code := ⟨fun c hc _ => h.ne c hc⟩

instance : Distant ctap2ErrCredentialExcluded := ⟨fun _ _ hc => hc⟩

instance {code : UInt8} [h : Foreign code] : Fact (ctap2ErrCredentialExcluded ≠ code) :=
  ⟨h.ne _ (by decide)⟩

section Codes

variable {code : UInt8} [h : Distant code]

instance : Fact (ctap1ErrInvalidCommand ≠ code) := ⟨h.ne _ (by decide) (by decide)⟩
instance : Fact (ctap1ErrInvalidLength ≠ code) := ⟨h.ne _ (by decide) (by decide)⟩
instance : Fact (ctap2ErrCborUnexpectedType ≠ code) := ⟨h.ne _ (by decide) (by decide)⟩
instance : Fact (ctap2ErrCborParsing ≠ code) := ⟨h.ne _ (by decide) (by decide)⟩
instance : Fact (ctap2ErrMissingParameter ≠ code) := ⟨h.ne _ (by decide) (by decide)⟩
instance : Fact (ctap2ErrLimitExceeded ≠ code) := ⟨h.ne _ (by decide) (by decide)⟩
instance : Fact (ctap2ErrTooManyElements ≠ code) := ⟨h.ne _ (by decide) (by decide)⟩
instance : Fact (ctap2ErrProcessing ≠ code) := ⟨h.ne _ (by decide) (by decide)⟩
instance : Fact (ctap2ErrUnsupportedAlgorithm ≠ code) := ⟨h.ne _ (by decide) (by decide)⟩
instance : Fact (ctap2ErrInvalidOption ≠ code) := ⟨h.ne _ (by decide) (by decide)⟩
instance : Fact (ctap2ErrKeepaliveCancel ≠ code) := ⟨h.ne _ (by decide) (by decide)⟩
instance : Fact (ctap2ErrNoCredentials ≠ code) := ⟨h.ne _ (by decide) (by decide)⟩
instance : Fact (ctap2ErrPinRequired ≠ code) := ⟨h.ne _ (by decide) (by decide)⟩
instance : Fact (ctap2ErrPinAuthInvalid ≠ code) := ⟨h.ne _ (by decide) (by decide)⟩
instance : Fact (ctap2ErrPinNotSet ≠ code) := ⟨h.ne _ (by decide) (by decide)⟩
instance : Fact (ctap2ErrActionTimeout ≠ code) := ⟨h.ne _ (by decide) (by decide)⟩
instance : Fact (ctap2ErrExtensionFirst ≠ code) := ⟨h.ne _ (by decide) (by decide)⟩

end Codes

/-! ### Parsers -/

section Parsers

variable {τ : Type}

/-- The parser never says that the key store is full. -/
abbrev NeverSays (code : UInt8) {α : Type} (m : Parse τ α) : Prop := Never code m

variable {code : UInt8} [Distant code]

instance {α : Type} (r : Except CborError α) : NeverSays code (checkRet r : Parse τ α) := by
  refine Never.ofExcept ?_
  cases r with
  | error e => exact fun h => absurd (Except.error.inj h) Fact.out
  | ok a => exact fun h => nomatch h

instance (e : CborError) : NeverSays code (checkErr e : Parse τ Unit) := by
  unfold checkErr
  infer_instance

instance {α : Type} (m : Parse τ α) [NeverSays code m] : NeverSays code (onVal m) := by
  unfold onVal
  infer_instance

instance {γ : Type} (n : ℕ) (body : γ → Parse τ γ) (c : γ) [∀ c, NeverSays code (body c)] :
    NeverSays code (forEntries n body c) := by
  induction n generalizing c with
  | zero => exact Never.pure c
  | succ n ih =>
      unfold forEntries
      infer_instance

instance (val : env.reader.Cursor) : NeverSays code (enterMap env val : Parse τ _) := by
  unfold enterMap
  infer_instance

instance (val : env.reader.Cursor) : NeverSays code (enterArray env val : Parse τ _) := by
  unfold enterArray
  infer_instance

instance {n : ℕ} (map : env.reader.Cursor) (key : Buf n) :
    NeverSays code (textKey env map key : Parse τ _) := by
  unfold textKey
  infer_instance

instance (unexpected : UInt8) [Fact (unexpected ≠ code)] (map : env.reader.Cursor) :
    NeverSays code (intKey env unexpected map : Parse τ _) := by
  unfold intKey
  infer_instance

instance (map : env.reader.Cursor) : NeverSays code (parseInt env map : Parse τ _) := by
  unfold parseInt
  infer_instance

instance {n : ℕ} (map : env.reader.Cursor) : NeverSays code (parseFixedByteString (n := n) env map) := by
  unfold parseFixedByteString
  infer_instance

instance {n : ℕ} (map : env.reader.Cursor) : NeverSays code (copyTruncated (n := n) env map) := by
  unfold copyTruncated
  infer_instance

instance (map : env.reader.Cursor) : NeverSays code (parseUserId env map) := by
  unfold parseUserId
  infer_instance

instance (s : env.reader.Cursor × Buf 24) : NeverSays code (parseUserEntry env s) := by
  unfold parseUserEntry parseUserField
  infer_instance

instance (val : env.reader.Cursor) : NeverSays code (parseUser env val) := by
  unfold parseUser
  infer_instance

instance (val : env.reader.Cursor) : NeverSays code (parsePubKeyCredParam env val) := by
  unfold parsePubKeyCredParam
  repeat first | infer_instance | refine Never.seq inferInstance fun _ => ?_

instance (n : ℕ) (arr : env.reader.Cursor) : NeverSays code (findPubKeyCredParam env n arr) := by
  induction n generalizing arr with
  | zero => exact Never.stop _
  | succ n ih =>
      unfold findPubKeyCredParam
      split <;> infer_instance

instance (val : env.reader.Cursor) : NeverSays code (parsePubKeyCredParams env val) := by
  have hparam : ∀ arr, NeverSays code (Proc.ofExcept (parsePubKeyCredParam env arr ()).1 :
      Parse (MakeCredential env.reader.Cursor) (UInt8 × ℤ)) := fun arr =>
    Never.ofExcept (Never.ne (m := parsePubKeyCredParam env arr) ())
  unfold parsePubKeyCredParams
  infer_instance

instance (val : env.reader.Cursor) : NeverSays code (parseRpId env val) := by
  unfold parseRpId
  infer_instance

instance (s : env.reader.Cursor × Buf 8) : NeverSays code (parseRpEntry env s) := by
  unfold parseRpEntry parseRpField
  infer_instance

instance (val : env.reader.Cursor) : NeverSays code (parseRp env val) := by
  unfold parseRp
  infer_instance

instance (s : env.reader.Cursor × Buf 8) : NeverSays code (parseOption env s) := by
  unfold parseOption parseOptionField
  infer_instance

instance (val : env.reader.Cursor) : NeverSays code (parseOptions env val) := by
  unfold parseOptions
  infer_instance

instance (s : env.reader.Cursor × Bool × Bool) : NeverSays code (parseCoseKeyEntry env s) := by
  unfold parseCoseKeyEntry
  infer_instance

instance (it : env.reader.Cursor) : NeverSays code (parseCoseKey env it) := by
  unfold parseCoseKey
  infer_instance

instance (s : env.reader.Cursor × UInt8) : NeverSays code (parseHmacSecretEntry env s) := by
  unfold parseHmacSecretEntry
  dsimp only
  refine Never.seq inferInstance fun _ => Never.seq inferInstance fun _ => ?_
  refine Never.seq ?_ fun _ => inferInstance
  repeat' refine Never.cond ?_ ?_
  all_goals infer_instance

instance (val : env.reader.Cursor) : NeverSays code (ctapParseHmacSecret env val) := by
  unfold ctapParseHmacSecret
  infer_instance

instance (key : Buf 16) (map : env.reader.Cursor) : NeverSays code (parseExtensionValue env key map) := by
  unfold parseExtensionValue
  infer_instance

instance (s : env.reader.Cursor × Buf 16) : NeverSays code (parseExtension env s) := by
  unfold parseExtension
  infer_instance

instance (val : env.reader.Cursor) : NeverSays code (ctapParseExtensions env val) := by
  unfold ctapParseExtensions
  infer_instance

instance (val : env.reader.Cursor) : NeverSays code (parseCredentialId env val) := by
  unfold parseCredentialId
  infer_instance

instance (val : env.reader.Cursor) : NeverSays code (parseCredentialType env val) := by
  unfold parseCredentialType
  infer_instance

instance (arr : env.reader.Cursor) : NeverSays code (parseCredentialDescriptor env arr) := by
  unfold parseCredentialDescriptor
  repeat first | infer_instance | refine Never.seq inferInstance fun _ => ?_

instance (map : env.reader.Cursor) : NeverSays code (parsePinAuth env map) := by
  unfold parsePinAuth
  split
  · exact Never.pure true
  · refine ⟨fun pinAuth h => ?_⟩
    have hne : (parseFixedByteString env map pinAuth).1 ≠ .error code := Never.ne pinAuth
    dsimp only at h
    rcases hr : parseFixedByteString env map pinAuth with ⟨c | u, t⟩
    · rw [hr] at h hne
      dsimp only at h hne
      split at h
      · exact nomatch h
      · exact hne (congrArg Except.error (Except.error.inj h))
    · rw [hr] at h
      exact nomatch h

instance (key : ℤ) (map : env.reader.Cursor) : NeverSays code (parseMcParameter env key map) := by
  unfold parseMcParameter
  infer_instance

end Parsers

/-- The error of `cbor_parser_init`, cut to a byte, is not this code. -/
def Env.InitNeverSays (env : Env) (code : UInt8) : Prop :=
  ∀ request e, env.reader.parserInit request = .error e → e.toUInt8 ≠ code

theorem neverSays_ctapParseMakeCredential {env : Env} {code : UInt8} [Distant code]
    (hinit : env.InitNeverSays code) (request : List UInt8) :
    NeverSays code (ctapParseMakeCredential env request) := by
  have hmap : NeverSays code (requestMap env UInt32.toUInt8 ctap2ErrCborUnexpectedType request :
      Parse (WithCustom (MakeCredential env.reader.Cursor)) _) := by
    unfold requestMap
    refine Never.seq (Never.ofExcept ?_) fun it => inferInstance
    cases hr : env.reader.parserInit request with
    | error e => exact fun h => hinit request e hr (Except.error.inj h)
    | ok it => exact fun h => nomatch h
  unfold ctapParseMakeCredential
  infer_instance

/-! ### Steps of a makeCredential -/

section Steps

/-- The step never says that the key store is full. -/
abbrev StepNeverSays (code : UInt8) {α : Type} (m : Device α) : Prop := Never (.status code) m

abbrev RoutineNeverSays (code : UInt8) {α : Type} (m : CtapM α) : Prop :=
  Routine.Never (.status code) m

variable {code : UInt8} [Distant code]

instance (c c' : UInt8) [h : Fact (c ≠ c')] : Fact (Stop.status c ≠ .status c') :=
  ⟨fun he => h.out (Stop.status.inj he)⟩

instance (c : UInt8) : Fact (Stop.halted ≠ .status c) := ⟨fun he => nomatch he⟩

instance {α : Type} (c : UInt8) [Fact (c ≠ code)] :
    StepNeverSays code (fail c : Device α) := inferInstanceAs (Never _ (Proc.stop _))

instance (p : Prop) [Decidable p] (c : UInt8) [Fact (c ≠ code)] :
    StepNeverSays code (failIf p c) := inferInstanceAs (Never _ (Proc.stopIf _ _))

/-- A status with which `check_retr` does not stop like this. -/
def Passes (code status : UInt8) : Prop := status ≠ code ∨ code = 0

omit [Distant code] in
theorem stepNeverSays_checkRetr {status : UInt8} (h : Passes code status) :
    StepNeverSays code (checkRetr status) := by
  unfold checkRetr failIf stopIf
  split
  case isFalse => exact Never.pure ()
  case isTrue hne =>
    refine ⟨fun _ he => ?_⟩
    have hstatus := Stop.status.inj (Except.error.inj he)
    rcases h with h | h
    · exact h hstatus
    · exact hne (hstatus.trans h)

instance (t : Trace) : StepNeverSays code (note t) := inferInstanceAs (Never _ (Proc.modify _))

instance (n : ℕ) : StepNeverSays code (ctapGenerateRng env n) := ⟨fun _ h => nomatch h⟩

instance {α : Type} (r : Option α) : StepNeverSays code (orHalt r) := by
  cases r with
  | none => exact Never.stop Stop.halted
  | some a => exact Never.pure a

instance : StepNeverSays code (authDataUpdateCount env) := by
  have hcount : StepNeverSays code (ctapAtomicCount env) := by
    unfold ctapAtomicCount
    infer_instance
  unfold authDataUpdateCount
  infer_instance

omit [Distant code] in
instance (op : EncOp) [Fact (ctap2ErrCborParsing ≠ code)] :
    Never code (env.writer.emit op) := by
  refine ⟨fun w h => ?_⟩
  unfold CborWriter.emit at h
  dsimp only at h
  split at h
  · exact nomatch h
  · exact absurd (Except.error.inj h) (Fact.out : ctap2ErrCborParsing ≠ code)

omit [Distant code] in
instance (ops : List EncOp) [Fact (ctap2ErrCborParsing ≠ code)] :
    Never code (env.writer.emitAll ops) := by
  induction ops with
  | nil => exact Never.pure ()
  | cons op ops ih => exact Never.seq inferInstance fun _ => ih

omit [Distant code] in
instance (w : Writer) (m : Encode Unit) [hm : Never code m] :
    StepNeverSays code (encode w m) := by
  unfold encode ofStatus encodeInto
  refine Never.ofExcept ?_
  have hne := hm.ne w
  rcases hr : m w with ⟨c | u, w'⟩ <;> rw [hr] at hne
  · exact fun h => hne (congrArg Except.error (Stop.status.inj (Except.error.inj h)))
  · exact fun h => nomatch h

instance (sigder : List UInt8) : Never code (ctapAddAttestStatement env sigder) := by
  unfold ctapAddAttestStatement
  infer_instance

omit [Distant code] in
/-- The outcome of a parser, looked at later. -/
theorem withCustom_ne_code {τ : Type} {m : Parse (WithCustom τ) Unit} [hm : NeverSays code m] {t : τ}
    {a b : Authenticator} {r : Except UInt8 Unit × τ} (h : withCustom m t a = (.ok r, b)) :
    r.1 ≠ .error code := by
  rw [← Except.ok.inj (Prod.mk.inj h).1]
  exact hm.ne _

omit [Distant code] in
theorem stepNeverSays_parsedWithCustom {τ : Type} {m : Parse (WithCustom τ) Unit}
    (hm : NeverSays code m ∨ code = 0) (t : τ) : StepNeverSays code (parsedWithCustom m t) := by
  unfold parsedWithCustom
  refine Never.bind_of (P := fun r => ∀ c, r.1 = .error c → Passes code c) ⟨fun _ h => nomatch h⟩
    (fun _ r _ h c hc => ?_) ?_
  · rcases hm with hm | hm
    · exact .inl fun hcode => withCustom_ne_code h (hc.trans (congrArg Except.error hcode))
    · exact .inr hm
  · rintro ⟨c | u, t⟩ hr
    · have hretr := stepNeverSays_checkRetr (hr c rfl)
      infer_instance
    · infer_instance

/-! ### Presence -/

theorem passes_presenceStatus (ret : ℤ) : Passes code (presenceStatus ret) := by
  unfold presenceStatus
  split_ifs
  · exact .inl Fact.out
  · exact (Decidable.em (code = 0)).symm.imp_left fun h hc => h hc.symm
  · exact .inl Fact.out
  · exact .inl Fact.out

/-- Only a status of a presence test comes out of one. -/
theorem routineNeverSays_test {α : Type} {f : UInt8 → CtapM α}
    (hf : ∀ c, Passes code c → RoutineNeverSays code (f c)) :
    RoutineNeverSays code (ctap2UserPresenceTest .request >>= f) := by
  have htest (h : (c : Call) → Ret c) (a : Authenticator) :
      ∃ ret t, Routine.answered h (ctap2UserPresenceTest .request) a = (.ok (presenceStatus ret), t) := by
    have hfeedback : ∃ ret t, Routine.answered h (ctapUserPresenceTest 29000) a = (.ok ret, t) := by
      unfold ctapUserPresenceTest ctapUserPresenceTestFeedback
      simp only [Routine.answered_bind, Routine.answered_liftM, Routine.answered_ite,
        answered_waitForPresence, get_bind]
      split_ifs <;> exact ⟨_, _, rfl⟩
    obtain ⟨ret, t, hr⟩ := hfeedback
    refine ⟨ret, t, ?_⟩
    unfold ctap2UserPresenceTest testWithStatus
    simp only [Routine.answered_bind, answered_deviceSetStatus]
    rw [bind_of_ok rfl, bind_of_ok hr]
    rfl
  refine Routine.Never.bind_of (P := Passes code) ⟨fun h => ⟨fun a he => ?_⟩⟩ ?_ hf
  · obtain ⟨ret, t, hr⟩ := htest h a
    rw [hr] at he
    exact nomatch he
  · intro h a c b hc
    obtain ⟨ret, t, hr⟩ := htest h a
    rw [hr] at hc
    rw [← Except.ok.inj (Prod.mk.inj hc).1]
    exact passes_presenceStatus ret

instance : RoutineNeverSays code emptyPinAuth := by
  unfold emptyPinAuth
  refine routineNeverSays_test fun c hc => ?_
  have hretr := stepNeverSays_checkRetr hc
  have hcode (a : Authenticator) : StepNeverSays code
      (fail (if ctapIsPinSet a then ctap2ErrPinAuthInvalid else ctap2ErrPinNotSet) : Device Unit) := by
    split <;> infer_instance
  infer_instance

instance (pinAuth : Buf 16) (clientDataHash : Buf clientDataHashSize) :
    StepNeverSays code (verifyPinAuth env pinAuth clientDataHash) := by
  unfold verifyPinAuth
  infer_instance

instance (rp : RpId) (pinAuthPresent : Bool) (n : ℕ) (arr : env.reader.Cursor)
    (exclCred : CredentialDescriptor) [Fact (ctap2ErrCredentialExcluded ≠ code)] :
    RoutineNeverSays code (checkExcludeList env rp pinAuthPresent n arr exclCred) := by
  induction n generalizing arr exclCred with
  | zero => exact Routine.Never.pure ()
  | succ n ih =>
      unfold checkExcludeList
      refine Routine.Never.bind_of (P := fun r => r.1 ≠ .error code)
        ⟨fun h => ⟨fun _ h => nomatch h⟩⟩ (fun _ _ _ _ h => withCustom_ne_code h) ?_
      rintro ⟨c | u, t⟩ hr
      · have : Fact (c ≠ code) := ⟨fun hc => hr (congrArg Except.error hc)⟩
        dsimp only
        infer_instance
      · refine Routine.Never.seq inferInstance fun a => ?_
        split
        · refine routineNeverSays_test fun c hc => ?_
          have hretr := stepNeverSays_checkRetr hc
          infer_instance
        · split <;> infer_instance

instance (mc : MakeCredential env.reader.Cursor) [Fact (ctap2ErrCredentialExcluded ≠ code)] :
    RoutineNeverSays code (checkMakeCredential env mc) := by
  unfold checkMakeCredential
  repeat refine Routine.Never.seq inferInstance fun _ => ?_
  split <;> infer_instance

instance (status : HidStatus) : RoutineNeverSays code (deviceSetStatus status) :=
  Routine.Never.perform _

instance (f : (AuthDataHeader → AuthDataHeader) → Device Unit) [∀ g, StepNeverSays code (f g)]
    (rp : RpId) : RoutineNeverSays code (ctapMakeAuthDataHeader env f rp) := by
  unfold ctapMakeAuthDataHeader
  dsimp only
  repeat refine Routine.Never.seq inferInstance fun _ => ?_
  refine routineNeverSays_test fun c hc => ?_
  have hretr := stepNeverSays_checkRetr hc
  infer_instance

instance (h : AuthDataHeader) (credProtect : UInt32) :
    StepNeverSays code (makeCredentialId env h credProtect) := by
  unfold makeCredentialId
  infer_instance

instance (x : ResidentKey) [Fact (ctap2ErrKeyStoreFull ≠ code)] :
    StepNeverSays code (storeResidentKey x) := by
  unfold storeResidentKey
  refine Never.seq inferInstance fun a => ?_
  generalize findMatchingRk a x a.state.rkStored.toNat 0 default = found
  generalize findFreeRk a = free
  have hincrement : StepNeverSays code ctapIncrementRkStore := ⟨fun _ h => nomatch h⟩
  have hwrite (i : ℤ) : StepNeverSays code (ctapOverwriteRk i x) := ⟨fun _ h => nomatch h⟩
  rcases found with _ | i
  · rcases free with _ | i
    · exact inferInstanceAs (StepNeverSays code (fail _))
    · exact Never.seq hincrement fun _ => hwrite i
  · exact hwrite i

instance (rp : RpId) (credInfo : CredInfo) (extensions : Extensions)
    [Fact (ctap2ErrKeyStoreFull ≠ code)] :
    RoutineNeverSays code (ctapMakeAuthData env rp credInfo extensions) := by
  unfold ctapMakeAuthData
  infer_instance

theorem hmacSecretOutput_ne_code (a : Authenticator) (hs : HmacSecret) :
    hmacSecretOutput env a hs ≠ .error (.status code) := by
  unfold hmacSecretOutput
  dsimp only
  split
  · exact fun h => nomatch h
  · split
    · exact fun h => absurd (Stop.status.inj (Except.error.inj h)) Fact.out
    · exact fun h => nomatch h

instance {n : ℕ} (ops : List EncOp) :
    Never (.status code) (encodeExtensions env ops : Proc (ExtBuf n) Stop Unit) := by
  refine ⟨fun b h => ?_⟩
  have hne : (env.writer.emitAll ops (Writer.init b.size)).1 ≠ .error code := Never.ne _
  unfold encodeExtensions at h
  dsimp only at h
  rcases hr : env.writer.emitAll ops (Writer.init b.size) with ⟨c | u, w⟩ <;> rw [hr] at h hne
  · exact hne (congrArg Except.error (Stop.status.inj (Except.error.inj h)))
  · exact nomatch h

instance {n : ℕ} (a : Authenticator) (ext : Extensions) :
    Never (.status code)
      (ctapMakeExtensions env a ext : Proc (ExtBuf n) Stop Unit) := by
  unfold ctapMakeExtensions
  split
  · exact Never.seq (Never.ofExcept (hmacSecretOutput_ne_code env a _)) fun _ => inferInstance
  · infer_instance

instance (extensions : Extensions) (h : AuthDataHeader) (attested : List UInt8) :
    StepNeverSays code (appendExtensions env extensions h attested) := by
  unfold appendExtensions
  dsimp only
  refine Never.seq inferInstance fun a => Never.seq (Never.ofExcept ?_) fun _ => inferInstance
  generalize hb : (⟨env.uninit .extensions (310 - (37 + attested.length)),
    310 - (37 + attested.length)⟩ : ExtBuf (310 - (37 + attested.length))) = b
  have hne : (ctapMakeExtensions env a extensions b).1 ≠ .error (.status code) := Never.ne b
  rcases hr : ctapMakeExtensions env a extensions b with ⟨e | u, t⟩ <;> rw [hr] at hne
  · exact fun he => hne (congrArg Except.error (Except.error.inj he))
  · exact fun he => nomatch he

instance (hash : List UInt8) : StepNeverSays code (cryptoEcc256Sign env hash) := by
  unfold cryptoEcc256Sign
  refine Never.seq inferInstance fun a => Never.seq inferInstance fun ⟨_, _⟩ => inferInstance

instance (data : List UInt8) (clientDataHash : Buf clientDataHashSize) :
    StepNeverSays code (ctapCalculateSignature env data clientDataHash) := by
  unfold ctapCalculateSignature
  infer_instance

instance (authData : List UInt8) (clientDataHash : Buf clientDataHashSize) :
    StepNeverSays code (signAttestation env authData clientDataHash) := by
  unfold signAttestation loadKey
  infer_instance

/-! ### Credential management -/

instance (f : AuthenticatorState → AuthenticatorState) : StepNeverSays code (modifyState f) :=
  inferInstanceAs (Never _ (Proc.modify _))

instance (f : CredMgmtState → CredMgmtState) : StepNeverSays code (modifyCredMgmt f) :=
  inferInstanceAs (Never _ (Proc.modify _))

instance : StepNeverSays code ctapFlushState := by
  unfold ctapFlushState authenticatorWriteState
  infer_instance

instance : StepNeverSays code ctapResetPinAttempts := by
  unfold ctapResetPinAttempts
  infer_instance

instance : StepNeverSays code lockDevicePermanently := by
  unfold lockDevicePermanently
  exact Never.seq (Never.modify _) fun _ => inferInstance

instance : StepNeverSays code ctapDecrementPinAttempts := by
  unfold ctapDecrementPinAttempts
  exact Never.seq (Never.modify _) fun _ => inferInstance

instance (cm : CredMgmt) [Fact (ctap2ErrPinAuthBlocked ≠ code)] :
    StepNeverSays code (ctapCredMgmtPinauth env cm) := by
  have hblocked (a : Authenticator) :
      StepNeverSays code (fail (blockedOr a ctap2ErrPinAuthInvalid) : Device Unit) := by
    unfold blockedOr
    split <;> infer_instance
  unfold ctapCredMgmtPinauth
  infer_instance

instance (cm : CredMgmt) : StepNeverSays code (credMgmtPrepare cm) := by
  unfold credMgmtPrepare
  infer_instance

omit [Distant code] in
instance (m : Encode Unit) : Never code (unchecked m) := ⟨fun _ h => nomatch h⟩

instance (a : Authenticator) : Never code (ctapCredMetadata env a) := by
  unfold ctapCredMetadata
  infer_instance

omit [Distant code] in
instance (custom : CustomCred) (cred : Credential) (type : UInt8)
    [Fact (ctap2ErrCborParsing ≠ code)] :
    Never code (ctapAddCredentialDescriptor env custom cred type) := by
  unfold ctapAddCredentialDescriptor
  infer_instance

omit [Distant code] in
instance (user : UserEntity) (isVerified : Bool) [Fact (ctap2ErrCborParsing ≠ code)] :
    Never code (ctapAddUserEntity env user isVerified) := by
  unfold ctapAddUserEntity
  dsimp only
  infer_instance

omit [Distant code] in
instance (rk : ResidentKey) (rpCount : ℕ) [Fact (ctap2ErrCborParsing ≠ code)] :
    Never code (ctapCredRp env rk rpCount) := by
  unfold ctapCredRp
  infer_instance

omit [Distant code] in
instance (a : Authenticator) (rk : ResidentKey) (rkCount : ℕ)
    [Fact (ctap2ErrCborParsing ≠ code)] :
    Never code (ctapCredRk env a rk rkCount) := by
  unfold ctapCredRk
  dsimp only
  repeat first | infer_instance | refine Never.seq inferInstance fun _ => ?_

instance (w : Writer) (rpCount : ℕ) : StepNeverSays code (credMgmtRp env w rpCount) := by
  unfold credMgmtRp noCredentials
  infer_instance

instance (w : Writer) (rkCount : ℕ) : StepNeverSays code (credMgmtRk env w rkCount) := by
  unfold credMgmtRk noCredentials
  infer_instance

instance (w : Writer) (cm : CredMgmt) : StepNeverSays code (credMgmtDelete w cm) := by
  unfold credMgmtDelete
  refine Never.seq inferInstance fun a => ?_
  generalize credentialIdToRkIndex a cm.credentialDescriptor.credential.id = found
  rcases found with _ | i
  · exact inferInstanceAs (StepNeverSays code (fail _))
  · exact ⟨fun _ h => nomatch h⟩

theorem stepNeverSays_ctapCredMgmt [Fact (ctap2ErrPinAuthBlocked ≠ code)] {request : List UInt8}
    (hparse : NeverSays code (ctapParseCredMgmt env request) ∨ code = 0) (w : Writer) :
    StepNeverSays code (ctapCredMgmt env w request) := by
  have hparsed := stepNeverSays_parsedWithCustom hparse default
  unfold ctapCredMgmt
  refine Never.seq inferInstance fun cm => Never.seq inferInstance fun _ =>
    Never.seq inferInstance fun a => Never.cond inferInstance ?_
  refine Never.seq inferInstance fun counts => ?_
  obtain ⟨rpCount, rkCount⟩ := counts
  dsimp only
  infer_instance

/-! ### Steps of a getAssertion -/

instance {α : Type} (m : Parse GetAssertion α) [NeverSays code m] : NeverSays code (onGa m) := by
  unfold onGa
  infer_instance

instance (s : env.reader.Cursor × ℕ) : NeverSays code (parseAllowListEntry env s) := by
  unfold parseAllowListEntry
  infer_instance

instance (it : env.reader.Cursor) : NeverSays code (parseAllowList env it) := by
  unfold parseAllowList
  infer_instance

instance (key : ℤ) (map : env.reader.Cursor) : NeverSays code (parseGaParameter env key map) := by
  unfold parseGaParameter
  infer_instance

instance (request : List UInt8) :
    NeverSays code (ctapParseGetAssertion env request) := by
  have hmap : NeverSays code (requestMap env (fun _ => ctap2ErrCborParsing) ctap2ErrInvalidCborType
      request : Parse GetAssertionParse _) := by
    unfold requestMap
    refine Never.seq (Never.ofExcept ?_) fun it => inferInstance
    cases env.reader.parserInit request with
    | error e => exact fun h => absurd (Except.error.inj h) Fact.out
    | ok it => exact fun h => nomatch h
  unfold ctapParseGetAssertion
  infer_instance

instance (request : List UInt8) :
    StepNeverSays code (parseGetAssertion env request) := by
  unfold parseGetAssertion
  refine Never.seq inferInstance fun a => ?_
  have hne : (ctapParseGetAssertion env request ⟨default, a.gas.creds, a.gas.custom⟩).1 ≠
      .error code := Never.ne _
  dsimp only
  refine Never.seq (Never.modify _) fun _ => Never.ofExcept ?_
  rcases hr : (ctapParseGetAssertion env request ⟨default, a.gas.creds, a.gas.custom⟩).1 with c | u <;>
    rw [hr] at hne
  · dsimp only
    split
    · exact fun h => nomatch h
    · exact fun h => hne (congrArg Except.error (Stop.status.inj (Except.error.inj h)))
  · exact fun h => nomatch h

instance (f : GetAssertionState → GetAssertionState) : StepNeverSays code (modifyGas f) :=
  inferInstanceAs (Never _ (Proc.modify _))

instance (f : AuthDataHeader → AuthDataHeader) : StepNeverSays code (updateAuthData f) :=
  inferInstanceAs (Never _ (Proc.modify _))

instance (i : ℕ) (f : CredentialDescriptor → CredentialDescriptor) :
    StepNeverSays code (modifyCred i f) := inferInstanceAs (Never _ (Proc.modify _))

instance (ga : GetAssertion) : StepNeverSays code (verifyUser env ga) := by
  unfold verifyUser
  infer_instance

instance (ga : GetAssertion) : StepNeverSays code (filterCredentials env ga) := by
  unfold filterCredentials
  infer_instance

instance (request : List UInt8) : RoutineNeverSays code (selectCredentials env request) := by
  unfold selectCredentials
  infer_instance

instance (rp : RpId) : StepNeverSays code (extensionAuthData env rp) := by
  unfold extensionAuthData
  infer_instance

instance (clientDataHash : Buf clientDataHashSize) (count : ℕ) (extensions : Extensions) :
    StepNeverSays code (saveCredentialList clientDataHash count extensions) := by
  unfold saveCredentialList
  infer_instance

instance (size : ℕ) (clientDataHash : Buf clientDataHashSize) :
    StepNeverSays code (signAssertion env size clientDataHash) := by
  unfold signAssertion
  infer_instance

instance (output : Buf 71) (keyh : List UInt8) :
    RoutineNeverSays code (bridgeU2fToSolo env output keyh) := by
  have hfeedback (upDelay : ℕ) : RoutineNeverSays code (ctapUserPresenceTestExtended upDelay) := by
    have hwait : RoutineNeverSays code (waitForPresence upDelay true) := Routine.Never.perform _
    unfold ctapUserPresenceTestExtended ctapUserPresenceTestFeedback
    infer_instance
  have htest : RoutineNeverSays code (ctap2UserPresenceTest .bootloader) := by
    unfold ctap2UserPresenceTest testWithStatus
    infer_instance
  unfold bridgeU2fToSolo
  split
  · infer_instance
  · refine Routine.Never.seq inferInstance fun a => Routine.Never.seq ?_ fun _ => inferInstance
    split <;> infer_instance
  · infer_instance
  · infer_instance

instance (id : CredentialId) (output : Buf 72) :
    RoutineNeverSays code (extendFido2 env id output) := by
  unfold extendFido2
  infer_instance

instance (w : Writer) (cred : CredentialDescriptor) (size : ℕ)
    (clientDataHash : Buf clientDataHashSize) :
    RoutineNeverSays code (ctapEndGetAssertion env w cred size clientDataHash) := by
  unfold ctapEndGetAssertion loadKey
  refine Routine.Never.seq inferInstance fun a => Routine.Never.seq ?_ fun w =>
    Routine.Never.seq inferInstance fun _ => Routine.Never.seq inferInstance fun ext =>
      Routine.Never.seq ?_ fun _ => ?_
  · infer_instance
  · split <;> infer_instance
  · infer_instance

omit [Distant code] in
theorem stepNeverSays_ofStatus {α : Type} {r : Except UInt8 α} (h : r ≠ .error code) :
    StepNeverSays code (ofStatus r) := by
  refine Never.ofExcept ?_
  rcases r with c | a
  · exact fun he => h (congrArg Except.error (Stop.status.inj (Except.error.inj he)))
  · exact fun he => nomatch he

omit [Distant code] in
/-- The status of a routine, looked at later. -/
theorem attempt_ne_code {α : Type} {m : CtapM α} [hm : RoutineNeverSays code m]
    {h : (c : Call) → Ret c} {a b : Authenticator} {r : Except UInt8 α}
    (hr : Routine.answered h (attempt m) a = (.ok r, b)) : r ≠ .error code := by
  rintro rfl
  have hne := (hm.answered h).ne a
  rw [answered_attempt, Device.attempt_apply] at hr
  rcases hrun : Routine.answered h m a with ⟨(c | _) | x, t⟩ <;> rw [hrun] at hr hne
  · obtain rfl := Except.error.inj (Except.ok.inj (Prod.mk.inj hr).1)
    exact hne rfl
  · exact nomatch (Prod.mk.inj hr).1
  · exact nomatch Except.ok.inj (Prod.mk.inj hr).1

instance {α : Type} (m : CtapM α) : RoutineNeverSays code (attempt m) := by
  refine ⟨fun h => ⟨fun a he => ?_⟩⟩
  rw [answered_attempt, Device.attempt_apply] at he
  rcases hr : Routine.answered h m a with ⟨(c | _) | x, t⟩ <;> rw [hr] at he <;> exact nomatch he

instance (ext : Extensions) : StepNeverSays code (makeAssertionExtensions env ext) := by
  refine ⟨fun a h => ?_⟩
  simp only [makeAssertionExtensions] at h
  rcases hr : (ctapMakeExtensions env a ext).run ⟨a.gas.bufExtensions, 80⟩ with ⟨(c | _) | u, b⟩ <;>
    rw [hr] at h <;> exact nomatch h

theorem makeAssertionExtensions_passes {ext : Extensions} {a b : Authenticator} {r : UInt8 × ℕ}
    (hr : makeAssertionExtensions env ext a = (.ok r, b)) : Passes code r.1 := by
  have hne : (ctapMakeExtensions env a ext ⟨a.gas.bufExtensions, 80⟩).1 ≠ .error (.status code) :=
    Never.ne _
  simp only [makeAssertionExtensions] at hr
  rcases hm : (ctapMakeExtensions env a ext).run ⟨a.gas.bufExtensions, 80⟩ with ⟨(c | _) | u, e⟩ <;>
    rw [hm] at hr hne
  · obtain rfl := Except.ok.inj (Prod.mk.inj hr).1
    exact .inl fun hc => hne (by rw [show c = code from hc])
  · exact nomatch (Prod.mk.inj hr).1
  · obtain rfl := Except.ok.inj (Prod.mk.inj hr).1
    exact (Decidable.em (code = 0)).symm.imp_left fun h hc => h hc.symm

instance (ga : GetAssertion) : RoutineNeverSays code (assertionAuthData env ga) := by
  unfold assertionAuthData deviceDisableUp
  refine Routine.Never.seq inferInstance fun _ => Routine.Never.bind_of
    (P := fun r => r ≠ .error code) inferInstance (fun _ _ _ _ hr => attempt_ne_code hr)
    fun ret hret => ?_
  have hret := stepNeverSays_ofStatus hret
  refine Routine.Never.seq inferInstance fun _ => Routine.Never.seq inferInstance fun _ =>
    Routine.Never.seq inferInstance fun _ => Routine.Never.seq inferInstance fun a =>
      Routine.Never.seq inferInstance fun _ => Routine.Never.seq inferInstance fun _ =>
        Routine.Never.bind_of (P := fun r => Passes code r.1) inferInstance
          (fun _ _ _ _ hr => makeAssertionExtensions_passes env hr) fun made hmade => ?_
  · obtain ⟨ret, size⟩ := made
    have hretr := stepNeverSays_checkRetr hmade
    dsimp only
    infer_instance

instance (w : Writer) (request : List UInt8) : RoutineNeverSays code (ctapGetAssertion env w request) := by
  unfold ctapGetAssertion
  refine Routine.Never.seq inferInstance fun selected => ?_
  obtain ⟨validCredCount, ga⟩ := selected
  dsimp only
  repeat first | infer_instance | refine Routine.Never.seq inferInstance fun _ => ?_

end Steps

end NitrokeyFido2.Ctap
