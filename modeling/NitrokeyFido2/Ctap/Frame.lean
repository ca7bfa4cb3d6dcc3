import NitrokeyFido2.Ctap.Run

/-!
What the functions of the authenticator leave alone.

The state is looked at aspect by aspect. Every function has one frame, which
lists the aspects it may change as instance hypotheses; steps that only read
keep every relation between the states before and after.
-/

namespace NitrokeyFido2.Ctap

open Proc Resumption

variable (env : Env)

/-! ### Aspects -/

inductive TraceKind
  | presence | verified | compared | updated | created | listed | flags | derived | otherKey | bootloader |
    carriedOut
  deriving DecidableEq

/-- What a signature with this key counts as. -/
def KeySource.kind : KeySource → TraceKind
  | .derived _ _ => .derived
  | _ => .otherKey

def Trace.kind : Trace → TraceKind
  | .presence _ => .presence
  | .pinAuthVerified => .verified
  | .pinCompared _ _ => .compared
  | .pinUpdated _ => .updated
  | .created _ _ _ => .created
  | .listed _ _ _ => .listed
  | .flagsWritten _ => .flags
  | .signed key _ => key.kind
  | .assertion key _ _ => key.kind
  | .bootloader => .bootloader
  | .carriedOut _ => .carriedOut

/-- The events of one kind, in their order. -/
def Authenticator.events (a : Authenticator) (k : TraceKind) : List Trace :=
  a.trace.filter (·.kind = k)

inductive Aspect
  /-- The PIN and its salt. -/
  | pin
  /-- Both counters of attempts. -/
  | attempts
  /-- The stored state is the one in use. -/
  | stored
  /-- The state is initialised, in the current version. -/
  | version
  | secrets
  | rks
  | rkStored
  /-- What is saved for the getNextAssertion requests, but for the list. -/
  | saved
  | creds
  | custom
  | flags
  | userVerified
  | lastcmd
  /-- The static variables of credential management. -/
  | cursors
  | nfc
  /-- The trace only grows. -/
  | trace
  | events (k : TraceKind)
  deriving DecidableEq

/-- The aspect is the same before and after. -/
def Aspect.Same (i : Aspect) (a t : Authenticator) : Prop :=
  match i with
  | .pin => (t.state.isPinSet, t.state.pinCodeHash, t.state.pinSalt) =
      (a.state.isPinSet, a.state.pinCodeHash, a.state.pinSalt)
  | .attempts => (t.state.remainingTries, t.pinBootAttemptsLeft) =
      (a.state.remainingTries, a.pinBootAttemptsLeft)
  | .stored => a.stored = a.state → t.stored = t.state
  | .version => (t.state.isInitialized, t.state.dataVersion) =
      (a.state.isInitialized, a.state.dataVersion)
  | .secrets => (t.secrets, t.state.keySpace) = (a.secrets, a.state.keySpace)
  | .rks => t.rks = a.rks
  | .rkStored => t.state.rkStored = a.state.rkStored
  | .saved => (t.gas.clientDataHash, t.gas.extensions, t.gas.count, t.gas.index) =
      (a.gas.clientDataHash, a.gas.extensions, a.gas.count, a.gas.index)
  | .creds => t.gas.creds = a.gas.creds
  | .custom => t.gas.custom = a.gas.custom
  | .flags => t.gas.authData.flags = a.gas.authData.flags
  | .userVerified => t.gas.userVerified = a.gas.userVerified
  | .lastcmd => t.gas.lastcmd = a.gas.lastcmd
  | .cursors => t.credMgmt = a.credMgmt
  | .nfc => t.nfcActive = a.nfcActive
  | .trace => a.trace <+: t.trace
  | .events k => t.events k = a.events k

instance (i : Aspect) : IsPreorder Authenticator i.Same where
  refl a := by
    cases i <;> first | exact rfl | exact id | exact List.prefix_rfl
  trans a b c h₁ h₂ := by
    cases i <;> first | exact Eq.trans h₂ h₁ | exact fun h => h₂ (h₁ h) | exact List.IsPrefix.trans h₁ h₂

/-- What may have changed from one state to another. -/
abbrev Changed (may : List Aspect) : Authenticator → Authenticator → Prop :=
  Unchanged Aspect.Same may

/-! ### Reading -/

section Reading

variable {R : Authenticator → Authenticator → Prop} [IsPreorder Authenticator R]

instance {α : Type} (code : UInt8) : Keeps R (fail code : Device α) := Keeps.stop _

instance (c : Prop) [Decidable c] (code : UInt8) : Keeps R (failIf c code) := Keeps.stopIf _ _

instance {α : Type} (r : Except UInt8 α) : Keeps R (ofStatus r) := Keeps.ofExcept _

instance {α : Type} (r : Option α) : Keeps R (orHalt r) := by
  cases r
  · exact Keeps.stop _
  · exact Keeps.pure _

instance (w : Writer) (m : Encode Unit) : Keeps R (encode w m) :=
  inferInstanceAs (Keeps R (ofStatus _))

instance (status : UInt8) : Keeps R (checkRetr status) := inferInstanceAs (Keeps R (failIf _ _))

instance : Keeps R failIfLocked := by
  unfold failIfLocked
  infer_instance

instance (platformPubkey : List UInt8) : Keeps R (pinSharedSecret env platformPubkey) := by
  unfold pinSharedSecret
  infer_instance

instance (w : Writer) (getRetries mapCreated : Bool) :
    Keeps R (clientPinFinish env w getRetries mapCreated) := by
  unfold clientPinFinish
  infer_instance

instance (status : HidStatus) : Routine.Keeps R (deviceSetStatus status) :=
  Routine.Keeps.perform _

instance (upDelay : ℕ) (extendedWipe : Bool) : Routine.Keeps R (waitForPresence upDelay extendedWipe) :=
  Routine.Keeps.perform _

instance : Routine.Keeps R isInFirst10Seconds := Routine.Keeps.perform _

instance {α : Type} (m : CtapM α) [hm : Routine.Keeps R m] : Routine.Keeps R (attempt m) := by
  constructor
  intro h
  rw [answered_attempt]
  constructor
  intro s
  have hs := (hm.answered h).state s
  rw [Device.attempt_apply]
  rcases hr : Routine.answered h m s with ⟨(_ | _) | _, t⟩ <;> rw [hr] at hs <;> exact hs

end Reading

theorem failIf_pos {c : Prop} [Decidable c] {code : UInt8} (h : c) :
    failIf c code = fail code := if_pos h

theorem failIf_neg {c : Prop} [Decidable c] {code : UInt8} (h : ¬ c) :
    failIf c code = pure () := if_neg h

theorem fail_bind {α β : Type} (code : UInt8) (f : α → Device β) :
    (fail code >>= f) = fail code := rfl

/-! ### Device services -/

section Services

variable {may : List Aspect}

theorem keeps_modify {f : Authenticator → Authenticator} (h : ∀ a i, i ∉ may → i.Same a (f a)) :
    Keeps (Changed may) (Proc.modify f : Device Unit) := Keeps.modify h

instance (t : Trace) [h : May may (.events t.kind)] : Keeps (Changed may) (note t) := by
  refine keeps_modify fun a i hi => ?_
  cases i
  case events k =>
    have hk : t.kind ≠ k := fun hk => hi (hk ▸ h.mem)
    show (a.trace ++ [t]).filter _ = _
    rw [List.filter_append]
    simp [hk, Authenticator.events]
  case trace => exact List.prefix_append _ _
  all_goals first | exact rfl | exact id

instance (n : ℕ) : Keeps (Changed may) (ctapGenerateRng env n) :=
  ⟨fun a i _ => by cases i <;> first | exact rfl | exact id | exact List.prefix_rfl⟩

instance : Keeps (Changed may) ctapFlushState :=
  ⟨fun a i _ => by cases i <;> first | exact rfl | exact fun _ => rfl | exact List.prefix_rfl⟩

/-- The counter is not looked at. -/
instance (counter : Authenticator → CounterPages) (sc : Authenticator → UInt32) :
    Keeps (Changed may)
      (Proc.modify fun a => { a with counter := counter a, sc := sc a } : Device Unit) :=
  keeps_modify fun a i _ => by cases i <;> first | exact rfl | exact id | exact List.prefix_rfl

instance : Keeps (Changed may) (ctapAtomicCount env) := by
  unfold ctapAtomicCount
  refine Keeps.seq (keeps_modify fun a i _ => ?_) fun _ => inferInstance
  split
  · cases i <;> first | exact rfl | exact id | exact List.prefix_rfl
  · exact refl_of i.Same a

instance : Keeps (Changed may) (authDataUpdateCount env) := by
  unfold authDataUpdateCount
  infer_instance

instance : Keeps (Changed may) (ctapResetKeyAgreement env) :=
  ⟨fun a i _ => by cases i <;> first | exact rfl | exact id | exact List.prefix_rfl⟩

instance [h : May may .rkStored] : Keeps (Changed may) ctapIncrementRkStore := by
  refine ⟨fun a i hi => ?_⟩
  cases i
  case rkStored => exact absurd h.mem hi
  all_goals first | exact rfl | exact fun _ => rfl | exact List.prefix_rfl

instance [h : May may .rkStored] : Keeps (Changed may) ctapDecrementRkStore := by
  refine ⟨fun a i hi => ?_⟩
  cases i
  case rkStored => exact absurd h.mem hi
  all_goals first | exact rfl | exact fun _ => rfl | exact List.prefix_rfl

instance (k : SigningKey) : Keeps (Changed may) (loadKey k) :=
  keeps_modify fun a i _ => by cases i <;> first | exact rfl | exact id | exact List.prefix_rfl

instance (index : ℤ) (rk : ResidentKey) [h : May may .rks] :
    Keeps (Changed may) (ctapOverwriteRk index rk) := by
  refine keeps_modify fun a i hi => ?_
  split
  · exact refl_of i.Same a
  · cases i
    case rks => exact absurd h.mem hi
    all_goals first | exact rfl | exact id | exact List.prefix_rfl

instance (index : ℤ) [May may .rks] : Keeps (Changed may) (ctapDeleteRk index) :=
  inferInstanceAs (Keeps (Changed may) (ctapOverwriteRk _ _))

instance (upDelay : ℕ) (extendedWipe : Bool) [May may (.events .presence)] :
    Routine.Keeps (Changed may) (ctapUserPresenceTestFeedback upDelay extendedWipe) := by
  have hnote : ∀ r, May may (.events (Trace.presence r).kind) := fun _ =>
    inferInstanceAs (May may (.events .presence))
  unfold ctapUserPresenceTestFeedback
  infer_instance

instance (feedback : CtapM ℤ) [Routine.Keeps (Changed may) feedback] :
    Routine.Keeps (Changed may) (testWithStatus feedback) := by
  unfold testWithStatus
  infer_instance

instance (purpose : PresencePurpose) [May may (.events .presence)] :
    Routine.Keeps (Changed may) (ctap2UserPresenceTest purpose) := by
  unfold ctap2UserPresenceTest ctapUserPresenceTest ctapUserPresenceTestExtended
  split <;> infer_instance

theorem Authenticator.tested.changed {t a : Authenticator} {h : Answers} (ht : t.tested a h)
    [May may (.events .presence)] : Changed may a t := by
  have hkeeps := (inferInstance : Routine.Keeps (Changed may)
    (ctapUserPresenceTestFeedback 0 false)).answered h.answer
  rcases ht with rfl | rfl
  · exact refl_of (Changed may) t
  · exact hkeeps.apply (answered_feedback 0 false h a)

instance {τ α : Type} (m : Parse (WithCustom τ) α) (t : τ) [h : May may .custom] :
    Keeps (Changed may) (withCustom m t) := by
  refine ⟨fun a i hi => ?_⟩
  cases i
  case custom => exact absurd h.mem hi
  all_goals first | exact rfl | exact id | exact List.prefix_rfl

instance {τ : Type} (m : Parse (WithCustom τ) Unit) (t : τ) [May may .custom] :
    Keeps (Changed may) (parsedWithCustom m t) := by
  unfold parsedWithCustom
  refine Keeps.seq inferInstance fun ⟨r, t⟩ => ?_
  rcases r with _ | _ <;> infer_instance

instance (pinAuth : Buf 16) (clientDataHash : Buf clientDataHashSize)
    [h : May may (.events .verified)] :
    Keeps (Changed may) (verifyPinAuth env pinAuth clientDataHash) := by
  have hnote : May may (.events Trace.pinAuthVerified.kind) := h
  unfold verifyPinAuth
  infer_instance

end Services

/-! ### makeCredential -/

section MakeCredential

variable {may : List Aspect}

instance (update : (AuthDataHeader → AuthDataHeader) → Device Unit) (rp : RpId)
    [hupdate : ∀ f, Keeps (Changed may) (update f)] [May may (.events .presence)] :
    Routine.Keeps (Changed may) (ctapMakeAuthDataHeader env update rp) := by
  unfold ctapMakeAuthDataHeader
  dsimp only
  repeat first | infer_instance | refine Routine.Keeps.seq inferInstance fun _ => ?_

instance (h : AuthDataHeader) (credProtect : UInt32) [hmay : May may (.events .created)] :
    Keeps (Changed may) (makeCredentialId env h credProtect) := by
  have hnote : ∀ s id l, May may (.events (Trace.created s id l).kind) := fun _ _ _ => hmay
  unfold makeCredentialId
  repeat first | infer_instance | refine Keeps.seq inferInstance fun _ => ?_

instance (rk : ResidentKey) [May may .rks] [May may .rkStored] :
    Keeps (Changed may) (storeResidentKey rk) := by
  unfold storeResidentKey
  refine Keeps.seq inferInstance fun a => ?_
  generalize findMatchingRk a rk a.state.rkStored.toNat 0 default = found
  generalize findFreeRk a = free
  rcases found with _ | rawI
  · rcases free with _ | i <;> infer_instance
  · infer_instance

instance (rp : RpId) (credInfo : CredInfo) (extensions : Extensions) [May may .rks]
    [May may .rkStored] [May may (.events .presence)] [May may (.events .created)] :
    Routine.Keeps (Changed may) (ctapMakeAuthData env rp credInfo extensions) := by
  unfold ctapMakeAuthData
  repeat first | infer_instance | refine Routine.Keeps.seq inferInstance fun _ => ?_

/-- What is signed, as an event of the key that signs it. -/
theorem ctapCalculateSignature_apply (data : List UInt8) (clientDataHash : Buf clientDataHashSize)
    (a : Authenticator) :
    ctapCalculateSignature env data clientDataHash a =
      let hash := env.sha256 (data ++ clientDataHash.bytes)
      let key := a.signingKey.source
      match env.sign a.signingKey.key hash.bytes fun i => env.random (a.rngPos + i) with
      | none =>
          (.error .halted, { a with trace := a.trace ++ [.assertion key data clientDataHash.bytes] })
      | some (sig, drawn) =>
          (.ok (hash, (ctapEncodeDerSig sig).1.slice 0 (ctapEncodeDerSig sig).2),
            { a with
              rngPos := a.rngPos + drawn
              trace := a.trace ++ [.assertion key data clientDataHash.bytes] ++
                [.signed key hash.bytes] }) := by
  dsimp only
  rw [ctapCalculateSignature, get_bind, bind_of_ok rfl, cryptoEcc256Sign, bind_assoc, get_bind,
    bind_assoc]
  cases env.sign a.signingKey.key (env.sha256 (data ++ clientDataHash.bytes)).bytes
    fun i => env.random (a.rngPos + i) with
  | none => rfl
  | some out => rfl

theorem changed_by_signing (a : Authenticator) (k : SigningKey) (pos : ℕ) (events : List Trace)
    [hmay : May may (.events k.source.kind)] (hkind : ∀ e ∈ events, e.kind = k.source.kind) :
    Changed may a { a with signingKey := k, rngPos := pos, trace := a.trace ++ events } := by
  intro i hi
  cases i
  case events kind =>
    have hnone : events.filter (·.kind = kind) = [] := by
      rw [List.filter_eq_nil_iff]
      intro e he hk
      exact hi ((hkind e he).symm.trans (of_decide_eq_true hk) ▸ hmay.mem)
    show (a.trace ++ events).filter _ = _
    rw [List.filter_append, hnone, List.append_nil]
    rfl
  case trace => exact List.prefix_append _ _
  all_goals first | exact rfl | exact id

/-- A signature is an event of the loaded key. -/
theorem keeps_ctapCalculateSignature (k : SigningKey) (data : List UInt8)
    (clientDataHash : Buf clientDataHashSize) [hmay : May may (.events k.source.kind)] :
    Keeps (Changed may) (loadKey k >>= fun _ => ctapCalculateSignature env data clientDataHash) := by
  constructor
  intro a
  rw [bind_of_ok rfl, ctapCalculateSignature_apply]
  dsimp only
  generalize env.sign _ _ _ = out
  rcases out with _ | ⟨sig, drawn⟩
  · exact changed_by_signing a k a.rngPos _ (by simp [Trace.kind])
  · rw [List.append_assoc]
    exact changed_by_signing a k (a.rngPos + drawn) _ (by simp [Trace.kind])

/-- Nothing but the attestation key signs. -/
instance (authData : List UInt8) (clientDataHash : Buf clientDataHashSize)
    [hmay : May may (.events .otherKey)] :
    Keeps (Changed may) (signAttestation env authData clientDataHash) := by
  have hkey : May may (.events (cryptoEcc256LoadAttestationKey env).source.kind) := hmay
  have hsign : Keeps (Changed may) _ := keeps_ctapCalculateSignature env (cryptoEcc256LoadAttestationKey env) authData
    clientDataHash
  unfold signAttestation
  rw [← bind_assoc]
  exact Keeps.seq hsign fun ⟨_, _⟩ => inferInstance

instance [May may (.events .presence)] : Routine.Keeps (Changed may) emptyPinAuth := by
  unfold emptyPinAuth
  infer_instance

instance (rp : RpId) (pinAuthPresent : Bool) (n : ℕ) (arr : env.reader.Cursor)
    (exclCred : CredentialDescriptor) [May may .custom] [May may (.events .presence)] :
    Routine.Keeps (Changed may) (checkExcludeList env rp pinAuthPresent n arr exclCred) := by
  induction n generalizing arr exclCred with
  | zero => exact Routine.Keeps.pure _
  | succ n ih =>
      unfold checkExcludeList
      refine Routine.Keeps.seq inferInstance fun ⟨r, exclCred⟩ => ?_
      rcases r with c | u
      · infer_instance
      · refine Routine.Keeps.seq inferInstance fun _ => ?_
        split
        · infer_instance
        · split <;> infer_instance

instance (mc : MakeCredential env.reader.Cursor) [May may .custom]
    [May may (.events .presence)] [May may (.events .verified)] :
    Routine.Keeps (Changed may) (checkMakeCredential env mc) := by
  unfold checkMakeCredential
  repeat refine Routine.Keeps.seq inferInstance fun _ => ?_
  split <;> infer_instance

instance (extensions : Extensions) (h : AuthDataHeader) (attested : List UInt8) :
    Keeps (Changed may) (appendExtensions env extensions h attested) := by
  unfold appendExtensions
  dsimp only
  infer_instance

instance (w : Writer) (request : List UInt8) [May may .custom] [May may .rks] [May may .rkStored]
    [May may (.events .presence)] [May may (.events .verified)] [May may (.events .created)]
    [May may (.events .otherKey)] :
    Routine.Keeps (Changed may) (ctapMakeCredential env w request) := by
  unfold ctapMakeCredential
  refine Routine.Keeps.seq inferInstance fun _ => ?_
  refine Routine.Keeps.seq inferInstance fun _ => ?_
  refine Routine.Keeps.seq inferInstance fun _ => ?_
  refine Routine.Keeps.seq inferInstance fun ⟨h, attested⟩ => ?_
  infer_instance

end MakeCredential

/-! ### clientPIN and credential management -/

section Pin

variable {may : List Aspect}

instance [hpin : May may .pin] [hatt : May may .attempts] :
    Keeps (Changed may) ctapDecrementPinAttempts := by
  have hboots : Keeps (Changed may) (Proc.modify fun a : Authenticator =>
      if a.pinBootAttemptsLeft > 0 then { a with pinBootAttemptsLeft := a.pinBootAttemptsLeft - 1 }
      else a : Device Unit) := by
    refine keeps_modify fun a i hi => ?_
    split
    · cases i
      case attempts => exact absurd hatt.mem hi
      all_goals first | exact rfl | exact id | exact List.prefix_rfl
    · exact refl_of i.Same a
  -- the tries are lowered in memory and flushed before anything else is done
  have hlower : Keeps (Changed may) (modifyState (fun s =>
      { s with remainingTries := s.remainingTries - 1 }) >>= fun _ => ctapFlushState) := by
    refine ⟨fun a i hi => ?_⟩
    cases i
    case attempts => exact absurd hatt.mem hi
    all_goals first | exact rfl | exact fun _ => rfl | exact List.prefix_rfl
  have hlock : Keeps (Changed may) lockDevicePermanently := by
    refine ⟨fun a i hi => ?_⟩
    cases i
    case pin => exact absurd hpin.mem hi
    all_goals first | exact rfl | exact fun _ => rfl | exact List.prefix_rfl
  unfold ctapDecrementPinAttempts
  refine Keeps.seq hboots fun _ => Keeps.seq inferInstance fun a => ?_
  split
  · infer_instance
  · rw [← bind_assoc]
    exact Keeps.seq hlower fun _ => inferInstance

instance [hatt : May may .attempts] : Keeps (Changed may) ctapResetPinAttempts := by
  refine ⟨fun a i hi => ?_⟩
  cases i
  case attempts => exact absurd hatt.mem hi
  all_goals first | exact rfl | exact fun _ => rfl | exact List.prefix_rfl

instance [May may .pin] [May may .attempts] : Keeps (Changed may) (wrongPin env) := by
  unfold wrongPin
  infer_instance

instance (pinHash : List UInt8) [May may .pin] [May may .attempts]
    [hmay : May may (.events .compared)] : Keeps (Changed may) (comparePinHash env pinHash) := by
  have hnote : ∀ b, May may (.events (Trace.pinCompared pinHash b).kind) := fun _ => hmay
  unfold comparePinHash
  infer_instance

instance (sharedSecret : List UInt8) (pinHashEnc : Option (Buf 16)) [May may .pin]
    [May may .attempts] [May may (.events .compared)] :
    Keeps (Changed may) (verifyCurrentPin env sharedSecret pinHashEnc) := by
  unfold verifyCurrentPin
  infer_instance

instance (pin : List UInt8) (len : ℕ) [hpin : May may .pin] [hmay : May may (.events .updated)] :
    Keeps (Changed may) (ctapUpdatePin env pin len) := by
  have hnote : May may (.events (Trace.pinUpdated (pin.take len)).kind) := hmay
  have hset : Keeps (Changed may) (modifyState (fun s =>
      { s with
        pinCodeHash := saltedPinHash env s.pinSalt ((env.sha256 (pin.take len)).slice 0 16)
        isPinSet := 1 }) >>= fun _ => ctapFlushState) := by
    refine ⟨fun a i hi => ?_⟩
    cases i
    case pin => exact absurd hpin.mem hi
    all_goals first | exact rfl | exact fun _ => rfl | exact List.prefix_rfl
  unfold ctapUpdatePin
  refine Keeps.seq inferInstance fun _ => ?_
  rw [← bind_assoc]
  exact Keeps.seq hset fun _ => inferInstance

instance (pinEnc : Buf newPinEncMaxSize) (len : ℕ) (platformPubkey : List UInt8) (pinAuth : Buf 16)
    (pinHashEnc : Option (Buf 16)) [May may .pin] [May may .attempts]
    [May may (.events .compared)] [May may (.events .updated)] :
    Keeps (Changed may)
      (ctapUpdatePinIfVerified env pinEnc len platformPubkey pinAuth pinHashEnc) := by
  unfold ctapUpdatePinIfVerified
  dsimp only
  repeat first | infer_instance | refine Keeps.seq inferInstance fun _ => ?_

instance (platformPubkey : List UInt8) (pinHashEnc : Buf 16) [May may .pin] [May may .attempts]
    [May may (.events .compared)] :
    Keeps (Changed may) (ctapAddPinIfVerified env platformPubkey pinHashEnc) := by
  unfold ctapAddPinIfVerified
  repeat first | infer_instance | refine Keeps.seq inferInstance fun _ => ?_

instance (w : Writer) (numMap : ℕ) :
    Keeps (Changed may) (clientPinGetKeyAgreement env w numMap) := by
  have hpub : Keeps (Changed may) (Proc.modify fun a : Authenticator =>
      { a with keyAgreementPub :=
        (env.computePublicKey a.keyAgreementPriv).getD a.keyAgreementPub } : Device Unit) :=
    keeps_modify fun a i _ => by cases i <;> first | exact rfl | exact id | exact List.prefix_rfl
  unfold clientPinGetKeyAgreement
  infer_instance

instance (cp : ClientPin) [May may .pin] [May may .attempts] [May may (.events .compared)]
    [May may (.events .updated)] : Keeps (Changed may) (clientPinSetPin env cp) := by
  unfold clientPinSetPin
  infer_instance

instance (cp : ClientPin) [May may .pin] [May may .attempts] [May may (.events .compared)]
    [May may (.events .updated)] : Keeps (Changed may) (clientPinChangePin env cp) := by
  unfold clientPinChangePin
  infer_instance

instance (w : Writer) (cp : ClientPin) (numMap : ℕ) [May may .pin] [May may .attempts]
    [May may (.events .compared)] :
    Keeps (Changed may) (clientPinGetPinToken env w cp numMap) := by
  unfold clientPinGetPinToken
  repeat first | infer_instance | refine Keeps.seq inferInstance fun _ => ?_

instance (w : Writer) (cp : ClientPin) [May may .pin] [May may .attempts]
    [May may (.events .compared)] [May may (.events .updated)] :
    Keeps (Changed may) (clientPinSubCommand env w cp) := by
  unfold clientPinSubCommand
  dsimp only
  infer_instance

instance (w : Writer) (request : List UInt8) [May may .pin] [May may .attempts]
    [May may (.events .compared)] [May may (.events .updated)] :
    Keeps (Changed may) (ctapClientPin env w request) := by
  unfold ctapClientPin
  obtain ⟨r, cp⟩ := (ctapParseClientPin env request).run default
  dsimp only
  infer_instance

instance (cm : CredMgmt) [May may .pin] [May may .attempts] [hmay : May may (.events .verified)] :
    Keeps (Changed may) (ctapCredMgmtPinauth env cm) := by
  have hnote : May may (.events Trace.pinAuthVerified.kind) := hmay
  unfold ctapCredMgmtPinauth
  infer_instance

instance (f : CredMgmtState → CredMgmtState) [h : May may .cursors] :
    Keeps (Changed may) (modifyCredMgmt f) := by
  refine keeps_modify fun a i hi => ?_
  cases i
  case cursors => exact absurd h.mem hi
  all_goals first | exact rfl | exact id | exact List.prefix_rfl

instance (cm : CredMgmt) [May may .cursors] : Keeps (Changed may) (credMgmtPrepare cm) := by
  unfold credMgmtPrepare
  infer_instance

instance (w : Writer) (rpCount : ℕ) [May may .cursors] :
    Keeps (Changed may) (credMgmtRp env w rpCount) := by
  unfold credMgmtRp noCredentials
  infer_instance

instance (w : Writer) (rkCount : ℕ) [May may .cursors] :
    Keeps (Changed may) (credMgmtRk env w rkCount) := by
  unfold credMgmtRk noCredentials
  infer_instance

instance (w : Writer) (cm : CredMgmt) [May may .rks] [May may .rkStored] :
    Keeps (Changed may) (credMgmtDelete w cm) := by
  unfold credMgmtDelete
  refine Keeps.seq inferInstance fun a => ?_
  generalize credentialIdToRkIndex a _ = found
  rcases found with _ | i <;> infer_instance

instance (w : Writer) (request : List UInt8) [May may .custom] [May may .rks] [May may .rkStored]
    [May may .cursors] [May may .pin] [May may .attempts] [May may (.events .verified)] :
    Keeps (Changed may) (ctapCredMgmt env w request) := by
  unfold ctapCredMgmt
  repeat refine Keeps.seq inferInstance fun _ => ?_
  refine @Keeps.ite _ _ _ _ _ _ _ _ inferInstance ?_
  refine Keeps.seq inferInstance fun ⟨rpCount, rkCount⟩ => ?_
  infer_instance

end Pin

/-! ### Assertions -/

section Assertion

variable {may : List Aspect}

theorem keeps_modifyGas {f : GetAssertionState → GetAssertionState}
    (h : ∀ a : Authenticator, ∀ i, i ∉ may → i.Same a { a with gas := f a.gas }) :
    Keeps (Changed may) (modifyGas f) := Keeps.modify h

instance (f : AuthDataHeader → AuthDataHeader) [h : May may .flags] :
    Keeps (Changed may) (updateAuthData f) := by
  refine keeps_modifyGas fun a i hi => ?_
  cases i
  case flags => exact absurd h.mem hi
  all_goals first | exact rfl | exact id | exact List.prefix_rfl

instance (i : ℕ) (f : CredentialDescriptor → CredentialDescriptor) [h : May may .creds] :
    Keeps (Changed may) (modifyCred i f) := by
  refine keeps_modifyGas fun a i hi => ?_
  cases i
  case creds => exact absurd h.mem hi
  all_goals first | exact rfl | exact id | exact List.prefix_rfl

instance (ext : Extensions) : Keeps (Changed may) (makeAssertionExtensions env ext) := by
  have hbuf : ∀ (a : Authenticator) (b : Buf 80),
      Changed may a { a with gas := { a.gas with bufExtensions := b } } := fun a b i _ => by
    cases i <;> first | exact rfl | exact id | exact List.prefix_rfl
  refine ⟨fun a => ?_⟩
  unfold makeAssertionExtensions
  dsimp only
  rcases (ctapMakeExtensions env a ext).run ⟨a.gas.bufExtensions, 80⟩ with ⟨(_ | _) | _, b⟩ <;>
    exact hbuf a b.buf

instance (keyh : List UInt8) (output : Buf 71) [May may (.events .presence)]
    [hmay : May may (.events .bootloader)] :
    Routine.Keeps (Changed may) (bridgeU2fToSolo env output keyh) := by
  have hnote : May may (.events Trace.bootloader.kind) := hmay
  unfold bridgeU2fToSolo ctapUserPresenceTestExtended
  split
  · infer_instance
  · refine Routine.Keeps.seq inferInstance fun a => ?_
    refine Routine.Keeps.seq ?_ fun _ => inferInstance
    split <;> infer_instance
  · infer_instance
  · infer_instance

instance (credId : CredentialId) (output : Buf 72) [May may (.events .presence)]
    [May may (.events .bootloader)] :
    Routine.Keeps (Changed may) (extendFido2 env credId output) := by
  have hsource : Keeps (Changed may) (Proc.modify fun a : Authenticator =>
      { a with requestSource := .fido2 } : Device Unit) :=
    keeps_modify fun a i _ => by cases i <;> first | exact rfl | exact id | exact List.prefix_rfl
  unfold extendFido2
  refine @Routine.Keeps.ite _ _ _ _ _ _ _ _ _ _ ?_ inferInstance
  refine Routine.Keeps.seq inferInstance fun _ => ?_
  exact Routine.Keeps.seq inferInstance fun ⟨_, _⟩ => inferInstance

/-- The rest of the authenticator data is not looked at. -/
theorem keeps_updateAuthData {f : AuthDataHeader → AuthDataHeader}
    (hf : ∀ h, (f h).flags = h.flags) : Keeps (Changed may) (updateAuthData f) :=
  keeps_modifyGas fun a i _ => by cases i <;> first | exact rfl | exact hf _ | exact id | exact List.prefix_rfl

instance (hash : List UInt8) [hd : May may (.events .derived)] [ho : May may (.events .otherKey)] :
    Keeps (Changed may) (cryptoEcc256Sign env hash) := by
  have hsigned : ∀ k : KeySource, May may (.events (Trace.signed k hash).kind) := fun k => by
    cases k <;> assumption
  have hdrawn : ∀ n, Keeps (Changed may) (Proc.modify fun a : Authenticator =>
      { a with rngPos := a.rngPos + n } : Device Unit) := fun n =>
    keeps_modify fun a i _ => by cases i <;> first | exact rfl | exact id | exact List.prefix_rfl
  unfold cryptoEcc256Sign
  exact Keeps.seq inferInstance fun a => Keeps.seq inferInstance fun ⟨_, _⟩ => inferInstance

instance (data : List UInt8) (clientDataHash : Buf clientDataHashSize)
    [hd : May may (.events .derived)] [ho : May may (.events .otherKey)] :
    Keeps (Changed may) (ctapCalculateSignature env data clientDataHash) := by
  have hassertion : ∀ k : KeySource,
      May may (.events (Trace.assertion k data clientDataHash.bytes).kind) := fun k => by
    cases k <;> assumption
  unfold ctapCalculateSignature
  refine Keeps.seq inferInstance fun a => Keeps.seq inferInstance fun _ =>
    Keeps.seq inferInstance fun sig => ?_
  rcases ctapEncodeDerSig sig with ⟨sigder, len⟩
  infer_instance

instance (size : ℕ) (clientDataHash : Buf clientDataHashSize) [May may (.events .derived)]
    [May may (.events .otherKey)] : Keeps (Changed may) (signAssertion env size clientDataHash) := by
  have hhash : ∀ hash, Keeps (Changed may) (updateAuthData fun h => { h with rpIdHash := hash }) :=
    fun hash => keeps_updateAuthData fun _ => rfl
  unfold signAssertion
  exact Keeps.seq inferInstance fun a => Keeps.seq inferInstance fun ⟨_, _⟩ => inferInstance

instance (w : Writer) (cred : CredentialDescriptor) (size : ℕ)
    (clientDataHash : Buf clientDataHashSize) [May may (.events .presence)]
    [May may (.events .bootloader)] [May may (.events .derived)] [May may (.events .otherKey)] :
    Routine.Keeps (Changed may) (ctapEndGetAssertion env w cred size clientDataHash) := by
  unfold ctapEndGetAssertion
  refine Routine.Keeps.seq inferInstance fun a => ?_
  refine Routine.Keeps.seq inferInstance fun w => ?_
  refine Routine.Keeps.seq inferInstance fun _ => ?_
  refine Routine.Keeps.seq inferInstance fun ext => ?_
  refine Routine.Keeps.seq ?_ fun _ => inferInstance
  rcases ext with _ | out <;> infer_instance

instance (clientDataHash : Buf clientDataHashSize) (count : ℕ) (ext : Extensions)
    [hs : May may .saved] [hc : May may .creds] :
    Keeps (Changed may) (saveCredentialList clientDataHash count ext) := by
  unfold saveCredentialList
  refine Keeps.seq inferInstance fun _ => keeps_modifyGas fun a i hi => ?_
  cases i
  case saved => exact absurd hs.mem hi
  case creds => exact absurd hc.mem hi
  all_goals first | exact id | exact List.prefix_rfl | (split <;> exact rfl)

instance [hs : May may .saved] : Keeps (Changed may) popCredential := by
  have hindex : Keeps (Changed may) (modifyGas fun g => { g with index := g.index + 1 }) := by
    refine keeps_modifyGas fun a i hi => ?_
    cases i
    case saved => exact absurd hs.mem hi
    all_goals first | exact rfl | exact id | exact List.prefix_rfl
  unfold popCredential
  infer_instance

instance (request : List UInt8) [hc : May may .creds] [hu : May may .custom] :
    Keeps (Changed may) (parseGetAssertion env request) := by
  unfold parseGetAssertion
  refine Keeps.seq inferInstance fun a => Keeps.seq ?_ fun _ => inferInstance
  refine keeps_modifyGas fun a i hi => ?_
  cases i
  case creds => exact absurd hc.mem hi
  case custom => exact absurd hu.mem hi
  all_goals first | exact rfl | exact id | exact List.prefix_rfl

instance (ga : GetAssertion) [hu : May may .userVerified] [May may (.events .verified)] :
    Keeps (Changed may) (verifyUser env ga) := by
  have hset : ∀ v, Keeps (Changed may) (modifyGas fun g => { g with userVerified := v }) := by
    intro v
    refine keeps_modifyGas fun a i hi => ?_
    cases i
    case userVerified => exact absurd hu.mem hi
    all_goals first | exact rfl | exact id | exact List.prefix_rfl
  unfold verifyUser
  infer_instance

instance (ga : GetAssertion) [hc : May may .creds] [hl : May may (.events .listed)] :
    Keeps (Changed may) (filterCredentials env ga) := by
  have hnote : ∀ c o a, May may (.events (Trace.listed c o a).kind) := fun _ _ _ => hl
  have hset : ∀ l, Keeps (Changed may) (modifyGas fun g => { g with creds := l }) := by
    intro l
    refine keeps_modifyGas fun a i hi => ?_
    cases i
    case creds => exact absurd hc.mem hi
    all_goals first | exact rfl | exact id | exact List.prefix_rfl
  unfold filterCredentials
  dsimp only
  infer_instance

instance (rp : RpId) [May may .flags] [hf : May may (.events .flags)] :
    Keeps (Changed may) (extensionAuthData env rp) := by
  have hnote : ∀ b, May may (.events (Trace.flagsWritten b).kind) := fun _ => hf
  unfold extensionAuthData
  infer_instance

instance (disable : Bool) : Keeps (Changed may) (deviceDisableUp disable) :=
  keeps_modify fun a i _ => by cases i <;> first | exact rfl | exact id | exact List.prefix_rfl

instance (ga : GetAssertion) [May may .flags] [hf : May may (.events .flags)]
    [May may (.events .presence)] : Routine.Keeps (Changed may) (assertionAuthData env ga) := by
  have hnote : ∀ b, May may (.events (Trace.flagsWritten b).kind) := fun _ => hf
  unfold assertionAuthData
  repeat first | infer_instance | refine Routine.Keeps.seq inferInstance fun _ => ?_

instance (request : List UInt8) [May may .creds] [May may .custom] [May may .userVerified]
    [May may (.events .presence)] [May may (.events .verified)] [May may (.events .listed)] :
    Routine.Keeps (Changed may) (selectCredentials env request) := by
  unfold selectCredentials
  repeat first | infer_instance | refine Routine.Keeps.seq inferInstance fun _ => ?_

instance (w : Writer) (request : List UInt8) [May may .creds] [May may .custom] [May may .saved]
    [May may .userVerified] [May may .flags] [May may (.events .presence)]
    [May may (.events .verified)] [May may (.events .listed)] [May may (.events .flags)]
    [May may (.events .bootloader)] [May may (.events .derived)] [May may (.events .otherKey)] :
    Routine.Keeps (Changed may) (ctapGetAssertion env w request) := by
  unfold ctapGetAssertion
  refine Routine.Keeps.seq inferInstance fun ⟨validCredCount, ga⟩ => ?_
  dsimp only
  repeat first | infer_instance | refine Routine.Keeps.seq inferInstance fun _ => ?_

instance (w : Writer) [May may .creds] [May may .saved] [May may .flags]
    [May may (.events .presence)] [May may (.events .bootloader)] [May may (.events .derived)]
    [May may (.events .otherKey)] : Routine.Keeps (Changed may) (ctapGetNextAssertion env w) := by
  unfold ctapGetNextAssertion
  refine Routine.Keeps.seq inferInstance fun popped => ?_
  rcases popped with _ | i
  · infer_instance
  · refine Routine.Keeps.seq inferInstance fun count => ?_
    refine Routine.Keeps.seq inferInstance fun a => ?_
    dsimp only
    refine Routine.Keeps.seq inferInstance fun _ => ?_
    refine Routine.Keeps.seq inferInstance fun _ => ?_
    refine Routine.Keeps.seq inferInstance fun _ => ?_
    refine Routine.Keeps.seq inferInstance fun ⟨ret, size⟩ => ?_
    repeat first | infer_instance | refine Routine.Keeps.seq inferInstance fun _ => ?_

end Assertion

/-! ### Requests -/

theorem command_cases (cmd : UInt8) :
    cmd = ctapMakeCredentialCmd ∨ cmd = ctapGetAssertionCmd ∨
      (cmd = ctapCborCredMgmtCmd ∨ cmd = ctapCborCredMgmtPreCmd) ∨ cmd = ctapGetInfoCmd ∨
      cmd = ctapClientPinCmd ∨ cmd = ctapResetCmd ∨ cmd = getNextAssertionCmd ∨
      cmd ∉ [ctapMakeCredentialCmd, ctapGetAssertionCmd, ctapCborCredMgmtCmd,
        ctapCborCredMgmtPreCmd, ctapGetInfoCmd, ctapClientPinCmd, ctapResetCmd,
        getNextAssertionCmd] := by
  simp only [List.mem_cons, List.not_mem_nil, or_false]
  tauto

/-- What some request other than a reset may change. -/
abbrev requestMayChange : List Aspect :=
  [.pin, .attempts, .rks, .rkStored, .cursors, .saved, .creds, .custom, .flags, .userVerified,
    .events .presence, .events .verified, .events .compared, .events .updated, .events .created, .events .listed,
    .events .flags, .events .derived, .events .otherKey, .events .bootloader]

/-- What a getAssertion or a getNextAssertion may change. -/
abbrev assertionMayChange : List Aspect :=
  [.saved, .creds, .custom, .flags, .userVerified, .events .presence, .events .verified,
    .events .listed, .events .flags, .events .derived, .events .otherKey, .events .bootloader]

/-- What the other commands may change, but for a reset. -/
abbrev unassertingMayChange : List Aspect :=
  [.pin, .attempts, .rks, .rkStored, .cursors, .custom, .events .presence, .events .verified,
    .events .compared, .events .updated, .events .created, .events .otherKey]

section Requests

variable {env} {a : Authenticator} {bytes : List UInt8} {h : Answers} {may : List Aspect}

theorem changed_of_keeps {α : Type} {m : Device α} (hm : Keeps (Changed may) m) :
    Changed may { a with trace := [] } (m { a with trace := [] }).2 := hm.state _

variable (env) in
theorem dispatch_assertion_changed
    (hcmd : bytes.getD 0 0 = ctapGetAssertionCmd ∨ bytes.getD 0 0 = getNextAssertionCmd) :
    Changed assertionMayChange { a with trace := [] } (a.dispatch env bytes h).2 := by
  rcases hcmd with hc | hc
  · rw [dispatch_getAssertion env hc]
    have hm := (inferInstance : Routine.Keeps (Changed assertionMayChange)
      (ctapGetAssertion env (Writer.init ctapResponseBufferSize) bytes.tail)).answered h.answer
    exact changed_of_keeps inferInstance
  · rw [dispatch_getNextAssertion env hc]
    have hm := (inferInstance : Routine.Keeps (Changed assertionMayChange)
      (ctapGetNextAssertion env (Writer.init ctapResponseBufferSize))).answered h.answer
    exact changed_of_keeps inferInstance

/-- The commands other than a reset, a getAssertion and a getNextAssertion. -/
def Unasserting (cmd : UInt8) : Prop :=
  cmd ≠ ctapResetCmd ∧ cmd ≠ ctapGetAssertionCmd ∧ cmd ≠ getNextAssertionCmd

variable (env) in
theorem dispatch_unasserting_changed (hcmd : Unasserting (bytes.getD 0 0)) :
    Changed unassertingMayChange { a with trace := [] } (a.dispatch env bytes h).2 := by
  obtain ⟨hreset, hget, hnext⟩ := hcmd
  rcases command_cases (bytes.getD 0 0) with hc | hc | hc | hc | hc | hc | hc | hc
  · rw [dispatch_makeCredential env hc]
    have hm := (inferInstance : Routine.Keeps (Changed unassertingMayChange)
      (ctapMakeCredential env (Writer.init ctapResponseBufferSize) bytes.tail)).answered h.answer
    exact changed_of_keeps inferInstance
  · exact absurd hc hget
  · rw [dispatch_credMgmt env hc]
    exact changed_of_keeps inferInstance
  · rw [dispatch_getInfo env hc]
    exact changed_of_keeps inferInstance
  · rw [dispatch_clientPin env hc]
    exact changed_of_keeps inferInstance
  · exact absurd hc hreset
  · exact absurd hc hnext
  · rw [dispatch_other env hc]
    exact refl_of (Changed unassertingMayChange) _

theorem dispatch_changed (hcmd : bytes.getD 0 0 ≠ ctapResetCmd) :
    Changed requestMayChange { a with trace := [] } (a.dispatch env bytes h).2 := by
  by_cases hget : bytes.getD 0 0 = ctapGetAssertionCmd
  · exact Unchanged.mono _ (dispatch_assertion_changed env (.inl hget)) (by decide)
  by_cases hnext : bytes.getD 0 0 = getNextAssertionCmd
  · exact Unchanged.mono _ (dispatch_assertion_changed env (.inr hnext)) (by decide)
  · exact Unchanged.mono _ (dispatch_unasserting_changed env ⟨hcmd, hget, hnext⟩) (by decide)

end Requests

/-! ### Power-up -/

/-- Neither the assertion state nor the static variables of credential
management are touched. -/
def SpareStatics (a t : Authenticator) : Prop := t.gas = a.gas ∧ t.credMgmt = a.credMgmt

instance : IsPreorder Authenticator SpareStatics where
  refl _ := ⟨rfl, rfl⟩
  trans _ _ _ h₁ h₂ := ⟨h₂.1.trans h₁.1, h₂.2.trans h₁.2⟩

/-- `ctap_init` leaves both as the power cycle has made them. -/
theorem reboot_leaves (a : Authenticator) :
    (a.reboot env).2.gas = GetAssertionState.zero ∧
      (a.reboot env).2.credMgmt = ⟨0, 0, false, false⟩ := by
  have hwrite (s : AuthenticatorState) : Keeps SpareStatics (authenticatorWriteState s) :=
    ⟨fun _ => ⟨rfl, rfl⟩⟩
  have hstate (f : AuthenticatorState → AuthenticatorState) : Keeps SpareStatics (modifyState f) :=
    ⟨fun _ => ⟨rfl, rfl⟩⟩
  have hrng (n : ℕ) : Keeps SpareStatics (ctapGenerateRng env n) := ⟨fun _ => ⟨rfl, rfl⟩⟩
  have hrk : Keeps SpareStatics ctapResetRk := ⟨fun _ => ⟨rfl, rfl⟩⟩
  have hread : Keeps SpareStatics authenticatorReadState := ⟨fun _ => ⟨rfl, rfl⟩⟩
  have hkey : Keeps SpareStatics (ctapResetKeyAgreement env) := ⟨fun _ => ⟨rfl, rfl⟩⟩
  have htoken : Keeps SpareStatics (renewPinToken env) := ⟨fun _ => ⟨rfl, rfl⟩⟩
  have hsecret : Keeps SpareStatics loadMasterSecret := ⟨fun _ => ⟨rfl, rfl⟩⟩
  have hfresh : Keeps SpareStatics (ctapStateInit env) := by
    unfold ctapStateInit
    infer_instance
  have hflush : Keeps SpareStatics ctapFlushState := by
    unfold ctapFlushState
    infer_instance
  have hsave (s : AuthenticatorState) : Keeps SpareStatics (saveMigratedState s) := by
    unfold saveMigratedState
    infer_instance
  have hfrom (s : AuthenticatorState) : Keeps SpareStatics (migrateFromFFTo01 env s) := by
    unfold migrateFromFFTo01
    infer_instance
  have hmigrate : Keeps SpareStatics (doMigrationIfRequired env) := by
    unfold doMigrationIfRequired
    infer_instance
  have hinit : Keeps SpareStatics (ctapInit env) := by
    unfold ctapInit
    infer_instance
  exact hinit.state (powerCycle a)

end NitrokeyFido2.Ctap
