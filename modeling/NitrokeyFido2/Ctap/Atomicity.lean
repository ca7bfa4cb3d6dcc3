import NitrokeyFido2.Ctap.AuthData
import NitrokeyFido2.Ctap.Listing

/-!
What a makeCredential that fails leaves behind.

The resident key is stored in the middle of the request. Everything before it
leaves the keys and the persistent state alone, and what comes behind it never
takes the key back: a request that is refused there has stored its key.
-/

namespace NitrokeyFido2.Ctap

open Proc Resumption Nesting

variable (env : Env)

/-- The resident keys, and the persistent state as it is in use and in
flash. -/
def Authenticator.persistent (a : Authenticator) :
    List ResidentKey × AuthenticatorState × AuthenticatorState :=
  (a.rks, a.state, a.stored)

theorem state_of_persistent {a t : Authenticator} (h : t.persistent = a.persistent) :
    t.state = a.state := congrArg (fun p => p.2.1) h

def Persists (a t : Authenticator) : Prop := t.persistent = a.persistent

instance : IsPreorder Authenticator Persists where
  refl _ := rfl
  trans _ _ _ h₁ h₂ := Eq.trans h₂ h₁

/-! ### Up to the store -/

section Frame

instance (t : Trace) : Keeps Persists (note t) := ⟨fun _ => rfl⟩

instance (n : ℕ) : Keeps Persists (ctapGenerateRng env n) := ⟨fun _ => rfl⟩

instance (k : SigningKey) : Keeps Persists (loadKey k) := ⟨fun _ => rfl⟩

instance {τ α : Type} (m : Parse (WithCustom τ) α) (t : τ) : Keeps Persists (withCustom m t) :=
  ⟨fun _ => rfl⟩

instance {τ : Type} (m : Parse (WithCustom τ) Unit) (t : τ) :
    Keeps Persists (parsedWithCustom m t) := by
  unfold parsedWithCustom
  refine Keeps.seq inferInstance fun ⟨r, t⟩ => ?_
  rcases r with _ | _ <;> infer_instance

instance (counter : Authenticator → CounterPages) (sc : Authenticator → UInt32) :
    Keeps Persists
      (Proc.modify fun a => { a with counter := counter a, sc := sc a } : Device Unit) :=
  ⟨fun _ => rfl⟩

instance : Keeps Persists (ctapAtomicCount env) := by
  unfold ctapAtomicCount
  refine Keeps.seq (Keeps.modify fun a => ?_) fun _ => inferInstance
  split <;> rfl

instance : Keeps Persists (authDataUpdateCount env) := by
  unfold authDataUpdateCount
  infer_instance

instance (upDelay : ℕ) (extendedWipe : Bool) :
    Routine.Keeps Persists (ctapUserPresenceTestFeedback upDelay extendedWipe) := by
  unfold ctapUserPresenceTestFeedback
  infer_instance

instance (feedback : CtapM ℤ) [Routine.Keeps Persists feedback] :
    Routine.Keeps Persists (testWithStatus feedback) := by
  unfold testWithStatus
  infer_instance

instance (purpose : PresencePurpose) : Routine.Keeps Persists (ctap2UserPresenceTest purpose) := by
  unfold ctap2UserPresenceTest ctapUserPresenceTest ctapUserPresenceTestExtended
  split <;> infer_instance

instance (pinAuth : Buf 16) (clientDataHash : Buf clientDataHashSize) :
    Keeps Persists (verifyPinAuth env pinAuth clientDataHash) := by
  unfold verifyPinAuth
  infer_instance

instance : Routine.Keeps Persists emptyPinAuth := by
  unfold emptyPinAuth
  infer_instance

instance (rp : RpId) (pinAuthPresent : Bool) (n : ℕ) (arr : env.reader.Cursor)
    (exclCred : CredentialDescriptor) :
    Routine.Keeps Persists (checkExcludeList env rp pinAuthPresent n arr exclCred) := by
  induction n generalizing arr exclCred with
  | zero => exact Routine.Keeps.pure _
  | succ n ih =>
      unfold checkExcludeList
      refine Routine.Keeps.seq inferInstance fun ⟨r, exclCred⟩ => ?_
      rcases r with c | u
      · infer_instance
      · refine Routine.Keeps.seq inferInstance fun _ => ?_
        split
        · infer_instance
        · split <;> infer_instance

instance (mc : MakeCredential env.reader.Cursor) :
    Routine.Keeps Persists (checkMakeCredential env mc) := by
  unfold checkMakeCredential
  repeat refine Routine.Keeps.seq inferInstance fun _ => ?_
  split <;> infer_instance

instance (rp : RpId) :
    Routine.Keeps Persists (ctapMakeAuthDataHeader env (fun _ => pure ()) rp) := by
  unfold ctapMakeAuthDataHeader
  dsimp only
  repeat first | infer_instance | refine Routine.Keeps.seq inferInstance fun _ => ?_

instance (h : AuthDataHeader) (credProtect : UInt32) :
    Keeps Persists (makeCredentialId env h credProtect) := by
  unfold makeCredentialId
  repeat first | infer_instance | refine Keeps.seq inferInstance fun _ => ?_

instance (hash : List UInt8) : Keeps Persists (cryptoEcc256Sign env hash) := by
  unfold cryptoEcc256Sign
  refine Keeps.seq inferInstance fun a => Keeps.seq inferInstance fun ⟨_, drawn⟩ => ?_
  exact Keeps.seq ⟨fun _ => rfl⟩ fun _ => inferInstance

instance (data : List UInt8) (clientDataHash : Buf clientDataHashSize) :
    Keeps Persists (ctapCalculateSignature env data clientDataHash) := by
  unfold ctapCalculateSignature
  refine Keeps.seq inferInstance fun a => Keeps.seq inferInstance fun _ =>
    Keeps.seq inferInstance fun sig => ?_
  rcases ctapEncodeDerSig sig with ⟨sigder, len⟩
  infer_instance

instance (authData : List UInt8) (clientDataHash : Buf clientDataHashSize) :
    Keeps Persists (signAttestation env authData clientDataHash) := by
  unfold signAttestation
  refine Keeps.seq inferInstance fun _ => Keeps.seq inferInstance fun ⟨_, _⟩ => inferInstance

instance (mc : MakeCredential env.reader.Cursor) (w : Writer) (authData : List UInt8) :
    Keeps Persists (finishMakeCredential env mc w authData) := by
  unfold finishMakeCredential
  infer_instance

end Frame

variable {env}

/-- The store refuses a key only when it is full, and is left alone then. -/
theorem storeResidentKey_error (rk : ResidentKey) (a : Authenticator) :
    Ends (storeResidentKey rk) a fun r t => ∀ e, r = .error e → Persists a t := by
  unfold storeResidentKey
  refine Ends.get_bind ?_
  rcases findMatchingRk a rk a.state.rkStored.toNat 0 default with _ | rawI
  · rcases findFreeRk a with _ | i
    · exact fun _ _ => rfl
    · exact fun e he => nomatch he
  · exact fun e he => nomatch he

theorem ctapMakeAuthData_error (rp : RpId) (credInfo : CredInfo) (ext : Extensions) (h : Answers)
    (a : Authenticator) :
    Ends (CtapM.answered h (ctapMakeAuthData env rp credInfo ext)) a
      fun r t => ∀ e, r = .error e → Persists a t := by
  unfold ctapMakeAuthData
  refine Routine.ends_error_seq inferInstance fun hd t => Routine.ends_error_seq inferInstance fun id u => ?_
  refine Routine.ends_seq (P := fun r v => ∀ e, r = .error e → Persists u v) ?_
    (fun _ v _ e he => nomatch he) fun e v hv e' _ => hv e rfl
  split
  · exact storeResidentKey_error _ u
  · exact fun _ he => nomatch he

/-- Up to the extensions, a request that is refused has stored nothing. -/
theorem beginMakeCredential_error (w : Writer) (request : List UInt8) (h : Answers)
    (a : Authenticator) :
    Ends (CtapM.answered h (beginMakeCredential env w request)) a
      fun r t => ∀ e, r = .error e → Persists a t := by
  unfold beginMakeCredential
  refine Routine.ends_error_seq inferInstance fun mc t => Routine.ends_error_seq inferInstance fun _ u =>
    Routine.ends_error_seq inferInstance fun w v => ?_
  refine Routine.ends_seq (ctapMakeAuthData_error mc.rp mc.credInfo mc.extensions h v)
    (fun ⟨hd, attested⟩ x _ e he => nomatch he) fun e x hx e' _ => hx e rfl

/-! ### Behind the store -/

/-- The saltAuth of a hmac-secret input is not the one of its salts. -/
def WrongSaltAuth (env : Env) (a : Authenticator) (ext : Extensions) : Prop :=
  ext.hmacSecretPresent = extHmacSecretParsed ∧
    ∃ shared, env.sharedSecret ext.hmacSecret.keyAgreement.pubkey a.keyAgreementPriv = some shared ∧
      ext.hmacSecret.saltAuth.slice 0 16 ≠
        (cryptoSha256Hmac env a.secrets (.bytes (env.sha256 shared.bytes).bytes)
          (ext.hmacSecret.saltEnc.slice 0 ext.hmacSecret.saltLen.toNat)).slice 0 16

/-- The block cipher works in place. -/
def Env.EncryptsInPlace (env : Env) : Prop := ∀ key b, (env.aesCbcEncrypt key b).length = b.length

theorem hmacSecretOutput_refused_iff {a : Authenticator} {hs : HmacSecret} {code : UInt8} :
    hmacSecretOutput env a hs = .error (.status code) ↔ code = ctap2ErrExtensionFirst ∧
      ∃ shared, env.sharedSecret hs.keyAgreement.pubkey a.keyAgreementPriv = some shared ∧
        hs.saltAuth.slice 0 16 ≠
          (cryptoSha256Hmac env a.secrets (.bytes (env.sha256 shared.bytes).bytes)
            (hs.saltEnc.slice 0 hs.saltLen.toNat)).slice 0 16 := by
  unfold hmacSecretOutput
  rcases env.sharedSecret hs.keyAgreement.pubkey a.keyAgreementPriv with _ | shared
  · simp
  · dsimp only
    split
    case isTrue hwrong => simp [hwrong, eq_comm]
    case isFalse hright => simp [not_not.mp hright]

theorem length_hmacSecretOutput (hcipher : env.EncryptsInPlace) {a : Authenticator} {hs : HmacSecret}
    {out : List UInt8} (h : hmacSecretOutput env a hs = .ok out) : out.length ≤ 64 := by
  unfold hmacSecretOutput at h
  rcases hshared : env.sharedSecret hs.keyAgreement.pubkey a.keyAgreementPriv with _ | shared <;>
    rw [hshared] at h
  · cases h
  · dsimp only at h
    split at h
    · cases h
    · obtain rfl := Except.ok.inj h
      rw [hcipher]
      refine (List.length_take_le' ..).trans ?_
      rw [List.length_append, Buf.length_bytes]
      split
      · rw [Buf.length_bytes]
      · simp

theorem ExtensionsCall.output_refused_iff {c : ExtensionsCall} {code : UInt8} :
    c.output env = .error (.status code) ↔
      code = ctap2ErrExtensionFirst ∧ WrongSaltAuth env c.state c.extensions := by
  unfold ExtensionsCall.output WrongSaltAuth
  split
  case isTrue hparsed =>
    have hiff := @hmacSecretOutput_refused_iff env c.state c.extensions.hmacSecret code
    rcases hmac : hmacSecretOutput env c.state c.extensions.hmacSecret with e | out <;>
      rw [hmac] at hiff <;> simpa [hparsed, Except.map] using hiff
  case isFalse hparsed => simp [hparsed]

theorem ExtensionsCall.length_output (hcipher : env.EncryptsInPlace) {c : ExtensionsCall}
    {output : Option (List UInt8)} (h : c.output env = .ok output) :
    ∀ out, output = some out → out.length ≤ 64 := by
  rintro out rfl
  unfold ExtensionsCall.output at h
  split at h
  · rcases hmac : hmacSecretOutput env c.state c.extensions.hmacSecret with e | out' <;>
      rw [hmac] at h
    · cases h
    · obtain rfl := Option.some.inj (Except.ok.inj h)
      exact length_hmacSecretOutput hcipher hmac
  · cases h

/-- The extension map takes no more than 105 bytes. -/
theorem encodedSize_extensionOps {ext : Extensions} {output : Option (List UInt8)}
    (hlen : ∀ out, output = some out → out.length ≤ 64) :
    encodedSize (extensionOps ext output) ≤ 105 := by
  have hkeys : (EncOp.text "hmac-secret").size = 12 ∧ (EncOp.text "credProtect").size = 12 := by decide
  have hprotect : encodedSize (if ext.credProtect = extCredProtectOptional ∨
      ext.credProtect = extCredProtectOptionalWithCredid ∨ ext.credProtect = extCredProtectRequired
      then [.text "credProtect", .int ext.credProtect.toNat] else []) ≤ 13 := by
    split
    case isTrue hcred =>
      rcases hcred with hcred | hcred | hcred <;> rw [hcred] <;> decide
    case isFalse => simp
  have hrequested : encodedSize (if ext.hmacSecretPresent = extHmacSecretRequested
      then [.text "hmac-secret", .boolean true] else []) ≤ 13 := by
    split
    · decide
    · simp
  have hmap (used : ℕ) (hused : used ≤ 2) : (EncOp.createMap used).size = 1 := if_pos (by omega)
  have hclose : EncOp.closeContainer.size = 0 := rfl
  unfold extensionOps
  dsimp only
  rw [apply_ite encodedSize]
  refine (ite_le_sup _ _ _).trans (max_le (Nat.zero_le _) ?_)
  rw [encodedSize_append, encodedSize_append, encodedSize_append, encodedSize_append,
    encodedSize_cons, hmap _ (by split <;> split <;> decide), encodedSize_cons]
  rcases output with _ | out
  · simp only [encodedSize_nil, hclose]
    omega
  · have hout := hlen out rfl
    have hhead : headSize out.length ≤ 2 := by
      unfold headSize
      split_ifs <;> omega
    have hbytes : (EncOp.byteString out).size = headSize out.length + out.length := rfl
    simp only [encodedSize_cons, encodedSize_nil, hclose, hkeys.1, hbytes]
    omega

/-- With that much room, the extensions are refused for their saltAuth only. -/
theorem ExtensionsCall.data_refused_iff (hroomy : env.writer.Roomy) (hcipher : env.EncryptsInPlace)
    {c : ExtensionsCall} (hroom : 105 ≤ c.room) {code : UInt8} :
    c.data env = .error (.status code) ↔
      code = ctap2ErrExtensionFirst ∧ WrongSaltAuth env c.state c.extensions := by
  rw [← output_refused_iff]
  rcases houtput : c.output env with e | output
  · unfold ExtensionsCall.data
    rw [houtput]
    show (Except.error e : Except Stop (List UInt8)) = _ ↔ _
    rw [Except.error.injEq, Except.error.injEq]
  · have hsize := @encodedSize_extensionOps c.extensions _ (c.length_output hcipher houtput)
    have hscan : scan EncOp.shape [1] (extensionOps c.extensions output) ≠ none := by
      rcases isMap_extensionOps (c.output_isSome houtput) with hnil | hmap
      · rw [hnil]
        exact Option.some_ne_none _
      · rw [show scan EncOp.shape [1] (extensionOps c.extensions output) = some [0] from hmap.2]
        exact Option.some_ne_none _
    have hemit := (writes_emitAll hroomy (extensionOps c.extensions output)).run (Writer.init c.room)
      hscan (hsize.trans hroom)
    rw [ExtensionsCall.data_of_output houtput, hemit]
    simp

/-- The COSE key takes no more than 77 bytes. -/
theorem length_coseKeyBytes (hroomy : env.writer.Roomy) (a : Authenticator) (id : CredentialId)
    (credInfo : CredInfo) : (coseKeyBytes env a id credInfo).length ≤ 77 := by
  unfold coseKeyBytes ctapGenerateCoseKey
  split
  · -- the type or the algorithm is another one, and nothing is encoded
    exact (hroomy.length_bytes _ [] (Option.some_ne_none _) (Nat.zero_le _)).trans (Nat.zero_le _)
  case isFalse hes256 =>
    obtain ⟨-, halg⟩ := not_or.mp hes256
    rw [not_not.mp halg]
    generalize cryptoEcc256DerivePublicKey env a.secrets id.bytes = pub
    show (env.writer.buffer ((env.writer.emitAll (coseKeyItems pub coseAlgEs256)).run
      (Writer.init (310 - 125))).2).length ≤ 77
    have hx (off : ℕ) (h : off + 32 ≤ 64) : (EncOp.byteString (pub.slice off 32)).size = 34 := by
      show headSize _ + _ = _
      rw [Buf.length_slice h]
      rfl
    have hsize : encodedSize (coseKeyItems pub coseAlgEs256) = 77 := by
      simp only [coseKeyItems, encodedSize_cons, encodedSize_nil, hx 0 (by omega), hx 32 (by omega)]
      decide
    have hscan : scan EncOp.shape [1] (coseKeyItems pub coseAlgEs256) ≠ none := Option.some_ne_none _
    have hrun := (writes_emitAll hroomy (coseKeyItems pub coseAlgEs256)).run (Writer.init (310 - 125))
      hscan (hsize.trans_le (show 77 ≤ 310 - 125 by decide))
    rw [hrun]
    exact (hroomy.length_bytes _ _ hscan (hsize.trans_le (show 77 ≤ 310 - 125 by decide))).trans_eq hsize

/-- The extensions of a new credential have more than 105 bytes of room. -/
theorem length_attested (hroomy : env.writer.Roomy) (a : Authenticator) (id : CredentialId)
    (credInfo : CredInfo) :
    (attestedCredentialData env id (coseKeyBytes env a id credInfo)).length ≤ 165 := by
  have hkey := length_coseKeyBytes hroomy a id credInfo
  simp only [attestedCredentialData, List.length_append, Buf.length_bytes, List.length_cons,
    List.length_nil, credentialIdSize]
  omega

/-- The extensions are appended, or their saltAuth is wrong, or the device
halts. -/
theorem appendExtensions_cases (hroomy : env.writer.Roomy) (hcipher : env.EncryptsInPlace)
    {ext : Extensions} {hd : AuthDataHeader} {attested : List UInt8} (hlen : attested.length ≤ 165)
    (a : Authenticator) :
    (∃ authData, appendExtensions env ext hd attested a = (.ok authData, a) ∧
        authData.length ≤ 310 ∧ ¬ WrongSaltAuth env a ext) ∨
      (appendExtensions env ext hd attested a = (.error (.status ctap2ErrExtensionFirst), a) ∧
        WrongSaltAuth env a ext) ∨
      (appendExtensions env ext hd attested a = (.error .halted, a) ∧ ¬ WrongSaltAuth env a ext) := by
  have hroom : 105 ≤ extensionRoom attested := by
    unfold extensionRoom
    omega
  let call : ExtensionsCall := ⟨a, ext, extensionRoom attested⟩
  have hrefused {code : UInt8} := @ExtensionsCall.data_refused_iff env hroomy hcipher call hroom code
  unfold appendExtensions
  rw [get_bind]
  rcases ctapMakeExtensions_eq call (env.uninit .extensions (extensionRoom attested)) with
    ⟨bytes, hdata, hmade⟩ | ⟨e, b, hdata, hmade, -⟩ <;> dsimp only [call] at hmade <;>
    dsimp only <;> rw [hmade]
  · refine .inl ⟨_, rfl, ?_, fun hwrong => ?_⟩
    · have hslice (b : Buf (extensionRoom attested)) (n : ℕ) :
          (b.slice 0 n).length ≤ extensionRoom attested := by
        rw [Buf.slice, List.length_take, List.length_drop, b.length_bytes]
        omega
      rw [List.length_append, List.length_append, length_toBytes]
      refine (Nat.add_le_add_left (hslice _ _) _).trans ?_
      unfold extensionRoom
      omega
    · cases hdata.symm.trans (hrefused.mpr ⟨rfl, hwrong⟩)
  · rcases e with code | _
    · obtain ⟨rfl, hwrong⟩ := hrefused.mp hdata
      exact .inr (.inl ⟨rfl, hwrong⟩)
    · refine .inr (.inr ⟨rfl, fun hwrong => ?_⟩)
      cases hdata.symm.trans (hrefused.mpr ⟨rfl, hwrong⟩)

theorem ctapEncodeDerSig_length (sig : Buf 64) : (ctapEncodeDerSig sig).2 ≤ 72 := by
  have hpad (p : Prop) [Decidable p] : (if p then 1 else 0) ≤ 1 := by split <;> decide
  have hr := hpad (sig.byte (leadingZeros (sig.slice 0 32)) &&& 0x80 = 0x80)
  have hs := hpad (sig.byte (32 + leadingZeros (sig.slice 32 32)) &&& 0x80 = 0x80)
  unfold ctapEncodeDerSig
  dsimp only
  omega

/-- The signature of the attestation is made, or the device halts. -/
theorem signAttestation_cases (authData : List UInt8) (clientDataHash : Buf clientDataHashSize)
    (a : Authenticator) :
    (∃ sigder t, signAttestation env authData clientDataHash a = (.ok sigder, t) ∧
        sigder.length ≤ 72) ∨
      ∃ t, signAttestation env authData clientDataHash a = (.error .halted, t) := by
  unfold signAttestation
  rw [show ∀ (f : Unit → Device (List UInt8)), (loadKey _ >>= f) a = f () _ from fun _ => rfl, bind_apply, ctapCalculateSignature_apply]
  dsimp only
  split
  case h_1 r s hrun =>
    split at hrun
    · cases hrun
    · obtain ⟨hsig, rfl⟩ := Prod.mk.inj hrun
      refine .inl ⟨_, _, rfl, ?_⟩
      rw [← Except.ok.inj hsig]
      exact (Buf.length_slice_le ..).trans (ctapEncodeDerSig_length _)
  case h_2 e s hrun =>
    split at hrun
    · obtain ⟨hstop, rfl⟩ := Prod.mk.inj hrun
      rw [← Except.error.inj hstop]
      exact .inr ⟨_, rfl⟩
    · cases hrun

theorem isItem_creationItems (authData sigder : List UInt8) :
    IsItem EncOp.shape (creationItems env authData sigder) := rfl

theorem bound_text_le (s : String) (h : (Bytes.ascii s).length ≤ 6) : (EncOp.text s).bound ≤ 15 := by
  rw [bound_text]
  omega

theorem encode_authData (hroomy : env.writer.Roomy) {authData : List UInt8}
    (hlen : authData.length ≤ 310) (a : Authenticator) :
    encode ⟨ctapResponseBufferSize, [.createMap 3, .int 1, .text "packed"]⟩
        (env.writer.emitAll [.int 2, .byteString authData]) a =
      (.ok ⟨ctapResponseBufferSize,
        [.createMap 3, .int 1, .text "packed", .int 2, .byteString authData]⟩, a) := by
  refine encode_ok.mpr ⟨(writes_emitAll hroomy _).run _ (Option.some_ne_none _) ?_, rfl⟩
  refine (encodedSize_le_bound _).trans ?_
  have hpacked := bound_text_le "packed" (by decide)
  simp only [List.cons_append, List.nil_append, encodedBound_cons, encodedBound_nil,
    bound_createMap, bound_int, bound_byteString, ctapResponseBufferSize]
  omega

/-- Behind the authenticator data, a long certificate is refused. -/
theorem finishMakeCredential_eq (hroomy : env.writer.Roomy) {mc : MakeCredential env.reader.Cursor}
    {authData sigder : List UInt8} {a t : Authenticator} (hlen : authData.length ≤ 310)
    (hsign : signAttestation env authData mc.clientDataHash a = (.ok sigder, t))
    (hsigder : sigder.length ≤ 72) :
    finishMakeCredential env mc ⟨ctapResponseBufferSize, [.createMap 3, .int 1, .text "packed"]⟩
        authData a =
      if 1024 < env.attestationCertDer.length then (.error (.status ctap2ErrProcessing), t)
      else (.ok ⟨ctapResponseBufferSize, creationItems env authData sigder⟩, t) := by
  have hscan : scan EncOp.shape [1] (creationItems env authData sigder) ≠ none :=
    Option.some_ne_none _
  unfold finishMakeCredential
  rw [bind_of_ok (encode_authData hroomy hlen a), bind_of_ok hsign]
  unfold ctapAddAttestStatement
  split
  · rfl
  case isFalse hcert =>
    have hrest := ((writes_emitAll hroomy [.int 3, .createMap 3, .text "alg", .int coseAlgEs256,
        .text "sig", .byteString sigder, .text "x5c", .createArray 1,
        .byteString env.attestationCertDer, .closeContainer, .closeContainer]).seq fun _ =>
      writes_emit hroomy .closeContainer).run
      ⟨ctapResponseBufferSize, [.createMap 3, .int 1, .text "packed", .int 2, .byteString authData]⟩
      hscan (by
        refine (encodedSize_le_bound _).trans ?_
        have hpacked := bound_text_le "packed" (by decide)
        have halg := bound_text_le "alg" (by decide)
        have hsig := bound_text_le "sig" (by decide)
        have hx5c := bound_text_le "x5c" (by decide)
        simp only [List.cons_append, List.nil_append, encodedBound_cons, encodedBound_nil,
          bound_createMap, bound_createArray, bound_closeContainer, bound_int, bound_byteString,
          ctapResponseBufferSize]
        omega)
    exact encode_ok.mpr ⟨hrest, rfl⟩

theorem finishMakeCredential_halted (hroomy : env.writer.Roomy)
    {mc : MakeCredential env.reader.Cursor} {authData : List UInt8} {a t : Authenticator}
    (hlen : authData.length ≤ 310)
    (hsign : signAttestation env authData mc.clientDataHash a = (.error .halted, t)) :
    finishMakeCredential env mc ⟨ctapResponseBufferSize, [.createMap 3, .int 1, .text "packed"]⟩
      authData a = (.error .halted, t) := by
  unfold finishMakeCredential
  rw [bind_of_ok (encode_authData hroomy hlen a), bind_of_error hsign]

/-- A request is refused behind its extensions: for the saltAuth, or, with the
signature made, for the length of the certificate. -/
def RefusedLate (env : Env) (mc : MakeCredential env.reader.Cursor) (s : Authenticator)
    (hd : AuthDataHeader) (attested : List UInt8) : Prop :=
  WrongSaltAuth env s mc.extensions ∨
    1024 < env.attestationCertDer.length ∧
      ∃ authData sigder t, appendExtensions env mc.extensions hd attested s = (.ok authData, s) ∧
        signAttestation env authData mc.clientDataHash s = (.ok sigder, t)

/-- What follows the store. -/
theorem finish_cases (hroomy : env.writer.Roomy) (hcipher : env.EncryptsInPlace)
    {mc : MakeCredential env.reader.Cursor} {hd : AuthDataHeader} {attested : List UInt8}
    (hlen : attested.length ≤ 165) (s : Authenticator) :
    Ends (appendExtensions env mc.extensions hd attested >>= fun authData =>
        finishMakeCredential env mc
          ⟨ctapResponseBufferSize, [.createMap 3, .int 1, .text "packed"]⟩ authData) s
      fun r t => Persists s t ∧
        ((RefusedLate env mc s hd attested ∧ ∃ code, code ≠ 0 ∧ r = .error (.status code)) ∨
          (¬ RefusedLate env mc s hd attested ∧ ∀ code, r ≠ .error (.status code))) := by
  rcases @appendExtensions_cases env hroomy hcipher mc.extensions hd _ hlen s with
    ⟨authData, happend, hauth, hright⟩ | ⟨happend, hwrong⟩ | ⟨happend, hright⟩
  · rcases signAttestation_cases authData mc.clientDataHash s with
      ⟨sigder, t, hsign, hsigder⟩ | ⟨t, hsign⟩
    · have hkeeps : Persists s t :=
        (inferInstance : Keeps Persists (signAttestation env authData mc.clientDataHash)).apply hsign
      have hfinish := (bind_of_ok happend).trans (finishMakeCredential_eq hroomy hauth hsign hsigder)
      by_cases hcert : 1024 < env.attestationCertDer.length
      · rw [if_pos hcert] at hfinish
        refine Ends.of_eq hfinish ⟨hkeeps, .inl ⟨.inr ?_, _, by decide, rfl⟩⟩
        exact ⟨hcert, authData, sigder, t, happend, hsign⟩
      · rw [if_neg hcert] at hfinish
        refine Ends.of_eq hfinish ⟨hkeeps, .inr ⟨?_, fun code he => nomatch he⟩⟩
        rintro (hwrong | ⟨hcert', -⟩)
        · exact hright hwrong
        · exact hcert hcert'
    · have hkeeps : Persists s t :=
        (inferInstance : Keeps Persists (signAttestation env authData mc.clientDataHash)).apply hsign
      have hfinish := (bind_of_ok happend).trans (finishMakeCredential_halted hroomy hauth hsign)
      refine Ends.of_eq hfinish ⟨hkeeps, .inr ⟨?_, fun code he => nomatch he⟩⟩
      rintro (hwrong | ⟨-, authData', sigder, u, happend', hsign'⟩)
      · exact hright hwrong
      · cases happend.symm.trans happend'
        cases hsign.symm.trans hsign'
  · refine Ends.of_eq (bind_of_error happend) ?_
    exact ⟨rfl, .inl ⟨.inl hwrong, _, by decide, rfl⟩⟩
  · refine Ends.of_eq (bind_of_error happend) ⟨rfl, .inr ⟨?_, fun code he => ?_⟩⟩
    · rintro (hwrong | ⟨-, authData, _, _, happend', -⟩)
      · exact hright hwrong
      · cases happend.symm.trans happend'
    · cases he

/-- The request stores a resident key that was not there before, and is then
refused. -/
def LeavesKey (env : Env) (a : Authenticator) (bytes : List UInt8) (h : Answers) : Prop :=
  ¬ Locked a ∧ ∃ mc w hd attested s,
    CtapM.answered h (beginMakeCredential env freshWriter bytes.tail) { a with trace := [] } =
        (.ok (mc, w, hd, attested), s) ∧
      s.persistent ≠ a.persistent ∧ RefusedLate env mc s hd attested

/-- A refused request leaves the keys and the persistent state as they were. -/
def Atomic (env : Env) (a : Authenticator) (bytes : List UInt8) (h : Answers) : Prop :=
  ∀ r, (a.request env bytes h).1 = .ok r → r.status ≠ 0 →
    (a.request env bytes h).2.persistent = a.persistent

section Atomic

variable {a t : Authenticator} {bytes : List UInt8} {h : Answers}

theorem atomic_iff_of_dispatch {r : Except Stop (Option Writer)}
    (hrun : a.dispatch env bytes h = (r, t)) :
    Atomic env a bytes h ↔ ∀ code, code ≠ 0 → r = .error (.status code) → Persists a t := by
  unfold Atomic
  rw [Authenticator.request_eq, hrun]
  rcases r with (code | _) | w
  · refine ⟨fun hatomic c hc he => ?_, fun hkeeps r hr hstatus => ?_⟩
    · cases he
      exact hatomic _ rfl hc
    · cases hr
      exact hkeeps code hstatus rfl
  · exact iff_of_true (fun _ hr => nomatch hr) fun _ _ he => nomatch he
  · refine iff_of_true (fun r hr hstatus => ?_) fun _ _ he => nomatch he
    cases hr
    exact absurd (by rcases w with _ | w <;> rfl) hstatus

/-- A request that has come to its extensions. -/
theorem atomic_iff_of_begun (hroomy : env.writer.Roomy) (hcipher : env.EncryptsInPlace)
    (hcmd : bytes.getD 0 0 = ctapMakeCredentialCmd) (hopen : ¬ Locked a)
    {mc : MakeCredential env.reader.Cursor} {w : Writer} {hd : AuthDataHeader}
    {attested : List UInt8} {s : Authenticator}
    (hbegin : CtapM.answered h (beginMakeCredential env freshWriter bytes.tail)
      { a with trace := [] } = (.ok (mc, w, hd, attested), s)) :
    Atomic env a bytes h ↔ (RefusedLate env mc s hd attested → s.persistent = a.persistent) := by
  obtain ⟨-, hw, ⟨id, credInfo, rfl⟩, -⟩ := beginMakeCredential_ok hbegin
  obtain rfl : w = ⟨ctapResponseBufferSize, [.createMap 3, .int 1, .text "packed"]⟩ := hw
  have hcases := @finish_cases env hroomy hcipher mc hd _ (length_attested hroomy s id credInfo) s
  have hrun : CtapM.answered h (ctapMakeCredential env freshWriter bytes.tail)
      { a with trace := [] } = (appendExtensions env mc.extensions hd
        (attestedCredentialData env id (coseKeyBytes env s id credInfo)) >>= fun authData =>
          finishMakeCredential env mc
            ⟨ctapResponseBufferSize, [.createMap 3, .int 1, .text "packed"]⟩ authData) s := by
    rw [answered_ctapMakeCredential, bind_of_ok hbegin]
  rcases hrest : (appendExtensions env mc.extensions hd
    (attestedCredentialData env id (coseKeyBytes env s id credInfo)) >>= fun authData =>
      finishMakeCredential env mc
        ⟨ctapResponseBufferSize, [.createMap 3, .int 1, .text "packed"]⟩ authData) s with ⟨r, t⟩
  obtain ⟨hkeeps, hlate⟩ := hcases.elim hrest
  have hpersists : Persists a t ↔ s.persistent = a.persistent := by
    rw [← (hkeeps : t.persistent = s.persistent)]
    exact Iff.rfl
  rw [atomic_iff_of_dispatch ((dispatch_of_not_locked hcmd hopen).trans
    (bind_some_of_eq (hrun.trans hrest))), hpersists]
  rcases hlate with ⟨hrefused, code, hcode, rfl⟩ | ⟨hnot, hne⟩
  · exact ⟨fun hatomic _ => hatomic code hcode rfl, fun hstored _ _ _ => hstored hrefused⟩
  · refine iff_of_true (fun code _ he => ?_) fun hrefused => absurd hrefused hnot
    rcases r with e | w
    · exact absurd (congrArg Except.error (Except.error.inj he)) (hne code)
    · cases he

end Atomic

/-! ### A request that leaves its key -/

theorem Sample.encryptsInPlace : Sample.env.EncryptsInPlace := fun _ _ => rfl

/-- A resident key with a hmac-secret input whose saltAuth is zero. -/
def wrongSaltOps : List EncOp :=
  .createMap 6 :: Sample.createEntries [1] ++
    [.int 6, .createMap 1, .text "hmac-secret", .createMap 3, .int 1] ++ Sample.platformKey ++
    [.int 2, .byteString (List.replicate 32 1), .int 3, .byteString (List.replicate 16 0)] ++
    [.int 7, .createMap 1, .text "rk", .boolean true]

def wrongSaltRequest : List UInt8 := ctapMakeCredentialCmd :: Sample.encodeOps wrongSaltOps

def newDevice : Authenticator := (Machine.powerUp Sample.env Sample.device).auth

end NitrokeyFido2.Ctap
