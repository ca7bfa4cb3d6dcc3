import NitrokeyFido2.Ctap.Frame
import NitrokeyFido2.Ctap.Sample
import NitrokeyFido2.Lib.GuardedSecret

/-!
The clientPIN commands refine a guarded secret.

The PIN is the secret, a presented PIN hash is the guess, and the guess is
evaluated by comparing the stored salted hash. Every request and every reboot
is one step of the abstract machine, whose label is read off what the request
compared and changed. The abstract counters are the persistent tries and the
attempts of the power-up; that the last try wipes the stored hash is not
visible in the abstract machine, since nothing is compared any more.
-/

namespace NitrokeyFido2.Ctap

open Proc Resumption

variable (env : Env)

/-! ### What the operations on the PIN do -/

/-- The persistent state behind an attempt that was lost; with the last one
the hash goes. -/
def AuthenticatorState.lostAttempt (s : AuthenticatorState) : AuthenticatorState :=
  { s with
    remainingTries := s.remainingTries - 1
    pinCodeHash := if s.remainingTries = 1 then Buf.zero _ else s.pinCodeHash }

theorem ctapDecrementPinAttempts_apply {a : Authenticator} (hr : 0 < a.state.remainingTries)
    (hb : 0 < a.pinBootAttemptsLeft) :
    ctapDecrementPinAttempts a =
      (.ok (), { a with
        pinBootAttemptsLeft := a.pinBootAttemptsLeft - 1
        pinToken := if a.state.remainingTries = 1 then Buf.zero _ else a.pinToken
        state := a.state.lostAttempt
        stored := a.state.lostAttempt }) := by
  unfold ctapDecrementPinAttempts
  have hnot : ¬ a.state.remainingTries ≤ 0 := not_le.mpr hr
  by_cases h1 : a.state.remainingTries = 1
  · simp [bind_apply, Proc.get, Proc.modify, hb, ctapDeviceLocked, h1, modifyState,
      ctapFlushState, authenticatorWriteState, lockDevicePermanently,
      AuthenticatorState.lostAttempt]
  · have h2 : ¬ a.state.remainingTries ≤ 1 := by omega
    simp [bind_apply, Proc.get, Proc.modify, hb, ctapDeviceLocked, hnot, h1, h2, modifyState,
      ctapFlushState, authenticatorWriteState, AuthenticatorState.lostAttempt, pure_apply]

theorem ctapResetKeyAgreement_apply (a : Authenticator) :
    ctapResetKeyAgreement env a =
      (.ok (), { a with keyAgreementPriv := a.drawn env 32, rngPos := a.rngPos + 32 }) := rfl

theorem wrongPin_apply {a : Authenticator} (hr : 0 < a.state.remainingTries)
    (hb : 0 < a.pinBootAttemptsLeft) :
    ∃ token c, wrongPin env a =
      (.error (.status c), { a with
        keyAgreementPriv := a.drawn env 32
        rngPos := a.rngPos + 32
        pinBootAttemptsLeft := a.pinBootAttemptsLeft - 1
        pinToken := token
        state := a.state.lostAttempt
        stored := a.state.lostAttempt }) := by
  have hkey := ctapResetKeyAgreement_apply env a
  have hdec := ctapDecrementPinAttempts_apply
    (a := { a with keyAgreementPriv := a.drawn env 32, rngPos := a.rngPos + 32 }) hr hb
  exact ⟨_, _, (bind_of_ok hkey).trans ((bind_of_ok hdec).trans rfl)⟩

/-- The device behind a presented PIN hash that matched. -/
def Authenticator.matched (a : Authenticator) (pinHash : List UInt8) : Authenticator :=
  { a with
    trace := a.trace ++ [.pinCompared pinHash true]
    state := { a.state with remainingTries := pinLockoutAttempts }
    stored := { a.state with remainingTries := pinLockoutAttempts }
    pinBootAttemptsLeft := pinBootAttempts }

/-- The device behind one that did not. -/
def Authenticator.mismatched (a : Authenticator) (pinHash : List UInt8)
    (token : Buf pinTokenSize) : Authenticator :=
  { a with
    trace := a.trace ++ [.pinCompared pinHash false]
    keyAgreementPriv := a.drawn env 32
    rngPos := a.rngPos + 32
    pinBootAttemptsLeft := a.pinBootAttemptsLeft - 1
    pinToken := token
    state := a.state.lostAttempt
    stored := a.state.lostAttempt }

/-- The first half of the hash of a PIN, as the platform presents it. -/
def leftHash (pin : List UInt8) : List UInt8 := (env.sha256 pin).slice 0 16

def AuthenticatorState.withPin (s : AuthenticatorState) (pin : List UInt8) : AuthenticatorState :=
  { s with pinCodeHash := saltedPinHash env s.pinSalt (leftHash env pin), isPinSet := 1 }

/-- The device behind a new PIN. -/
def Authenticator.updated (a : Authenticator) (pin : List UInt8) : Authenticator :=
  { a with
    state := a.state.withPin env pin
    stored := a.state.withPin env pin
    trace := a.trace ++ [.pinUpdated pin] }

theorem comparePinHash_eq (a : Authenticator) (pinHash : List UInt8) :
    comparePinHash env pinHash a =
      (note (.pinCompared pinHash (pinHashMatches env a.state pinHash)) >>= fun _ =>
        if pinHashMatches env a.state pinHash then ctapResetPinAttempts else wrongPin env) a := rfl

theorem comparePinHash_matched {a : Authenticator} {pinHash : List UInt8}
    (h : pinHashMatches env a.state pinHash = true) :
    comparePinHash env pinHash a = (.ok (), a.matched pinHash) := by
  rw [comparePinHash_eq, h]
  rfl

theorem comparePinHash_mismatched {a : Authenticator} {pinHash : List UInt8}
    (h : pinHashMatches env a.state pinHash = false) (hr : 0 < a.state.remainingTries)
    (hb : 0 < a.pinBootAttemptsLeft) :
    ∃ token c, comparePinHash env pinHash a =
      (.error (.status c), a.mismatched env pinHash token) := by
  obtain ⟨token, c, hc⟩ := wrongPin_apply env
    (a := { a with trace := a.trace ++ [.pinCompared pinHash false] }) hr hb
  refine ⟨token, c, ?_⟩
  rw [comparePinHash_eq, h]
  exact hc

theorem ctapUpdatePin_apply {pin : List UInt8} {len : ℕ} (a : Authenticator) (h₁ : 4 ≤ len)
    (h₂ : len < 64) :
    ctapUpdatePin env pin len a = (.ok (), a.updated env (pin.take len)) := by
  have hlen : ¬ (len ≥ newPinEncMinSize ∨ len < 4) := by
    show ¬ (64 ≤ len ∨ len < 4)
    omega
  rw [ctapUpdatePin, stopIf, if_neg hlen]
  rfl

/-! ### The abstract machine -/

/-- A PIN with 8 tries, 3 of them in one power-up. -/
abbrev PinState := GuardedSecret.State (List UInt8) 8 3

abbrev PinLabel := GuardedSecret.Label (List UInt8) (List UInt8)

/-- The PIN hash is taken for the PIN. -/
def pinAgrees (salt : Buf 32) (pin pinHash : List UInt8) : Bool :=
  (saltedPinHash env salt pinHash).slice 0 16 =
    (saltedPinHash env salt (leftHash env pin)).slice 0 16

theorem pinAgrees_leftHash (salt : Buf 32) (pin : List UInt8) :
    pinAgrees env salt pin (leftHash env pin) = true := decide_eq_true rfl

/-- What the stored state says about the PIN. -/
def StoresPin (salt : Buf 32) (st : AuthenticatorState) (total : ℕ) : Option (List UInt8) → Prop
  | none => st.isPinSet ≠ 1
  | some pin => st.isPinSet = 1 ∧
      (0 < total → st.pinCodeHash = saltedPinHash env salt (leftHash env pin))

/-- The device implements the abstract state. -/
structure PinRel (salt : Buf 32) (a : Authenticator) (s : PinState) : Prop where
  persisted : a.stored = a.state
  initialized : a.state.isInitialized = initializedMarker
  version : a.state.dataVersion = stateVersion
  pinSalt : a.state.pinSalt = salt
  tries : a.state.remainingTries = s.total
  boots : a.pinBootAttemptsLeft = s.boot
  pin : StoresPin env salt a.state s.total s.secret

/-- The label of a request, from what it compared and changed. -/
def pinLabel : List Trace → Option PinLabel
  | [] => some .silent
  | [.pinCompared pinHash true] => some (.hit pinHash)
  | [.pinCompared pinHash false] => some (.miss pinHash)
  | [.pinUpdated pin] => some (.set pin)
  | [.pinCompared pinHash true, .pinUpdated pin] => some (.change pinHash pin)
  | _ => none

/-- The subcommands that may take this step. -/
def takenBy (subCommand : ℤ) : PinLabel → Prop
  | .silent => True
  | .hit _ => subCommand = cpCmdGetPinToken
  | .miss _ => subCommand = cpCmdChangePin ∨ subCommand = cpCmdGetPinToken
  | .set _ => subCommand = cpCmdSetPin
  | .change _ _ => subCommand = cpCmdChangePin
  | .reboot => False

/-- The key agreement key is renewed if the guess was wrong, and only
then. -/
def RenewsKeyOnMiss (a t : Authenticator) (l : PinLabel) : Prop :=
  t.keyAgreementPriv = (if l.isMiss then a.drawn env 32 else a.keyAgreementPriv)

/-- The device went from `a` to `t`, which the abstract machine follows. -/
def PinOutcome (salt : Buf 32) (subCommand : ℤ) (a : Authenticator) (s : PinState)
    (t : Authenticator) : Prop :=
  ∃ l s', s.step (pinAgrees env salt) l = some s' ∧ PinRel env salt t s' ∧
    pinLabel t.trace = some l ∧ takenBy subCommand l ∧ RenewsKeyOnMiss env a t l

section Steps

variable {env} {salt : Buf 32} {subCommand : ℤ} {a : Authenticator} {s : PinState}

theorem PinRel.open_of_not_locked (hrel : PinRel env salt a s)
    (h₁ : ctapDeviceLocked a = false) (h₂ : ctapDeviceBootLocked a = false) : s.Open := by
  have htries := hrel.tries
  have hboots := hrel.boots
  simp only [ctapDeviceLocked, ctapDeviceBootLocked, decide_eq_false_iff_not] at h₁ h₂
  exact ⟨by omega, by omega⟩

theorem PinRel.none_of_not_set (hrel : PinRel env salt a s) (h : ctapIsPinSet a = false) :
    s.secret = none := by
  have hpin := hrel.pin
  cases hs : s.secret with
  | none => rfl
  | some pin =>
      rw [hs] at hpin
      simp [ctapIsPinSet, hpin.1] at h

theorem PinRel.some_of_set (hrel : PinRel env salt a s) (h : ctapIsPinSet a = true) :
    ∃ pin, s.secret = some pin := by
  have hpin := hrel.pin
  cases hs : s.secret with
  | none =>
      rw [hs] at hpin
      exact absurd (of_decide_eq_true h) hpin
  | some pin => exact ⟨pin, rfl⟩

/-- The comparison evaluates the guess. -/
theorem PinRel.pinHashMatches_eq (hrel : PinRel env salt a s) (hopen : s.Open)
    {pin : List UInt8} (hs : s.secret = some pin) (pinHash : List UInt8) :
    pinHashMatches env a.state pinHash = pinAgrees env salt pin pinHash := by
  have hpin := hrel.pin
  rw [hs] at hpin
  rw [pinHashMatches, pinAgrees, hrel.pinSalt, hpin.2 hopen.1]

theorem PinRel.matched (hrel : PinRel env salt a s) (hopen : s.Open) (pinHash : List UInt8) :
    PinRel env salt (a.matched pinHash) (s.restored s.secret) where
  persisted := rfl
  initialized := hrel.initialized
  version := hrel.version
  pinSalt := hrel.pinSalt
  tries := rfl
  boots := rfl
  pin := by
    have hpin := hrel.pin
    show StoresPin env salt _ 8 s.secret
    cases hs : s.secret with
    | none =>
        rw [hs] at hpin
        exact hpin
    | some pin =>
        rw [hs] at hpin
        exact ⟨hpin.1, fun _ => hpin.2 hopen.1⟩

theorem PinRel.mismatched (hrel : PinRel env salt a s) (hopen : s.Open) (pinHash : List UInt8)
    (token : Buf pinTokenSize) : PinRel env salt (a.mismatched env pinHash token) s.missed where
  persisted := rfl
  initialized := hrel.initialized
  version := hrel.version
  pinSalt := hrel.pinSalt
  tries := by
    show a.state.remainingTries - 1 = ((s.total - 1 : ℕ) : ℤ)
    rw [hrel.tries, Nat.cast_sub hopen.1, Nat.cast_one]
  boots := by
    show a.pinBootAttemptsLeft - 1 = ((s.boot - 1 : ℕ) : ℤ)
    rw [hrel.boots, Nat.cast_sub hopen.2, Nat.cast_one]
  pin := by
    have hpin := hrel.pin
    show StoresPin env salt a.state.lostAttempt (s.total - 1) s.secret
    cases hs : s.secret with
    | none =>
        rw [hs] at hpin
        exact hpin
    | some pin =>
        rw [hs] at hpin
        refine ⟨hpin.1, fun hleft => ?_⟩
        have htries := hrel.tries
        have hnot : a.state.remainingTries ≠ 1 := by omega
        show (if a.state.remainingTries = 1 then Buf.zero _ else a.state.pinCodeHash) = _
        rw [if_neg hnot]
        exact hpin.2 hopen.1

theorem PinRel.updated (hrel : PinRel env salt a s) (pin : List UInt8) :
    PinRel env salt (a.updated env pin) { s with secret := some pin } where
  persisted := rfl
  initialized := hrel.initialized
  version := hrel.version
  pinSalt := hrel.pinSalt
  tries := hrel.tries
  boots := hrel.boots
  pin := ⟨rfl, fun _ => congrArg (saltedPinHash env · (leftHash env pin)) hrel.pinSalt⟩

theorem PinOutcome.silent (hrel : PinRel env salt a s) (htrace : a.trace = []) :
    PinOutcome env salt subCommand a s a :=
  ⟨.silent, s, rfl, hrel, by rw [htrace]; rfl, trivial, rfl⟩

/-- A comparison, and what follows a match. -/
theorem PinOutcome.compare {β : Type} {f : Unit → Device β} {pinHash : List UInt8}
    (hrel : PinRel env salt a s) (htrace : a.trace = []) (hopen : s.Open)
    (hset : ctapIsPinSet a = true)
    (hsub : subCommand = cpCmdChangePin ∨ subCommand = cpCmdGetPinToken)
    (hhit : s.Accepts (pinAgrees env salt) pinHash →
      PinOutcome env salt subCommand a s (f () (a.matched pinHash)).2) :
    PinOutcome env salt subCommand a s ((comparePinHash env pinHash >>= f) a).2 := by
  obtain ⟨pin, hs⟩ := hrel.some_of_set hset
  have hmatch := hrel.pinHashMatches_eq hopen hs pinHash
  cases hcmp : pinHashMatches env a.state pinHash with
  | true =>
      rw [bind_of_ok (comparePinHash_matched env hcmp)]
      apply hhit
      rw [GuardedSecret.State.Accepts, hs]
      exact hmatch.symm.trans hcmp
  | false =>
      have hr : 0 < a.state.remainingTries := by
        rw [hrel.tries]
        exact_mod_cast hopen.1
      have hb : 0 < a.pinBootAttemptsLeft := by
        rw [hrel.boots]
        exact_mod_cast hopen.2
      obtain ⟨token, c, hcompare⟩ := comparePinHash_mismatched env hcmp hr hb
      rw [bind_of_error hcompare]
      refine ⟨.miss pinHash, s.missed, ?_, hrel.mismatched hopen pinHash token, ?_, hsub, rfl⟩
      · have hrejects : s.Rejects (pinAgrees env salt) pinHash := by
          rw [GuardedSecret.State.Rejects, hs]
          exact (congrArg (!·) (hmatch.symm.trans hcmp)).trans rfl
        exact if_pos ⟨hopen, hrejects⟩
      · show pinLabel (a.trace ++ [.pinCompared pinHash false]) = _
        rw [htrace]
        rfl

/-! ### The subcommands -/

/-- Everything before the current PIN is verified only reads. -/
theorem PinOutcome.updateIfVerified {pinEnc : Buf newPinEncMaxSize} {len : ℕ}
    {platformPubkey : List UInt8} {pinAuth : Buf 16} {pinHashEnc : Option (Buf 16)}
    (hrel : PinRel env salt a s) (htrace : a.trace = [])
    (hverify : ∀ sharedSecret pin size, 4 ≤ size → size < 64 →
      PinOutcome env salt subCommand a s
        ((verifyCurrentPin env sharedSecret pinHashEnc >>= fun _ =>
          ctapUpdatePin env pin size) a).2) :
    PinOutcome env salt subCommand a s
      (ctapUpdatePinIfVerified env pinEnc len platformPubkey pinAuth pinHashEnc a).2 := by
  have hsilent : PinOutcome env salt subCommand a s a := .silent hrel htrace
  unfold ctapUpdatePinIfVerified
  refine Reads.bind_state inferInstance hsilent fun _ _ => ?_
  rw [get_bind]
  refine Reads.bind_state inferInstance hsilent fun _ _ => ?_
  refine Reads.bind_state inferInstance hsilent fun sharedSecret _ => ?_
  refine Reads.bind_state inferInstance hsilent fun _ _ => ?_
  refine Reads.bind_state inferInstance hsilent fun _ hsize => ?_
  simp only [failIf, stopIf_ok, newPinMinSize, newPinMaxSize, not_or] at hsize
  exact hverify _ _ _ (by omega) (by omega)

theorem clientPinSetPin_outcome (cp : ClientPin) (hrel : PinRel env salt a s)
    (htrace : a.trace = []) (hopen : s.Open) :
    PinOutcome env salt cpCmdSetPin a s (clientPinSetPin env cp a).2 := by
  have hsilent : PinOutcome env salt cpCmdSetPin a s a := .silent hrel htrace
  unfold clientPinSetPin
  rw [get_bind]
  refine Reads.bind_state inferInstance hsilent fun _ hset => ?_
  refine Reads.bind_state inferInstance hsilent fun _ _ => ?_
  have hunset : ctapIsPinSet a = false := by
    simpa [failIf] using hset
  refine .updateIfVerified hrel htrace fun sharedSecret pin size h₁ h₂ => ?_
  rw [verifyCurrentPin, bind_assoc, get_bind, hunset]
  show PinOutcome env salt cpCmdSetPin a s (ctapUpdatePin env pin size a).2
  rw [ctapUpdatePin_apply env a h₁ h₂]
  refine ⟨.set (pin.take size), _, if_pos ⟨hopen, hrel.none_of_not_set hunset⟩,
    hrel.updated (pin.take size), ?_, rfl, rfl⟩
  show pinLabel (a.trace ++ [.pinUpdated (pin.take size)]) = _
  rw [htrace]
  rfl

theorem clientPinChangePin_outcome (cp : ClientPin) (hrel : PinRel env salt a s)
    (htrace : a.trace = []) (hopen : s.Open) :
    PinOutcome env salt cpCmdChangePin a s (clientPinChangePin env cp a).2 := by
  have hsilent : PinOutcome env salt cpCmdChangePin a s a := .silent hrel htrace
  unfold clientPinChangePin
  rw [get_bind]
  refine Reads.bind_state inferInstance hsilent fun _ hset => ?_
  refine Reads.bind_state inferInstance hsilent fun _ _ => ?_
  have hisSet : ctapIsPinSet a = true := by
    simpa [failIf] using hset
  refine .updateIfVerified hrel htrace fun sharedSecret pin size h₁ h₂ => ?_
  rw [verifyCurrentPin, bind_assoc, get_bind, hisSet, if_pos rfl, bind_assoc]
  refine Reads.bind_state inferInstance hsilent fun _ _ => ?_
  rw [bind_assoc]
  refine Reads.bind_state inferInstance hsilent fun _ _ => ?_
  refine .compare hrel htrace hopen hisSet (.inl rfl) fun haccepts => ?_
  rw [ctapUpdatePin_apply env _ h₁ h₂]
  refine ⟨.change _ (pin.take size), _, if_pos ⟨hopen, haccepts⟩,
    (hrel.matched hopen _).updated (pin.take size), ?_, rfl, rfl⟩
  show pinLabel (a.trace ++ [.pinCompared _ true] ++ [.pinUpdated (pin.take size)]) = _
  rw [htrace]
  rfl

theorem clientPinGetPinToken_outcome (w : Writer) (cp : ClientPin) (numMap : ℕ)
    (hrel : PinRel env salt a s) (htrace : a.trace = []) (hopen : s.Open) :
    PinOutcome env salt cpCmdGetPinToken a s (clientPinGetPinToken env w cp numMap a).2 := by
  have hsilent : PinOutcome env salt cpCmdGetPinToken a s a := .silent hrel htrace
  unfold clientPinGetPinToken
  rw [get_bind]
  refine Reads.bind_state inferInstance hsilent fun _ hset => ?_
  have hisSet : ctapIsPinSet a = true := by
    simpa [failIf] using hset
  refine Reads.bind_state inferInstance hsilent fun w _ => ?_
  refine Reads.bind_state inferInstance hsilent fun _ _ => ?_
  refine Reads.bind_state inferInstance hsilent fun w _ => ?_
  rw [ctapAddPinIfVerified, bind_assoc]
  refine Reads.bind_state inferInstance hsilent fun sharedSecret _ => ?_
  rw [bind_assoc]
  refine .compare hrel htrace hopen hisSet (.inr rfl) fun haccepts => ?_
  rw [bind_assoc, get_bind, pure_bind, (inferInstance : Reads (encode w _)).eq]
  refine ⟨.hit _, _, if_pos ⟨hopen, haccepts⟩, hrel.matched hopen _, ?_, rfl, rfl⟩
  show pinLabel (a.trace ++ [.pinCompared _ true]) = _
  rw [htrace]
  rfl

theorem PinOutcome.of_reads {β : Type} {m : Device β} (hm : Reads m)
    (hrel : PinRel env salt a s) (htrace : a.trace = []) :
    PinOutcome env salt subCommand a s (m a).2 := by
  rw [hm.eq]
  exact .silent hrel htrace

theorem clientPinGetKeyAgreement_outcome (w : Writer) (numMap : ℕ) (hrel : PinRel env salt a s)
    (htrace : a.trace = []) :
    PinOutcome env salt subCommand a s (clientPinGetKeyAgreement env w numMap a).2 := by
  unfold clientPinGetKeyAgreement
  refine Reads.bind_state inferInstance (.silent hrel htrace) fun w _ => ?_
  rw [bind_of_ok rfl, get_bind, (inferInstance : Reads (encode w _)).eq]
  exact ⟨.silent, s, rfl, { hrel with }, by rw [htrace]; rfl, trivial, rfl⟩

theorem clientPinSubCommand_outcome (w : Writer) (cp : ClientPin) (hrel : PinRel env salt a s)
    (htrace : a.trace = []) (hopen : usesPin cp.subCommand → s.Open) :
    PinOutcome env salt cp.subCommand a s (clientPinSubCommand env w cp a).2 := by
  unfold clientPinSubCommand
  dsimp only
  generalize (if cp.getRetries = true then 1 else 0) = retries
  split_ifs with hretries hkey hset hchange htoken
  · exact .of_reads inferInstance hrel htrace
  · rw [bind_state_of_reads]
    exact clientPinGetKeyAgreement_outcome w _ hrel htrace
  · rw [bind_state_of_reads, hset]
    exact clientPinSetPin_outcome cp hrel htrace (hopen (.inl hset))
  · rw [bind_state_of_reads, hchange]
    exact clientPinChangePin_outcome cp hrel htrace (hopen (.inr (.inl hchange)))
  · rw [bind_state_of_reads, htoken]
    exact clientPinGetPinToken_outcome w cp _ hrel htrace (hopen (.inr (.inr htoken)))
  · exact .of_reads inferInstance hrel htrace

/-- The subcommand of a clientPIN request, as far as it could be parsed. -/
def requestedSubCommand (env : Env) (request : List UInt8) : ℤ :=
  (ctapParseClientPin env request default).2.subCommand

/-- Behind the gate, the attempts are there. -/
theorem PinRel.open_of_failIfLocked (hrel : PinRel env salt a s) {u : Unit}
    (h : failIfLocked a = (.ok u, a)) : s.Open := by
  simp only [failIfLocked, get_bind, failIf, bind_ok, stopIf_ok] at h
  obtain ⟨_, _, ⟨h₁, rfl⟩, h₂, -⟩ := h
  exact hrel.open_of_not_locked (Bool.eq_false_of_not_eq_true h₁)
    (Bool.eq_false_of_not_eq_true h₂)

theorem ctapClientPin_outcome (w : Writer) (request : List UInt8) (hrel : PinRel env salt a s)
    (htrace : a.trace = []) :
    PinOutcome env salt (requestedSubCommand env request) a s
      (ctapClientPin env w request a).2 := by
  unfold ctapClientPin requestedSubCommand
  obtain ⟨r, cp⟩ := (ctapParseClientPin env request).run default
  refine Reads.bind_state inferInstance (.silent hrel htrace) fun _ hgate => ?_
  refine Reads.bind_state inferInstance (.silent hrel htrace) fun _ _ => ?_
  refine Reads.bind_state inferInstance (.silent hrel htrace) fun _ _ => ?_
  refine clientPinSubCommand_outcome w cp hrel htrace fun huses => ?_
  rw [if_pos huses] at hgate
  exact hrel.open_of_failIfLocked hgate

end Steps

/-! ### Requests and power cycles -/

/-- The requests and power cycles of the PIN machine: clientPIN requests of
any content. -/
inductive PinEvent
  | clientPin (request : List UInt8) (answers : Answers)
  | reboot
  deriving DecidableEq

def PinEvent.event : PinEvent → Event
  | .clientPin request h => .request (ctapClientPinCmd :: request) h
  | .reboot => .reboot

/-- The label of one step of the device: a power cycle is a reboot; a request
is labelled by what it did, in a step that its subcommand may take, and renews
the key agreement key exactly on a mismatch. -/
def PinStep (m : Machine) (e : PinEvent) (l : PinLabel) : Prop :=
  match e with
  | .clientPin request _ =>
      pinLabel (m.traceOf env e.event) = some l ∧
        takenBy (requestedSubCommand env request) l ∧
        RenewsKeyOnMiss env m.auth (m.step env e.event).auth l
  | .reboot => l = .reboot

/-- The labels of a run, event by event. -/
def PinSteps : Machine → List PinEvent → List PinLabel → Prop
  | _, [], [] => True
  | m, e :: es, l :: ls => PinStep env m e l ∧ PinSteps (m.step env e.event) es ls
  | _, _, _ => False

section Run

variable {env} {salt : Buf 32} {a : Authenticator} {s : PinState}

theorem PinRel.request (hrel : PinRel env salt a s) (request : List UInt8) (h : Answers) :
    PinOutcome env salt (requestedSubCommand env request) a s
      (a.request env (ctapClientPinCmd :: request) h).2 := by
  refine Authenticator.request_state env ?_ ?_
  · rintro t c ⟨l, s', hstep, ht, htrace, htaken, hkey⟩
    exact ⟨l, s', hstep, { ht with }, htrace, htaken, hkey⟩
  · obtain ⟨l, s', hstep, ht, htrace, htaken, hkey⟩ :=
      ctapClientPin_outcome (a := { a with trace := [] }) (Writer.init ctapResponseBufferSize)
        request { hrel with } rfl
    rw [dispatch_clientPin env rfl, bind_state_of_reads]
    exact ⟨l, s', hstep, ht, htrace, htaken, hkey⟩

/-- A power-up gives the attempts of the power-up back. -/
theorem PinRel.reboot (hrel : PinRel env salt a s) :
    PinRel env salt (a.reboot env).2 { s with boot := 3, boot_le := le_refl 3 } := by
  have hstored := hrel.persisted
  rw [reboot_of_initialized env (hstored ▸ hrel.initialized) (hstored ▸ hrel.version)]
  exact
    { persisted := rfl
      initialized := hstored ▸ hrel.initialized
      version := hstored ▸ hrel.version
      pinSalt := hstored ▸ hrel.pinSalt
      tries := hstored ▸ hrel.tries
      boots := rfl
      pin := hstored ▸ hrel.pin }

variable (env) in
/-- A device that was never initialised starts without a PIN. -/
theorem PinRel.powerUp {a : Authenticator} (h : a.stored.isInitialized ≠ initializedMarker) :
    PinRel env (a.freshState env).pinSalt (Machine.powerUp env a).auth .initial := by
  rw [Machine.powerUp, reboot_of_not_initialized env h]
  exact
    { persisted := rfl
      initialized := rfl
      version := rfl
      pinSalt := rfl
      tries := rfl
      boots := rfl
      pin := show (0 : UInt8) ≠ 1 by decide }

/-- One step of the device is one step of the abstract machine. -/
theorem pinRel_step {m : Machine} (hrel : PinRel env salt m.auth s) (e : PinEvent) :
    ∃ l s', s.step (pinAgrees env salt) l = some s' ∧
      PinRel env salt (m.step env e.event).auth s' ∧ PinStep env m e l := by
  cases e with
  | reboot => exact ⟨.reboot, _, rfl, hrel.reboot, rfl⟩
  | clientPin request h =>
      by_cases hrun : m.running
      · obtain ⟨l, s', hstep, ht, htrace, htaken, hkey⟩ := hrel.request request h
        have hm : m.step env (PinEvent.clientPin request h).event =
            .of (m.auth.request env (ctapClientPinCmd :: request) h) := if_pos hrun
        refine ⟨l, s', hstep, ?_, ?_, htaken, ?_⟩
        · rw [hm]
          exact ht
        · rw [Machine.traceOf, hm]
          exact htrace
        · rw [hm]
          exact hkey
      · have hm : m.step env (PinEvent.clientPin request h).event =
            { m with auth := { m.auth with trace := [] } } := if_neg hrun
        refine ⟨.silent, s, rfl, ?_, ?_, trivial, ?_⟩
        · rw [hm]
          exact { hrel with }
        · rw [Machine.traceOf, hm]
          rfl
        · rw [hm]
          rfl

/-- A run of the device is a run of the abstract machine. -/
theorem pinRel_run {m : Machine} (hrel : PinRel env salt m.auth s) (es : List PinEvent) :
    ∃ ls s', PinSteps env m es ls ∧ s.run (pinAgrees env salt) ls = some s' ∧
      PinRel env salt (Transition.run (Machine.step env) m (es.map PinEvent.event)).auth s' := by
  induction es generalizing m s with
  | nil => exact ⟨[], s, trivial, rfl, hrel⟩
  | cons e es ih =>
      obtain ⟨l, t, hstep, ht, hlabel⟩ := pinRel_step hrel e
      obtain ⟨ls, s', hlabels, hrun, hs'⟩ := ih ht
      exact ⟨l :: ls, s', ⟨hlabel, hlabels⟩, (GuardedSecret.State.run_cons _).mpr ⟨t, hstep, hrun⟩,
        hs'⟩

end Run

/-- From the first power-up on, every run of clientPIN requests and power
cycles is a run of the PIN machine, in which at most 3 mismatches follow one
another in a power-up without a match in between, and at most 8 in all. -/
theorem clientPin_refines (a : Authenticator)
    (ha : a.stored.isInitialized ≠ initializedMarker) (es : List PinEvent) :
    ∃ ls s, PinSteps env (Machine.powerUp env a) es ls ∧
      GuardedSecret.State.initial.run (pinAgrees env (a.freshState env).pinSalt) ls = some s ∧
      PinRel env (a.freshState env).pinSalt
        (Transition.run (Machine.step env) (Machine.powerUp env a) (es.map PinEvent.event)).auth s ∧
      ∀ pre seg post, ls = pre ++ seg ++ post → (∀ l ∈ seg, l.isMatch = false) →
        seg.countP GuardedSecret.Label.isMiss ≤ 8 ∧
        ((∀ l ∈ seg, l.isReboot = false) → seg.countP GuardedSecret.Label.isMiss ≤ 3) := by
  obtain ⟨ls, s, hlabels, hrun, hs⟩ := pinRel_run (PinRel.powerUp env ha) es
  refine ⟨ls, s, hlabels, hrun, hs, ?_⟩
  rintro pre seg post rfl hmatch
  exact ⟨GuardedSecret.misses_le_maxTotal hrun hmatch, fun hreboot =>
    GuardedSecret.misses_le_maxBoot hrun fun l hl => ⟨hmatch l hl, hreboot l hl⟩⟩

/-! ### More than three in one power-up -/

def demoPin : List UInt8 := Bytes.ascii "2468"

/-- The PIN is set; two wrong guesses, the right one, and two wrong ones
again. -/
def demoGuesses : List PinEvent :=
  ([Sample.setPinOps demoPin] ++
    [Bytes.ascii "1111", Bytes.ascii "2222", demoPin, Bytes.ascii "3333", Bytes.ascii "4444"].map
      Sample.getPinTokenOps).map
    fun ops => .clientPin (Sample.encodeOps ops) Sample.touch

theorem clientPin_refines_demo :
    ∃ ls s, PinSteps Sample.env (Machine.powerUp Sample.env Sample.device) demoGuesses ls ∧
      GuardedSecret.State.initial.run
        (pinAgrees Sample.env (Sample.device.freshState Sample.env).pinSalt) ls = some s ∧
      PinRel Sample.env (Sample.device.freshState Sample.env).pinSalt
        (Transition.run (Machine.step Sample.env) (Machine.powerUp Sample.env Sample.device)
          (demoGuesses.map PinEvent.event)).auth s ∧
      ∀ pre seg post, ls = pre ++ seg ++ post → (∀ l ∈ seg, l.isMatch = false) →
        seg.countP GuardedSecret.Label.isMiss ≤ 8 ∧
        ((∀ l ∈ seg, l.isReboot = false) → seg.countP GuardedSecret.Label.isMiss ≤ 3) :=
  clientPin_refines Sample.env Sample.device (by decide) demoGuesses

/-- How many comparisons of a run found no match. -/
def mismatches (m : Machine) : List PinEvent → ℕ
  | [] => 0
  | e :: es =>
      ((m.traceOf env e.event).countP fun
        | .pinCompared _ false => true
        | _ => false) + mismatches (m.step env e.event) es

/-- Within one power-up, a match in between gives three more guesses. -/
theorem mismatches_of_one_boot_counterexample :
    ¬ ∀ (env : Env) (a : Authenticator) (es : List PinEvent),
      a.stored.isInitialized ≠ initializedMarker → (∀ e ∈ es, e ≠ .reboot) →
      mismatches env (Machine.powerUp env a) es ≤ 3 := by
  intro h
  have hle := h Sample.env Sample.device demoGuesses (by decide) (by simp [demoGuesses])
  have hcount : mismatches Sample.env (Machine.powerUp Sample.env Sample.device) demoGuesses = 4 := by
    decide +kernel
  omega

end NitrokeyFido2.Ctap
