import NitrokeyFido2.Ctap.KeyStore
import NitrokeyFido2.Ctap.Lockout

/-!
Credential management, taken apart: the parser, the check of the pinAuth, and
what is done behind both.
-/

namespace NitrokeyFido2.Ctap

open Proc Resumption

variable (env : Env)

/-! ### The parts of a request -/

/-- The requests that `ctap_cred_mgmt` serves. -/
def isManagement (bytes : List UInt8) : Prop :=
  bytes.getD 0 0 = ctapCborCredMgmtCmd ∨ bytes.getD 0 0 = ctapCborCredMgmtPreCmd

instance (bytes : List UInt8) : Decidable (isManagement bytes) := inferInstanceAs (Decidable (_ ∨ _))

/-- The parameters of a request that the parser accepts. -/
def parsedManagement (a : Authenticator) (request : List UInt8) : Option CredMgmt :=
  (parsedWithCustom (ctapParseCredMgmt env request) default a).1.toOption

/-- The device behind the parser, which writes the custom id of the assertion
state. -/
def Authenticator.afterParser (a : Authenticator) (request : List UInt8) : Authenticator :=
  (parsedWithCustom (ctapParseCredMgmt env request) default a).2

/-- The commands that come with a pinAuth. -/
def CredMgmt.NeedsPinAuth (cm : CredMgmt) : Prop :=
  cm.cmd = cmCmdMetadata ∨ cm.cmd = cmCmdRPBegin ∨ cm.cmd = cmCmdRKBegin ∨ cm.cmd = cmCmdRKDelete

instance (cm : CredMgmt) : Decidable cm.NeedsPinAuth := inferInstanceAs (Decidable (_ ∨ _ ∨ _ ∨ _))

/-- The pinAuth is the one of this command with these parameters. -/
def CredMgmt.Verified (cm : CredMgmt) (a : Authenticator) : Prop :=
  verifyPinAuthEx env a cm.pinAuth (cm.hashed.take (cm.subCommandParamsCborSize + 1)) = true

instance (cm : CredMgmt) (a : Authenticator) : Decidable (cm.Verified env a) :=
  inferInstanceAs (Decidable (_ = _))

/-- The device behind a pinAuth that was right. -/
def Authenticator.pinAuthAccepted (a : Authenticator) : Authenticator :=
  { a with
    state := { a.state with remainingTries := pinLockoutAttempts }
    stored := { a.state with remainingTries := pinLockoutAttempts }
    pinBootAttemptsLeft := pinBootAttempts
    trace := a.trace ++ [.pinAuthVerified] }

/-- What is done behind the parser and the check of the pinAuth. -/
def credMgmtCarriedOut (w : Writer) (cm : CredMgmt) : Device Writer := do
  let (rpCount, rkCount) ← credMgmtPrepare cm
  if cm.cmd = cmCmdMetadata then do
    let a ← Proc.get
    encode w (ctapCredMetadata env a)
  else if cm.cmd = cmCmdRPBegin ∨ cm.cmd = cmCmdRPNext then credMgmtRp env w rpCount
  else if cm.cmd = cmCmdRKBegin ∨ cm.cmd = cmCmdRKNext then credMgmtRk env w rkCount
  else if cm.cmd = cmCmdRKDelete then credMgmtDelete w cm
  else fail ctap1ErrInvalidCommand

section Parts

variable {env} {a : Authenticator} {w : Writer} {request : List UInt8} {cm : CredMgmt}

/-! ### The parser -/

theorem parsedWithCustom_state {τ : Type} (m : Parse (WithCustom τ) Unit) (v : τ) :
    (parsedWithCustom m v a).2 =
      { a with gas := { a.gas with custom := (m ⟨v, a.gas.custom⟩).2.custom } } := by
  unfold parsedWithCustom withCustom
  rw [bind_apply]
  dsimp only
  rcases (m ⟨v, a.gas.custom⟩).1 with c | u
  · have hreads : Reads (checkRetr c >>= fun _ => pure (m ⟨v, a.gas.custom⟩).2.val) := inferInstance
    exact hreads.eq _
  · rfl

theorem afterParser_eq (a : Authenticator) (request : List UInt8) :
    ∃ custom, a.afterParser env request = { a with gas := { a.gas with custom } } :=
  ⟨_, parsedWithCustom_state _ _⟩

theorem CredMgmt.verified_afterParser :
    cm.Verified env (a.afterParser env request) ↔ cm.Verified env a := by
  obtain ⟨custom, h⟩ := @afterParser_eq env a request
  rw [h]
  rfl

theorem ctapCredMgmt_of_none (h : parsedManagement env a request = none) :
    ∃ e, ctapCredMgmt env w request a = (.error e, a.afterParser env request) := by
  unfold parsedManagement at h
  unfold ctapCredMgmt Authenticator.afterParser
  rcases hr : parsedWithCustom (ctapParseCredMgmt env request) default a with ⟨e | cm, t⟩ <;>
    rw [hr] at h
  · exact ⟨e, bind_of_error hr⟩
  · exact nomatch h

theorem ctapCredMgmt_of_some (h : parsedManagement env a request = some cm) :
    ctapCredMgmt env w request a =
      (ctapCredMgmtPinauth env cm >>= fun _ => Proc.get >>= fun a =>
        if a.state.rkStored = 0 ∧ cm.cmd ≠ cmCmdMetadata then pure w
        else credMgmtCarriedOut env w cm) (a.afterParser env request) := by
  unfold parsedManagement at h
  unfold ctapCredMgmt Authenticator.afterParser
  rcases hr : parsedWithCustom (ctapParseCredMgmt env request) default a with ⟨e | cm', t⟩ <;>
    rw [hr] at h
  · exact nomatch h
  · obtain rfl : cm' = cm := Option.some.inj h
    exact bind_of_ok hr

/-! ### The check of the pinAuth -/

theorem ctapCredMgmtPinauth_of_not_needed (h : ¬ cm.NeedsPinAuth) :
    ctapCredMgmtPinauth env cm a = (.ok (), a) := by
  simp only [CredMgmt.NeedsPinAuth, not_or] at h
  rw [ctapCredMgmtPinauth, if_pos h]
  rfl

theorem ctapCredMgmtPinauth_of_needed (h : cm.NeedsPinAuth) :
    ctapCredMgmtPinauth env cm a =
      if cm.Verified env a then (.ok (), a.pinAuthAccepted)
      else (.error (.status (blockedOr (ctapDecrementPinAttempts a).2 ctap2ErrPinAuthInvalid)),
        (ctapDecrementPinAttempts a).2) := by
  have hnot : ¬ (cm.cmd ≠ cmCmdMetadata ∧ cm.cmd ≠ cmCmdRPBegin ∧ cm.cmd ≠ cmCmdRKBegin ∧
      cm.cmd ≠ cmCmdRKDelete) := by
    rintro ⟨h₁, h₂, h₃, h₄⟩
    rcases h with h | h | h | h
    · exact h₁ h
    · exact h₂ h
    · exact h₃ h
    · exact h₄ h
  rw [ctapCredMgmtPinauth, if_neg hnot, get_bind]
  by_cases hv : cm.Verified env a
  · rw [if_pos hv, if_pos (show verifyPinAuthEx env a _ _ = true from hv)]
    rfl
  · rw [if_neg hv, if_neg (show ¬ verifyPinAuthEx env a _ _ = true from hv)]
    have hdecrement : ctapDecrementPinAttempts a = (.ok (), (ctapDecrementPinAttempts a).2) := by
      unfold ctapDecrementPinAttempts
      rw [bind_of_ok rfl, get_bind]
      split
      · rfl
      · rw [bind_of_ok rfl, bind_of_ok rfl, get_bind]
        split <;> rfl
    rw [bind_of_ok hdecrement]
    rfl

end Parts

/-! ### Requests -/

section Requests

variable {env} {m : Machine} {a : Authenticator} {bytes : List UInt8} {h : Answers}

theorem parsedManagement_congr {b : Authenticator} (hcustom : b.gas.custom = a.gas.custom)
    (request : List UInt8) : parsedManagement env b request = parsedManagement env a request := by
  unfold parsedManagement parsedWithCustom withCustom
  rw [bind_apply, bind_apply]
  dsimp only
  rw [hcustom]
  rcases (ctapParseCredMgmt env request ⟨default, a.gas.custom⟩).1 with c | u
  · simp only [checkRetr, failIf, stopIf]
    split <;> rfl
  · rfl

theorem dispatch_management (hmanage : isManagement bytes) (hopen : ¬ Locked a)
    {r : Except Stop Writer} {t : Authenticator}
    (hrun : ctapCredMgmt env (Writer.init ctapResponseBufferSize) bytes.tail { a with trace := [] } =
      (r, t)) : a.dispatch env bytes h = (r.map some, t) := by
  have hgate : failIfLocked { a with trace := [] } = (.ok (), { a with trace := [] }) :=
    failIfLocked_of_not_locked hopen
  rw [dispatch_credMgmt env hmanage, bind_of_ok hgate, bind_apply, hrun]
  rcases r with e | w <;> rfl

theorem Machine.step_of_running (hrun : m.running = true) :
    (m.step env (.request bytes h)).auth = (m.auth.request env bytes h).2 := by
  rw [Machine.step, if_pos hrun]
  rfl

theorem Machine.reply_of_running (hrun : m.running = true) :
    m.reply env (.request bytes h) = (m.auth.request env bytes h).1.toOption := if_pos hrun

end Requests

end NitrokeyFido2.Ctap
