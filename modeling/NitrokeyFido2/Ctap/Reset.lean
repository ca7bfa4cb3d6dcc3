import NitrokeyFido2.Ctap.Registration

/-!
What a reset leaves behind.

A reset makes new secrets and erases the resident keys; some of the memory is left
as it was, and goes with the power. What the device answers behind the next power-up
is what a device answers that was never used before and has counted as far.
-/

namespace NitrokeyFido2.Ctap

open Proc Resumption Transition

variable {env : Env}

/-! ### Before the power goes -/

/-- The flash is that of a device that starts for the first time at this position of
the random numbers. -/
structure FlashOfNew (env : Env) (f a : Authenticator) : Prop where
  stored : a.stored = f.freshState env
  rks : a.rks = List.replicate ctapRkSize ResidentKey.erased
  counter : a.counter = f.counter
  nfcActive : a.nfcActive = f.nfcActive
  rngPos : a.rngPos = f.rngPos + keySpaceBytes + 32 + pinTokenSize + 32

/-- The fresh state only depends on the random numbers. -/
theorem freshState_congr {a f : Authenticator} (h : a.rngPos = f.rngPos) :
    a.freshState env = f.freshState env := by
  unfold Authenticator.freshState Authenticator.drawn
  rw [h]

theorem FlashOfNew.wasReset {a f : Authenticator} (hrng : a.rngPos = f.rngPos)
    (hcounter : a.counter = f.counter) (hnfc : a.nfcActive = f.nfcActive) :
    FlashOfNew env f (a.wasReset env) :=
  { stored := freshState_congr hrng
    rks := rfl
    counter := hcounter
    nfcActive := hnfc
    rngPos := by rw [← hrng]; rfl }

theorem FlashOfNew.setLastcmd {a f : Authenticator} (h : FlashOfNew env f a) (c : UInt8) :
    FlashOfNew env f (a.setLastcmd c) :=
  ⟨h.stored, h.rks, h.counter, h.nfcActive, h.rngPos⟩

theorem FlashOfNew.powerUp {f : Authenticator}
    (hunused : f.stored.isInitialized ≠ initializedMarker) :
    FlashOfNew env f (Machine.powerUp env f).auth := by
  rw [Machine.powerUp, reboot_of_not_initialized env hunused]
  exact ⟨rfl, rfl, rfl, rfl, rfl⟩

/-- A presence test draws no random numbers and counts nothing. -/
theorem Authenticator.tested.device {t a : Authenticator} {h : Answers} (ht : t.tested a h) :
    t.rngPos = a.rngPos ∧ t.counter = a.counter ∧ t.nfcActive = a.nfcActive := by
  rcases ht with rfl | rfl
  · exact ⟨rfl, rfl, rfl⟩
  · unfold Authenticator.waited
    split_ifs <;> exact ⟨rfl, rfl, rfl⟩

theorem FlashOfNew.reset {m : Machine} {e : Event} (hreset : IsReset env m e) {f : Authenticator}
    (hrng : m.auth.rngPos = f.rngPos) (hcounter : m.auth.counter = f.counter)
    (hnfc : m.auth.nfcActive = f.nfcActive) : FlashOfNew env f (m.step env e).auth := by
  cases e with
  | reboot => exact hreset.elim
  | request bytes h =>
      obtain ⟨hcmd, hsuccess⟩ := hreset
      have hrun : m.running = true := by
        by_contra hstopped
        rw [Machine.reply, if_neg hstopped] at hsuccess
        cases hsuccess
      rcases hd : m.auth.dispatch env bytes h with ⟨r, t⟩
      obtain ⟨hauth, hstatus⟩ := step_request hrun hd
      obtain ⟨u, hu, hdone⟩ := dispatch_reset_cases env (a := m.auth) (h := h) hcmd
      rw [hd] at hdone
      have hnew : FlashOfNew env f t := by
        rcases hdone with hdone | ⟨c, hc, hdone⟩ <;> obtain ⟨rfl, rfl⟩ := Prod.mk.inj hdone
        · obtain ⟨hurng, hucounter, hunfc⟩ := hu.device
          exact .wasReset (hurng.trans hrng) (hucounter.trans hcounter) (hunfc.trans hnfc)
        · rw [hsuccess] at hstatus
          exact absurd (Option.some.inj hstatus).symm hc
      rcases hauth with hauth | ⟨c, hauth⟩ <;> rw [hauth]
      · exact hnew
      · exact hnew.setLastcmd c

/-! ### Behind it -/

/-- Nothing but the flash and the field counts at a power-up. -/
theorem FlashOfNew.reboot {a b f : Authenticator} (ha : FlashOfNew env f a)
    (hb : FlashOfNew env f b) : a.reboot env = b.reboot env := by
  have hstart {c : Authenticator} (hc : FlashOfNew env f c) : c.reboot env =
      (.ok (), f.started env (f.freshState env) (List.replicate ctapRkSize ResidentKey.erased)
        (f.rngPos + keySpaceBytes + 32 + pinTokenSize + 32)) := by
    have hinit : c.stored.isInitialized = initializedMarker := by
      rw [hc.stored]
      rfl
    have hversion : c.stored.dataVersion = stateVersion := by
      rw [hc.stored]
      rfl
    rw [reboot_of_initialized env hinit hversion, hc.stored, hc.rks, hc.rngPos]
    unfold Authenticator.started powerCycle Authenticator.drawn
    rw [hc.counter, hc.nfcActive]
  rw [hstart ha, hstart hb]

/-- Behind a reset and the next power-up, whatever was stored or requested before, every
request is answered as by a device that was never used before, if that has drawn as many
random numbers and has the same signature counter. -/
theorem reset_forgets (m : Machine) (e : Event) (hreset : IsReset env m e) (f : Authenticator)
    (hunused : f.stored.isInitialized ≠ initializedMarker) (hrng : m.auth.rngPos = f.rngPos)
    (hcounter : m.auth.counter = f.counter) (hnfc : m.auth.nfcActive = f.nfcActive)
    (es : List Event) :
    run (Machine.step env) (m.step env e) (.reboot :: es) =
        run (Machine.step env) (Machine.powerUp env f) (.reboot :: es) ∧
      outputs (Machine.step env) (Machine.reply env) (m.step env e) (.reboot :: es) =
        outputs (Machine.step env) (Machine.reply env) (Machine.powerUp env f) (.reboot :: es) := by
  have hboot : (m.step env e).step env .reboot = (Machine.powerUp env f).step env .reboot :=
    congrArg Machine.of ((FlashOfNew.reset hreset hrng hcounter hnfc).reboot (.powerUp hunused))
  constructor
  · rw [run_cons, run_cons, hboot]
  · unfold outputs
    rw [hboot]
    rfl

/-- A device that was never used, and has counted as far as this one. -/
def demoUnused (a : Authenticator) : Authenticator :=
  { Sample.device with rngPos := a.rngPos, counter := a.counter, nfcActive := a.nfcActive }

theorem reset_forgets_demo : demoAccounts.rks.any ctapRkIsValid = true ∧ ∀ es : List Event,
    run (Machine.step Sample.env)
        (Machine.step Sample.env ⟨demoAccounts, true⟩ (Sample.request ctapResetCmd [])) (.reboot :: es) =
      run (Machine.step Sample.env) (Machine.powerUp Sample.env (demoUnused demoAccounts))
        (.reboot :: es) := by
  have hreset : IsReset Sample.env ⟨demoAccounts, true⟩ (Sample.request ctapResetCmd []) := by
    decide +kernel
  have hunused (a : Authenticator) : (demoUnused a).stored.isInitialized ≠ initializedMarker := by
    have herased : AuthenticatorState.erased.isInitialized ≠ initializedMarker := by decide
    exact herased
  have hsame (a : Authenticator) : a.rngPos = (demoUnused a).rngPos ∧
      a.counter = (demoUnused a).counter ∧ a.nfcActive = (demoUnused a).nfcActive := ⟨rfl, rfl, rfl⟩
  obtain ⟨hrng, hcounter, hnfc⟩ := hsame demoAccounts
  refine ⟨by decide +kernel, fun es => ?_⟩
  exact (reset_forgets _ _ hreset _ (hunused demoAccounts) hrng hcounter hnfc es).1

end NitrokeyFido2.Ctap
