import NitrokeyFido2.Lib.Transition
import NitrokeyFido2.Bootloader.Commands

/-!
An authorised application is the verified one.

A run of the bootloader is a list of commands, reboots and power cuts; a
power cut inside a command applies the first `k` of its flash operations and
loses the statics. Beside the machine the run carries one ghost value, the
bytes `BootDone` accepted last (`verified`). The invariant `AuthorisedIsVerified`
says that the authorisation word vouches for exactly these bytes.

`BootErase`, and `BootWrite` through `erase_application`, break it: the pages
are erased in ascending order and the authorisation word lies in the last
one, so a power cut between the first and the last erase leaves the word
standing in front of erased code. `CutSafe` excludes that one event, and
under it the invariant is kept by everything else.
-/

namespace NitrokeyFido2.Bootloader

open NorFlash

/-- A machine together with the bytes whose signature was last accepted. -/
structure BootRun where
  machine : Machine
  /-- The bytes `BootDone` accepted last, or the image that was authorised
  when the run began. -/
  verified : Option (List UInt8)

/-- What happens to a device in its bootloader. -/
inductive Event
  /-- A command runs to its end. -/
  | command (c : Command)
  /-- The device is restarted between two commands. -/
  | reboot
  /-- Power is lost after `k` flash operations of the command. -/
  | powerCut (c : Command) (k : ℕ)

section Config

variable (cfg : Config)

/-- The ghost value after a command got past its checks. `BootDone` makes all
of them before its first flash operation. -/
def verifiedAfter (r : BootRun) (c : Command) : Option (List UInt8) :=
  if Authorises cfg r.machine c then some (applicationBytes cfg r.machine.flash) else r.verified

/-- The flash a power cut leaves after `k` operations of the command. -/
def cutFlash (s : Machine) (c : Command) (k : ℕ) : Memory :=
  applyAll cfg.chip s.flash ((bridgeStep cfg s c).flashOps.take k)

/-- One event. -/
def bootStep (r : BootRun) : Event → BootRun
  | .command c => ⟨bridgeStep cfg r.machine c, verifiedAfter cfg r c⟩
  | .reboot => ⟨powerUp r.machine.flash, r.verified⟩
  | .powerCut c k => ⟨powerUp (cutFlash cfg r.machine c k), verifiedAfter cfg r c⟩

/-- The beginning of a run: any flash contents, of which an image that is
authorised already counts as verified. -/
def bootStart (flash : Memory) : BootRun where
  machine := powerUp flash
  verified := if isAuthorizedToBoot cfg flash then some (applicationBytes cfg flash) else none

/-- The authorisation word vouches for the verified bytes. -/
def AuthorisedIsVerified (r : BootRun) : Prop :=
  isAuthorizedToBoot cfg r.machine.flash = true →
    r.verified = some (applicationBytes cfg r.machine.flash)

/-- The event is not a power cut strictly inside an erase of the application
that began while the application was authorised. -/
def CutSafe (r : BootRun) : Event → Prop
  | .powerCut c k =>
      ¬ (isAuthorizedToBoot cfg r.machine.flash = true ∧ EraseRequest cfg c ∧
        0 < k ∧ k < cfg.board.applicationPages)
  | _ => True

end Config

section Invariant

variable {cfg : Config}

/-- Programs inside the application area leave the authorisation word alone. -/
theorem withinApplication_authorized {flash : Memory} {ops : List Op}
    (h : WithinApplication cfg ops) :
    isAuthorizedToBoot cfg (applyAll cfg.chip flash ops) = isAuthorizedToBoot cfg flash := by
  unfold isAuthorizedToBoot
  rw [Memory.read_congr]
  intro a h₁ _
  rw [applyAll_outside]
  intro op hop htouch
  have h₂ := (h op hop a htouch).2
  unfold Board.authWordAddr at h₁
  omega

/-- Inside an erase followed by writes, the application is authorised only
before the last page is erased. -/
theorem eraseThenWrite_authorized {flash : Memory} {writes : List Op} {k : ℕ}
    (hw : WithinApplication cfg writes)
    (h : isAuthorizedToBoot cfg
      (applyAll cfg.chip flash ((eraseApplicationOps cfg ++ writes).take k)) = true) :
    isAuthorizedToBoot cfg flash = true ∧ k < cfg.board.applicationPages := by
  rw [List.take_append, applyAll_append] at h
  have hw' : WithinApplication cfg
      (writes.take (k - (eraseApplicationOps cfg).length)) :=
    fun op hop => hw op (List.mem_of_mem_take hop)
  rw [withinApplication_authorized hw'] at h
  exact erase_take_authorized h

/-- Wherever a command stops, an application that is authorised afterwards is
the one from before, and was authorised before or has just been accepted. -/
theorem bridge_take_authorized {s : Machine} {c : Command} {k : ℕ}
    (hcut : ¬ (isAuthorizedToBoot cfg s.flash = true ∧ EraseRequest cfg c ∧
      0 < k ∧ k < cfg.board.applicationPages))
    (h : isAuthorizedToBoot cfg (cutFlash cfg s c k) = true) :
    applicationBytes cfg (cutFlash cfg s c k) = applicationBytes cfg s.flash ∧
      (isAuthorizedToBoot cfg s.flash = true ∨ Authorises cfg s c) := by
  unfold cutFlash at h ⊢
  obtain hops | ⟨hreq, writes, hw, hops | ⟨hauth, hops⟩⟩ | hops | ⟨hdone, rest, hops, hrest⟩ :=
    bridge_cases cfg s c
  · rw [hops, List.take_nil] at h ⊢
    exact ⟨rfl, Or.inl h⟩
  · -- the application is being erased
    rw [hops] at h ⊢
    obtain ⟨hauth, hk⟩ := eraseThenWrite_authorized hw h
    have hk₀ : k = 0 := by
      by_contra hk₀
      exact hcut ⟨hauth, hreq, by omega, hk⟩
    subst hk₀
    exact ⟨rfl, Or.inl hauth⟩
  · -- nothing to erase: the word was not set before and is out of reach
    rw [hops, withinApplication_authorized (fun op hop => hw op (List.mem_of_mem_take hop)),
      hauth] at h
    exact absurd h Bool.false_ne_true
  · rw [hops] at h ⊢
    obtain ⟨hbytes, hauth | hoff⟩ := clearInLastPage_take_authorized (Or.inr rfl) h
    · exact ⟨hbytes, Or.inl hauth⟩
    · exact absurd hoff (by decide)
  · -- the version page first, then the authorisation word
    rw [hops, List.take_append, applyAll_append] at h ⊢
    have hsame := versionOps_sameApplication cfg s k
    obtain rfl | rfl := hrest
    · rw [List.take_nil, applyAll_nil] at h ⊢
      exact ⟨hsame.applicationBytes, Or.inr hdone⟩
    · by_cases hk : k ≤ (versionOps cfg s).length
      · rw [Nat.sub_eq_zero_of_le hk, List.take_zero, applyAll_nil] at h ⊢
        exact ⟨hsame.applicationBytes, Or.inr hdone⟩
      · rw [List.take_of_length_le (by omega)] at h hsame ⊢
        obtain ⟨hbytes, -⟩ := clearInLastPage_take_authorized (Or.inl rfl) h
        exact ⟨hbytes.trans hsame.applicationBytes, Or.inr hdone⟩

/-- A command that runs to its end is a cut after its last operation. -/
theorem bridgeStep_flash_eq_cutFlash (s : Machine) (c : Command) (k : ℕ)
    (hk : (bridgeStep cfg s c).flashOps.length ≤ k) :
    (bridgeStep cfg s c).flash = cutFlash cfg s c k := by
  rw [bridgeStep_flash, cutFlash, List.take_of_length_le hk]

theorem verifiedAfter_eq {r : BootRun} (hr : AuthorisedIsVerified cfg r) {c : Command} {k : ℕ}
    (hcut : ¬ (isAuthorizedToBoot cfg r.machine.flash = true ∧ EraseRequest cfg c ∧
      0 < k ∧ k < cfg.board.applicationPages))
    (h : isAuthorizedToBoot cfg (cutFlash cfg r.machine c k) = true) :
    verifiedAfter cfg r c = some (applicationBytes cfg (cutFlash cfg r.machine c k)) := by
  obtain ⟨hbytes, hauth⟩ := bridge_take_authorized hcut h
  rw [hbytes, verifiedAfter]
  by_cases hacc : Authorises cfg r.machine c
  · rw [if_pos hacc]
  · rw [if_neg hacc]
    exact hr (hauth.resolve_right hacc)

/-- The invariant is kept by every event that is not an unlucky power cut. -/
theorem bootStep_authorisedIsVerified (r : BootRun) (e : Event)
    (hr : AuthorisedIsVerified cfg r) (he : CutSafe cfg r e) :
    AuthorisedIsVerified cfg (bootStep cfg r e) := by
  cases e with
  | reboot => exact hr
  | powerCut c k => exact fun h => verifiedAfter_eq hr he h
  | command c =>
      intro h
      -- the command as a cut that comes after everything
      let k := (bridgeStep cfg r.machine c).flashOps.length + cfg.board.applicationPages
      have hflash : (bridgeStep cfg r.machine c).flash = cutFlash cfg r.machine c k :=
        bridgeStep_flash_eq_cutFlash _ _ _ (Nat.le_add_right _ _)
      show verifiedAfter cfg r c = some (applicationBytes cfg (bridgeStep cfg r.machine c).flash)
      rw [hflash]
      apply verifiedAfter_eq hr
      · rintro ⟨-, -, -, hk⟩
        omega
      · rw [← hflash]
        exact h

theorem bootStart_authorisedIsVerified (flash : Memory) :
    AuthorisedIsVerified cfg (bootStart cfg flash) := by
  intro h
  exact if_pos h

/-- In every run without an unlucky power cut, an application the boot
decision would start is the one that was verified last. -/
theorem authorised_application_is_verified (cfg : Config) (flash : Memory) (es : List Event)
    (hes : Transition.Along (bootStep cfg) (CutSafe cfg) (bootStart cfg flash) es) :
    AuthorisedIsVerified cfg (Transition.run (bootStep cfg) (bootStart cfg flash) es) :=
  Transition.invariant_run bootStep_authorisedIsVerified
    (bootStart_authorisedIsVerified flash) hes

end Invariant

/-! ### The unlucky power cut -/

/-- `BootErase`. -/
def demoErase : Command := commandOf [0x43, 0, 0, 0, 0, 0, 0, 0, 0, 0]

/-- An erase that ran to its end, one that lost power after its last page, and
a restart keep the invariant. -/
theorem authorised_application_is_verified_demo :
    AuthorisedIsVerified demoConfig
      (Transition.run (bootStep demoConfig) (bootStart demoConfig fun _ => 0)
        [.powerCut demoErase 34, .command demoErase, .reboot]) :=
  authorised_application_is_verified demoConfig (fun _ => 0) _
    ⟨fun h => absurd h.2.2.2 (by decide), trivial, trivial, trivial⟩

theorem demoErase_flashOps (flash : Memory) :
    (bridgeStep demoConfig (powerUp flash) demoErase).flashOps = eraseApplicationOps demoConfig :=
  rfl

/-- Flash that is all zero holds an authorised image. A power cut after the
first page erase of `BootErase` leaves it authorised, with its first page
gone. -/
theorem authorised_application_counterexample :
    ¬ AuthorisedIsVerified demoConfig
      (Transition.run (bootStep demoConfig) (bootStart demoConfig fun _ => 0)
        [.powerCut demoErase 1]) := by
  intro h
  have hcut : ∀ a, cutFlash demoConfig (powerUp fun _ => 0) demoErase 1 a =
      if applicationStartAddr ≤ a ∧ a < applicationStartAddr + 1 * pageSize then 0xFF else 0 := by
    intro a
    rw [cutFlash, demoErase_flashOps]
    exact applyAll_eraseApplicationOps_take _ _ 1 a
  have hauth : isAuthorizedToBoot demoConfig
      (cutFlash demoConfig (powerUp fun _ => 0) demoErase 1) = true := by
    rw [isAuthorizedToBoot_iff]
    intro i hi
    rw [hcut, if_neg]
    rintro ⟨-, hlt⟩
    exact absurd (Nat.lt_of_le_of_lt (Nat.le_add_right _ i) hlt) (by decide)
  have hverified : (bootStart demoConfig fun _ => 0).verified =
      some (applicationBytes demoConfig fun _ => 0) := rfl
  have hbytes : some (applicationBytes demoConfig fun _ => 0) =
      some (applicationBytes demoConfig
        (cutFlash demoConfig (powerUp fun _ => 0) demoErase 1)) := by
    rw [← hverified]
    exact h hauth
  have hfirst := Memory.eq_of_read_eq (Option.some.inj hbytes) (Nat.le_refl applicationStartAddr)
    (by decide)
  rw [hcut, if_pos ⟨Nat.le_refl _, by decide⟩] at hfirst
  exact absurd hfirst (by decide)

end NitrokeyFido2.Bootloader
