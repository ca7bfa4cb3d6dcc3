import NitrokeyFido2.Lib.Transition
import NitrokeyFido2.Bootloader.Commands

/-!
Firmware anti-rollback.

`BootDone` compares the stored version with the word that ends where the last
write ended (`last_written_app_address`), not with the last word of the
signed image. The signature covers the contents of the application area and
says nothing about that address: a `BootWrite` of length zero moves it
without writing anything.

The main result says exactly when the check still means what it should. It
quantifies over the stored version, so the file first shows that commands
which leave `REBOOT_FLAG` clear neither read nor change the version page:
two machines that differ only there stay in step (`Twin`).
-/

namespace NitrokeyFido2.Bootloader

open NorFlash

/-! ### The order on versions -/

/-- The part of a version `is_newer` looks at, as one number. -/
def Version.key (v : Version) : ℕ :=
  v.major.toNat * 2 ^ 16 + v.minor.toNat * 2 ^ 8 + v.patch.toNat

theorem isNewer_iff (newer older : Version) :
    isNewer newer older = true ↔ older.key ≤ newer.key := by
  have h₁ := newer.minor.toNat_lt
  have h₂ := newer.patch.toNat_lt
  have h₃ := older.minor.toNat_lt
  have h₄ := older.patch.toNat_lt
  simp only [isNewer, Bool.or_eq_true, Bool.and_eq_true, decide_eq_true_eq, beq_iff_eq,
    gt_iff_lt, ge_iff_le, UInt8.lt_iff_toNat_lt, UInt8.le_iff_toNat_le, ← UInt8.toNat_inj,
    Version.key]
  omega

theorem isNewer_trans {a b c : Version} (hab : isNewer a b = true) (hbc : isNewer b c = true) :
    isNewer a c = true := by
  rw [isNewer_iff] at hab hbc ⊢
  exact le_trans hbc hab

/-- `w` with its reserved byte cleared: equal to `w` for `is_newer`, and never
the erased word. -/
def Version.unreserved (w : Version) : Version := { w with reserved := 0 }

theorem Version.unreserved_ne_erased (w : Version) : w.unreserved ≠ Version.erased := by
  intro h
  have hreserved : (0 : UInt8) = 0xFF := congrArg Version.reserved h
  exact absurd hreserved (by decide)

theorem isNewer_unreserved_right (v w : Version) :
    isNewer v w.unreserved = isNewer v w := rfl

theorem isNewer_refl (w : Version) : isNewer w w = true :=
  (isNewer_iff w w).mpr (le_refl _)

/-! ### Signed images -/

section Config

variable (cfg : Config)

/-- The application area when it holds the image and nothing else. -/
def paddedImage (image : List UInt8) : List UInt8 :=
  image ++ List.replicate (cfg.board.applicationSize - image.length) 0xFF

/-- The application area holds exactly the image followed by erased flash. -/
def HoldsImage (flash : Memory) (image : List UInt8) : Prop :=
  applicationBytes cfg flash = paddedImage cfg image

/-- The version word of an image, its last four bytes. -/
def imageVersion (image : List UInt8) : Version :=
  .ofMemory (fun i => image.getD i 0) (image.length - 4)

/-- The flash with `c` as its `current_firmware_version`. -/
def withStoredVersion (flash : Memory) (c : Version) : Memory := fun a =>
  if cfg.board.bootVersionAddr ≤ a ∧ a < cfg.board.bootVersionAddr + 4 then
    c.bytes.getD (a - cfg.board.bootVersionAddr) 0
  else flash a

end Config

section Lockstep

variable {cfg : Config}

theorem holdsImage_iff {flash : Memory} {image : List UInt8}
    (hlen : image.length ≤ cfg.board.applicationSize) :
    HoldsImage cfg flash image ↔
      ∀ i < cfg.board.applicationSize, flash (applicationStartAddr + i) = image.getD i 0xFF := by
  have hpad : ∀ i < cfg.board.applicationSize,
      (paddedImage cfg image).getD i 0xFF = image.getD i 0xFF := by
    intro i hi
    unfold paddedImage
    by_cases h : i < image.length
    · rw [List.getD_append _ _ _ _ h]
    · rw [List.getD_append_right _ _ _ _ (by omega), List.getD_replicate _ (by omega),
        List.getD_eq_default _ _ (by omega)]
  have hsize : (paddedImage cfg image).length = cfg.board.applicationSize := by
    simp only [paddedImage, List.length_append, List.length_replicate]
    omega
  constructor
  · intro h i hi
    rw [← hpad i hi, ← h, applicationBytes, Memory.getD_read _ _ _ _ _ hi]
  · intro h
    apply List.ext_getElem (by rw [applicationBytes, Memory.length_read, hsize])
    intro i h₁ h₂
    rw [← List.getD_eq_getElem _ 0xFF h₁, ← List.getD_eq_getElem _ 0xFF h₂]
    rw [hsize] at h₂
    rw [hpad i h₂, ← h i h₂, applicationBytes, Memory.getD_read _ _ _ _ _ h₂]

@[simp] theorem currentFirmwareVersion_withStoredVersion (flash : Memory) (c : Version) :
    currentFirmwareVersion cfg (withStoredVersion cfg flash c) = c := by
  simp [currentFirmwareVersion, Version.ofMemory, withStoredVersion, Version.bytes]

/-! ### Machines that differ in their stored version -/

/-- The two machines agree on everything but the flash behind the application
pages. -/
structure Twin (cfg : Config) (s t : Machine) : Prop where
  lastWrittenAppAddress : s.lastWrittenAppAddress = t.lastWrittenAppAddress
  hasErased : s.hasErased = t.hasErased
  rebootFlag : s.rebootFlag = t.rebootFlag
  flash : ∀ a, 0 ≤ a → a < cfg.board.applicationEndAddr + 8 → s.flash a = t.flash a

/-- The operations stay below the version page. -/
def BelowVersionPage (cfg : Config) (ops : List Op) : Prop :=
  ∀ op ∈ ops, ∀ a, op.Touches a → 0 ≤ a ∧ a < cfg.board.applicationEndAddr + 8

theorem WithinApplication.belowVersionPage {ops : List Op} (h : WithinApplication cfg ops) :
    BelowVersionPage cfg ops := by
  intro op hop a ha
  have := (h op hop a ha).2
  omega

theorem eraseApplicationOps_belowVersionPage (cfg : Config) :
    BelowVersionPage cfg (eraseApplicationOps cfg) := by
  intro op hop a ha
  refine ⟨Nat.zero_le a, ?_⟩
  have hop' : op ∈ (eraseApplicationOps cfg).take cfg.board.applicationPages := by
    rwa [List.take_of_length_le (by rw [length_eraseApplicationOps])]
  obtain ⟨i, hi, rfl⟩ := mem_eraseApplicationOps_take.mp hop'
  have h₂ := ((flashErasePage_touches i a).mp ha).2
  have hle : (i + 1) * pageSize ≤ cfg.board.applicationPages * pageSize :=
    Nat.mul_le_mul_right _ (by omega)
  rw [Nat.succ_mul] at hle
  rw [cfg.board.applicationEndAddr_eq]
  omega

theorem clearInLastPageOps_belowVersionPage {off : ℕ} (hoff : off + 4 ≤ pageSize)
    (flash : Memory) : BelowVersionPage cfg (clearInLastPageOps cfg off flash) := by
  intro op hop a ha
  refine ⟨Nat.zero_le a, ?_⟩
  have hlast := cfg.board.lastAddr_eq
  rcases List.mem_cons.mp hop with rfl | hop
  · have h₂ := ha.2
    rw [Board.flashAddr_lastPage] at h₂
    simp only [pageSize] at h₂
    omega
  · refine flashWrite_touches_lt (by have := cfg.board.applicationEndAddr_mod; omega) ?_ hop ha
    rw [Bytes.length_fill (by simpa using hoff), Memory.length_read, pageSize]
    omega

/-- Operations below the version page leave the stored version as it is. -/
theorem BelowVersionPage.currentFirmwareVersion {ops : List Op} (h : BelowVersionPage cfg ops)
    (flash : Memory) :
    currentFirmwareVersion cfg (applyAll cfg.chip flash ops) =
      currentFirmwareVersion cfg flash := by
  have hout : ∀ i, applyAll cfg.chip flash ops (cfg.board.bootVersionAddr + i) =
      flash (cfg.board.bootVersionAddr + i) := by
    intro i
    rw [applyAll_outside]
    intro op hop htouch
    have h₂ := (h op hop _ htouch).2
    rw [cfg.board.bootVersionAddr_eq] at h₂
    omega
  have h₀ := hout 0
  rw [Nat.add_zero] at h₀
  simp only [Bootloader.currentFirmwareVersion, Version.ofMemory, h₀, hout]

theorem Twin.perform {s t : Machine} (h : Twin cfg s t) {ops : List Op}
    (hops : BelowVersionPage cfg ops) : Twin cfg (s.perform cfg ops) (t.perform cfg ops) where
  lastWrittenAppAddress := h.lastWrittenAppAddress
  hasErased := h.hasErased
  rebootFlag := h.rebootFlag
  flash := applyAll_agree cfg.chip ops hops h.flash

theorem Twin.isAuthorizedToBoot {s t : Machine} (h : Twin cfg s t) :
    isAuthorizedToBoot cfg s.flash = isAuthorizedToBoot cfg t.flash := by
  unfold Bootloader.isAuthorizedToBoot
  rw [Memory.read_congr]
  intro a h₁ h₂
  unfold Board.authWordAddr at h₂
  exact h.flash a (Nat.zero_le a) (by omega)

theorem Twin.preparedForWrite {s t : Machine} (h : Twin cfg s t) :
    Twin cfg (preparedForWrite cfg s) (preparedForWrite cfg t) := by
  unfold Bootloader.preparedForWrite
  rw [h.isAuthorizedToBoot, h.hasErased]
  split
  · have hperform := h.perform (eraseApplicationOps_belowVersionPage cfg)
    exact ⟨rfl, rfl, h.rebootFlag, hperform.flash⟩
  · exact h

theorem Twin.clearInLastPage {s t : Machine} (h : Twin cfg s t) {off : ℕ}
    (hoff : off + 4 ≤ pageSize) :
    Twin cfg (clearInLastPage cfg off s) (clearInLastPage cfg off t) := by
  have hread : s.flash.read cfg.board.lastAddr pageSize =
      t.flash.read cfg.board.lastAddr pageSize := by
    apply Memory.read_congr
    intro a _ h₂
    have hlast := cfg.board.lastAddr_eq
    simp only [pageSize] at h₂
    exact h.flash a (Nat.zero_le a) (by omega)
  have hops : clearInLastPageOps cfg off s.flash = clearInLastPageOps cfg off t.flash := by
    unfold clearInLastPageOps
    rw [hread]
  rw [clearInLastPage_eq, clearInLastPage_eq, hops]
  exact h.perform (clearInLastPageOps_belowVersionPage hoff t.flash)

/-- The stored version is where it was. -/
def KeepsVersion (cfg : Config) (s s' : Machine) : Prop :=
  currentFirmwareVersion cfg s'.flash = currentFirmwareVersion cfg s.flash

theorem preparedForWrite_keepsVersion (s : Machine) :
    KeepsVersion cfg s (preparedForWrite cfg s) := by
  obtain h | ⟨-, h⟩ := preparedForWrite_cases cfg s
  · rw [h]
    exact (eraseApplicationOps_belowVersionPage cfg).currentFirmwareVersion s.flash
  · rw [h]
    exact rfl

/-- One command that leaves `REBOOT_FLAG` clear: it treats twins alike and
keeps the stored version of each. -/
theorem bridgeStep_twin {s t : Machine} (h : Twin cfg s t) (c : Command)
    (hflag : (bridgeStep cfg s c).rebootFlag = false) :
    Twin cfg (bridgeStep cfg s c) (bridgeStep cfg t c) ∧
      KeepsVersion cfg t (bridgeStep cfg t c) := by
  let s₀ : Machine := { s with flashOps := [], response := Ctap.ctapResponseInit }
  let t₀ : Machine := { t with flashOps := [], response := Ctap.ctapResponseInit }
  have h₀ : Twin cfg s₀ t₀ := ⟨h.1, h.2, h.3, h.4⟩
  by_cases hlen : (c.req.len : ℤ) > c.klen - 10
  · have hs : bridgeStep cfg s c = s₀ := by simp [bridgeStep, bootloaderBridge, hlen, s₀]
    have ht : bridgeStep cfg t c = t₀ := by simp [bridgeStep, bootloaderBridge, hlen, t₀]
    rw [hs, ht]
    exact ⟨h₀, rfl⟩
  · have hs : bridgeStep cfg s c = (bridgeSwitch cfg c.req s₀).2 := by
      simp [bridgeStep, bootloaderBridge, hlen, s₀]
    have ht : bridgeStep cfg t c = (bridgeSwitch cfg c.req t₀).2 := by
      simp [bridgeStep, bootloaderBridge, hlen, t₀]
    rw [hs] at hflag
    rw [hs, ht]
    unfold bridgeSwitch at hflag ⊢
    cases hop : BootOperation.ofByte c.req.op with
    | none => exact ⟨h₀, rfl⟩
    | some op =>
        rw [hop] at hflag
        cases op with
        | bootCheck => exact ⟨h₀, rfl⟩
        | bootReboot => exact absurd hflag (by simp)
        | bootVersion => exact ⟨⟨h₀.1, rfl, h₀.3, h₀.4⟩, rfl⟩
        | bootPubkey => exact ⟨⟨h₀.1, rfl, h₀.3, h₀.4⟩, rfl⟩
        | bootErase =>
            have hperform := h₀.perform (eraseApplicationOps_belowVersionPage cfg)
            exact ⟨⟨rfl, h₀.2, h₀.3, hperform.flash⟩,
              (eraseApplicationOps_belowVersionPage cfg).currentFirmwareVersion t.flash⟩
        | bootDisable =>
            show Twin cfg (bootDisable cfg c.req s₀).2 (bootDisable cfg c.req t₀).2 ∧
              KeepsVersion cfg t (bootDisable cfg c.req t₀).2
            unfold bootDisable
            split
            · have hclear : Twin cfg (clearInLastPage cfg (pageSize - 4) s₀)
                  (clearInLastPage cfg (pageSize - 4) t₀) := h₀.clearInLastPage (by decide)
              exact ⟨⟨hclear.1, hclear.2, hclear.3, hclear.4⟩,
                (clearInLastPageOps_belowVersionPage (by decide) t.flash).currentFirmwareVersion
                  t.flash⟩
            · exact ⟨⟨h₀.1, h₀.2, h₀.3, h₀.4⟩, rfl⟩
        | bootWrite =>
            have hprep := h₀.preparedForWrite
            have hkeep : KeepsVersion cfg t (preparedForWrite cfg t₀) :=
              preparedForWrite_keepsVersion t₀
            have hcases := bootWrite_cases cfg c.req s₀
            have hcases' := bootWrite_cases cfg c.req t₀
            rw [hprep.lastWrittenAppAddress] at hcases
            show Twin cfg (bootWrite cfg c.req s₀).2 (bootWrite cfg c.req t₀).2 ∧
              KeepsVersion cfg t (bootWrite cfg c.req t₀).2
            obtain ⟨hr, e⟩ | ⟨hr, hd, e⟩ | ⟨hr, hd, e⟩ := hcases
            · obtain ⟨-, e'⟩ | ⟨hr', -⟩ | ⟨hr', -⟩ := hcases'
              · rw [e, e']
                exact ⟨h₀, rfl⟩
              · exact absurd hr' hr
              · exact absurd hr' hr
            · obtain ⟨hr', -⟩ | ⟨-, -, e'⟩ | ⟨-, hd', -⟩ := hcases'
              · exact absurd hr hr'
              · rw [e, e']
                exact ⟨⟨hprep.1, rfl, hprep.3, hprep.4⟩, hkeep⟩
              · omega
            · obtain ⟨hr', -⟩ | ⟨-, hd', -⟩ | ⟨-, -, e'⟩ := hcases'
              · exact absurd hr hr'
              · omega
              · have hbelow := (flashWrite_withinApplication hr).belowVersionPage
                have hmid : Twin cfg
                    { preparedForWrite cfg s₀ with
                      lastWrittenAppAddress := 0x8000000 + c.req.addr + c.req.len }
                    { preparedForWrite cfg t₀ with
                      lastWrittenAppAddress := 0x8000000 + c.req.addr + c.req.len } :=
                  ⟨rfl, hprep.2, hprep.3, hprep.4⟩
                rw [e, e']
                exact ⟨hmid.perform hbelow, (hbelow.currentFirmwareVersion _).trans hkeep⟩
        | bootDone =>
            have hflag' : (bootDone cfg c.req s₀).2.rebootFlag = false := hflag
            have hlen' : c.req.len ≠ 64 := by
              obtain ⟨hne, -⟩ | ⟨-, -, e⟩ | ⟨-, -, -, e⟩ := bootDone_cases cfg c.req s₀
              · exact hne
              · rw [e] at hflag'
                exact absurd hflag' (by simp)
              · rw [e] at hflag'
                exact absurd hflag' (by simp)
            show Twin cfg (bootDone cfg c.req s₀).2 (bootDone cfg c.req t₀).2 ∧
              KeepsVersion cfg t (bootDone cfg c.req t₀).2
            simp only [bootDone, ne_eq, hlen', not_false_eq_true, if_true]
            exact ⟨h₀, rfl⟩

/-! ### Whole runs -/

theorem authorizeApplication_lastWrittenAppAddress (s : Machine) :
    (authorizeApplication cfg s).lastWrittenAppAddress = s.lastWrittenAppAddress := by
  unfold authorizeApplication
  split <;> rfl

/-- A command never clears `REBOOT_FLAG`, and keeps `last_written_app_address`
inside the application area. -/
theorem bridgeStep_statics (cfg : Config) (s : Machine) (c : Command)
    (h : s.lastWrittenAppAddress ≤ cfg.board.applicationEndAddr) :
    (bridgeStep cfg s c).lastWrittenAppAddress ≤ cfg.board.applicationEndAddr ∧
      (s.rebootFlag = true → (bridgeStep cfg s c).rebootFlag = true) := by
  let s₀ : Machine := { s with flashOps := [], response := Ctap.ctapResponseInit }
  have h₀ : s₀.lastWrittenAppAddress ≤ cfg.board.applicationEndAddr := h
  by_cases hlen : (c.req.len : ℤ) > c.klen - 10
  · have hs : bridgeStep cfg s c = s₀ := by simp [bridgeStep, bootloaderBridge, hlen, s₀]
    rw [hs]
    exact ⟨h, id⟩
  · have hs : bridgeStep cfg s c = (bridgeSwitch cfg c.req s₀).2 := by
      simp [bridgeStep, bootloaderBridge, hlen, s₀]
    rw [hs]
    unfold bridgeSwitch
    cases hop : BootOperation.ofByte c.req.op with
    | none => exact ⟨h, id⟩
    | some op =>
        cases op with
        | bootCheck => exact ⟨h, id⟩
        | bootReboot => exact ⟨h, fun _ => rfl⟩
        | bootVersion => exact ⟨h, id⟩
        | bootPubkey => exact ⟨h, id⟩
        | bootErase => exact ⟨Nat.zero_le _, id⟩
        | bootDisable =>
            show (bootDisable cfg c.req s₀).2.lastWrittenAppAddress ≤ _ ∧
              (_ → (bootDisable cfg c.req s₀).2.rebootFlag = true)
            unfold bootDisable
            split
            · exact ⟨h, id⟩
            · exact ⟨h, id⟩
        | bootWrite =>
            have hprep : (preparedForWrite cfg s₀).lastWrittenAppAddress ≤
                cfg.board.applicationEndAddr ∧
                (preparedForWrite cfg s₀).rebootFlag = s.rebootFlag := by
              obtain e | ⟨-, e⟩ := preparedForWrite_cases cfg s₀
              · rw [e]
                exact ⟨Nat.zero_le _, rfl⟩
              · rw [e]
                exact ⟨h, rfl⟩
            show (bootWrite cfg c.req s₀).2.lastWrittenAppAddress ≤ _ ∧
              (_ → (bootWrite cfg c.req s₀).2.rebootFlag = true)
            obtain ⟨-, e⟩ | ⟨-, -, e⟩ | ⟨hr, -, e⟩ := bootWrite_cases cfg c.req s₀
            · rw [e]
              exact ⟨h, id⟩
            · rw [e]
              exact ⟨hprep.1, fun hs => hprep.2.trans hs⟩
            · rw [e]
              exact ⟨hr.2.2, fun hs => hprep.2.trans hs⟩
        | bootDone =>
            show (bootDone cfg c.req s₀).2.lastWrittenAppAddress ≤ _ ∧
              (_ → (bootDone cfg c.req s₀).2.rebootFlag = true)
            obtain ⟨-, e⟩ | ⟨-, -, e⟩ | ⟨-, -, -, e⟩ := bootDone_cases cfg c.req s₀
            · rw [e]
              exact ⟨h, id⟩
            · rw [e]
              exact ⟨h, fun _ => rfl⟩
            · rw [e]
              refine ⟨?_, fun _ => rfl⟩
              show (authorizeApplication cfg _).lastWrittenAppAddress ≤ _
              rw [authorizeApplication_lastWrittenAppAddress]
              exact h

theorem run_rebootFlag {s : Machine} (cmds : List Command)
    (h : s.lastWrittenAppAddress ≤ cfg.board.applicationEndAddr) (hflag : s.rebootFlag = true) :
    (Transition.run (bridgeStep cfg) s cmds).rebootFlag = true := by
  let Inv : Machine → Prop := fun s =>
    s.lastWrittenAppAddress ≤ cfg.board.applicationEndAddr ∧ s.rebootFlag = true
  have hstep : ∀ s c, Inv s → Inv (bridgeStep cfg s c) := by
    intro s c hs
    obtain ⟨h₁, h₂⟩ := bridgeStep_statics cfg s c hs.1
    exact ⟨h₁, h₂ hs.2⟩
  exact (Transition.invariant_run_always hstep cmds ⟨h, hflag⟩).2

theorem run_lastWrittenAppAddress (flash : Memory) (cmds : List Command) :
    (Transition.run (bridgeStep cfg) (powerUp flash) cmds).lastWrittenAppAddress ≤
      cfg.board.applicationEndAddr := by
  let Inv : Machine → Prop := fun s => s.lastWrittenAppAddress ≤ cfg.board.applicationEndAddr
  have hstep : ∀ s c, Inv s → Inv (bridgeStep cfg s c) :=
    fun s c hs => (bridgeStep_statics cfg s c hs).1
  exact Transition.invariant_run_always hstep cmds (Nat.zero_le _)

/-- As long as no reboot is pending, twins stay twins and keep their stored
versions. -/
theorem run_twin {s t : Machine} (h : Twin cfg s t)
    (haddr : s.lastWrittenAppAddress ≤ cfg.board.applicationEndAddr) (cmds : List Command)
    (hflag : (Transition.run (bridgeStep cfg) s cmds).rebootFlag = false) :
    Twin cfg (Transition.run (bridgeStep cfg) s cmds) (Transition.run (bridgeStep cfg) t cmds) ∧
      KeepsVersion cfg t (Transition.run (bridgeStep cfg) t cmds) := by
  induction cmds generalizing s t with
  | nil => exact ⟨h, rfl⟩
  | cons c cmds ih =>
      have haddr' := (bridgeStep_statics cfg s c haddr).1
      have hflag' : (bridgeStep cfg s c).rebootFlag = false := by
        cases hc : (bridgeStep cfg s c).rebootFlag with
        | false => rfl
        | true =>
            rw [Transition.run_cons, run_rebootFlag cmds haddr' hc] at hflag
            exact absurd hflag (by simp)
      obtain ⟨htwin, hkeep⟩ := bridgeStep_twin h c hflag'
      obtain ⟨htwin', hkeep'⟩ := ih htwin haddr' hflag
      exact ⟨htwin', hkeep'.trans hkeep⟩

/-- A machine powered up with another stored version is a twin. -/
theorem powerUp_twin (flash : Memory) (c : Version) :
    Twin cfg (powerUp flash) (powerUp (withStoredVersion cfg flash c)) where
  lastWrittenAppAddress := rfl
  hasErased := rfl
  rebootFlag := rfl
  flash a _ ha := by
    have hver := cfg.board.bootVersionAddr_eq
    show flash a = withStoredVersion cfg flash c a
    rw [withStoredVersion, if_neg (by omega)]

theorem Twin.newVersion {s t : Machine} (h : Twin cfg s t)
    (haddr : s.lastWrittenAppAddress ≤ cfg.board.applicationEndAddr) : newVersion s = newVersion t := by
  unfold Bootloader.newVersion Version.ofMemory
  rw [← h.lastWrittenAppAddress]
  rw [h.flash _ (Nat.zero_le _) (by omega), h.flash _ (Nat.zero_le _) (by omega),
    h.flash _ (Nat.zero_le _) (by omega), h.flash _ (Nat.zero_le _) (by omega)]

theorem Twin.applicationBytes {s t : Machine} (h : Twin cfg s t) :
    applicationBytes cfg s.flash = applicationBytes cfg t.flash := by
  have hsame : SameApplication cfg s.flash t.flash :=
    fun a _ ha => h.flash a (Nat.zero_le a) ha
  exact hsame.applicationBytes

/-- When `BootDone` authorises: the request is well formed, the signature is
valid and the version is allowed. -/
theorem authorises_iff (s : Machine) (c : Command) :
    Authorises cfg s c ↔
      BootOperation.ofByte c.req.op = some .bootDone ∧ (c.req.len : ℤ) ≤ c.klen - 10 ∧
        c.req.len = 64 ∧ signatureValid cfg s.flash (c.req.payloadBytes 64) = true ∧
        versionAllowed cfg s = true := by
  let s₀ : Machine := { s with flashOps := [], response := Ctap.ctapResponseInit }
  constructor
  · rintro ⟨hop, hret⟩
    by_cases hlen : (c.req.len : ℤ) > c.klen - 10
    · simp [bootloaderBridge, hlen, ctap1ErrInvalidLength] at hret
    · have hbridge : bootloaderBridge cfg s c = bootDone cfg c.req s₀ := by
        simp [bootloaderBridge, hlen, bridgeSwitch, hop, s₀]
      rw [hbridge] at hret
      obtain ⟨-, e⟩ | ⟨-, -, e⟩ | ⟨h64, hsig, hver, -⟩ := bootDone_cases cfg c.req s₀
      · rw [e] at hret
        exact absurd (Outcome.returned.inj hret) (by decide)
      · rw [e] at hret
        exact absurd (Outcome.returned.inj hret) (by decide)
      · exact ⟨hop, by omega, h64, hsig, hver⟩
  · rintro ⟨hop, hlen, h64, hsig, hver⟩
    have hbridge : bootloaderBridge cfg s c = bootDone cfg c.req s₀ := by
      simp [bootloaderBridge, not_lt.mpr hlen, bridgeSwitch, hop, s₀]
    refine ⟨hop, ?_⟩
    rw [hbridge]
    obtain ⟨hne, -⟩ | ⟨-, hfalse, -⟩ | ⟨-, -, -, e⟩ := bootDone_cases cfg c.req s₀
    · exact absurd h64 hne
    · rw [show signatureValid cfg s₀.flash (c.req.payloadBytes 64) = true from hsig,
        show versionAllowed cfg s₀ = true from hver] at hfalse
      exact absurd hfalse (by decide)
    · rw [e]

/-- A `BootDone` with the given signature. -/
def doneCommand (signature : List UInt8) : Command :=
  commandOf ([0x41, 0, 0, 0, 0, 0, 0, 0, 0, 64] ++ signature)

theorem doneCommand_op (signature : List UInt8) :
    BootOperation.ofByte (doneCommand signature).req.op = some .bootDone := rfl

theorem doneCommand_len (signature : List UInt8) : (doneCommand signature).req.len = 64 := by
  show (0 : UInt8).toNat * 2 ^ 8 + (64 : UInt8).toNat = 64
  decide

theorem doneCommand_klen {signature : List UInt8} (h : signature.length = 64) :
    (doneCommand signature).klen = 74 := by
  show ((0x41 :: 0 :: 0 :: 0 :: 0 :: 0 :: 0 :: 0 :: 0 :: 64 :: signature).length : ℤ) = 74
  simp only [List.length_cons, h]
  decide

theorem doneCommand_payload {signature : List UInt8} (h : signature.length = 64) :
    (doneCommand signature).req.payloadBytes 64 = signature := by
  apply List.ext_getElem (by rw [BootloaderReq.length_payloadBytes, h])
  intro i h₁ h₂
  simp only [BootloaderReq.payloadBytes, List.getElem_map, List.getElem_range]
  show ([0x41, 0, 0, 0, 0, 0, 0, 0, 0, 64] ++ signature).getD (10 + i) 0 = signature[i]
  rw [List.getD_append_right _ _ _ _ (by simp), ← List.getD_eq_getElem _ 0 h₂]
  simp

/-- Where the last write ended at the end of the image, the word that is
compared is the version word of the image. -/
theorem newVersion_of_exact_upload {s : Machine} {image : List UInt8}
    (himage : HoldsImage cfg s.flash image) (h₄ : 4 ≤ image.length)
    (hlen : image.length ≤ cfg.board.applicationSize)
    (hend : s.lastWrittenAppAddress = applicationStartAddr + image.length) :
    newVersion s = imageVersion image := by
  have hbyte : ∀ i, image.length - 4 + i < image.length →
      s.flash (s.lastWrittenAppAddress - 8 + 4 + i) = image.getD (image.length - 4 + i) 0 := by
    intro i hi
    have hstart : 8 ≤ applicationStartAddr := by decide
    rw [hend, show applicationStartAddr + image.length - 8 + 4 + i =
      applicationStartAddr + (image.length - 4 + i) by omega,
      (holdsImage_iff hlen).mp himage _ (by omega), List.getD_eq_getElem _ _ hi,
      List.getD_eq_getElem _ _ hi]
  have h₀ : s.flash (s.lastWrittenAppAddress - 8 + 4) = image.getD (image.length - 4) 0 :=
    hbyte 0 (by omega)
  simp only [newVersion, imageVersion, Version.ofMemory, h₀, hbyte 1 (by omega),
    hbyte 2 (by omega), hbyte 3 (by omega)]

section SignedImage

variable {image : List UInt8} {flash : Memory} {cmds : List Command}

/-- The commands leave the same application and the same compared word,
whatever version is stored. -/
theorem run_withStoredVersion (c : Version)
    (hflag : (Transition.run (bridgeStep cfg) (powerUp flash) cmds).rebootFlag = false) :
    let s := Transition.run (bridgeStep cfg) (powerUp flash) cmds
    let t := Transition.run (bridgeStep cfg) (powerUp (withStoredVersion cfg flash c)) cmds
    t.lastWrittenAppAddress = s.lastWrittenAppAddress ∧ newVersion t = newVersion s ∧
      applicationBytes cfg t.flash = applicationBytes cfg s.flash ∧
      currentFirmwareVersion cfg t.flash = c := by
  intro s t
  obtain ⟨htwin, hkeep⟩ := run_twin (powerUp_twin flash c) (Nat.zero_le _) cmds hflag
  refine ⟨htwin.lastWrittenAppAddress.symm,
    (htwin.newVersion (run_lastWrittenAppAddress flash cmds)).symm,
    htwin.applicationBytes.symm, hkeep.trans ?_⟩
  exact currentFirmwareVersion_withStoredVersion flash c

/-- The case the update protocol intends: the last write ends where the image
ends, and the check is sound. -/
theorem bootDone_antiRollback_of_exact_upload (h₄ : 4 ≤ image.length)
    (hlen : image.length ≤ cfg.board.applicationSize)
    (hflag : (Transition.run (bridgeStep cfg) (powerUp flash) cmds).rebootFlag = false)
    (himage : HoldsImage cfg (Transition.run (bridgeStep cfg) (powerUp flash) cmds).flash image)
    (hend : (Transition.run (bridgeStep cfg) (powerUp flash) cmds).lastWrittenAppAddress =
      applicationStartAddr + image.length)
    {c : Version} (hc : c ≠ Version.erased) {done : Command}
    (hauth : Authorises cfg
      (Transition.run (bridgeStep cfg) (powerUp (withStoredVersion cfg flash c)) cmds) done) :
    isNewer (imageVersion image) c = true := by
  obtain ⟨-, hnew, -, hstored⟩ := run_withStoredVersion c hflag
  rw [authorises_iff] at hauth
  obtain ⟨-, -, -, -, hallowed⟩ := hauth
  rw [versionAllowed, hnew, hstored, newVersion_of_exact_upload himage h₄ hlen hend] at hallowed
  simp only [Bool.and_eq_true, Bool.or_eq_true, beq_iff_eq] at hallowed
  exact hallowed.2.resolve_right hc

end SignedImage

end Lockstep

/-! ### An older image over a newer one -/

/-- Eight bytes of code; the version word at the end says 1.0.0. -/
def demoImage : List UInt8 := [0x11, 0x22, 0x33, 0x44, 1, 0, 0, 0]

/-- `BootWrite` of the image to the start of the application area. -/
def demoUpload : Command :=
  commandOf ([0x40, 0x00, 0x50, 0x00, 0, 0, 0, 0, 0, 8] ++ demoImage)

/-- `BootWrite` of no bytes, sixteen bytes into the application area. -/
def demoEmptyWrite : Command := commandOf [0x40, 0x10, 0x50, 0x00, 0, 0, 0, 0, 0, 0]

/-- Erased flash in which version 2.0.0 is installed. -/
def demoInstalled : Memory := withStoredVersion demoConfig (fun _ => 0xFF) ⟨2, 0, 0, 0⟩

theorem demoRun_flash :
    (Transition.run (bridgeStep demoConfig) (powerUp demoInstalled)
        [demoUpload, demoEmptyWrite]).flash =
      applyAll demoConfig.chip (applyAll demoConfig.chip demoInstalled
        (eraseApplicationOps demoConfig)) (flashWrite applicationStartAddr demoImage) := by
  have h₁ : (bridgeStep demoConfig (powerUp demoInstalled) demoUpload).flashOps =
      eraseApplicationOps demoConfig ++ flashWrite applicationStartAddr demoImage := by
    decide +kernel
  have h₂ : (bridgeStep demoConfig (bridgeStep demoConfig (powerUp demoInstalled) demoUpload)
      demoEmptyWrite).flashOps = [] := by
    decide +kernel
  rw [Transition.run_cons, Transition.run_cons, Transition.run_nil, bridgeStep_flash, h₂,
    applyAll_nil, bridgeStep_flash, h₁, applyAll_append, powerUp_flash]

theorem demoRun_holdsImage :
    HoldsImage demoConfig (Transition.run (bridgeStep demoConfig) (powerUp demoInstalled)
      [demoUpload, demoEmptyWrite]).flash demoImage := by
  have herased : ∀ a, applicationStartAddr ≤ a →
      a < demoConfig.board.applicationEndAddr + 8 →
      applyAll demoConfig.chip demoInstalled (eraseApplicationOps demoConfig) a = 0xFF := by
    intro a h₁ h₂
    rw [applyAll_eraseApplicationOps, if_pos ⟨h₁, h₂⟩]
  have hsize := demoConfig.board.applicationSize_eq
  have hfits : applicationStartAddr + demoImage.length ≤ demoConfig.board.applicationEndAddr := by
    decide
  rw [holdsImage_iff (by decide), demoRun_flash]
  intro i hi
  have hwrite := applyAll_flashWrite_take demoConfig.chip (show applicationStartAddr % 8 = 0 by decide)
    (fun a h₁ h₂ => herased a h₁ (by omega)) (show demoImage.length % 8 = 0 by decide) 1
    (applicationStartAddr + i)
  rw [List.take_of_length_le (by decide)] at hwrite
  rw [hwrite]
  by_cases h : i < 8
  · rw [if_pos (by simp [demoImage]; omega), Nat.add_sub_cancel_left]
  · rw [if_neg (by simp [demoImage]; omega), herased _ (by omega) (by omega),
      List.getD_eq_default _ _ (by simp [demoImage]; omega)]

/-! ### The check, exactly -/

/-- Let commands leave the application area with a signed image in it, none
having asked for a reboot yet (`main` restarts the device before it hands over
another command once `REBOOT_FLAG` is set). Then no `BootDone` authorises that image over any
stored version newer than the image's own, if and only if no write has
happened since the last erase or the word that ends where the last write
ended is not a newer version than the image's own. -/
theorem bootDone_antiRollback_iff (cfg : Config) (image : List UInt8) (signature : List UInt8)
    (hsig : signature.length = 64) (hsigned : cfg.uECCVerify cfg.pubkeyBoot
      (cfg.sha256 (paddedImage cfg image)) signature = true)
    (flash : Memory) (cmds : List Command)
    (hflag : (Transition.run (bridgeStep cfg) (powerUp flash) cmds).rebootFlag = false)
    (himage : HoldsImage cfg (Transition.run (bridgeStep cfg) (powerUp flash) cmds).flash image) :
    (∀ c : Version, c ≠ Version.erased → ∀ done : Command,
        Authorises cfg
          (Transition.run (bridgeStep cfg) (powerUp (withStoredVersion cfg flash c)) cmds) done →
        isNewer (imageVersion image) c = true) ↔
      ((Transition.run (bridgeStep cfg) (powerUp flash) cmds).lastWrittenAppAddress = 0 ∨
        isNewer (imageVersion image)
          (newVersion (Transition.run (bridgeStep cfg) (powerUp flash) cmds)) = true) := by
  constructor
  · intro h
    by_cases hzero :
        (Transition.run (bridgeStep cfg) (powerUp flash) cmds).lastWrittenAppAddress = 0
    · exact Or.inl hzero
    · -- store the compared word itself, so that the check passes
      right
      let w := newVersion (Transition.run (bridgeStep cfg) (powerUp flash) cmds)
      obtain ⟨haddr, hnew, hbytes, hstored⟩ := run_withStoredVersion w.unreserved hflag
      have hauth : Authorises cfg (Transition.run (bridgeStep cfg)
          (powerUp (withStoredVersion cfg flash w.unreserved)) cmds) (doneCommand signature) := by
        rw [authorises_iff]
        refine ⟨doneCommand_op signature, ?_, doneCommand_len signature, ?_, ?_⟩
        · rw [doneCommand_len, doneCommand_klen hsig]
          decide
        · rw [doneCommand_payload hsig, signatureValid, hbytes, himage]
          exact hsigned
        · rw [versionAllowed, haddr, hnew, hstored, isNewer_unreserved_right, isNewer_refl]
          simpa using hzero
      have hres := h w.unreserved w.unreserved_ne_erased _ hauth
      rwa [isNewer_unreserved_right] at hres
  · rintro h c hc done hauth
    obtain ⟨haddr, hnew, -, hstored⟩ := run_withStoredVersion c hflag
    rw [authorises_iff] at hauth
    obtain ⟨-, -, -, -, hallowed⟩ := hauth
    rw [versionAllowed, haddr, hnew, hstored] at hallowed
    simp only [Bool.and_eq_true, bne_iff_ne, ne_eq, Bool.or_eq_true, beq_iff_eq] at hallowed
    obtain ⟨hne, hnewer⟩ := hallowed
    exact isNewer_trans (h.resolve_left hne) (hnewer.resolve_right hc)

theorem bootDone_antiRollback_iff_demo :
    (∀ c : Version, c ≠ Version.erased → ∀ done : Command,
        Authorises demoConfig (Transition.run (bridgeStep demoConfig)
          (powerUp (withStoredVersion demoConfig demoInstalled c))
          [demoUpload, demoEmptyWrite]) done →
        isNewer (imageVersion demoImage) c = true) ↔
      ((Transition.run (bridgeStep demoConfig) (powerUp demoInstalled)
          [demoUpload, demoEmptyWrite]).lastWrittenAppAddress = 0 ∨
        isNewer (imageVersion demoImage) (newVersion (Transition.run (bridgeStep demoConfig)
          (powerUp demoInstalled) [demoUpload, demoEmptyWrite])) = true) :=
  bootDone_antiRollback_iff demoConfig demoImage (List.replicate 64 0x5A) (by decide) (by decide)
    demoInstalled [demoUpload, demoEmptyWrite] (by decide +kernel) demoRun_holdsImage

/-- The image is signed, version 2.0.0 is installed, and the empty write makes
`BootDone` compare erased flash instead of the image's version 1.0.0. -/
theorem bootDone_antiRollback_counterexample :
    let s := Transition.run (bridgeStep demoConfig) (powerUp demoInstalled)
      [demoUpload, demoEmptyWrite]
    HoldsImage demoConfig s.flash demoImage ∧
      currentFirmwareVersion demoConfig s.flash = ⟨2, 0, 0, 0⟩ ∧
      Authorises demoConfig s (doneCommand (List.replicate 64 0x5A)) ∧
      isNewer (imageVersion demoImage) ⟨2, 0, 0, 0⟩ = false := by
  refine ⟨demoRun_holdsImage, ?_, ?_, ?_⟩
  · decide +kernel
  · decide +kernel
  · decide

end NitrokeyFido2.Bootloader
