import NitrokeyFido2.Bootloader.FlashSequences

/-!
What each bootloader command can do to the flash.

`bridge_cases` is the inversion lemma of `bootloaderBridge`: the flash
operations of a command are none, an erase of the application followed by
programs inside it, a rewrite of the last page, or, for a `BootDone` that
succeeds, the version page followed by the authorisation word. Arguments
about power cuts and about the version check start from it and never unfold
the switch.
-/

namespace NitrokeyFido2.Bootloader

open NorFlash

section Config

variable {cfg : Config}

@[simp] theorem powerUp_flash (flash : Memory) : (powerUp flash).flash = flash := rfl

@[simp] theorem Machine.perform_flash (s : Machine) (ops : List Op) :
    (s.perform cfg ops).flash = applyAll cfg.chip s.flash ops := rfl

@[simp] theorem Machine.perform_flashOps (s : Machine) (ops : List Op) :
    (s.perform cfg ops).flashOps = s.flashOps ++ ops := rfl

@[simp] theorem Machine.perform_lastWrittenAppAddress (s : Machine) (ops : List Op) :
    (s.perform cfg ops).lastWrittenAppAddress = s.lastWrittenAppAddress := rfl

@[simp] theorem Machine.perform_rebootFlag (s : Machine) (ops : List Op) :
    (s.perform cfg ops).rebootFlag = s.rebootFlag := rfl

@[simp] theorem Machine.writeback_flash (s : Machine) (buf : List UInt8) :
    (s.writeback buf).flash = s.flash := rfl

@[simp] theorem Machine.writeback_flashOps (s : Machine) (buf : List UInt8) :
    (s.writeback buf).flashOps = s.flashOps := rfl

@[simp] theorem Machine.writeback_lastWrittenAppAddress (s : Machine) (buf : List UInt8) :
    (s.writeback buf).lastWrittenAppAddress = s.lastWrittenAppAddress := rfl

@[simp] theorem Machine.writeback_rebootFlag (s : Machine) (buf : List UInt8) :
    (s.writeback buf).rebootFlag = s.rebootFlag := rfl

theorem clearInLastPage_eq (off : ℕ) (s : Machine) :
    clearInLastPage cfg off s = s.perform cfg (clearInLastPageOps cfg off s.flash) := rfl

/-- The range check of `BootWrite`. -/
def InRange (cfg : Config) (req : BootloaderReq) : Prop :=
  applicationStartAddr ≤ 0x8000000 + req.addr ∧
    0x8000000 + req.addr < cfg.board.applicationEndAddr ∧
    0x8000000 + req.addr + req.len ≤ cfg.board.applicationEndAddr

instance (req : BootloaderReq) : Decidable (InRange cfg req) :=
  inferInstanceAs (Decidable (_ ∧ _ ∧ _))

/-- The machine before the actual write of a `BootWrite` that passed the range
check. -/
def preparedForWrite (cfg : Config) (s : Machine) : Machine :=
  if !s.hasErased || isAuthorizedToBoot cfg s.flash then
    { eraseApplication cfg s with hasErased := true }
  else s

theorem preparedForWrite_cases (cfg : Config) (s : Machine) :
    (preparedForWrite cfg s = { eraseApplication cfg s with hasErased := true }) ∨
      (isAuthorizedToBoot cfg s.flash = false ∧ preparedForWrite cfg s = s) := by
  unfold preparedForWrite
  cases herased : s.hasErased with
  | false => exact Or.inl rfl
  | true =>
      cases hauth : isAuthorizedToBoot cfg s.flash with
      | false => exact Or.inr ⟨rfl, rfl⟩
      | true => exact Or.inl rfl

theorem eraseApplication_not_authorized (s : Machine) :
    isAuthorizedToBoot cfg (eraseApplication cfg s).flash = false := by
  apply not_authorized_of_erased
  have hlt := cfg.board.applicationStartAddr_lt_lastAddr
  have hlast := cfg.board.lastAddr_eq
  rw [eraseApplication, Machine.perform_flash, applyAll_eraseApplicationOps, if_pos]
  unfold Board.authWordAddr
  constructor <;> omega

/-- After the preparation the validation procedure never passes. -/
theorem preparedForWrite_not_authorized (cfg : Config) (s : Machine) :
    isAuthorizedToBoot cfg (preparedForWrite cfg s).flash = false := by
  obtain h | ⟨hauth, h⟩ := preparedForWrite_cases cfg s
  · rw [h]
    exact eraseApplication_not_authorized s
  · rw [h]
    exact hauth

/-- What `BootWrite` does: refuse the range, refuse a descending write, or
write. It never reaches its `exit(1)`. -/
theorem bootWrite_cases (cfg : Config) (req : BootloaderReq) (s : Machine) :
    (¬ InRange cfg req ∧ bootWrite cfg req s = (.returned ctap2ErrNotAllowed, s)) ∨
    (InRange cfg req ∧
      0x8000000 + req.addr + req.len < (preparedForWrite cfg s).lastWrittenAppAddress ∧
      bootWrite cfg req s =
        (.returned ctap2ErrNotAllowed, { preparedForWrite cfg s with hasErased := false })) ∨
    (InRange cfg req ∧
      (preparedForWrite cfg s).lastWrittenAppAddress ≤ 0x8000000 + req.addr + req.len ∧
      bootWrite cfg req s =
        (.returned 0, { preparedForWrite cfg s with
            lastWrittenAppAddress := 0x8000000 + req.addr + req.len }.perform cfg
          (flashWrite (0x8000000 + req.addr) (req.payloadBytes req.len)))) := by
  have hnot := preparedForWrite_not_authorized cfg s
  unfold preparedForWrite at hnot ⊢
  by_cases hrange : InRange cfg req
  · have hcond : ¬ (0x8000000 + req.addr < applicationStartAddr ∨
        0x8000000 + req.addr ≥ cfg.board.applicationEndAddr ∨
        0x8000000 + req.addr + req.len > cfg.board.applicationEndAddr) := by
      obtain ⟨h₁, h₂, h₃⟩ := hrange
      omega
    right
    by_cases hdesc : 0x8000000 + req.addr + req.len <
        (preparedForWrite cfg s).lastWrittenAppAddress
    · left
      refine ⟨hrange, hdesc, ?_⟩
      unfold preparedForWrite at hdesc
      simp only [bootWrite, hcond, hnot, if_false, if_pos hdesc, Bool.false_eq_true]
    · right
      refine ⟨hrange, Nat.le_of_not_lt hdesc, ?_⟩
      unfold preparedForWrite at hdesc
      simp only [bootWrite, hcond, hnot, if_false, if_neg hdesc, Bool.false_eq_true]
  · left
    refine ⟨hrange, ?_⟩
    have hcond : 0x8000000 + req.addr < applicationStartAddr ∨
        0x8000000 + req.addr ≥ cfg.board.applicationEndAddr ∨
        0x8000000 + req.addr + req.len > cfg.board.applicationEndAddr := by
      unfold InRange at hrange
      omega
    simp only [bootWrite, if_pos hcond]

/-- The flash operations of a version update. -/
def versionOps (cfg : Config) (s : Machine) : List Op :=
  flashErasePage cfg.board.bootVersionPage :: flashWrite cfg.board.bootVersionAddr
    (Bytes.overwrite (s.flash.read cfg.board.bootVersionAddr pageSize) 0 (newVersion s).bytes)

theorem versionOps_touches {s : Machine} {op : Op} (hop : op ∈ versionOps cfg s) {a : ℕ}
    (ha : op.Touches a) : cfg.board.applicationEndAddr + 8 ≤ a := by
  rcases List.mem_cons.mp hop with rfl | hop
  · have h₁ := ha.1
    rwa [Board.flashAddr_bootVersionPage] at h₁
  · have h₁ := (flashWrite_touches hop ha).1
    rw [cfg.board.bootVersionAddr_mod, cfg.board.bootVersionAddr_eq] at h₁
    omega

theorem versionOps_sameApplication (cfg : Config) (s : Machine) (k : ℕ) :
    SameApplication cfg (applyAll cfg.chip s.flash ((versionOps cfg s).take k)) s.flash := by
  intro a _ ha
  rw [applyAll_outside]
  intro op hop htouch
  have := versionOps_touches (List.mem_of_mem_take hop) htouch
  omega

/-- What `BootDone` does. -/
theorem bootDone_cases (cfg : Config) (req : BootloaderReq) (s : Machine) :
    (req.len ≠ 64 ∧ bootDone cfg req s = (.returned ctap1ErrInvalidLength, s)) ∨
    (req.len = 64 ∧
      (signatureValid cfg s.flash (req.payloadBytes 64) && versionAllowed cfg s) = false ∧
      bootDone cfg req s = (.returned ctap2ErrOperationDenied, { s with rebootFlag := true })) ∨
    (req.len = 64 ∧ signatureValid cfg s.flash (req.payloadBytes 64) = true ∧
      versionAllowed cfg s = true ∧
      bootDone cfg req s = (.returned 0,
        { authorizeApplication cfg (s.perform cfg (versionOps cfg s)) with
          rebootFlag := true })) := by
  by_cases hlen : req.len = 64
  · right
    cases hsig : signatureValid cfg s.flash (req.payloadBytes 64) with
    | false =>
        left
        refine ⟨hlen, rfl, ?_⟩
        simp [bootDone, hlen, hsig]
    | true =>
        cases hver : versionAllowed cfg s with
        | false =>
            left
            refine ⟨hlen, rfl, ?_⟩
            simp [bootDone, hlen, hsig, isFirmwareVersionNewerOrEqual, hver]
        | true =>
            right
            refine ⟨hlen, rfl, rfl, ?_⟩
            simp [bootDone, hlen, hsig, isFirmwareVersionNewerOrEqual, hver, versionOps]
  · left
    refine ⟨hlen, ?_⟩
    simp [bootDone, hlen]

/-- The command makes the bridge erase the application if it is authorised. -/
def EraseRequest (cfg : Config) (c : Command) : Prop :=
  (c.req.len : ℤ) ≤ c.klen - 10 ∧
    (BootOperation.ofByte c.req.op = some .bootErase ∨
      BootOperation.ofByte c.req.op = some .bootWrite ∧ InRange cfg c.req)

instance (c : Command) : Decidable (EraseRequest cfg c) :=
  inferInstanceAs (Decidable (_ ∧ (_ ∨ _ ∧ _)))

/-- The operations stay inside the application area. -/
def WithinApplication (cfg : Config) (ops : List Op) : Prop :=
  ∀ op ∈ ops, ∀ a, op.Touches a → applicationStartAddr ≤ a ∧ a < cfg.board.applicationEndAddr

theorem flashWrite_withinApplication {req : BootloaderReq} (h : InRange cfg req) :
    WithinApplication cfg
      (flashWrite (0x8000000 + req.addr) (req.payloadBytes req.len)) := by
  intro op hop a ha
  obtain ⟨h₁, _, h₃⟩ := h
  constructor
  · have hlow := (flashWrite_touches hop ha).1
    have hmod : applicationStartAddr % 8 = 0 := by decide
    omega
  · exact flashWrite_touches_lt (cfg.board.applicationEndAddr_mod) (by simpa using h₃) hop ha

/-- What the flash operations of a command can be. -/
theorem bridge_cases (cfg : Config) (s : Machine) (c : Command) :
    (bridgeStep cfg s c).flashOps = [] ∨
    (EraseRequest cfg c ∧ ∃ writes, WithinApplication cfg writes ∧
      ((bridgeStep cfg s c).flashOps = eraseApplicationOps cfg ++ writes ∨
        isAuthorizedToBoot cfg s.flash = false ∧ (bridgeStep cfg s c).flashOps = writes)) ∨
    (bridgeStep cfg s c).flashOps = clearInLastPageOps cfg (pageSize - 4) s.flash ∨
    (Authorises cfg s c ∧ ∃ rest,
      (bridgeStep cfg s c).flashOps = versionOps cfg s ++ rest ∧
        (rest = [] ∨ rest = clearInLastPageOps cfg (pageSize - 8)
          (applyAll cfg.chip s.flash (versionOps cfg s)))) := by
  have hwrites : WithinApplication cfg [] := fun _ h => absurd h (List.not_mem_nil)
  let s₀ : Machine := { s with flashOps := [], response := Ctap.ctapResponseInit }
  by_cases hlen : (c.req.len : ℤ) > c.klen - 10
  · left
    simp [bridgeStep, bootloaderBridge, hlen]
  · have hbridge : bootloaderBridge cfg s c = bridgeSwitch cfg c.req s₀ := by
      simp [bootloaderBridge, hlen, s₀]
    have hstep : bridgeStep cfg s c = (bridgeSwitch cfg c.req s₀).2 := by
      rw [bridgeStep, hbridge]
    cases hop : BootOperation.ofByte c.req.op with
    | none =>
        left
        simp [hstep, bridgeSwitch, hop, s₀]
    | some op =>
        cases op with
        | bootCheck =>
            left
            simp [hstep, bridgeSwitch, hop, s₀]
        | bootReboot =>
            left
            simp [hstep, bridgeSwitch, hop, s₀]
        | bootVersion =>
            left
            simp [hstep, bridgeSwitch, hop, s₀, bootVersion]
        | bootPubkey =>
            left
            simp [hstep, bridgeSwitch, hop, s₀, bootPubkey]
        | bootErase =>
            right; left
            refine ⟨⟨by omega, Or.inl hop⟩, [], hwrites, Or.inl ?_⟩
            simp [hstep, bridgeSwitch, hop, s₀, eraseApplication]
        | bootWrite =>
            have hswitch : bridgeSwitch cfg c.req s₀ = bootWrite cfg c.req s₀ := by
              simp [bridgeSwitch, hop]
            have hprep : (preparedForWrite cfg s₀).flashOps = eraseApplicationOps cfg ∨
                isAuthorizedToBoot cfg s.flash = false ∧
                  (preparedForWrite cfg s₀).flashOps = [] := by
              obtain h | ⟨hauth, h⟩ := preparedForWrite_cases cfg s₀
              · exact Or.inl (by rw [h]; rfl)
              · exact Or.inr ⟨hauth, by rw [h]⟩
            obtain ⟨-, h⟩ | ⟨hrange, -, h⟩ | ⟨hrange, -, h⟩ := bootWrite_cases cfg c.req s₀
            · left
              rw [hstep, hswitch, h]
            · right; left
              refine ⟨⟨by omega, Or.inr ⟨hop, hrange⟩⟩, [], hwrites, ?_⟩
              rw [hstep, hswitch, h]
              simpa using hprep
            · right; left
              refine ⟨⟨by omega, Or.inr ⟨hop, hrange⟩⟩, _, flashWrite_withinApplication hrange, ?_⟩
              rw [hstep, hswitch, h]
              obtain hprep | ⟨hauth, hprep⟩ := hprep
              · exact Or.inl (by rw [Machine.perform_flashOps, hprep])
              · exact Or.inr ⟨hauth, by rw [Machine.perform_flashOps, hprep, List.nil_append]⟩
        | bootDisable =>
            by_cases hmagic : c.req.payloadBytes 4 = [0xcd, 0xde, 0xba, 0xaa]
            · right; right; left
              simp [hstep, bridgeSwitch, hop, bootDisable, hmagic, s₀, disableBootloader,
                clearInLastPage_eq]
            · left
              simp [hstep, bridgeSwitch, hop, bootDisable, hmagic, s₀]
        | bootDone =>
            have hswitch : bridgeSwitch cfg c.req s₀ = bootDone cfg c.req s₀ := by
              simp [bridgeSwitch, hop]
            obtain ⟨-, h⟩ | ⟨-, -, h⟩ | ⟨-, -, -, h⟩ := bootDone_cases cfg c.req s₀
            · left
              rw [hstep, hswitch, h]
            · left
              rw [hstep, hswitch, h]
            · right; right; right
              refine ⟨⟨hop, by rw [hbridge, hswitch, h]⟩, ?_⟩
              rw [hstep, hswitch, h]
              unfold authorizeApplication
              by_cases hauth : isAuthorizedToBoot cfg
                  (s₀.perform cfg (versionOps cfg s₀)).flash = true
              · exact ⟨[], by rw [if_pos hauth, List.append_nil]; rfl, Or.inl rfl⟩
              · refine ⟨_, ?_, Or.inr rfl⟩
                rw [if_neg hauth]
                rfl

/-- A command changes the flash by the operations it records and by nothing
else. -/
theorem bridgeStep_flash (s : Machine) (c : Command) :
    (bridgeStep cfg s c).flash = applyAll cfg.chip s.flash (bridgeStep cfg s c).flashOps := by
  let s₀ : Machine := { s with flashOps := [], response := Ctap.ctapResponseInit }
  by_cases hlen : (c.req.len : ℤ) > c.klen - 10
  · simp [bridgeStep, bootloaderBridge, hlen]
  · have hstep : bridgeStep cfg s c = (bridgeSwitch cfg c.req s₀).2 := by
      simp [bridgeStep, bootloaderBridge, hlen, s₀]
    rw [hstep]
    unfold bridgeSwitch
    cases hop : BootOperation.ofByte c.req.op with
    | none => rfl
    | some op =>
        cases op with
        | bootCheck => rfl
        | bootReboot => rfl
        | bootVersion => rfl
        | bootPubkey => rfl
        | bootErase => rfl
        | bootWrite =>
            have hprep : (preparedForWrite cfg s₀).flash =
                applyAll cfg.chip s.flash (preparedForWrite cfg s₀).flashOps := by
              obtain h | ⟨-, h⟩ := preparedForWrite_cases cfg s₀
              · rw [h]
                rfl
              · rw [h]
                rfl
            obtain ⟨-, h⟩ | ⟨-, -, h⟩ | ⟨-, -, h⟩ := bootWrite_cases cfg c.req s₀
            · rw [h]
              rfl
            · rw [h]
              exact hprep
            · rw [h, Machine.perform_flash, Machine.perform_flashOps, applyAll_append]
              exact congrArg (applyAll cfg.chip · _) hprep
        | bootDisable =>
            by_cases hmagic : c.req.payloadBytes 4 = [0xcd, 0xde, 0xba, 0xaa]
            · simp [bootDisable, hmagic, s₀, disableBootloader, clearInLastPage_eq]
            · simp [bootDisable, hmagic, s₀]
        | bootDone =>
            obtain ⟨-, h⟩ | ⟨-, -, h⟩ | ⟨-, -, -, h⟩ := bootDone_cases cfg c.req s₀
            · rw [h]
              rfl
            · rw [h]
              rfl
            · rw [h]
              unfold authorizeApplication
              by_cases hauth : isAuthorizedToBoot cfg
                  (s₀.perform cfg (versionOps cfg s₀)).flash = true
              · rw [if_pos hauth]
                rfl
              · rw [if_neg hauth]
                simp [clearInLastPage_eq, s₀, applyAll_append]

end Config

end NitrokeyFido2.Bootloader
