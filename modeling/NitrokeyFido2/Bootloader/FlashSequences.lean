import NitrokeyFido2.Bootloader.Bridge

/-!
What the flash holds at every point of the bootloader's flash sequences.

Three sequences matter: erasing the application page by page, rewriting the
last application page, and programming a stretch of words. For each of them
the lemmas below describe the memory after any number of its operations, so
that the same facts serve a command that ran to its end and one that a power
cut interrupted.
-/

namespace NitrokeyFido2.Bootloader

open NorFlash

/-! ### `flash_write` -/

@[simp] theorem length_flashWriteBuf (data : List UInt8) (j : ℕ) :
    (flashWriteBuf data j).length = 8 := by
  simp only [flashWriteBuf, List.length_append, List.length_replicate, List.length_take,
    List.length_drop]
  omega

theorem getD_flashWriteBuf (data : List UInt8) (j : ℕ) {i : ℕ} (hi : i < 8) :
    (flashWriteBuf data j).getD i 0xFF = data.getD (8 * j + i) 0xFF := by
  have hchunk : ((data.drop (8 * j)).take 8).getD i 0xFF = data.getD (8 * j + i) 0xFF := by
    simp [List.getD, hi]
  unfold flashWriteBuf
  by_cases h : i < ((data.drop (8 * j)).take 8).length
  · rw [List.getD_append _ _ _ _ h, hchunk]
  · rw [← hchunk, List.getD_append_right _ _ _ _ (by omega), List.getD_replicate _ (by omega),
      List.getD_eq_default _ _ (by omega)]

theorem flashWrite_touches {addr : ℕ} {data : List UInt8} {op : Op}
    (hop : op ∈ flashWrite addr data) {a : ℕ} (ha : op.Touches a) :
    addr - addr % 8 ≤ a ∧ a < addr - addr % 8 + 8 * ((data.length + 7) / 8) :=
  programs_touches (fun j _ => length_flashWriteBuf data j) hop ha

/-- The padded last word never reaches past a double-word boundary that the
data itself stays below. -/
theorem flashWrite_touches_lt {addr limit : ℕ} {data : List UInt8} (hlimit : limit % 8 = 0)
    (hdata : addr + data.length ≤ limit) {op : Op} (hop : op ∈ flashWrite addr data) {a : ℕ}
    (ha : op.Touches a) : a < limit := by
  obtain ⟨h₁, h₂⟩ := flashWrite_touches hop ha
  omega

/-- After `k` words over an erased range. -/
theorem applyAll_flashWrite_take (chip : Chip) {base : ℕ} (hbase : base % 8 = 0)
    {data : List UInt8} {m : Memory} (herased : ∀ a, base ≤ a → a < base + data.length →
      m a = 0xFF) (hlen : data.length % 8 = 0) (k a : ℕ) :
    applyAll chip m ((flashWrite base data).take k) a =
      if base ≤ a ∧ a < base + 8 * min k (data.length / 8) then data.getD (a - base) 0xFF
      else m a := by
  have hwords : (data.length + 7) / 8 = data.length / 8 := by omega
  rw [flashWrite, take_programs, show base - base % 8 = base by omega, hwords,
    applyAll_programs chip (by omega) _ (fun j _ => length_flashWriteBuf data j)]
  · by_cases hin : base ≤ a ∧ a < base + 8 * min k (data.length / 8)
    · rw [if_pos hin, if_pos hin, getD_flashWriteBuf _ _ (Nat.mod_lt _ (by omega)),
        Nat.div_add_mod]
    · rw [if_neg hin, if_neg hin]
  · intro a h₁ h₂
    exact herased a h₁ (by omega)

/-- All of the words, with no condition on the length of the data: the last one is
filled up. -/
theorem applyAll_flashWrite_all (chip : Chip) {base : ℕ} (hbase : base % 8 = 0) {data : List UInt8}
    {m : Memory} (herased : ∀ a, base ≤ a → a < base + 8 * ((data.length + 7) / 8) → m a = 0xFF)
    (a : ℕ) :
    applyAll chip m (flashWrite base data) a =
      if base ≤ a ∧ a < base + 8 * ((data.length + 7) / 8) then data.getD (a - base) 0xFF else m a := by
  rw [flashWrite, show base - base % 8 = base by omega,
    applyAll_programs chip (by omega) _ (fun j _ => length_flashWriteBuf data j) herased,
    getD_flashWriteBuf _ _ (Nat.mod_lt _ (by omega)), Nat.div_add_mod]

theorem applyAll_flashWrite (chip : Chip) {base : ℕ} (hbase : base % 8 = 0) {data : List UInt8}
    {m : Memory} (herased : ∀ a, base ≤ a → a < base + 8 * ((data.length + 7) / 8) → m a = 0xFF)
    {i : ℕ} (hi : i < data.length) :
    applyAll chip m (flashWrite base data) (base + i) = data.getD i 0xFF := by
  rw [applyAll_flashWrite_all chip hbase herased, if_pos (by omega), Nat.add_sub_cancel_left]

section Config

variable {cfg : Config}

/-! ### The authorisation word -/

theorem isAuthorizedToBoot_iff (flash : Memory) :
    isAuthorizedToBoot cfg flash = true ↔ ∀ i < 4, flash (cfg.board.authWordAddr + i) = 0 := by
  have hread : flash.read cfg.board.authWordAddr 4 =
      [flash cfg.board.authWordAddr, flash (cfg.board.authWordAddr + 1),
        flash (cfg.board.authWordAddr + 2), flash (cfg.board.authWordAddr + 3)] := rfl
  rw [isAuthorizedToBoot, hread]
  constructor
  · intro h i hi
    simp only [beq_iff_eq, List.cons.injEq, and_true] at h
    obtain ⟨h₀, h₁, h₂, h₃⟩ := h
    interval_cases i
    · exact h₀
    · exact h₁
    · exact h₂
    · exact h₃
  · intro h
    have h₀ := h 0 (by omega)
    have h₁ := h 1 (by omega)
    have h₂ := h 2 (by omega)
    have h₃ := h 3 (by omega)
    simp only [Nat.add_zero] at h₀
    simp [h₀, h₁, h₂, h₃]

theorem not_authorized_of_erased {flash : Memory}
    (h : flash cfg.board.authWordAddr = 0xFF) : isAuthorizedToBoot cfg flash = false := by
  rw [Bool.eq_false_iff]
  intro hauth
  have h₀ := (isAuthorizedToBoot_iff flash).mp hauth 0 (by omega)
  rw [Nat.add_zero, h] at h₀
  exact absurd h₀ (by decide)

/-- The two memories agree on the application area and the two words behind
it. -/
def SameApplication (cfg : Config) (m n : Memory) : Prop :=
  ∀ a, applicationStartAddr ≤ a → a < cfg.board.applicationEndAddr + 8 → m a = n a

theorem SameApplication.refl (m : Memory) : SameApplication cfg m m := fun _ _ _ => rfl

theorem SameApplication.isAuthorizedToBoot {m n : Memory} (h : SameApplication cfg m n) :
    isAuthorizedToBoot cfg m = isAuthorizedToBoot cfg n := by
  unfold Bootloader.isAuthorizedToBoot
  have hlt := cfg.board.applicationStartAddr_lt_lastAddr
  have hlast := cfg.board.lastAddr_eq
  rw [Memory.read_congr]
  intro a h₁ h₂
  unfold Board.authWordAddr at h₁ h₂
  exact h a (by omega) (by omega)

theorem SameApplication.applicationBytes {m n : Memory} (h : SameApplication cfg m n) :
    applicationBytes cfg m = applicationBytes cfg n := by
  unfold Bootloader.applicationBytes
  have hsize := cfg.board.applicationSize_eq
  rw [Memory.read_congr]
  intro a h₁ h₂
  exact h a h₁ (by omega)

/-! ### `erase_application` -/

theorem length_eraseApplicationOps :
    (eraseApplicationOps cfg).length = cfg.board.applicationPages := by
  simp [eraseApplicationOps]

theorem mem_eraseApplicationOps_take {k : ℕ} {op : Op} :
    op ∈ (eraseApplicationOps cfg).take k ↔
      ∃ i < min k cfg.board.applicationPages, op = flashErasePage (applicationStartPage + i) := by
  simp only [eraseApplicationOps, ← List.map_take, List.take_range, List.mem_map, List.mem_range]
  constructor
  · rintro ⟨i, hi, rfl⟩
    exact ⟨i, hi, rfl⟩
  · rintro ⟨i, hi, rfl⟩
    exact ⟨i, hi, rfl⟩

theorem flashErasePage_touches (i a : ℕ) :
    (flashErasePage (applicationStartPage + i)).Touches a ↔
      applicationStartAddr + i * pageSize ≤ a ∧
        a < applicationStartAddr + i * pageSize + pageSize := by
  have haddr : flashAddr (applicationStartPage + i) = applicationStartAddr + i * pageSize := by
    unfold applicationStartAddr flashAddr
    rw [Nat.add_mul, Nat.add_assoc]
  rw [flashErasePage, haddr]
  exact Iff.rfl

/-- After `k` page erases the first `k` application pages read `0xFF` and
nothing else has changed. -/
theorem applyAll_eraseApplicationOps_take (cfg : Config) (flash : Memory) (k a : ℕ) :
    applyAll cfg.chip flash ((eraseApplicationOps cfg).take k) a =
      if applicationStartAddr ≤ a ∧
          a < applicationStartAddr + min k cfg.board.applicationPages * pageSize then 0xFF
      else flash a := by
  rw [applyAll_erases]
  · congr 1
    rw [eq_iff_iff]
    constructor
    · rintro ⟨op, hop, htouch⟩
      obtain ⟨i, hi, rfl⟩ := mem_eraseApplicationOps_take.mp hop
      obtain ⟨h₁, h₂⟩ := (flashErasePage_touches i a).mp htouch
      have hle : (i + 1) * pageSize ≤ min k cfg.board.applicationPages * pageSize :=
        Nat.mul_le_mul_right _ hi
      rw [Nat.succ_mul] at hle
      constructor <;> omega
    · rintro ⟨h₁, h₂⟩
      refine ⟨flashErasePage (applicationStartPage + (a - applicationStartAddr) / pageSize),
        mem_eraseApplicationOps_take.mpr ⟨_, ?_, rfl⟩, ?_⟩
      · rw [Nat.div_lt_iff_lt_mul (by decide)]
        omega
      · have hdm := Nat.div_add_mod' (a - applicationStartAddr) pageSize
        have hmod := Nat.mod_lt (a - applicationStartAddr) (show 0 < pageSize by decide)
        rw [flashErasePage_touches]
        constructor <;> omega
  · intro op hop
    obtain ⟨i, -, rfl⟩ := mem_eraseApplicationOps_take.mp hop
    exact ⟨_, _, rfl⟩

theorem applyAll_eraseApplicationOps (flash : Memory) (a : ℕ) :
    applyAll cfg.chip flash (eraseApplicationOps cfg) a =
      if applicationStartAddr ≤ a ∧ a < cfg.board.applicationEndAddr + 8 then 0xFF
      else flash a := by
  have h := applyAll_eraseApplicationOps_take cfg flash cfg.board.applicationPages a
  rw [List.take_of_length_le (by rw [length_eraseApplicationOps]), Nat.min_self,
    ← cfg.board.applicationEndAddr_eq] at h
  exact h

/-- The page of the authorisation word is erased last. -/
theorem erase_take_authorized {flash : Memory} {k : ℕ}
    (h : isAuthorizedToBoot cfg
      (applyAll cfg.chip flash ((eraseApplicationOps cfg).take k)) = true) :
    isAuthorizedToBoot cfg flash = true ∧ k < cfg.board.applicationPages := by
  have hend := cfg.board.applicationEndAddr_eq
  have hlt := cfg.board.applicationStartAddr_lt_lastAddr
  have hlast := cfg.board.lastAddr_eq
  have hbyte : ∀ i < 4,
      applyAll cfg.chip flash ((eraseApplicationOps cfg).take k)
        (cfg.board.authWordAddr + i) = 0 := (isAuthorizedToBoot_iff _).mp h
  have hk : k < cfg.board.applicationPages := by
    by_contra hk
    have h₀ := hbyte 0 (by omega)
    rw [applyAll_eraseApplicationOps_take, if_pos] at h₀
    · exact absurd h₀ (by decide)
    · rw [Nat.min_eq_right (by omega), ← hend]
      unfold Board.authWordAddr
      constructor <;> omega
  refine ⟨(isAuthorizedToBoot_iff _).mpr fun i hi => ?_, hk⟩
  have hi' := hbyte i hi
  rw [applyAll_eraseApplicationOps_take, if_neg] at hi'
  · exact hi'
  · -- fewer than all pages: the last page is still to be erased
    rintro ⟨-, h₂⟩
    have hle : (min k cfg.board.applicationPages + 1) * pageSize ≤
        cfg.board.applicationPages * pageSize := Nat.mul_le_mul_right _ (by omega)
    rw [Nat.add_mul] at hle
    unfold Board.authWordAddr at h₂
    simp only [pageSize] at hle h₂ hend
    omega

/-! ### Rewriting the last page -/

/-- The operations of `clearInLastPage`. -/
def clearInLastPageOps (cfg : Config) (off : ℕ) (flash : Memory) : List Op :=
  flashErasePage cfg.board.lastPage ::
    flashWrite cfg.board.lastAddr (Bytes.fill (flash.read cfg.board.lastAddr pageSize) off 4 0)

/-- Strictly inside the sequence the authorisation word reads erased; at its
end the page holds its old contents with four bytes cleared. -/
theorem clearInLastPage_take (cfg : Config) {off : ℕ} (hoff : off + 4 ≤ pageSize) (flash : Memory) (k : ℕ)
    (hk : 0 < k) (a : ℕ) :
    applyAll cfg.chip flash ((clearInLastPageOps cfg off flash).take k) a =
      if cfg.board.lastAddr ≤ a ∧ a < cfg.board.lastAddr + 8 * min (k - 1) 256 then
        (if off ≤ a - cfg.board.lastAddr ∧ a - cfg.board.lastAddr < off + 4 then 0 else flash a)
      else if cfg.board.lastAddr ≤ a ∧ a < cfg.board.lastAddr + pageSize then 0xFF
      else flash a := by
  obtain ⟨k, rfl⟩ : ∃ l, k = l + 1 := ⟨k - 1, by omega⟩
  let page := Bytes.fill (flash.read cfg.board.lastAddr pageSize) off 4 0
  have hlen : page.length = 2048 := by
    rw [Bytes.length_fill (by simpa using hoff), Memory.length_read, pageSize]
  have herased : ∀ b, (flashErasePage cfg.board.lastPage).apply cfg.chip flash b =
      if cfg.board.lastAddr ≤ b ∧ b < cfg.board.lastAddr + pageSize then 0xFF else flash b := by
    intro b
    simp [flashErasePage, Op.apply, Board.flashAddr_lastPage]
  show applyAll cfg.chip flash
    (flashErasePage cfg.board.lastPage :: (flashWrite cfg.board.lastAddr page).take k) a = _
  rw [applyAll_cons, applyAll_flashWrite_take _ (Board.lastAddr_mod _) _ (by omega), hlen,
    Nat.add_sub_cancel]
  · by_cases hin : cfg.board.lastAddr ≤ a ∧ a < cfg.board.lastAddr + 8 * min k 256
    · rw [if_pos hin, if_pos hin, Bytes.getD_fill (by simpa using hoff),
        Memory.getD_read _ _ _ _ _ (by simp only [pageSize]; omega),
        show cfg.board.lastAddr + (a - cfg.board.lastAddr) = a by omega]
    · rw [if_neg hin, if_neg hin, herased]
  · intro b h₁ h₂
    rw [herased, if_pos ⟨h₁, by rw [hlen] at h₂; exact h₂⟩]

theorem length_clearInLastPageOps {off : ℕ} (hoff : off + 4 ≤ pageSize) (flash : Memory) :
    (clearInLastPageOps cfg off flash).length = 257 := by
  have hlen : (Bytes.fill (flash.read cfg.board.lastAddr pageSize) off 4 0).length = 2048 := by
    rw [Bytes.length_fill (by simpa using hoff), Memory.length_read, pageSize]
  simp [clearInLastPageOps, flashWrite, hlen]

/-- Clearing a word behind the application authorises nothing while it is
under way, and leaves the application as it was once it is through. -/
theorem clearInLastPage_take_authorized {off : ℕ} (hoff : off = 2040 ∨ off = 2044)
    {flash : Memory} {k : ℕ}
    (h : isAuthorizedToBoot cfg
      (applyAll cfg.chip flash ((clearInLastPageOps cfg off flash).take k)) = true) :
    applicationBytes cfg (applyAll cfg.chip flash ((clearInLastPageOps cfg off flash).take k)) =
        applicationBytes cfg flash ∧
      (isAuthorizedToBoot cfg flash = true ∨ off = 2040) := by
  have hlast := cfg.board.lastAddr_eq
  have hsize := cfg.board.applicationSize_eq
  have hoff' : off + 4 ≤ pageSize := by
    simp only [pageSize]
    omega
  by_cases hk : k = 0
  · subst hk
    exact ⟨rfl, Or.inl h⟩
  · have htake := clearInLastPage_take cfg hoff' flash k (by omega)
    have hbyte := (isAuthorizedToBoot_iff _).mp h
    unfold Board.authWordAddr at hbyte
    have hdone : 257 ≤ k := by
      -- the double word with the authorisation word is programmed last
      by_contra hlt
      have h₀ := hbyte 0 (by omega)
      rw [htake, if_neg (by omega), if_pos (by simp only [pageSize]; omega)] at h₀
      exact absurd h₀ (by decide)
    rw [show min (k - 1) 256 = 256 by omega] at htake
    constructor
    · unfold applicationBytes
      apply Memory.read_congr
      intro a h₁ h₂
      rw [htake]
      by_cases hin : cfg.board.lastAddr ≤ a ∧ a < cfg.board.lastAddr + 8 * 256
      · rw [if_pos hin, if_neg (by omega)]
      · rw [if_neg hin, if_neg (by simp only [pageSize]; omega)]
    · rcases hoff with hoff | hoff
      · exact Or.inr hoff
      · refine Or.inl ((isAuthorizedToBoot_iff _).mpr fun i hi => ?_)
        have hi' := hbyte i hi
        rw [htake, if_pos (by omega), if_neg (by omega)] at hi'
        exact hi'

end Config

end NitrokeyFido2.Bootloader
