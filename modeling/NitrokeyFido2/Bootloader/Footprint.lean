import NitrokeyFido2.Bootloader.AntiRollback

/-!
Where the bootloader writes.

Everything a command erases or programs lies in the application pages and in the
page of the firmware version, with one exception: a version update rewrites a
whole page from an address eight bytes into it.
-/

namespace NitrokeyFido2.Bootloader

open NorFlash Transition

/-- The end of `BOOT_VERSION_PAGE`. -/
def Board.bootVersionEnd (b : Board) : ℕ := flashAddr (b.bootVersionPage + 1)

theorem Board.bootVersionEnd_eq (b : Board) : b.bootVersionEnd = b.applicationEndAddr + 8 + 2048 := by
  cases b <;> rfl

/-- The operation keeps to the application pages and to `BOOT_VERSION_PAGE`. -/
def OwnFlash (cfg : Config) (op : Op) : Prop :=
  ∀ a, op.Touches a → applicationStartAddr ≤ a ∧ a < cfg.board.bootVersionEnd

/-- The operation programs a byte of the authorisation words. -/
def ProgramsAuthWords (cfg : Config) (op : Op) : Prop :=
  (∃ addr data, op = .program addr data) ∧
    ∃ a, op.Touches a ∧ cfg.board.applicationEndAddr ≤ a ∧ a < cfg.board.applicationEndAddr + 8

/-- What a command may do to the flash. -/
structure KeepsToOwnFlash (cfg : Config) (s : Machine) (c : Command) : Prop where
  own : ∀ op ∈ (bridgeStep cfg s c).flashOps, OwnFlash cfg op
  authWords : BootOperation.ofByte c.req.op = some .bootWrite →
    ∀ op ∈ (bridgeStep cfg s c).flashOps, ¬ ProgramsAuthWords cfg op

/-- A `BootDone` with a valid signature over a version that is allowed. -/
def UpdatesVersion (cfg : Config) (s : Machine) (c : Command) : Prop :=
  BootOperation.ofByte c.req.op = some .bootDone ∧ (c.req.len : ℤ) ≤ c.klen - 10 ∧
    c.req.len = 64 ∧ signatureValid cfg s.flash (c.req.payloadBytes 64) = true ∧
    versionAllowed cfg s = true

instance (cfg : Config) (s : Machine) (c : Command) : Decidable (UpdatesVersion cfg s c) :=
  inferInstanceAs (Decidable (_ ∧ _ ∧ _ ∧ _ ∧ _))

section Config

variable {cfg : Config}

/-! ### The operations of the commands -/

theorem WithinApplication.ownFlash {ops : List Op} (h : WithinApplication cfg ops) :
    ∀ op ∈ ops, OwnFlash cfg op := by
  intro op hop a ha
  obtain ⟨h₁, h₂⟩ := h op hop a ha
  have hend := cfg.board.bootVersionEnd_eq
  exact ⟨h₁, by omega⟩

theorem eraseApplicationOps_cases {op : Op} (hop : op ∈ eraseApplicationOps cfg) :
    (∃ first size, op = .erase first size) ∧ OwnFlash cfg op := by
  obtain ⟨i, hi, rfl⟩ := List.mem_map.mp hop
  refine ⟨⟨_, _, rfl⟩, fun a ha => ?_⟩
  obtain ⟨h₁, h₂⟩ := (flashErasePage_touches i a).mp ha
  have hi' := List.mem_range.mp hi
  have hpages := cfg.board.applicationEndAddr_eq
  have hend := cfg.board.bootVersionEnd_eq
  unfold pageSize at h₁ h₂ hpages
  constructor <;> omega

theorem clearInLastPageOps_ownFlash {off : ℕ} (hoff : off + 4 ≤ pageSize) (flash : Memory) :
    ∀ op ∈ clearInLastPageOps cfg off flash, OwnFlash cfg op := by
  have hlast := cfg.board.lastAddr_eq
  have hstart := cfg.board.applicationStartAddr_lt_lastAddr
  have hend := cfg.board.bootVersionEnd_eq
  have hmod := cfg.board.lastAddr_mod
  intro op hop a ha
  rcases List.mem_cons.mp hop with rfl | hop
  · obtain ⟨h₁, h₂⟩ := ha
    rw [Board.flashAddr_lastPage] at h₁ h₂
    unfold pageSize at h₂
    constructor <;> omega
  · obtain ⟨h₁, h₂⟩ := flashWrite_touches hop ha
    rw [Bytes.length_fill (by simpa using hoff), Memory.length_read] at h₂
    unfold pageSize at h₂
    constructor <;> omega

/-- A version update ends eight bytes behind its page. -/
theorem versionOps_end (s : Machine) :
    ∃ op ∈ versionOps cfg s, ¬ OwnFlash cfg op := by
  have hend := cfg.board.bootVersionEnd_eq
  have haddr := cfg.board.bootVersionAddr_eq
  have hmod := cfg.board.bootVersionAddr_mod
  refine ⟨.program (cfg.board.bootVersionAddr - cfg.board.bootVersionAddr % 8 + 8 * 255)
    (flashWriteBuf (Bytes.overwrite (s.flash.read cfg.board.bootVersionAddr pageSize) 0
      (newVersion s).bytes) 255), List.mem_cons_of_mem _ (List.mem_map.mpr ⟨255, ?_, rfl⟩),
    fun hown => ?_⟩
  · rw [Bytes.length_overwrite (by
      rw [Memory.length_read]
      exact (by decide : 0 + 4 ≤ pageSize)), Memory.length_read]
    exact List.mem_range.mpr (by decide)
  · have hlast := (hown cfg.board.bootVersionEnd ⟨by omega, by
      rw [length_flashWriteBuf]
      omega⟩).2
    omega

theorem versionOps_touches_lt {s : Machine} {op : Op} (hop : op ∈ versionOps cfg s) {a : ℕ}
    (ha : op.Touches a) : applicationStartAddr ≤ a ∧ a < cfg.board.bootVersionEnd + 8 := by
  have hend := cfg.board.bootVersionEnd_eq
  have haddr := cfg.board.bootVersionAddr_eq
  have hmod := cfg.board.bootVersionAddr_mod
  have hstart := cfg.board.applicationStartAddr_lt_lastAddr
  have hlast := cfg.board.lastAddr_eq
  have hlow := versionOps_touches hop ha
  refine ⟨by omega, ?_⟩
  rcases List.mem_cons.mp hop with rfl | hop
  · have h₂ := ha.2
    rw [Board.flashAddr_bootVersionPage] at h₂
    unfold pageSize at h₂
    omega
  · have h₂ := (flashWrite_touches hop ha).2
    rw [Bytes.length_overwrite (by
      rw [Memory.length_read]
      exact (by decide : 0 + 4 ≤ pageSize)), Memory.length_read] at h₂
    unfold pageSize at h₂
    omega

/-! ### Commands and runs -/

/-- What a `BootWrite` programs is the application. -/
theorem bootWrite_flashOps (s : Machine) {c : Command}
    (hwrite : BootOperation.ofByte c.req.op = some .bootWrite) :
    ∃ writes, WithinApplication cfg writes ∧
      ((bridgeStep cfg s c).flashOps = writes ∨
        (bridgeStep cfg s c).flashOps = eraseApplicationOps cfg ++ writes) := by
  have hnone : WithinApplication cfg [] := fun _ h => absurd h List.not_mem_nil
  let s₀ : Machine := { s with flashOps := [], response := Ctap.ctapResponseInit }
  have hprep : (preparedForWrite cfg s₀).flashOps = [] ∨
      (preparedForWrite cfg s₀).flashOps = eraseApplicationOps cfg := by
    obtain h | ⟨-, h⟩ := preparedForWrite_cases cfg s₀
    · exact .inr (by rw [h]; rfl)
    · exact .inl (by rw [h])
  by_cases hlen : (c.req.len : ℤ) > c.klen - 10
  · exact ⟨[], hnone, .inl (by simp [bridgeStep, bootloaderBridge, hlen])⟩
  have hstep : bridgeStep cfg s c = (bootWrite cfg c.req s₀).2 := by
    simp [bridgeStep, bootloaderBridge, hlen, bridgeSwitch, hwrite, s₀]
  obtain ⟨-, h⟩ | ⟨-, -, h⟩ | ⟨hrange, -, h⟩ := bootWrite_cases cfg c.req s₀
  · exact ⟨[], hnone, .inl (by rw [hstep, h])⟩
  · refine ⟨[], hnone, ?_⟩
    rw [hstep, h, List.append_nil]
    exact hprep
  · refine ⟨_, flashWrite_withinApplication hrange, ?_⟩
    rw [hstep, h, Machine.perform_flashOps]
    exact hprep.imp (fun hnil => by rw [hnil, List.nil_append]) fun herase => by rw [herase]

theorem bootWrite_authWords (s : Machine) {c : Command}
    (hwrite : BootOperation.ofByte c.req.op = some .bootWrite) :
    ∀ op ∈ (bridgeStep cfg s c).flashOps, ¬ ProgramsAuthWords cfg op := by
  rintro op hop ⟨⟨addr, data, rfl⟩, a, ha, hlow, -⟩
  obtain ⟨writes, hwrites, h⟩ := @bootWrite_flashOps cfg s _ hwrite
  have hout : Op.program addr data ∉ writes := fun hin => by
    have hlt := (hwrites _ hin a ha).2
    omega
  rcases h with h | h <;> rw [h] at hop
  · exact hout hop
  · refine (List.mem_append.mp hop).elim (fun hin => ?_) hout
    obtain ⟨⟨first, size, heq⟩, -⟩ := eraseApplicationOps_cases hin
    cases heq

theorem updatesVersion_flashOps {s : Machine} {c : Command} (h : UpdatesVersion cfg s c) :
    ∃ rest, (bridgeStep cfg s c).flashOps = versionOps cfg s ++ rest := by
  obtain ⟨hop, hlen, h64, hsig, hver⟩ := h
  let s₀ : Machine := { s with flashOps := [], response := Ctap.ctapResponseInit }
  have hstep : bridgeStep cfg s c = (bootDone cfg c.req s₀).2 := by
    simp [bridgeStep, bootloaderBridge, not_lt.mpr hlen, bridgeSwitch, hop, s₀]
  obtain ⟨hne, -⟩ | ⟨-, hfalse, -⟩ | ⟨-, -, -, e⟩ := bootDone_cases cfg c.req s₀
  · exact absurd h64 hne
  · rw [show signatureValid cfg s₀.flash (c.req.payloadBytes 64) = true from hsig,
      show versionAllowed cfg s₀ = true from hver] at hfalse
    exact absurd hfalse (by decide)
  · rw [hstep, e]
    unfold authorizeApplication
    split
    · exact ⟨[], by rw [List.append_nil]; rfl⟩
    · exact ⟨_, rfl⟩

theorem keepsToOwnFlash_iff (s : Machine) (c : Command) :
    KeepsToOwnFlash cfg s c ↔ ¬ UpdatesVersion cfg s c := by
  constructor
  · rintro ⟨hown, -⟩ hupdate
    obtain ⟨rest, hops⟩ := updatesVersion_flashOps hupdate
    obtain ⟨op, hop, hout⟩ := @versionOps_end cfg s
    rw [hops] at hown
    exact hout (hown op (List.mem_append_left rest hop))
  · intro hnot
    refine ⟨?_, bootWrite_authWords s⟩
    rcases bridge_cases cfg s c with h | ⟨-, writes, hwrites, h⟩ | h | ⟨hauth, -⟩
    · rw [h]
      exact fun _ h => absurd h List.not_mem_nil
    · have herase : ∀ op ∈ eraseApplicationOps cfg, OwnFlash cfg op :=
        fun op hop => (eraseApplicationOps_cases hop).2
      rcases h with h | ⟨-, h⟩ <;> rw [h]
      · intro op hop
        exact (List.mem_append.mp hop).elim (herase op) (hwrites.ownFlash op)
      · exact hwrites.ownFlash
    · rw [h]
      exact clearInLastPageOps_ownFlash (by decide) s.flash
    · exact absurd ((authorises_iff s c).mp hauth) hnot

/-- What no command changes: the bootloader in front of the application, and
everything from the second double word behind the version page on. -/
theorem bridgeStep_outside (s : Machine) (c : Command) {a : ℕ}
    (ha : a < applicationStartAddr ∨ cfg.board.bootVersionEnd + 8 ≤ a) :
    (bridgeStep cfg s c).flash a = s.flash a := by
  have hown {op : Op} (h : OwnFlash cfg op) : ¬ op.Touches a := fun htouch => by
    have hin := h a htouch
    omega
  rw [bridgeStep_flash]
  refine applyAll_outside _ _ _ fun op hop => ?_
  by_cases hupdate : UpdatesVersion cfg s c
  · rcases bridge_cases cfg s c with h | ⟨-, writes, hwrites, h⟩ | h | ⟨-, rest, h, hrest⟩
    · rw [h] at hop
      exact absurd hop List.not_mem_nil
    · have herase : op ∈ eraseApplicationOps cfg → ¬ op.Touches a := fun hin =>
        hown (eraseApplicationOps_cases hin).2
      rcases h with h | ⟨-, h⟩ <;> rw [h] at hop
      · exact (List.mem_append.mp hop).elim herase fun hin => hown (hwrites.ownFlash op hin)
      · exact hown (hwrites.ownFlash op hop)
    · rw [h] at hop
      exact hown (clearInLastPageOps_ownFlash (by decide) s.flash op hop)
    · rw [h] at hop
      rcases List.mem_append.mp hop with hin | hin
      · intro htouch
        have hrange := versionOps_touches_lt hin htouch
        omega
      · rcases hrest with rfl | rfl
        · exact absurd hin List.not_mem_nil
        · exact hown (clearInLastPageOps_ownFlash (by decide) _ op hin)
  · exact hown (((keepsToOwnFlash_iff s c).mpr hupdate).own op hop)

end Config

/-- The commands of a run keep to the flash of the bootloader exactly as long as
no version is updated; in any run the bootloader itself and what lies behind the
version page and the double word that follows it stay as they are. -/
theorem own_flash_iff (cfg : Config) (s : Machine) (cs : List Command) :
    (Along (bridgeStep cfg) (KeepsToOwnFlash cfg) s cs ↔
      Along (bridgeStep cfg) (fun s c => ¬ UpdatesVersion cfg s c) s cs) ∧
    (∀ a, a < applicationStartAddr ∨ cfg.board.bootVersionEnd + 8 ≤ a →
      (run (bridgeStep cfg) s cs).flash a = s.flash a) ∧
    Along (bridgeStep cfg) (fun s c => BootOperation.ofByte c.req.op = some .bootWrite →
      ∀ op ∈ (bridgeStep cfg s c).flashOps, ¬ ProgramsAuthWords cfg op) s cs := by
  refine ⟨⟨Along.mono fun s c => (keepsToOwnFlash_iff s c).mp,
    Along.mono fun s c => (keepsToOwnFlash_iff s c).mpr⟩, fun a ha => ?_,
    along_of_forall (fun s c => bootWrite_authWords s) s cs⟩
  exact @invariant_run_always _ _ _ (fun t => t.flash a = s.flash a)
    (fun t c ht => (bridgeStep_outside t c ha).trans ht) s cs rfl

/-- A signed image that is uploaded and authorised. -/
theorem own_flash_counterexample :
    ¬ Along (bridgeStep demoConfig) (KeepsToOwnFlash demoConfig) (powerUp fun _ => 0xFF)
      [demoUpload, doneCommand (List.replicate 64 0x5A)] := by
  intro hkeeps
  have hupdate : UpdatesVersion demoConfig
      (bridgeStep demoConfig (powerUp fun _ => 0xFF) demoUpload)
      (doneCommand (List.replicate 64 0x5A)) := by
    decide +kernel
  exact (keepsToOwnFlash_iff _ _).mp hkeeps.2.1 hupdate

end NitrokeyFido2.Bootloader
