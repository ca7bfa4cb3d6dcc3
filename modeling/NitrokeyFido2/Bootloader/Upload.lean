import NitrokeyFido2.Bootloader.Commands
import NitrokeyFido2.Lib.Transition

/-!
What the application area holds during an upload.

`BootWrite` compares the end of a write with the end of the one before, while
`flash_write` rounds the start down and fills the last double word up. A run is
followed together with its flash operations and with the bytes its accepted writes
call for. As long as every write that is not empty starts at a double word behind
the last one that was written, and stays out of a last page that `BootDisable` has
rewritten, each double word is programmed once and the area holds those bytes.
-/

namespace NitrokeyFido2.Bootloader

open NorFlash Transition

/-! ### A run and what it is measured by -/

/-- The bytes of the application. -/
def InApplication (cfg : Config) (a : ℕ) : Prop :=
  applicationStartAddr ≤ a ∧ a < cfg.board.applicationEndAddr

instance (cfg : Config) : DecidablePred (InApplication cfg) := fun _ =>
  inferInstanceAs (Decidable (_ ∧ _))

/-- The start of a write. -/
def BootloaderReq.ptr (req : BootloaderReq) : ℕ := 0x8000000 + req.addr

/-- The end of a write, rounded up to a double word. -/
def BootloaderReq.frontier (req : BootloaderReq) : ℕ := (req.ptr + req.len + 7) / 8 * 8

section Config

variable (cfg : Config)

/-- The command erases the application. -/
def ErasesApplication (s : Machine) (c : Command) : Prop :=
  (c.req.len : ℤ) ≤ c.klen - 10 ∧ (BootOperation.ofByte c.req.op = some .bootErase ∨
    BootOperation.ofByte c.req.op = some .bootWrite ∧ InRange cfg c.req ∧
      (s.hasErased = false ∨ isAuthorizedToBoot cfg s.flash = true))

/-- The command is a write that is carried out: the application is erased for it,
or it ends no lower than the one before. -/
def AcceptsWrite (s : Machine) (c : Command) : Prop :=
  (c.req.len : ℤ) ≤ c.klen - 10 ∧ BootOperation.ofByte c.req.op = some .bootWrite ∧
    InRange cfg c.req ∧
    (ErasesApplication cfg s c ∨ s.lastWrittenAppAddress ≤ c.req.ptr + c.req.len)

/-- The command rewrites the last page. -/
def RewritesLastPage (s : Machine) (c : Command) : Prop :=
  (c.req.len : ℤ) ≤ c.klen - 10 ∧ BootOperation.ofByte c.req.op = some .bootDisable ∧
      c.req.payloadBytes 4 = [0xcd, 0xde, 0xba, 0xaa] ∨ Authorises cfg s c

instance (s : Machine) (c : Command) : Decidable (ErasesApplication cfg s c) :=
  inferInstanceAs (Decidable (_ ∧ (_ ∨ _ ∧ _ ∧ (_ ∨ _))))

instance (s : Machine) (c : Command) : Decidable (AcceptsWrite cfg s c) :=
  inferInstanceAs (Decidable (_ ∧ _ ∧ _ ∧ (_ ∨ _)))

instance (s : Machine) (c : Command) : Decidable (RewritesLastPage cfg s c) :=
  inferInstanceAs (Decidable (_ ∧ _ ∧ _ ∨ _))

/-- A machine, what its run has done to the flash, and what the accepted writes
call for. -/
structure Upload where
  machine : Machine
  /-- The flash operations of the run. -/
  trace : List Op
  /-- The bytes the application should have. -/
  expected : ℕ → UInt8
  /-- The end of the last write that was not empty, rounded up. -/
  frontier : ℕ
  /-- The last page has been rewritten since it was erased with the others. -/
  lastPageRewritten : Bool

/-- The beginning of a run. What is in the flash then counts as written. -/
def uploadStart (flash : Memory) : Upload where
  machine := powerUp flash
  trace := []
  expected := flash
  frontier := cfg.board.applicationEndAddr
  lastPageRewritten := false

/-- The bytes that are called for after a command. -/
def expectedAfter (s : Machine) (c : Command) (e : ℕ → UInt8) : ℕ → UInt8 :=
  let e := if ErasesApplication cfg s c then fun a => if InApplication cfg a then 0xFF else e a else e
  if AcceptsWrite cfg s c then fun a =>
    if c.req.ptr ≤ a ∧ a < c.req.ptr + c.req.len then c.req.payload (a - c.req.ptr) else e a
  else e

/-- One command. -/
def uploadStep (r : Upload) (c : Command) : Upload where
  machine := bridgeStep cfg r.machine c
  trace := r.trace ++ (bridgeStep cfg r.machine c).flashOps
  expected := expectedAfter cfg r.machine c r.expected
  frontier :=
    if AcceptsWrite cfg r.machine c ∧ c.req.len ≠ 0 then c.req.frontier
    else if ErasesApplication cfg r.machine c then applicationStartAddr else r.frontier
  lastPageRewritten :=
    if RewritesLastPage cfg r.machine c then true
    else if ErasesApplication cfg r.machine c then false else r.lastPageRewritten

/-- A write that is carried out and is not empty starts at a double word; unless
the application is erased for it, it starts behind what was written last and ends
before a last page that was rewritten. -/
def Ascending (r : Upload) (c : Command) : Prop :=
  AcceptsWrite cfg r.machine c → c.req.len ≠ 0 → c.req.addr % 8 = 0 ∧
    (ErasesApplication cfg r.machine c ∨ r.frontier ≤ c.req.ptr ∧
      (r.lastPageRewritten = true → c.req.ptr + c.req.len ≤ cfg.board.lastAddr))

instance (r : Upload) (c : Command) : Decidable (Ascending cfg r c) :=
  inferInstanceAs (Decidable (_ → _ → _ ∧ (_ ∨ _ ∧ (_ → _))))

/-- Every double word of the application was programmed once since it was erased,
and the application holds the bytes of the accepted writes. -/
structure Faithful (r : Upload) : Prop where
  once : ProgrammedOnce (InApplication cfg) r.trace
  content : ∀ a, InApplication cfg a → r.machine.flash a = r.expected a

/-- What has been programmed since it was erased; what was there before the run
counts. -/
def Upload.programmed (r : Upload) : ℕ → Prop := markAll (fun _ => True) r.trace

/-- The command is a write, not one that the application is erased for, that would
touch what is programmed already. -/
def WouldReprogram (r : Upload) (c : Command) : Prop :=
  (c.req.len : ℤ) ≤ c.klen - 10 ∧ BootOperation.ofByte c.req.op = some .bootWrite ∧
    InRange cfg c.req ∧ ¬ ErasesApplication cfg r.machine c ∧
    ∃ op ∈ flashWrite c.req.ptr (c.req.payloadBytes c.req.len), ∃ a,
      op.Programs a ∧ r.programmed a

end Config

/-! ### What each part of a command does to the area -/

section Config

variable {cfg : Config}

/-- The area holds what is called for; what is marked lies before the frontier or
in a last page that was rewritten, and the rest is erased. -/
structure Placed (cfg : Config) (m : Memory) (w : ℕ → Prop) (e : ℕ → UInt8) (frontier : ℕ)
    (rewritten : Bool) : Prop where
  content : ∀ a, InApplication cfg a → m a = e a
  marked : ∀ a, InApplication cfg a → w a → a < frontier ∨ rewritten = true ∧ cfg.board.lastAddr ≤ a
  erased : ∀ a, InApplication cfg a → ¬ w a → m a = 0xFF

section Placed

variable {m : Memory} {w : ℕ → Prop} {e : ℕ → UInt8} {frontier : ℕ} {rewritten : Bool}

theorem exists_erases {a : ℕ} (ha : InApplication cfg a) : ∃ op ∈ eraseApplicationOps cfg, op.Erases a := by
  obtain ⟨h₁, h₂⟩ := ha
  have hend := cfg.board.applicationEndAddr_eq
  have hdm := Nat.div_add_mod' (a - applicationStartAddr) pageSize
  have hmod := Nat.mod_lt (a - applicationStartAddr) (show 0 < pageSize by decide)
  have hlt : (a - applicationStartAddr) / pageSize < cfg.board.applicationPages := by
    rw [Nat.div_lt_iff_lt_mul (by decide)]
    omega
  refine ⟨_, List.mem_map_of_mem (List.mem_range.mpr hlt), ?_⟩
  exact (flashErasePage_touches _ a).mpr (by omega)

theorem not_programs_eraseApplicationOps {op : Op} (hop : op ∈ eraseApplicationOps cfg) (a : ℕ) :
    ¬ op.Programs a := by
  obtain ⟨i, -, rfl⟩ := List.mem_map.mp hop
  exact id

theorem Placed.erase (m : Memory) (w : ℕ → Prop) (e : ℕ → UInt8) :
    Placed cfg (applyAll cfg.chip m (eraseApplicationOps cfg)) (markAll w (eraseApplicationOps cfg))
      (fun a => if InApplication cfg a then 0xFF else e a) applicationStartAddr false := by
  have herased : ∀ a, InApplication cfg a →
      applyAll cfg.chip m (eraseApplicationOps cfg) a = 0xFF := by
    rintro a ⟨h₁, h₂⟩
    rw [applyAll_eraseApplicationOps, if_pos (by omega)]
  have hfree : ∀ a, InApplication cfg a → ¬ markAll w (eraseApplicationOps cfg) a := fun a ha =>
    not_markAll_of_erased (fun op hop => not_programs_eraseApplicationOps hop a) (exists_erases ha)
  refine ⟨fun a ha => ?_, fun a ha hmark => absurd hmark (hfree a ha), fun a ha _ => herased a ha⟩
  rw [herased a ha, if_pos ha]

/-- Operations elsewhere change nothing here. -/
theorem Placed.outside (h : Placed cfg m w e frontier rewritten) {ops : List Op}
    (hops : ∀ op ∈ ops, ∀ a, op.Touches a → ¬ InApplication cfg a) :
    Placed cfg (applyAll cfg.chip m ops) (markAll w ops) e frontier rewritten := by
  have hmem : ∀ a, InApplication cfg a → applyAll cfg.chip m ops a = m a := fun a ha =>
    applyAll_outside cfg.chip m ops fun op hop htouch => hops op hop a htouch ha
  have hmark : ∀ a, InApplication cfg a → (markAll w ops a ↔ w a) := fun a ha =>
    markAll_outside fun op hop htouch => hops op hop a htouch ha
  refine ⟨fun a ha => ?_, fun a ha hw => ?_, fun a ha hw => ?_⟩
  · rw [hmem a ha, h.content a ha]
  · exact h.marked a ha ((hmark a ha).mp hw)
  · rw [hmem a ha, h.erased a ha fun hwa => hw ((hmark a ha).mpr hwa)]

/-- A write behind the frontier. -/
theorem Placed.write (h : Placed cfg m w e frontier rewritten) {req : BootloaderReq}
    (hrange : InRange cfg req) (halign : req.addr % 8 = 0)
    (hfrontier : frontier ≤ req.ptr)
    (hlast : rewritten = true → req.ptr + req.len ≤ cfg.board.lastAddr) :
    Fresh (InApplication cfg) w (flashWrite req.ptr (req.payloadBytes req.len)) ∧
      Placed cfg (applyAll cfg.chip m (flashWrite req.ptr (req.payloadBytes req.len)))
        (markAll w (flashWrite req.ptr (req.payloadBytes req.len)))
        (fun a => if req.ptr ≤ a ∧ a < req.ptr + req.len then req.payload (a - req.ptr) else e a)
        req.frontier rewritten := by
  obtain ⟨h₁, h₂, h₃⟩ := hrange
  have hend := cfg.board.applicationEndAddr_mod
  have hlastMod := cfg.board.lastAddr_mod
  have hptr : req.ptr % 8 = 0 := by
    unfold BootloaderReq.ptr
    omega
  have hfront : req.frontier = req.ptr + 8 * ((req.len + 7) / 8) := by
    unfold BootloaderReq.frontier
    omega
  have hbuf := fun j (_ : j < (req.len + 7) / 8) =>
    length_flashWriteBuf (req.payloadBytes req.len) j
  have hops : flashWrite req.ptr (req.payloadBytes req.len) =
      programs 8 req.ptr (flashWriteBuf (req.payloadBytes req.len)) ((req.len + 7) / 8) := by
    rw [flashWrite, hptr, req.length_payloadBytes]
    rfl
  -- what is to be programmed lies behind the frontier and before the last page
  have hin : ∀ a, req.ptr ≤ a → a < req.ptr + 8 * ((req.len + 7) / 8) → InApplication cfg a := by
    intro a ha ha'
    unfold BootloaderReq.ptr at *
    unfold InApplication
    omega
  have hfree : ∀ a, req.ptr ≤ a → a < req.ptr + 8 * ((req.len + 7) / 8) → ¬ w a := by
    intro a ha ha' hw
    rcases h.marked a (hin a ha ha') hw with hlt | ⟨hre, hge⟩
    · omega
    · have hle := hlast hre
      omega
  have hmem := @applyAll_flashWrite_all cfg.chip req.ptr hptr (req.payloadBytes req.len) m
    (by
      rw [req.length_payloadBytes]
      exact fun a ha ha' => h.erased a (hin a ha ha') (hfree a ha ha'))
  rw [req.length_payloadBytes] at hmem
  refine ⟨?_, fun a ha => ?_, fun a ha hmark => ?_, fun a ha hmark => ?_⟩
  · rw [hops]
    exact fresh_programs _ hbuf fun a _ ha ha' => hfree a ha ha'
  · rw [hmem]
    by_cases hwrite : req.ptr ≤ a ∧ a < req.ptr + req.len
    · rw [if_pos (by omega), if_pos hwrite, BootloaderReq.payloadBytes, List.getD_eq_getElem _ _ (by simp; omega)]
      simp
    · rw [if_neg hwrite]
      split
      case isTrue hpad =>
          rw [List.getD_eq_default _ _ (by simp; omega), ← h.content a ha,
            h.erased a ha (hfree a hpad.1 hpad.2)]
      case isFalse => exact h.content a ha
  · rw [hops] at hmark
    rcases markAll_cases hmark with ⟨op, hop, hprogram⟩ | hw
    · have hbound := programs_touches hbuf hop ((op.touches_iff a).mpr (.inl hprogram))
      exact .inl (by omega)
    · exact (h.marked a ha hw).imp (fun hlt => by omega) id
  · rw [hops] at hmark
    rw [hmem, if_neg]
    · exact h.erased a ha fun hw => hmark (markAll_of_not_erased hw fun op hop =>
        not_erases_programs hop)
    · rintro ⟨ha₁, ha₂⟩
      exact hmark (markAll_of_programs (exists_programs (by omega) hbuf ha₁ ha₂) fun op hop =>
        not_erases_programs hop)

/-- The last page is rewritten with bytes behind the application cleared. -/
theorem Placed.rewrite (h : Placed cfg m w e frontier rewritten) {off : ℕ}
    (hoff : off = 2040 ∨ off = 2044) :
    Fresh (InApplication cfg) w (clearInLastPageOps cfg off m) ∧
      Placed cfg (applyAll cfg.chip m (clearInLastPageOps cfg off m))
        (markAll w (clearInLastPageOps cfg off m)) e frontier true := by
  have hlast := cfg.board.lastAddr_eq
  have hoff' : off + 4 ≤ pageSize := by
    unfold pageSize
    omega
  have hlen : (Bytes.fill (m.read cfg.board.lastAddr pageSize) off 4 0).length = 2048 := by
    rw [Bytes.length_fill (by simpa using hoff'), Memory.length_read, pageSize]
  have hpage : ∀ a, (flashErasePage cfg.board.lastPage).Erases a ↔
      cfg.board.lastAddr ≤ a ∧ a < cfg.board.lastAddr + 8 * 256 := by
    intro a
    unfold flashErasePage
    rw [Board.flashAddr_lastPage]
    exact Iff.rfl
  have hbuf := fun j (_ : j < 256) =>
    length_flashWriteBuf (Bytes.fill (m.read cfg.board.lastAddr pageSize) off 4 0) j
  have hops : clearInLastPageOps cfg off m = flashErasePage cfg.board.lastPage ::
      programs 8 cfg.board.lastAddr
        (flashWriteBuf (Bytes.fill (m.read cfg.board.lastAddr pageSize) off 4 0)) 256 := by
    rw [clearInLastPageOps, flashWrite, cfg.board.lastAddr_mod, hlen]
    rfl
  have hmem := clearInLastPage_take cfg hoff' m 257 (by decide)
  rw [List.take_of_length_le (length_clearInLastPageOps hoff' m).le,
    show min (257 - 1) 256 = 256 from rfl] at hmem
  have hkeep : ∀ a, InApplication cfg a → applyAll cfg.chip m (clearInLastPageOps cfg off m) a = m a := by
    rintro a ⟨h₁, h₂⟩
    rw [hmem]
    by_cases hin : cfg.board.lastAddr ≤ a ∧ a < cfg.board.lastAddr + 8 * 256
    · rw [if_pos hin, if_neg (by omega)]
    · rw [if_neg hin, if_neg (by unfold pageSize; omega)]
  refine ⟨?_, fun a ha => ?_, fun a ha hmark => ?_, fun a ha hmark => ?_⟩
  · rw [hops]
    refine ⟨fun a _ hprogram => absurd hprogram id, fresh_programs _ hbuf fun a _ h₁ h₂ hw => ?_⟩
    rcases hw with hprogram | ⟨-, hkept⟩
    · exact hprogram
    · exact hkept ((hpage a).mpr ⟨h₁, h₂⟩)
  · rw [hkeep a ha, h.content a ha]
  · rw [hops, markAll_cons] at hmark
    rcases markAll_cases hmark with ⟨op, hop, hprogram⟩ | hprogram | ⟨hw, -⟩
    · have hbound := programs_touches hbuf hop ((op.touches_iff a).mpr (.inl hprogram))
      exact .inr ⟨rfl, hbound.1⟩
    · exact absurd hprogram id
    · exact (h.marked a ha hw).imp id fun hre => ⟨rfl, hre.2⟩
  · rw [hkeep a ha]
    refine h.erased a ha fun hw => hmark ?_
    rw [hops, markAll_cons]
    by_cases hin : cfg.board.lastAddr ≤ a ∧ a < cfg.board.lastAddr + 8 * 256
    · exact markAll_of_programs (exists_programs (by omega) hbuf hin.1 hin.2) fun op hop =>
        not_erases_programs hop
    · exact markAll_of_not_erased (.inr ⟨hw, fun he => hin ((hpage a).mp he)⟩) fun op hop =>
        not_erases_programs hop

theorem Placed.mono {rewritten' : Bool} (h : Placed cfg m w e frontier rewritten)
    (hre : rewritten = true → rewritten' = true) : Placed cfg m w e frontier rewritten' :=
  ⟨h.content, fun a ha hw => (h.marked a ha hw).imp id fun hlast => ⟨hre hlast.1, hlast.2⟩, h.erased⟩

end Placed

/-! ### The operations of a command -/

theorem preparedForWrite_eq (s : Machine) :
    preparedForWrite cfg s =
      if s.hasErased = false ∨ isAuthorizedToBoot cfg s.flash = true then
        { eraseApplication cfg s with hasErased := true }
      else s := by
  unfold preparedForWrite
  cases s.hasErased with
  | false => simp
  | true => simp

/-- The rewrite of the last page, behind operations elsewhere. -/
def RewriteOps (cfg : Config) (m : Memory) (ops : List Op) : Prop :=
  ∃ elsewhere rest off, ops = elsewhere ++ rest ∧ (off = 2040 ∨ off = 2044) ∧
    (∀ op ∈ elsewhere, ∀ a, op.Touches a → ¬ InApplication cfg a) ∧
    (rest = [] ∨ rest = clearInLastPageOps cfg off (applyAll cfg.chip m elsewhere))

/-- A `BootWrite` within the range. -/
theorem bootWrite_flashOps_eq {s : Machine} {c : Command} (hlen : (c.req.len : ℤ) ≤ c.klen - 10)
    (hop : BootOperation.ofByte c.req.op = some .bootWrite) (hrange : InRange cfg c.req) :
    (bridgeStep cfg s c).flashOps =
        (if ErasesApplication cfg s c then eraseApplicationOps cfg else []) ++
        (if AcceptsWrite cfg s c then flashWrite c.req.ptr (c.req.payloadBytes c.req.len) else []) ∧
      (bootloaderBridge cfg s c).1 =
        .returned (if AcceptsWrite cfg s c then 0 else ctap2ErrNotAllowed) := by
  let s₀ : Machine := { s with flashOps := [], response := Ctap.ctapResponseInit }
  have hbridge : bootloaderBridge cfg s c = bootWrite cfg c.req s₀ := by
    simp [bootloaderBridge, not_lt.mpr hlen, bridgeSwitch, hop, s₀]
  have herases : ErasesApplication cfg s c ↔
      (s.hasErased = false ∨ isAuthorizedToBoot cfg s.flash = true) := by
    simp [ErasesApplication, hlen, hop, hrange]
  have haccepts : AcceptsWrite cfg s c ↔
      (ErasesApplication cfg s c ∨ s.lastWrittenAppAddress ≤ c.req.ptr + c.req.len) := by
    simp [AcceptsWrite, hlen, hop, hrange]
  have hprep := @preparedForWrite_eq cfg s₀
  by_cases herase : ErasesApplication cfg s c
  · rw [if_pos (herases.mp herase)] at hprep
    obtain ⟨hno, -⟩ | ⟨-, hlt, -⟩ | ⟨-, -, h⟩ := bootWrite_cases cfg c.req s₀
    · exact absurd hrange hno
    · -- nothing has been written since the erase
      rw [hprep] at hlt
      exact absurd hlt (Nat.not_lt_zero _)
    · rw [if_pos herase, if_pos (haccepts.mpr (.inl herase)),
        if_pos (haccepts.mpr (.inl herase)), bridgeStep, hbridge, h, hprep]
      exact ⟨rfl, rfl⟩
  · rw [if_neg (fun h => herase (herases.mpr h))] at hprep
    rw [if_neg herase, List.nil_append, bridgeStep, hbridge]
    obtain ⟨hno, -⟩ | ⟨-, hlt, h⟩ | ⟨-, hle, h⟩ := bootWrite_cases cfg c.req s₀
    · exact absurd hrange hno
    · rw [hprep] at hlt h
      have hno : ¬ AcceptsWrite cfg s c := fun haccept =>
        (haccepts.mp haccept).elim herase fun hle => absurd hle (not_le.mpr hlt)
      rw [if_neg hno, if_neg hno, h]
      exact ⟨rfl, rfl⟩
    · rw [hprep] at hle h
      have haccept : AcceptsWrite cfg s c := haccepts.mpr (.inr hle)
      rw [if_pos haccept, if_pos haccept, h]
      exact ⟨rfl, rfl⟩

/-- What a command does to the flash: an erase of the application, a write, both,
or a rewrite of the last page. -/
theorem bridge_flashOps (s : Machine) (c : Command) :
    (bridgeStep cfg s c).flashOps =
        (if ErasesApplication cfg s c then eraseApplicationOps cfg else []) ++
        (if AcceptsWrite cfg s c then flashWrite c.req.ptr (c.req.payloadBytes c.req.len) else []) ∨
      RewritesLastPage cfg s c ∧ ¬ ErasesApplication cfg s c ∧ ¬ AcceptsWrite cfg s c ∧
        RewriteOps cfg s.flash (bridgeStep cfg s c).flashOps := by
  let s₀ : Machine := { s with flashOps := [], response := Ctap.ctapResponseInit }
  by_cases hlen : (c.req.len : ℤ) ≤ c.klen - 10
  · have hbridge : bootloaderBridge cfg s c = bridgeSwitch cfg c.req s₀ := by
      simp [bootloaderBridge, not_lt.mpr hlen, s₀]
    have hstep : bridgeStep cfg s c = (bridgeSwitch cfg c.req s₀).2 := by
      rw [bridgeStep, hbridge]
    -- a command of another kind without flash operations
    have hother : (bridgeStep cfg s c).flashOps = [] →
        BootOperation.ofByte c.req.op ≠ some .bootErase →
        BootOperation.ofByte c.req.op ≠ some .bootWrite →
        (bridgeStep cfg s c).flashOps =
          (if ErasesApplication cfg s c then eraseApplicationOps cfg else []) ++
          (if AcceptsWrite cfg s c then flashWrite c.req.ptr (c.req.payloadBytes c.req.len)
            else []) := by
      intro hnil herase hwrite
      simp [hnil, ErasesApplication, AcceptsWrite, herase, hwrite]
    cases hop : BootOperation.ofByte c.req.op with
    | none => exact .inl (hother (by simp [hstep, bridgeSwitch, hop, s₀]) (by simp [hop]) (by simp [hop]))
    | some op =>
        cases op with
        | bootCheck | bootReboot =>
            exact .inl (hother (by simp [hstep, bridgeSwitch, hop, s₀]) (by simp [hop]) (by simp [hop]))
        | bootVersion =>
            exact .inl (hother (by simp [hstep, bridgeSwitch, hop, s₀, bootVersion]) (by simp [hop])
              (by simp [hop]))
        | bootPubkey =>
            exact .inl (hother (by simp [hstep, bridgeSwitch, hop, s₀, bootPubkey]) (by simp [hop])
              (by simp [hop]))
        | bootErase =>
            left
            simp [hstep, bridgeSwitch, ErasesApplication, AcceptsWrite, hop, hlen, s₀, eraseApplication]
        | bootWrite =>
            by_cases hrange : InRange cfg c.req
            · exact .inl (bootWrite_flashOps_eq hlen hop hrange).1
            · left
              obtain ⟨-, h⟩ | ⟨hin, -⟩ | ⟨hin, -⟩ := bootWrite_cases cfg c.req s₀
              · simp [hstep, bridgeSwitch, ErasesApplication, AcceptsWrite, hop, hrange, h, s₀]
              · exact absurd hin hrange
              · exact absurd hin hrange
        | bootDisable =>
            by_cases hmagic : c.req.payloadBytes 4 = [0xcd, 0xde, 0xba, 0xaa]
            · right
              refine ⟨.inl ⟨hlen, hop, hmagic⟩, by simp [ErasesApplication, hop],
                by simp [AcceptsWrite, hop], [], clearInLastPageOps cfg 2044 s.flash, 2044, ?_, .inr rfl,
                fun _ h => absurd h List.not_mem_nil, .inr rfl⟩
              simp [hstep, bridgeSwitch, hop, bootDisable, hmagic, disableBootloader,
                clearInLastPage_eq, pageSize, s₀]
            · exact .inl (hother (by simp [hstep, bridgeSwitch, hop, bootDisable, hmagic, s₀])
                (by simp [hop]) (by simp [hop]))
        | bootDone =>
            have hswitch : bridgeSwitch cfg c.req s₀ = bootDone cfg c.req s₀ := by
              simp [bridgeSwitch, hop]
            obtain ⟨-, h⟩ | ⟨-, -, h⟩ | ⟨-, -, -, h⟩ := bootDone_cases cfg c.req s₀
            · exact .inl (hother (by rw [hstep, hswitch, h]) (by simp [hop]) (by simp [hop]))
            · exact .inl (hother (by rw [hstep, hswitch, h]) (by simp [hop]) (by simp [hop]))
            · right
              refine ⟨.inr ⟨hop, by rw [hbridge, hswitch, h]⟩, by simp [ErasesApplication, hop],
                by simp [AcceptsWrite, hop], versionOps cfg s, ?_⟩
              have helsewhere : ∀ op ∈ versionOps cfg s, ∀ a, op.Touches a → ¬ InApplication cfg a := by
                rintro op hver a htouch ⟨-, ha⟩
                have hge := versionOps_touches hver htouch
                omega
              rw [hstep, hswitch, h]
              unfold authorizeApplication
              by_cases hauth : isAuthorizedToBoot cfg
                  (s₀.perform cfg (versionOps cfg s₀)).flash = true
              · exact ⟨[], 2040, by rw [if_pos hauth, List.append_nil]; rfl, .inl rfl, helsewhere, .inl rfl⟩
              · refine ⟨_, 2040, ?_, .inl rfl, helsewhere, .inr rfl⟩
                rw [if_neg hauth]
                rfl
  · left
    have hgt : (c.req.len : ℤ) > c.klen - 10 := not_le.mp hlen
    simp [bridgeStep, bootloaderBridge, hgt, ErasesApplication, AcceptsWrite, hlen]

/-! ### Runs -/

/-- What holds all along a run. -/
structure UploadInv (cfg : Config) (r : Upload) : Prop where
  fresh : Fresh (InApplication cfg) (fun _ => True) r.trace
  placed : Placed cfg r.machine.flash r.programmed r.expected r.frontier r.lastPageRewritten

theorem UploadInv.faithful {r : Upload} (h : UploadInv cfg r) : Faithful cfg r :=
  ⟨h.fresh.programmedOnce, h.placed.content⟩

theorem uploadStart_inv (flash : Memory) : UploadInv cfg (uploadStart cfg flash) where
  fresh := trivial
  placed := ⟨fun _ _ => rfl, fun _ ha _ => .inl ha.2, fun _ _ hno => absurd trivial hno⟩

/-- The erase of a command, if it has one. -/
theorem UploadInv.erasePart {r : Upload} (h : UploadInv cfg r) (c : Command) :
    Fresh (InApplication cfg) r.programmed
        (if ErasesApplication cfg r.machine c then eraseApplicationOps cfg else []) ∧
      Placed cfg
        (applyAll cfg.chip r.machine.flash
          (if ErasesApplication cfg r.machine c then eraseApplicationOps cfg else []))
        (markAll r.programmed
          (if ErasesApplication cfg r.machine c then eraseApplicationOps cfg else []))
        (if ErasesApplication cfg r.machine c then
          fun a => if InApplication cfg a then 0xFF else r.expected a else r.expected)
        (if ErasesApplication cfg r.machine c then applicationStartAddr else r.frontier)
        (if ErasesApplication cfg r.machine c then false else r.lastPageRewritten) := by
  by_cases herase : ErasesApplication cfg r.machine c
  · simp only [if_pos herase]
    exact ⟨fresh_of_not_programs fun op hop a _ => not_programs_eraseApplicationOps hop a,
      Placed.erase ..⟩
  · simp only [if_neg herase]
    exact ⟨trivial, h.placed⟩

/-- The write of a command that meets the rule, behind its erase. -/
theorem Ascending.writePart {r : Upload} {c : Command} (hc : Ascending cfg r c) {m : Memory}
    {w : ℕ → Prop} {e : ℕ → UInt8} {frontier : ℕ} {rewritten : Bool}
    (hfrontier : frontier =
      if ErasesApplication cfg r.machine c then applicationStartAddr else r.frontier)
    (hrewritten : rewritten =
      if ErasesApplication cfg r.machine c then false else r.lastPageRewritten)
    (h : Placed cfg m w e frontier rewritten) :
    Fresh (InApplication cfg) w
        (if AcceptsWrite cfg r.machine c then flashWrite c.req.ptr (c.req.payloadBytes c.req.len)
          else []) ∧
      Placed cfg
        (applyAll cfg.chip m
          (if AcceptsWrite cfg r.machine c then flashWrite c.req.ptr (c.req.payloadBytes c.req.len)
            else []))
        (markAll w
          (if AcceptsWrite cfg r.machine c then flashWrite c.req.ptr (c.req.payloadBytes c.req.len)
            else []))
        (if AcceptsWrite cfg r.machine c then fun a =>
          if c.req.ptr ≤ a ∧ a < c.req.ptr + c.req.len then c.req.payload (a - c.req.ptr) else e a
          else e)
        (if AcceptsWrite cfg r.machine c ∧ c.req.len ≠ 0 then c.req.frontier else frontier)
        rewritten := by
  by_cases haccept : AcceptsWrite cfg r.machine c
  · simp only [haccept, if_true, true_and]
    by_cases hlen : c.req.len = 0
    · -- nothing is written, and nothing is called for
      have hnil : flashWrite c.req.ptr (c.req.payloadBytes c.req.len) = [] := by
        rw [hlen, flashWrite, c.req.length_payloadBytes]
        rfl
      have hsame : (fun a => if c.req.ptr ≤ a ∧ a < c.req.ptr + c.req.len then
          c.req.payload (a - c.req.ptr) else e a) = e := by
        funext a
        rw [if_neg (by omega)]
      rw [hnil, hsame, if_neg (not_not.mpr hlen)]
      exact ⟨trivial, h⟩
    · obtain ⟨halign, hplace⟩ := hc haccept hlen
      rw [if_pos hlen]
      have hrange := haccept.2.2.1
      refine h.write hrange halign ?_ fun hre => ?_
      · rcases hplace with herase | ⟨hle, -⟩
        · rw [hfrontier, if_pos herase]
          exact hrange.1
        · rw [hfrontier]
          split
          · exact hrange.1
          · exact hle
      · rw [hrewritten] at hre
        split at hre
        case isTrue => cases hre
        case isFalse hno => exact (hplace.resolve_left hno).2 hre
  · simp only [haccept, if_false, false_and]
    exact ⟨trivial, h⟩

theorem uploadStep_inv {r : Upload} {c : Command} (h : UploadInv cfg r) (hc : Ascending cfg r c) :
    UploadInv cfg (uploadStep cfg r c) := by
  have hflash := @bridgeStep_flash cfg r.machine c
  have hprogrammed : (uploadStep cfg r c).programmed =
      markAll r.programmed (bridgeStep cfg r.machine c).flashOps := markAll_append
  suffices hstep : Fresh (InApplication cfg) r.programmed (bridgeStep cfg r.machine c).flashOps ∧
      Placed cfg (applyAll cfg.chip r.machine.flash (bridgeStep cfg r.machine c).flashOps)
        (markAll r.programmed (bridgeStep cfg r.machine c).flashOps)
        (expectedAfter cfg r.machine c r.expected) (uploadStep cfg r c).frontier
        (uploadStep cfg r c).lastPageRewritten by
    refine ⟨fresh_append.mpr ⟨h.fresh, hstep.1⟩, ?_⟩
    rw [hprogrammed]
    show Placed cfg (bridgeStep cfg r.machine c).flash _ _ _ _
    rw [hflash]
    exact hstep.2
  rcases @bridge_flashOps cfg r.machine c with hops | ⟨hre, herase, haccept, hops⟩
  · obtain ⟨hfresh, hplaced⟩ := h.erasePart c
    obtain ⟨hfresh', hplaced'⟩ := hc.writePart rfl rfl hplaced
    rw [hops, applyAll_append, markAll_append]
    refine ⟨fresh_append.mpr ⟨hfresh, hfresh'⟩, hplaced'.mono fun hlast => ?_⟩
    show (if RewritesLastPage cfg r.machine c then true else _) = true
    split
    · rfl
    · exact hlast
  · obtain ⟨elsewhere, rest, off, heq, hoff, helse, hrest⟩ := hops
    have hplaced := h.placed.outside helse
    have hfresh : Fresh (InApplication cfg) r.programmed elsewhere :=
      fresh_of_not_programs fun op hop a ha hprogram =>
        helse op hop a ((op.touches_iff a).mpr (.inl hprogram)) ha
    have hstep : (uploadStep cfg r c).lastPageRewritten = true := if_pos hre
    have hfront : (uploadStep cfg r c).frontier = r.frontier := by
      show (if AcceptsWrite cfg r.machine c ∧ _ then _ else _) = _
      rw [if_neg (fun hno => haccept hno.1), if_neg herase]
    have hexpected : expectedAfter cfg r.machine c r.expected = r.expected := by
      simp only [expectedAfter, if_neg haccept, if_neg herase]
    rw [heq, applyAll_append, markAll_append, hstep, hfront, hexpected]
    rcases hrest with rfl | rfl
    · exact ⟨fresh_append.mpr ⟨hfresh, trivial⟩, hplaced.mono fun _ => rfl⟩
    · obtain ⟨hfresh', hplaced'⟩ := hplaced.rewrite hoff
      exact ⟨fresh_append.mpr ⟨hfresh, hfresh'⟩, hplaced'⟩

/-- A write that would touch what is programmed is refused, as long as the rule is
met. -/
theorem UploadInv.refuses {r : Upload} {c : Command} (h : UploadInv cfg r) (hc : Ascending cfg r c)
    (hwould : WouldReprogram cfg r c) :
    (bootloaderBridge cfg r.machine c).1 = .returned ctap2ErrNotAllowed ∧
      (bridgeStep cfg r.machine c).flashOps = [] := by
  obtain ⟨hlen, hop, hrange, herase, op, hmem, a, hprogram, hmark⟩ := hwould
  obtain ⟨hops, hout⟩ := bootWrite_flashOps_eq (s := r.machine) hlen hop hrange
  have hno : ¬ AcceptsWrite cfg r.machine c := by
    intro haccept
    obtain ⟨hfresh, -⟩ := hc.writePart (if_neg herase).symm (if_neg herase).symm h.placed
    rw [if_pos haccept] at hfresh
    have hin := flashWrite_withinApplication hrange op hmem a ((op.touches_iff a).mpr (.inl hprogram))
    exact hfresh.not_marked (fun o ho => not_erases_programs ho) hmem hin hprogram hmark
  rw [hops, hout, if_neg herase, if_neg hno, if_neg hno]
  exact ⟨rfl, rfl⟩

end Config

/-- In every run whose accepted writes start at a double word behind the one
written last and keep out of a rewritten last page, no double word of the
application is programmed twice between two erases, the application holds the
bytes of the accepted writes, and a write that would touch what is programmed is
refused. -/
theorem upload_faithful (cfg : Config) (flash : Memory) (cs : List Command)
    (h : Along (uploadStep cfg) (Ascending cfg) (uploadStart cfg flash) cs) :
    Faithful cfg (run (uploadStep cfg) (uploadStart cfg flash) cs) ∧
      Along (uploadStep cfg) (fun r c => WouldReprogram cfg r c →
        (bootloaderBridge cfg r.machine c).1 = .returned ctap2ErrNotAllowed ∧
          (bridgeStep cfg r.machine c).flashOps = []) (uploadStart cfg flash) cs :=
  ⟨(invariant_run (fun _ _ => uploadStep_inv) (uploadStart_inv flash) h).faithful,
    Along.of_invariant (fun _ _ => uploadStep_inv) (fun _ _ => UploadInv.refuses)
      (uploadStart_inv flash) h⟩

/-- Eight bytes to the start of the application, and eight others behind them. -/
def demoFirst : Command :=
  commandOf ([0x40, 0x00, 0x50, 0x00, 0, 0, 0, 0, 0, 8] ++ List.replicate 8 0x11)

def demoSecond : Command :=
  commandOf ([0x40, 0x08, 0x50, 0x00, 0, 0, 0, 0, 0, 8] ++ List.replicate 8 0x22)

/-- Eight others to the same place. -/
def demoAgain : Command :=
  commandOf ([0x40, 0x00, 0x50, 0x00, 0, 0, 0, 0, 0, 8] ++ List.replicate 8 0x22)

theorem upload_faithful_demo :
    Faithful demoConfig (run (uploadStep demoConfig) (uploadStart demoConfig fun _ => 0)
      [demoFirst, demoSecond]) :=
  (upload_faithful demoConfig (fun _ => 0) [demoFirst, demoSecond] (by decide +kernel)).1

/-- The second write ends where the first one does, and is carried out. -/
theorem upload_counterexample :
    ¬ Faithful demoConfig (run (uploadStep demoConfig) (uploadStart demoConfig fun _ => 0)
      [demoFirst, demoAgain]) := by
  intro h
  have htrace : (run (uploadStep demoConfig) (uploadStart demoConfig fun _ => 0)
      [demoFirst, demoAgain]).trace =
      eraseApplicationOps demoConfig ++ .program 0x8005000 (List.replicate 8 0x11) ::
        ([] ++ .program 0x8005000 (List.replicate 8 0x22) :: []) := by
    decide +kernel
  obtain ⟨e, he, -⟩ := h.once _ _ _ _ _ 0x8005000 htrace (by decide) ⟨le_rfl, by decide⟩
    ⟨le_rfl, by decide⟩
  exact absurd he List.not_mem_nil

end NitrokeyFido2.Bootloader
