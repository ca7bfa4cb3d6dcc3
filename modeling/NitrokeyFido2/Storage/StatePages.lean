import NitrokeyFido2.Bootloader.FlashSequences
import NitrokeyFido2.Ctap.Types

/-!
The two pages of the persistent state.

`authenticator_write_state` rewrites one page after the other, and
`authenticator_read_state` falls back to the second one when the first has no
marker. The marker is the first byte of the state, so it is there as soon as
the first double word is, and a page that was only begun is taken for a whole
one.
-/

namespace NitrokeyFido2.Storage

open NorFlash Bootloader Ctap

variable (chip : Chip) (b : Board)

/-! ### Pages -/

/-- `STATE1_PAGE`. -/
def state1Page : ℕ := b.pages - 1

/-- `STATE2_PAGE`. -/
def state2Page : ℕ := b.pages - 2

/-- `sizeof(AuthenticatorState)`, padding included. -/
abbrev stateSize : ℕ := 208

abbrev StateBytes := Buf stateSize

/-- `is_initialized == INITIALIZED_MARKER`. -/
def hasMarker (s : StateBytes) : Prop := s.byte 0 = initializedMarker

instance : DecidablePred hasMarker := fun s => inferInstanceAs (Decidable (s.byte 0 = _))

/-- The state as it lies in a page. -/
def loadState (flash : Memory) (page : ℕ) : StateBytes :=
  ⟨flash.read (flashAddr page) stateSize, Memory.length_read ..⟩

/-- `authenticator_is_backup_initialized`. -/
def authenticatorIsBackupInitialized (flash : Memory) : Bool :=
  (flash.read (flashAddr (state2Page b)) 16).getD 0 0 = initializedMarker

/-- Erase a page and write to its start. -/
def rewritePage (page : ℕ) (data : List UInt8) : List Op :=
  flashErasePage page :: flashWrite (flashAddr page) data

/-- `authenticator_write_state`. -/
def authenticatorWriteState (s : StateBytes) : List Op :=
  rewritePage (state1Page b) s.bytes ++ rewritePage (state2Page b) s.bytes

/-- What a call of `authenticator_read_state` returns, and its flash
operations. -/
structure StateRead where
  success : Bool
  state : StateBytes
  ops : List Op

/-- `authenticator_read_state`. -/
def authenticatorReadState (flash : Memory) : StateRead :=
  let a := loadState flash (state1Page b)
  if ¬ hasMarker a then
    if authenticatorIsBackupInitialized b flash then
      let a := loadState flash (state2Page b)
      ⟨true, a, authenticatorWriteState b a⟩
    else ⟨false, a, []⟩
  else ⟨true, a, []⟩

/-! ### Rewriting a page -/

theorem flashAddr_mod (page : ℕ) : flashAddr page % 8 = 0 := by
  unfold flashAddr pageSize
  omega

theorem length_flashWrite (addr : ℕ) (data : List UInt8) :
    (flashWrite addr data).length = (data.length + 7) / 8 := length_programs ..

theorem rewritePage_touches {page : ℕ} {data : List UInt8} (hsize : data.length ≤ pageSize) {op : Op}
    (hop : op ∈ rewritePage page data) {a : ℕ} (ha : op.Touches a) :
    flashAddr page ≤ a ∧ a < flashAddr page + pageSize := by
  rcases List.mem_cons.mp hop with rfl | hop
  · exact ha
  · have hmod := flashAddr_mod page
    have hbound := flashWrite_touches hop ha
    unfold pageSize at *
    omega

/-- Other bytes are left alone. -/
theorem applyAll_rewritePage_other {page : ℕ} {data : List UInt8} (hsize : data.length ≤ pageSize)
    {ops : List Op} (hops : ops ⊆ rewritePage page data) (m : Memory) {a : ℕ}
    (ha : ¬ (flashAddr page ≤ a ∧ a < flashAddr page + pageSize)) :
    applyAll chip m ops a = m a :=
  applyAll_outside chip m ops fun _ hop htouch => ha (rewritePage_touches hsize (hops hop) htouch)

/-- The page after its erase and `k` double words. -/
theorem applyAll_rewritePage_take {page : ℕ} {data : List UInt8} (hlen : data.length % 8 = 0)
    (hsize : data.length ≤ pageSize) (m : Memory) (k : ℕ) {i : ℕ} (hi : i < pageSize) :
    applyAll chip m ((rewritePage page data).take (k + 1)) (flashAddr page + i) =
      if i < 8 * k then data.getD i 0xFF else 0xFF := by
  have herased : ∀ a, flashAddr page ≤ a → a < flashAddr page + pageSize →
      (flashErasePage page).apply chip m a = 0xFF := fun a h h' =>
    Op.apply_erase_inside chip m h h'
  rw [rewritePage, List.take_succ_cons, applyAll_cons,
    applyAll_flashWrite_take chip (flashAddr_mod page)
      (fun a h h' => herased a h (by omega)) hlen]
  have hdiff : flashAddr page + i - flashAddr page = i := by omega
  by_cases hin : i < 8 * min k (data.length / 8)
  · rw [if_pos (by omega), if_pos (by omega), hdiff]
  · rw [if_neg (by omega), herased _ (by omega) (by omega)]
    split
    · rw [List.getD_eq_default _ _ (by omega)]
    · rfl

/-! ### Writing the state -/

/-- What a page holds after its erase and `n` double words of the state. -/
def writtenFirst (n : ℕ) (s : StateBytes) : StateBytes :=
  ⟨s.bytes.take (8 * n) ++ List.replicate (stateSize - 8 * n) 0xFF, by
    rw [List.length_append, List.length_take, List.length_replicate, s.length_bytes]
    omega⟩

theorem getD_writtenFirst (n : ℕ) (s : StateBytes) {i : ℕ} (hi : i < stateSize) :
    (writtenFirst n s).bytes.getD i 0 = if i < 8 * n then s.bytes.getD i 0 else 0xFF := by
  have hlen := s.length_bytes
  unfold writtenFirst
  split
  case isTrue h =>
    rw [List.getD_append _ _ _ _ (by rw [List.length_take]; omega), List.getD_eq_getElem?_getD,
      List.getElem?_take_of_lt h, List.getD_eq_getElem?_getD]
  case isFalse h =>
    rw [List.getD_append_right _ _ _ _ (by rw [List.length_take]; omega), List.getD_replicate]
    rw [List.length_take]
    omega

theorem writtenFirst_all {n : ℕ} (hn : stateSize ≤ 8 * n) (s : StateBytes) : writtenFirst n s = s := by
  ext1
  change s.bytes.take (8 * n) ++ List.replicate (stateSize - 8 * n) 0xFF = s.bytes
  rw [Nat.sub_eq_zero_of_le hn, List.replicate_zero, List.append_nil,
    List.take_of_length_le (by rw [s.length_bytes]; exact hn)]

theorem not_hasMarker_erased (s : StateBytes) : ¬ hasMarker (writtenFirst 0 s) := by
  unfold hasMarker Buf.byte
  rw [getD_writtenFirst 0 s (by decide), if_neg (by decide)]
  decide

theorem hasMarker_writtenFirst (n : ℕ) (s : StateBytes) :
    hasMarker (writtenFirst (n + 1) s) ↔ hasMarker s := by
  unfold hasMarker Buf.byte
  rw [getD_writtenFirst _ s (by decide), if_pos (by omega)]

theorem stateBytes_ext {s t : StateBytes} (h : ∀ i < stateSize, s.bytes.getD i 0 = t.bytes.getD i 0) :
    s = t := by
  ext1
  refine List.ext_getElem (s.length_bytes.trans t.length_bytes.symm) fun i hs ht => ?_
  have hi := h i (s.length_bytes ▸ hs)
  rwa [List.getD_eq_getElem _ _ hs, List.getD_eq_getElem _ _ ht] at hi

theorem getD_loadState (flash : Memory) (page : ℕ) {i : ℕ} (hi : i < stateSize) :
    (loadState flash page).bytes.getD i 0 = flash (flashAddr page + i) :=
  Memory.getD_read flash (flashAddr page) stateSize i 0 hi

theorem loadState_congr {m n : Memory} {page : ℕ}
    (h : ∀ i < stateSize, m (flashAddr page + i) = n (flashAddr page + i)) :
    loadState m page = loadState n page :=
  stateBytes_ext fun i hi => by rw [getD_loadState _ _ hi, getD_loadState _ _ hi, h i hi]

theorem loadState_rewritePage (m : Memory) (page : ℕ) (s : StateBytes) (k : ℕ) :
    loadState (applyAll chip m ((rewritePage page s.bytes).take (k + 1))) page = writtenFirst k s := by
  refine stateBytes_ext fun i hi => ?_
  have hsize : i < pageSize := lt_trans hi (by decide)
  rw [getD_loadState _ _ hi, getD_writtenFirst k s hi,
    applyAll_rewritePage_take chip (by rw [s.length_bytes]; rfl) (by rw [s.length_bytes]; decide) m k hsize,
    List.getD_eq_getElem _ _ (s.length_bytes.symm ▸ hi), List.getD_eq_getElem _ _ (s.length_bytes.symm ▸ hi)]

theorem state2Page_lt (b : Board) : flashAddr (state2Page b) + pageSize ≤ flashAddr (state1Page b) := by
  cases b <;> decide

theorem loadState_other (m : Memory) {page other : ℕ} (s : StateBytes) {ops : List Op}
    (hops : ops ⊆ rewritePage other s.bytes)
    (hne : flashAddr other + pageSize ≤ flashAddr page ∨ flashAddr page + pageSize ≤ flashAddr other) :
    loadState (applyAll chip m ops) page = loadState m page := by
  refine loadState_congr fun i hi => ?_
  refine applyAll_rewritePage_other chip (by rw [s.length_bytes]; decide) hops m ?_
  have hi : i < pageSize := lt_trans hi (by decide)
  omega

theorem length_rewritePage (page : ℕ) (s : StateBytes) : (rewritePage page s.bytes).length = 27 := by
  rw [rewritePage, List.length_cons, length_flashWrite, s.length_bytes]
  rfl

/-- The first page after the erase and `k` more operations of a write. -/
theorem loadState1_write (m : Memory) (s : StateBytes) (k : ℕ) :
    loadState (applyAll chip m ((authenticatorWriteState b s).take (k + 1))) (state1Page b) =
      writtenFirst k s := by
  rw [authenticatorWriteState, List.take_append, applyAll_append,
    loadState_other chip _ s (List.take_subset _ _) (.inl (state2Page_lt b)),
    loadState_rewritePage]

/-- The second page is left alone until the first is written. -/
theorem loadState2_write (m : Memory) (s : StateBytes) {k : ℕ} (hk : k ≤ 27) :
    loadState (applyAll chip m ((authenticatorWriteState b s).take k)) (state2Page b) =
      loadState m (state2Page b) := by
  rw [authenticatorWriteState, List.take_append, length_rewritePage, Nat.sub_eq_zero_of_le hk,
    List.take_zero, List.append_nil]
  exact loadState_other chip m s (List.take_subset _ _) (.inr (state2Page_lt b))

/-- Without a power cut both pages hold the state. -/
theorem loadState_written (m : Memory) (s : StateBytes) :
    loadState (applyAll chip m (authenticatorWriteState b s)) (state1Page b) = s ∧
      loadState (applyAll chip m (authenticatorWriteState b s)) (state2Page b) = s := by
  have hlen : (authenticatorWriteState b s).length = 54 := by
    rw [authenticatorWriteState, List.length_append, length_rewritePage, length_rewritePage]
  constructor
  · have h := loadState1_write chip b m s 53
    rwa [List.take_of_length_le (by omega), writtenFirst_all (by decide)] at h
  · have h := loadState_rewritePage chip (applyAll chip m (rewritePage (state1Page b) s.bytes))
      (state2Page b) s 26
    rw [List.take_of_length_le (by rw [length_rewritePage]), writtenFirst_all (by decide)] at h
    rw [authenticatorWriteState, applyAll_append, h]

/-! ### Power cuts -/

/-- A write of the state that loses power after `k` operations. -/
def cutWrite (m : Memory) (s : StateBytes) (k : ℕ) : Memory :=
  applyAll chip m ((authenticatorWriteState b s).take k)

/-- A read of the state that loses power after `k` operations of its
restore. -/
def cutRead (m : Memory) (k : ℕ) : Memory :=
  applyAll chip m ((authenticatorReadState b m).ops.take k)

/-- One such read after the other. -/
def cutReads (m : Memory) (ks : List ℕ) : Memory := ks.foldl (cutRead chip b) m

theorem authenticatorIsBackupInitialized_iff (m : Memory) :
    authenticatorIsBackupInitialized b m = true ↔ hasMarker (loadState m (state2Page b)) := by
  unfold authenticatorIsBackupInitialized hasMarker Buf.byte
  rw [getD_loadState _ _ (by decide), Memory.getD_read _ _ _ _ _ (by decide), decide_eq_true_iff]

theorem authenticatorReadState_first {m : Memory} (h : hasMarker (loadState m (state1Page b))) :
    authenticatorReadState b m = ⟨true, loadState m (state1Page b), []⟩ := by
  simp only [authenticatorReadState, h, not_true_eq_false, if_false]

theorem authenticatorReadState_backup {m : Memory} (h₁ : ¬ hasMarker (loadState m (state1Page b)))
    (h₂ : hasMarker (loadState m (state2Page b))) :
    authenticatorReadState b m =
      ⟨true, loadState m (state2Page b), authenticatorWriteState b (loadState m (state2Page b))⟩ := by
  simp only [authenticatorReadState, h₁, not_false_eq_true, if_true,
    (authenticatorIsBackupInitialized_iff b m).mpr h₂]

/-- Once the first page has a marker no read writes anything. -/
theorem cutReads_first {m : Memory} (h : hasMarker (loadState m (state1Page b))) (ks : List ℕ) :
    cutReads chip b m ks = m := by
  induction ks with
  | nil => rfl
  | cons k ks ih =>
      have hcut : cutRead chip b m k = m := by
        rw [cutRead, authenticatorReadState_first b h, List.take_nil, applyAll_nil]
      rw [cutReads, List.foldl_cons, hcut]
      exact ih

/-- The first page is erased and the second one is whole. -/
structure BackupOnly (m : Memory) (s : StateBytes) : Prop where
  first : loadState m (state1Page b) = writtenFirst 0 s
  second : loadState m (state2Page b) = s

variable {b}

theorem BackupOnly.read {m : Memory} {s : StateBytes} (h : BackupOnly b m s) (hs : hasMarker s) :
    authenticatorReadState b m = ⟨true, s, authenticatorWriteState b s⟩ := by
  rw [authenticatorReadState_backup b (by rw [h.first]; exact not_hasMarker_erased s)
    (by rw [h.second]; exact hs), h.second]

/-- A restore that is cut before its second word was written starts over. -/
theorem BackupOnly.cutRead {m : Memory} {s : StateBytes} (h : BackupOnly b m s) (hs : hasMarker s)
    {k : ℕ} (hk : k < 2) : BackupOnly b (cutRead chip b m k) s := by
  have hread := h.read hs
  have hsecond : loadState (Storage.cutRead chip b m k) (state2Page b) = s := by
    rw [Storage.cutRead, hread, loadState2_write chip b m s (by omega), h.second]
  refine ⟨?_, hsecond⟩
  obtain rfl | rfl : k = 0 ∨ k = 1 := by omega
  · exact h.first
  · rw [Storage.cutRead, hread]
    exact loadState1_write chip b m s 0

/-- What the next read returns after reads that were cut: the backup, or
what the first restore to write something left of it. -/
theorem BackupOnly.read_cutReads {m : Memory} {s : StateBytes} (h : BackupOnly b m s)
    (hs : hasMarker s) (ks : List ℕ) :
    (authenticatorReadState b (cutReads chip b m ks)).success = true ∧
      (authenticatorReadState b (cutReads chip b m ks)).state =
        ((ks.find? (2 ≤ ·)).map fun k => writtenFirst (k - 1) s).getD s := by
  induction ks generalizing m with
  | nil =>
      rw [cutReads, List.foldl_nil, h.read hs]
      exact ⟨rfl, rfl⟩
  | cons k ks ih =>
      rw [cutReads, List.foldl_cons, ← cutReads, List.find?_cons]
      by_cases hk : 2 ≤ k
      · obtain ⟨n, rfl⟩ : ∃ n, k = n + 2 := ⟨k - 2, by omega⟩
        have hfirst : loadState (Storage.cutRead chip b m (n + 2)) (state1Page b) =
            writtenFirst (n + 1) s := by
          rw [Storage.cutRead, h.read hs]
          exact loadState1_write chip b m s (n + 1)
        have hmarker : hasMarker (loadState (Storage.cutRead chip b m (n + 2)) (state1Page b)) := by
          rw [hfirst]
          exact (hasMarker_writtenFirst n s).mpr hs
        rw [cutReads_first chip b hmarker, authenticatorReadState_first b hmarker, hfirst,
          decide_eq_true hk]
        exact ⟨rfl, rfl⟩
      · rw [decide_eq_false hk]
        exact ih (h.cutRead chip hs (by omega))

/-- What the next read returns after a write of `s₁` over `s₀` was cut after
`k` operations and reads after it were cut too. -/
def recoveredState (s₀ s₁ : StateBytes) : ℕ → List ℕ → StateBytes
  | 0, _ => s₀
  | 1, ks => ((ks.find? (2 ≤ ·)).map fun k => writtenFirst (k - 1) s₀).getD s₀
  | n + 2, _ => writtenFirst (n + 1) s₁

theorem read_after_cuts {m : Memory} {s₀ s₁ : StateBytes} (h₁ : loadState m (state1Page b) = s₀)
    (h₂ : loadState m (state2Page b) = s₀) (hs₀ : hasMarker s₀) (hs₁ : hasMarker s₁) (k : ℕ)
    (ks : List ℕ) :
    (authenticatorReadState b (cutReads chip b (cutWrite chip b m s₁ k) ks)).success = true ∧
      (authenticatorReadState b (cutReads chip b (cutWrite chip b m s₁ k) ks)).state =
        recoveredState s₀ s₁ k ks := by
  match k with
  | 0 =>
      have hmarker : hasMarker (loadState (cutWrite chip b m s₁ 0) (state1Page b)) := by
        rw [cutWrite, List.take_zero, applyAll_nil, h₁]
        exact hs₀
      rw [cutReads_first chip b hmarker, authenticatorReadState_first b hmarker]
      exact ⟨rfl, h₁⟩
  | 1 =>
      have hbackup : BackupOnly b (cutWrite chip b m s₁ 1) s₀ := by
        constructor
        · refine (loadState1_write chip b m s₁ 0).trans (stateBytes_ext fun i hi => ?_)
          rw [getD_writtenFirst 0 s₁ hi, getD_writtenFirst 0 s₀ hi, if_neg (by omega),
            if_neg (by omega)]
        · exact (loadState2_write chip b m s₁ (by omega)).trans h₂
      exact hbackup.read_cutReads chip hs₀ ks
  | n + 2 =>
      have hfirst : loadState (cutWrite chip b m s₁ (n + 2)) (state1Page b) =
          writtenFirst (n + 1) s₁ := loadState1_write chip b m s₁ (n + 1)
      have hmarker : hasMarker (loadState (cutWrite chip b m s₁ (n + 2)) (state1Page b)) := by
        rw [hfirst]
        exact (hasMarker_writtenFirst n s₁).mpr hs₁
      rw [cutReads_first chip b hmarker, authenticatorReadState_first b hmarker]
      exact ⟨rfl, hfirst⟩

/-! ### When the state survives -/

/-- The next read succeeds with the old state or with the new one. -/
def Survives (b : Board) (s₀ s₁ : StateBytes) (m : Memory) : Prop :=
  (authenticatorReadState b m).success = true ∧
    ((authenticatorReadState b m).state = s₀ ∨ (authenticatorReadState b m).state = s₁)

/-- The first `n` double words of `s`, with nothing written after them, are
all of `t`: the two agree that far, and `t` has only erased bytes further
on. -/
def Completes (n : ℕ) (s t : StateBytes) : Prop :=
  ∀ i < stateSize, t.bytes.getD i 0 = if i < 8 * n then s.bytes.getD i 0 else 0xFF

instance (n : ℕ) (s t : StateBytes) : Decidable (Completes n s t) :=
  Nat.decidableBallLT stateSize fun i _ =>
    t.bytes.getD i 0 = if i < 8 * n then s.bytes.getD i 0 else 0xFF

/-- Either the cut leaves one page whole, or what it leaves of the state
being written is all there was to write. A first page that was only erased
is restored from the second one, and then the first cut that lets the
restore write something counts. -/
def CutsHarmless (s₀ s₁ : StateBytes) : ℕ → List ℕ → Prop
  | 0, _ => True
  | 1, ks => ∀ k ∈ ks.find? (2 ≤ ·), Completes (k - 1) s₀ s₀ ∨ Completes (k - 1) s₀ s₁
  | n + 2, _ => Completes (n + 1) s₁ s₀ ∨ Completes (n + 1) s₁ s₁

theorem writtenFirst_eq_iff (n : ℕ) (s t : StateBytes) : writtenFirst n s = t ↔ Completes n s t := by
  constructor
  · rintro rfl i hi
    exact getD_writtenFirst n s hi
  · intro h
    exact stateBytes_ext fun i hi => (getD_writtenFirst n s hi).trans (h i hi).symm

theorem recoveredState_iff (s₀ s₁ : StateBytes) (k : ℕ) (ks : List ℕ) :
    (recoveredState s₀ s₁ k ks = s₀ ∨ recoveredState s₀ s₁ k ks = s₁) ↔ CutsHarmless s₀ s₁ k ks := by
  match k with
  | 0 => exact iff_of_true (.inl rfl) trivial
  | 1 =>
      rw [recoveredState, CutsHarmless]
      cases ks.find? (2 ≤ ·) with
      | none => exact iff_of_true (.inl rfl) fun _ h => absurd h (Option.not_mem_none _)
      | some k =>
          rw [Option.map_some, Option.getD_some, writtenFirst_eq_iff, writtenFirst_eq_iff]
          constructor
          · intro h _ hk
            rwa [← Option.some.inj hk]
          · exact fun h => h k rfl
  | n + 2 => rw [recoveredState, CutsHarmless, writtenFirst_eq_iff, writtenFirst_eq_iff]

/-- The state survives a write that is cut, and reads that are cut after it,
exactly when the cuts are harmless. -/
theorem state_survives_iff (chip : Chip) (b : Board) (m : Memory) (s₀ s₁ : StateBytes)
    (h₁ : loadState m (state1Page b) = s₀) (h₂ : loadState m (state2Page b) = s₀)
    (hs₀ : hasMarker s₀) (hs₁ : hasMarker s₁) (k : ℕ) (ks : List ℕ) :
    Survives b s₀ s₁ (cutReads chip b (cutWrite chip b m s₁ k) ks) ↔ CutsHarmless s₀ s₁ k ks := by
  obtain ⟨hsuccess, hstate⟩ := read_after_cuts chip h₁ h₂ hs₀ hs₁ k ks
  unfold Survives
  rw [hstate, recoveredState_iff]
  exact and_iff_right hsuccess

/-- The marker and nothing else. -/
def demoOldState : StateBytes := ⟨initializedMarker :: List.replicate 207 0, rfl⟩

/-- A state with something behind its first double word. -/
def demoNewState : StateBytes := ⟨initializedMarker :: List.replicate 207 1, rfl⟩

/-- Both pages hold the old state. -/
def demoPages : Memory := fun a =>
  if a = flashAddr (state1Page .pages128) ∨ a = flashAddr (state2Page .pages128) then
    initializedMarker
  else 0

theorem loadState_demoPages :
    loadState demoPages (state1Page .pages128) = demoOldState ∧
      loadState demoPages (state2Page .pages128) = demoOldState := by
  constructor <;> decide +kernel

/-- A cut between the two pages. -/
theorem state_survives_iff_demo :
    Survives .pages128 demoOldState demoNewState
        (cutReads ⟨fun _ _ _ => 0⟩ .pages128
          (cutWrite ⟨fun _ _ _ => 0⟩ .pages128 demoPages demoNewState 28) [3]) ↔
      CutsHarmless demoOldState demoNewState 28 [3] :=
  state_survives_iff _ _ _ _ demoNewState loadState_demoPages.1 loadState_demoPages.2 rfl rfl 28 [3]

/-- Power is lost after the first double word of the new state: the marker
is there, and the rest of the first page is taken for the state. -/
theorem state_survives_counterexample :
    ¬ Survives .pages128 demoOldState demoNewState
      (cutReads ⟨fun _ _ _ => 0⟩ .pages128
        (cutWrite ⟨fun _ _ _ => 0⟩ .pages128 demoPages demoNewState 2) []) := by
  intro h
  have hstate := (read_after_cuts ⟨fun _ _ _ => 0⟩ loadState_demoPages.1 loadState_demoPages.2 rfl
    (show hasMarker demoNewState from rfl) 2 []).2
  have hone := h.2
  rw [hstate, recoveredState_iff] at hone
  exact absurd (show Completes 1 _ _ ∨ Completes 1 _ _ from hone) (by decide +kernel)

end NitrokeyFido2.Storage
