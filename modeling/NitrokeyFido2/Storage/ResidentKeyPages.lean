import NitrokeyFido2.Lib.PagedRecords
import NitrokeyFido2.Storage.StatePages
import NitrokeyFido2.Ctap.Device

/-!
The pages of the resident keys.

A record is found by an `int` index, which the division and the remainder by an
unsigned number of records take for an unsigned one: a negative index becomes a
page far behind the last. What is in bounds is replaced through a copy of its
page. Every run of the five functions goes on the flash as on an array of
records.
-/

namespace NitrokeyFido2.Storage

open NorFlash Bootloader PagedRecords

variable (chip : Chip) (b : Board)

/-! ### The functions -/

/-- `RK_NUM_PAGES`. -/
def rkNumPages : ℕ := 10

/-- `RK_START_PAGE`. -/
def rkStartPage : ℕ := b.pages - 14

/-- `RK_END_PAGE`, not included. -/
def rkEndPage : ℕ := b.pages - 14 + rkNumPages

/-- `sizeof(CTAP_residentKey)`: the identifier, the user entity, `rpId` and
`rpIdSize`. -/
abbrev rkSize : ℕ :=
  Ctap.credentialIdSize + (Ctap.userIdMaxSize + 1 + Ctap.userNameLimit + Ctap.displayNameLimit +
    Ctap.iconLimit) + Ctap.rpidLimit + 1

abbrev RkBytes := Buf rkSize

/-- `PAGE_SIZE/sizeof(CTAP_residentKey)`, an unsigned number. -/
def rksPerPage : UInt32 := UInt32.ofNat pageSize / UInt32.ofNat rkSize

/-- `ctap_rk_size`. -/
def ctapRkSize : ℕ := rkNumPages * rksPerPage.toNat

/-- `byte_offset_into_page`. -/
def byteOffsetIntoPage (index : Int32) : Int32 :=
  (UInt32.ofNat rkSize * (index.toUInt32 % rksPerPage)).toInt32

/-- `page_offset`. -/
def pageOffset (index : Int32) : Int32 := (index.toUInt32 / rksPerPage).toInt32

/-- `page_offset < RK_NUM_PAGES`. -/
def pageInBounds (index : Int32) : Bool := pageOffset index < Int32.ofNat rkNumPages

/-- `RK_START_PAGE + page_offset`. -/
def rkPage (index : Int32) : ℕ := rkStartPage b + (pageOffset index).toNatClampNeg

/-- `addr`, where a record in bounds lies. -/
def rkAddr (index : Int32) : ℕ := flashAddr (rkPage b index) + (byteOffsetIntoPage index).toNatClampNeg

/-- `ctap_load_rk`: what it leaves at `rk`. -/
def ctapLoadRk (flash : Memory) (index : Int32) (rk : RkBytes) : RkBytes :=
  if pageInBounds index then ⟨flash.read (rkAddr b index) rkSize, Memory.length_read ..⟩ else rk

/-- `ctap_overwrite_rk`. -/
def ctapOverwriteRk (flash : Memory) (index : Int32) (rk : RkBytes) : List Op :=
  if pageInBounds index then
    let tmppage := flash.read (flashAddr (rkPage b index)) pageSize
    rewritePage (rkPage b index)
      (Bytes.overwrite tmppage (byteOffsetIntoPage index).toNatClampNeg rk.bytes)
  else []

/-- `ctap_store_rk`. -/
def ctapStoreRk (flash : Memory) (index : Int32) (rk : RkBytes) : List Op :=
  ctapOverwriteRk b flash index rk

/-- `ctap_delete_rk`. -/
def ctapDeleteRk (flash : Memory) (index : Int32) : List Op :=
  ctapOverwriteRk b flash index (Buf.fill rkSize 0xff)

/-- `ctap_reset_rk`. -/
def ctapResetRk : List Op := (List.range rkNumPages).map fun i => flashErasePage (rkStartPage b + i)

/-- A call of one of the five functions. -/
inductive RkCall
  | store (index : Int32) (rk : RkBytes)
  | overwrite (index : Int32) (rk : RkBytes)
  | delete (index : Int32)
  | load (index : Int32) (rk : RkBytes)
  | reset

/-- The flash operations of a call. -/
def RkCall.ops (flash : Memory) : RkCall → List Op
  | .store index rk => ctapStoreRk b flash index rk
  | .overwrite index rk => ctapOverwriteRk b flash index rk
  | .delete index => ctapDeleteRk b flash index
  | .load _ _ => []
  | .reset => ctapResetRk b

/-- What a load leaves at its destination. -/
def RkCall.loaded (flash : Memory) : RkCall → Option RkBytes
  | .load index rk => some (ctapLoadRk b flash index rk)
  | _ => none

/-- The flash after the calls, what their loads found, and all of their flash
operations. -/
def rkRun (flash : Memory) : List RkCall → Memory × List (Option RkBytes) × List Op
  | [] => (flash, [], [])
  | c :: cs =>
      let ops := c.ops b flash
      let (flash', loaded, rest) := rkRun (applyAll chip flash ops) cs
      (flash', c.loaded b flash :: loaded, ops ++ rest)

/-! ### An array of records -/

section Array

variable {α : Type} (erased : α)

/-- The record at an index, or what was there before. -/
def arrayLoad (rks : List α) (index : ℤ) (rk : α) : α :=
  if index < 0 then rk else rks.getD index.toNat rk

/-- The array with another record at an index. -/
def arrayStore (rks : List α) (index : ℤ) (rk : α) : List α :=
  if index < 0 then rks else rks.set index.toNat rk

end Array

/-- A call on an array: what it leaves and what its load finds. -/
def RkCall.onArray (rks : List RkBytes) : RkCall → List RkBytes × Option RkBytes
  | .store index rk | .overwrite index rk => (arrayStore rks index.toInt rk, none)
  | .delete index => (arrayStore rks index.toInt (Buf.fill rkSize 0xff), none)
  | .load index rk => (rks, some (arrayLoad rks index.toInt rk))
  | .reset => (List.replicate rks.length (Buf.fill rkSize 0xff), none)

def arrayRun (rks : List RkBytes) : List RkCall → List RkBytes × List (Option RkBytes)
  | [] => (rks, [])
  | c :: cs =>
      let (rks', loaded) := arrayRun (c.onArray rks).1 cs
      (rks', (c.onArray rks).2 :: loaded)

/-! ### Indices -/

theorem rksPerPage_eq : rksPerPage = 5 := by decide

theorem ctapRkSize_eq : ctapRkSize = 50 := by decide

theorem toInt_toInt32 {x : UInt32} (h : x.toNat < 2 ^ 31) : x.toInt32.toInt = x.toNat := by
  apply BitVec.toInt_eq_toNat_of_lt
  rw [UInt32.toBitVec_toInt32, UInt32.toNat_toBitVec]
  omega

theorem toInt_pageOffset (index : Int32) :
    (pageOffset index).toInt = (index.toUInt32.toNat / 5 : ℕ) := by
  have hlt := index.toUInt32.toNat_lt
  have hdiv : (index.toUInt32 / rksPerPage).toNat = index.toUInt32.toNat / 5 := by
    rw [rksPerPage_eq, UInt32.toNat_div]
    rfl
  rw [pageOffset, toInt_toInt32 (by omega), hdiv]

theorem toInt_byteOffsetIntoPage (index : Int32) :
    (byteOffsetIntoPage index).toInt = (rkSize * (index.toUInt32.toNat % 5) : ℕ) := by
  have hmod := Nat.mod_lt index.toUInt32.toNat (show 0 < 5 by decide)
  have hrem : (index.toUInt32 % rksPerPage).toNat = index.toUInt32.toNat % 5 := by
    rw [rksPerPage_eq, UInt32.toNat_mod]
    rfl
  have hmul : (UInt32.ofNat rkSize * (index.toUInt32 % rksPerPage)).toNat =
      rkSize * (index.toUInt32.toNat % 5) := by
    rw [UInt32.toNat_mul, hrem]
    show 409 * (index.toUInt32.toNat % 5) % 2 ^ 32 = 409 * (index.toUInt32.toNat % 5)
    omega
  have hsmall : rkSize * (index.toUInt32.toNat % 5) < 2 ^ 31 := by
    show 409 * (index.toUInt32.toNat % 5) < 2 ^ 31
    omega
  rw [byteOffsetIntoPage, toInt_toInt32 (by rwa [hmul]), hmul]

theorem toInt_eq_cond (index : Int32) :
    index.toInt = if 2 * index.toUInt32.toNat < 2 ^ 32 then (index.toUInt32.toNat : ℤ)
      else index.toUInt32.toNat - (2 ^ 32 : ℕ) :=
  BitVec.toInt_eq_toNat_cond index.toBitVec

/-- A page in bounds is one of an index of the array; a negative index counts as
one behind it. -/
theorem pageInBounds_iff (index : Int32) :
    pageInBounds index = true ↔ 0 ≤ index.toInt ∧ index.toInt < ctapRkSize := by
  have hlt := index.toUInt32.toNat_lt
  have hten : (Int32.ofNat rkNumPages).toInt = 10 := by decide
  rw [pageInBounds, decide_eq_true_iff, Int32.lt_iff_toInt_lt, toInt_pageOffset, hten,
    ctapRkSize_eq, toInt_eq_cond]
  split
  · omega
  · omega

/-- The index as a natural number, when it is in bounds. -/
theorem toUInt32_of_inBounds {index : Int32} (h : pageInBounds index = true) :
    index.toUInt32.toNat = index.toInt.toNat := by
  have hlt := index.toUInt32.toNat_lt
  have hbounds := (pageInBounds_iff index).mp h
  rw [toInt_eq_cond] at hbounds ⊢
  split at hbounds
  case isTrue htop => rw [if_pos htop, Int.toNat_natCast]
  case isFalse => omega

/-! ### One call -/

/-- The table that the pages hold. -/
def rkTable : Table where
  base := flashAddr (rkStartPage b)
  page := pageSize
  record := rkSize
  perPage := 5
  perPage_pos := by decide
  fits := by decide

/-- The array that the pages stand for. -/
def rkSlots (flash : Memory) : List RkBytes := (rkTable b).slots flash ctapRkSize

theorem length_rkSlots (flash : Memory) : (rkSlots b flash).length = ctapRkSize :=
  Table.length_slots ..

section InBounds

variable {b} {index : Int32}

theorem flashAddr_rkPage (h : pageInBounds index = true) :
    flashAddr (rkPage b index) = (rkTable b).pageAddr index.toInt.toNat := by
  have hpage : (pageOffset index).toNatClampNeg = index.toInt.toNat / 5 := by
    rw [← Int32.toNat_toInt, toInt_pageOffset, Int.toNat_natCast, toUInt32_of_inBounds h]
  simp only [rkPage, hpage, Table.pageAddr, rkTable, flashAddr]
  ring

theorem byteOffset_eq (h : pageInBounds index = true) :
    (byteOffsetIntoPage index).toNatClampNeg = (rkTable b).offset index.toInt.toNat := by
  rw [← Int32.toNat_toInt, toInt_byteOffsetIntoPage, Int.toNat_natCast, toUInt32_of_inBounds h]
  rfl

theorem rkAddr_eq (h : pageInBounds index = true) :
    rkAddr b index = (rkTable b).slotAddr index.toInt.toNat := by
  rw [rkAddr, byteOffset_eq h, flashAddr_rkPage h, Table.slotAddr]

theorem toNat_lt (h : pageInBounds index = true) : index.toInt.toNat < ctapRkSize := by
  have hbounds := (pageInBounds_iff index).mp h
  omega

/-- A load is one of the array. -/
theorem ctapLoadRk_eq (flash : Memory) (index : Int32) (rk : RkBytes) :
    ctapLoadRk b flash index rk = arrayLoad (rkSlots b flash) index.toInt rk := by
  have hiff := pageInBounds_iff index
  have hlen := length_rkSlots b flash
  unfold ctapLoadRk arrayLoad
  by_cases h : pageInBounds index = true
  · have hlt := toNat_lt h
    rw [if_pos h, if_neg (not_lt.mpr (hiff.mp h).1), List.getD_eq_getElem _ _ (by omega)]
    apply Buf.ext
    show flash.read (rkAddr b index) rkSize = _
    rw [rkAddr_eq h]
    exact congrArg Buf.bytes (Table.getElem_slots flash (hlen.symm ▸ hlt)).symm
  · rw [if_neg h]
    by_cases hneg : index.toInt < 0
    · rw [if_pos hneg]
    · rw [if_neg hneg, List.getD_eq_default]
      rw [hiff] at h
      omega

/-- The page of a record in bounds is one of the resident keys. -/
theorem rkPage_bounds (h : pageInBounds index = true) :
    flashAddr (rkStartPage b) ≤ flashAddr (rkPage b index) ∧
      flashAddr (rkPage b index) + pageSize ≤ flashAddr (rkEndPage b) := by
  have hlt := toNat_lt h
  have hpage : (pageOffset index).toNatClampNeg = index.toInt.toNat / 5 := by
    rw [← Int32.toNat_toInt, toInt_pageOffset, Int.toNat_natCast, toUInt32_of_inBounds h]
  rw [ctapRkSize_eq] at hlt
  simp only [flashAddr, rkPage, rkStartPage, rkEndPage, rkNumPages, pageSize, hpage]
  omega

theorem ctapOverwriteRk_of_inBounds (h : pageInBounds index = true) (flash : Memory) (rk : RkBytes) :
    ctapOverwriteRk b flash index rk =
      rewritePage (rkPage b index) ((rkTable b).updatedPage flash index.toInt.toNat rk) := by
  rw [ctapOverwriteRk, if_pos h, byteOffset_eq h]
  unfold Table.updatedPage
  rw [← flashAddr_rkPage h]
  rfl

theorem ctapOverwriteRk_refines (flash : Memory) (index : Int32) (rk : RkBytes) :
    rkSlots b (applyAll chip flash (ctapOverwriteRk b flash index rk)) =
      arrayStore (rkSlots b flash) index.toInt rk := by
  have hiff := pageInBounds_iff index
  unfold arrayStore
  by_cases h : pageInBounds index = true
  · have hlen := @Table.length_updatedPage (rkTable b) flash index.toInt.toNat rk
    have hpage : (rkTable b).page = pageSize := rfl
    rw [if_neg (not_lt.mpr (hiff.mp h).1), ctapOverwriteRk_of_inBounds h]
    refine @Table.slots_of_writeBack (rkTable b) flash _ _ _ rk 0xFF (fun k hk => ?_) fun a ha => ?_
    · -- the erase and all of the 256 double words
      have hall : (rewritePage (rkPage b index)
          ((rkTable b).updatedPage flash index.toInt.toNat rk)).length ≤ 256 + 1 := by
        rw [rewritePage, List.length_cons, length_flashWrite, hlen, hpage, pageSize]
      have htake := @applyAll_rewritePage_take chip (rkPage b index) _ (by rw [hlen, hpage, pageSize])
        (by rw [hlen, hpage]) flash 256 k hk
      rw [List.take_of_length_le hall] at htake
      rw [← flashAddr_rkPage h]
      exact htake.trans (if_pos hk)
    · rw [← flashAddr_rkPage h] at ha
      exact applyAll_rewritePage_other chip (by rw [hlen, hpage]) (List.Subset.refl _) flash ha
  · rw [ctapOverwriteRk, if_neg h, applyAll_nil]
    by_cases hneg : index.toInt < 0
    · rw [if_pos hneg]
    · rw [if_neg hneg, List.set_eq_of_length_le]
      rw [length_rkSlots]
      rw [hiff] at h
      omega

theorem ctapResetRk_refines (flash : Memory) :
    rkSlots b (applyAll chip flash (ctapResetRk b)) =
      List.replicate ctapRkSize (Buf.fill rkSize 0xff) := by
  refine Table.slots_of_erased fun i hi k hk => ?_
  rw [applyAll_erases chip flash _ fun op hop => ?_, if_pos]
  · have hlt : i / 5 < rkNumPages := by
      rw [ctapRkSize_eq] at hi
      simp only [rkNumPages]
      omega
    have hpage : (rkTable b).page = pageSize := rfl
    refine ⟨_, List.mem_map_of_mem (List.mem_range.mpr hlt), ?_⟩
    show flashAddr (rkStartPage b + i / 5) ≤ flashAddr (rkStartPage b) + pageSize * (i / 5) + k ∧
      flashAddr (rkStartPage b) + pageSize * (i / 5) + k <
        flashAddr (rkStartPage b + i / 5) + pageSize
    simp only [flashAddr, pageSize, hpage] at hk ⊢
    omega
  · obtain ⟨j, -, rfl⟩ := List.mem_map.mp hop
    exact ⟨_, _, rfl⟩

theorem ctapOverwriteRk_touches {flash : Memory} {rk : RkBytes} {op : Op}
    (hop : op ∈ ctapOverwriteRk b flash index rk) {a : ℕ} (ha : op.Touches a) :
    flashAddr (rkStartPage b) ≤ a ∧ a < flashAddr (rkEndPage b) := by
  by_cases h : pageInBounds index = true
  · have hlen := @Table.length_updatedPage (rkTable b) flash index.toInt.toNat rk
    have hpage : (rkTable b).page = pageSize := rfl
    rw [ctapOverwriteRk_of_inBounds h] at hop
    have hin := rewritePage_touches (by rw [hlen, hpage]) hop ha
    have hbounds := @rkPage_bounds b index h
    omega
  · rw [ctapOverwriteRk, if_neg h] at hop
    cases hop

theorem ctapResetRk_touches {op : Op} (hop : op ∈ ctapResetRk b) {a : ℕ} (ha : op.Touches a) :
    flashAddr (rkStartPage b) ≤ a ∧ a < flashAddr (rkEndPage b) := by
  obtain ⟨i, hi, rfl⟩ := List.mem_map.mp hop
  have hlt := List.mem_range.mp hi
  obtain ⟨h₁, h₂⟩ := ha
  simp only [flashAddr, rkEndPage, rkStartPage, rkNumPages, pageSize] at *
  omega

/-- An index outside the array changes nothing. -/
theorem rk_outOfBounds (h : pageInBounds index = false) (flash : Memory) (rk : RkBytes) :
    ctapOverwriteRk b flash index rk = [] ∧ ctapLoadRk b flash index rk = rk := by
  simp [ctapOverwriteRk, ctapLoadRk, h]

/-- A record lies in one page. -/
theorem rkAddr_inPage (h : pageInBounds index = true) :
    flashAddr (rkPage b index) ≤ rkAddr b index ∧
      rkAddr b index + rkSize ≤ flashAddr (rkPage b index + 1) := by
  have hfits : (rkTable b).offset index.toInt.toNat + rkSize ≤ pageSize :=
    (rkTable b).offset_add_record_le index.toInt.toNat
  have hnext : flashAddr (rkPage b index + 1) = flashAddr (rkPage b index) + pageSize := by
    unfold flashAddr
    ring
  rw [rkAddr, @byteOffset_eq b index h]
  omega

/-- Two records have no byte in common. -/
theorem rkAddr_disjoint {i j : Int32} (hi : pageInBounds i = true) (hj : pageInBounds j = true)
    (hne : i ≠ j) : rkAddr b i + rkSize ≤ rkAddr b j ∨ rkAddr b j + rkSize ≤ rkAddr b i := by
  have hnat : i.toInt.toNat ≠ j.toInt.toNat := by
    intro heq
    have hi₀ := ((pageInBounds_iff i).mp hi).1
    have hj₀ := ((pageInBounds_iff j).mp hj).1
    exact hne (Int32.toInt_inj.mp (by omega))
  rw [rkAddr_eq hi, rkAddr_eq hj]
  exact (rkTable b).slots_disjoint hnat

end InBounds

/-! ### Runs -/

theorem RkCall.ops_touches {c : RkCall} {flash : Memory} {op : Op} (hop : op ∈ c.ops b flash) {a : ℕ}
    (ha : op.Touches a) : flashAddr (rkStartPage b) ≤ a ∧ a < flashAddr (rkEndPage b) := by
  cases c with
  | store | overwrite | delete => exact ctapOverwriteRk_touches hop ha
  | load => cases hop
  | reset => exact ctapResetRk_touches hop ha

/-- One call goes as on the array. -/
theorem RkCall.refines (c : RkCall) (flash : Memory) :
    (rkSlots b (applyAll chip flash (c.ops b flash)), c.loaded b flash) =
      c.onArray (rkSlots b flash) := by
  cases c with
  | store | overwrite | delete => exact Prod.ext (ctapOverwriteRk_refines chip flash _ _) rfl
  | load index rk => exact Prod.ext rfl (congrArg some (ctapLoadRk_eq flash index rk))
  | reset =>
      refine Prod.ext ?_ rfl
      show _ = List.replicate (rkSlots b flash).length _
      rw [length_rkSlots]
      exact ctapResetRk_refines chip flash

theorem rkRun_refines (flash : Memory) (cs : List RkCall) :
    (rkSlots b (rkRun chip b flash cs).1, (rkRun chip b flash cs).2.1) =
      arrayRun (rkSlots b flash) cs := by
  induction cs generalizing flash with
  | nil => rfl
  | cons c cs ih =>
      have hcall := c.refines chip b flash
      have hrest := ih (applyAll chip flash (c.ops b flash))
      simp only [rkRun, arrayRun, ← hcall, ← hrest]

theorem rkRun_touches (flash : Memory) (cs : List RkCall) {op : Op}
    (hop : op ∈ (rkRun chip b flash cs).2.2) {a : ℕ} (ha : op.Touches a) :
    flashAddr (rkStartPage b) ≤ a ∧ a < flashAddr (rkEndPage b) := by
  induction cs generalizing flash with
  | nil => cases hop
  | cons c cs ih =>
      rcases List.mem_append.mp hop with hop | hop
      · exact c.ops_touches b hop ha
      · exact ih _ hop

/-- Every run of the five functions goes on the flash as on an array of
`ctap_rk_size()` records; the records lie apart, each in one page, an index
outside the array changes nothing, and no other page is erased or programmed. -/
theorem rk_pages_refine_array (chip : Chip) (b : Board) (flash : Memory) (cs : List RkCall) :
    (rkSlots b flash).length = ctapRkSize ∧
      (rkSlots b (rkRun chip b flash cs).1, (rkRun chip b flash cs).2.1) =
        arrayRun (rkSlots b flash) cs ∧
      (∀ op ∈ (rkRun chip b flash cs).2.2, ∀ a, op.Touches a →
        flashAddr (rkStartPage b) ≤ a ∧ a < flashAddr (rkEndPage b)) ∧
      (∀ i : Int32, (pageInBounds i = true ↔ 0 ≤ i.toInt ∧ i.toInt < ctapRkSize) ∧
        (pageInBounds i = true → flashAddr (rkPage b i) ≤ rkAddr b i ∧
          rkAddr b i + rkSize ≤ flashAddr (rkPage b i + 1)) ∧
        (pageInBounds i = false → ∀ m rk, ctapOverwriteRk b m i rk = [] ∧
          ctapLoadRk b m i rk = rk) ∧
        ∀ j, pageInBounds i = true → pageInBounds j = true → i ≠ j →
          rkAddr b i + rkSize ≤ rkAddr b j ∨ rkAddr b j + rkSize ≤ rkAddr b i) :=
  ⟨length_rkSlots b flash, rkRun_refines chip b flash cs,
    fun _ hop _ ha => rkRun_touches chip b flash cs hop ha,
    fun i => ⟨pageInBounds_iff i, rkAddr_inPage, rk_outOfBounds,
      fun _ => rkAddr_disjoint⟩⟩

/-! ### The array that requests work on -/

/-- The functions of the requests are those of the array, on the records as
structures. -/
theorem requests_ctapLoadRk (a : Ctap.Authenticator) (index : ℤ) (rk : Ctap.ResidentKey) :
    Ctap.ctapLoadRk a index rk = arrayLoad a.rks index rk := rfl

theorem requests_ctapOverwriteRk (index : ℤ) (rk : Ctap.ResidentKey) :
    Ctap.ctapOverwriteRk index rk =
      Proc.modify fun a => { a with rks := arrayStore a.rks index rk } := by
  unfold Ctap.ctapOverwriteRk arrayStore
  congr 1
  funext a
  split
  · rfl
  · rfl

theorem requests_ctapRkSize : Ctap.ctapRkSize = ctapRkSize := ctapRkSize_eq.symm

end NitrokeyFido2.Storage
