import Mathlib.Tactic

/-!
The flash layout of `memory_layout.h`.

A board has 64 or 128 pages of 2048 bytes, mapped from `0x08000000` on. The
application occupies the pages from `APPLICATION_START_PAGE` up to
`APPLICATION_END_PAGE`, less the last eight bytes, which hold the
authorisation word and the word that disables the bootloader. The page after
it, `BOOT_VERSION_PAGE`, holds the version of the installed firmware.
-/

namespace NitrokeyFido2.Bootloader

/-- The values of `PAGES` the header accepts. -/
inductive Board
  | pages64
  | pages128
  deriving DecidableEq, Repr

/-- `PAGES`. -/
def Board.pages : Board → ℕ
  | .pages64 => 64
  | .pages128 => 128

/-- `PAGE_SIZE` and `FLASH_PAGE_SIZE`. -/
def pageSize : ℕ := 2048

/-- `flash_addr(page)`. -/
def flashAddr (page : ℕ) : ℕ := 0x08000000 + page * pageSize

/-- `APPLICATION_START_PAGE`. -/
def applicationStartPage : ℕ := 10

/-- `APPLICATION_START_ADDR`. -/
def applicationStartAddr : ℕ := flashAddr applicationStartPage

namespace Board

/-- `APPLICATION_END_PAGE`, not included in the application. -/
def applicationEndPage (b : Board) : ℕ := b.pages - 20

/-- `APPLICATION_END_ADDR`. -/
def applicationEndAddr (b : Board) : ℕ := flashAddr b.applicationEndPage - 8

/-- `AUTH_WORD_ADDR`. -/
def authWordAddr (b : Board) : ℕ := b.applicationEndAddr

/-- `LAST_ADDR`, the start of `LAST_PAGE`. -/
def lastAddr (b : Board) : ℕ := b.applicationEndAddr - 2048 + 8

/-- `LAST_PAGE`. -/
def lastPage (b : Board) : ℕ := b.applicationEndPage - 1

/-- `BOOT_VERSION_PAGE`. -/
def bootVersionPage (b : Board) : ℕ := b.applicationEndPage

/-- `BOOT_VERSION_ADDR`. The linker script places `current_firmware_version`
here too. -/
def bootVersionAddr (b : Board) : ℕ := flashAddr b.bootVersionPage + 8

/-- `APPLICATION_END_ADDR - APPLICATION_START_ADDR`. -/
def applicationSize (b : Board) : ℕ := b.applicationEndAddr - applicationStartAddr

/-- Number of pages `erase_application` erases. -/
def applicationPages (b : Board) : ℕ := b.applicationEndPage - applicationStartPage

theorem applicationEndAddr_eq (b : Board) :
    b.applicationEndAddr + 8 = applicationStartAddr + b.applicationPages * pageSize := by
  cases b <;> rfl

theorem lastAddr_eq (b : Board) : b.lastAddr + 2040 = b.applicationEndAddr := by
  cases b <;> rfl

theorem flashAddr_lastPage (b : Board) : flashAddr b.lastPage = b.lastAddr := by
  cases b <;> rfl

theorem flashAddr_bootVersionPage (b : Board) :
    flashAddr b.bootVersionPage = b.applicationEndAddr + 8 := by
  cases b <;> rfl

theorem bootVersionAddr_eq (b : Board) : b.bootVersionAddr = b.applicationEndAddr + 16 := by
  cases b <;> rfl

theorem applicationStartAddr_lt_lastAddr (b : Board) : applicationStartAddr < b.lastAddr := by
  cases b <;> decide

theorem applicationSize_eq (b : Board) :
    applicationStartAddr + b.applicationSize = b.applicationEndAddr := by
  cases b <;> rfl

theorem applicationEndAddr_mod (b : Board) : b.applicationEndAddr % 8 = 0 := by
  cases b <;> rfl

theorem lastAddr_mod (b : Board) : b.lastAddr % 8 = 0 := by
  cases b <;> rfl

theorem bootVersionAddr_mod (b : Board) : b.bootVersionAddr % 8 = 0 := by
  cases b <;> rfl

end Board

end NitrokeyFido2.Bootloader
