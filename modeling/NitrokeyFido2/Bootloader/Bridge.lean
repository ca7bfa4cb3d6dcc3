import NitrokeyFido2.Lib.NorFlash
import NitrokeyFido2.Lib.Bytes
import NitrokeyFido2.Bootloader.Layout
import NitrokeyFido2.Ctap.Response

/-!
The bootloader's command interpreter, `bootloader_bridge`, in the build that
verifies signatures (`SOLO_HACKER` undefined).

A command is a U2F key handle: one byte of operation, a 24-bit address, four
bytes of tag, a big-endian length and the payload. Every command is a
function on the machine state that also records the flash operations it
issued, in order (`flashOps`). A run that is not interrupted applies them
all; a power cut applies a prefix of them and loses the static variables.

What lies outside the repository is a field of `Config`: the hash, the
signature check and the behaviour of the flash chip on words that were not
erased.
-/

namespace NitrokeyFido2.Bootloader

open NorFlash
open NitrokeyFido2.Ctap

/-! ### Status codes -/

def ctap1ErrInvalidCommand : UInt8 := 0x01
def ctap1ErrInvalidLength : UInt8 := 0x03
def ctap2ErrOperationDenied : UInt8 := 0x27
def ctap2ErrNotAllowed : UInt8 := 0x30

/-! ### Versions -/

/-- `version_t`. -/
structure Version where
  major : UInt8
  minor : UInt8
  patch : UInt8
  reserved : UInt8
  deriving DecidableEq, Repr

/-- A `version_t` read through a pointer. -/
def Version.ofMemory (flash : Memory) (addr : ℕ) : Version :=
  ⟨flash addr, flash (addr + 1), flash (addr + 2), flash (addr + 3)⟩

/-- The bytes of a `version_t`. -/
def Version.bytes (v : Version) : List UInt8 := [v.major, v.minor, v.patch, v.reserved]

/-- The version whose `raw` word is `0xFFFFFFFF`, as erased flash reads. -/
def Version.erased : Version := ⟨0xFF, 0xFF, 0xFF, 0xFF⟩

/-- `is_newer`. -/
def isNewer (newer older : Version) : Bool :=
  newer.major > older.major ||
  (newer.major == older.major && newer.minor > older.minor) ||
  (newer.major == older.major && newer.minor == older.minor && newer.patch ≥ older.patch)

/-! ### The machine -/

/-- What the bootloader is built with. -/
structure Config where
  board : Board
  chip : Chip
  /-- `crypto_sha256_init`, `_update` and `_final` over one stretch of memory. -/
  sha256 : List UInt8 → List UInt8
  /-- `uECC_verify` on the curve `uECC_secp256r1()`: public key, hash, signature. -/
  uECCVerify : List UInt8 → List UInt8 → List UInt8 → Bool
  /-- `pubkey_boot`. -/
  pubkeyBoot : List UInt8
  /-- `SOLO_VERSION_MAJ`, `SOLO_VERSION_MIN` and `SOLO_VERSION_PATCH`. -/
  soloVersion : UInt8 × UInt8 × UInt8
  /-- `USBD_PRODUCT_FS_STRING`. -/
  usbdProductFsString : List UInt8
  /-- `USBD_MANUFACTURER_STRING`. -/
  usbdManufacturerString : List UInt8

/-- Flash, the static variables of the bootloader, and what the command being
executed has done so far. -/
structure Machine where
  flash : Memory
  /-- `last_written_app_address`, 0 for the null pointer. -/
  lastWrittenAppAddress : ℕ
  /-- `has_erased`. -/
  hasErased : Bool
  /-- `REBOOT_FLAG`. -/
  rebootFlag : Bool
  /-- The flash operations of the current command. -/
  flashOps : List Op
  /-- The response of the current command. -/
  response : CtapResponse

/-- The state after power-up or reboot: flash stays, statics are reset. -/
def powerUp (flash : Memory) : Machine where
  flash := flash
  lastWrittenAppAddress := 0
  hasErased := false
  rebootFlag := false
  flashOps := []
  response := ctapResponseInit

/-- `BootloaderReq`. -/
structure BootloaderReq where
  op : UInt8
  /-- The 24-bit little-endian `addr`. -/
  addr : ℕ
  /-- `lenh` and `lenl` together. -/
  len : ℕ
  payload : ℕ → UInt8

/-- The request found at `keyh`. The tag is checked before the bridge is
called, which does not look at it again. -/
def BootloaderReq.ofKeyHandle (keyh : ℕ → UInt8) : BootloaderReq where
  op := keyh 0
  addr := (keyh 1).toNat + (keyh 2).toNat * 2 ^ 8 + (keyh 3).toNat * 2 ^ 16
  len := (keyh 8).toNat * 2 ^ 8 + (keyh 9).toNat
  payload i := keyh (10 + i)

/-- The first `n` bytes of the payload. -/
def BootloaderReq.payloadBytes (req : BootloaderReq) (n : ℕ) : List UInt8 :=
  (List.range n).map req.payload

@[simp] theorem BootloaderReq.length_payloadBytes (req : BootloaderReq) (n : ℕ) :
    (req.payloadBytes n).length = n := by
  simp [payloadBytes]

/-- How a call of `bootloader_bridge` ends. -/
inductive Outcome
  /-- It returned this status. -/
  | returned (status : UInt8)
  /-- It called `exit(1)`. -/
  | exited
  deriving DecidableEq, Repr

/-! ### Flash -/

/-- `flash_erase_page`. -/
def flashErasePage (page : ℕ) : Op := .erase (flashAddr page) pageSize

/-- The `buf` of `flash_write` in its `j`-th round: eight bytes of data,
padded with `0xFF` in the last round. -/
def flashWriteBuf (data : List UInt8) (j : ℕ) : List UInt8 :=
  let chunk := (data.drop (8 * j)).take 8
  chunk ++ List.replicate (8 - chunk.length) 0xFF

/-- `flash_write`: the address is rounded down to a double word first. -/
def flashWrite (addr : ℕ) (data : List UInt8) : List Op :=
  programs 8 (addr - addr % 8) (flashWriteBuf data) ((data.length + 7) / 8)

section Config

variable (cfg : Config)

/-- Carry out flash operations on behalf of the current command. -/
def Machine.perform (s : Machine) (ops : List Op) : Machine :=
  { s with flash := applyAll cfg.chip s.flash ops, flashOps := s.flashOps ++ ops }

/-- `u2f_response_writeback` on the response of the current command. -/
def Machine.writeback (s : Machine) (buf : List UInt8) : Machine :=
  { s with response := u2fResponseWriteback s.response buf }

/-- `is_authorized_to_boot`. -/
def isAuthorizedToBoot (flash : Memory) : Bool :=
  flash.read cfg.board.authWordAddr 4 == [0, 0, 0, 0]

/-- `is_bootloader_disabled`. -/
def isBootloaderDisabled (flash : Memory) : Bool :=
  flash.read (cfg.board.authWordAddr + 4) 4 == [0, 0, 0, 0]

/-- The page erases of `erase_application`. -/
def eraseApplicationOps : List Op :=
  (List.range cfg.board.applicationPages).map fun i => flashErasePage (applicationStartPage + i)

/-- `erase_application`. -/
def eraseApplication (s : Machine) : Machine :=
  { s with lastWrittenAppAddress := 0 }.perform cfg (eraseApplicationOps cfg)

/-- Rewrite the last application page with four of its bytes cleared, the
part `disable_bootloader` and `authorize_application` share. -/
def clearInLastPage (off : ℕ) (s : Machine) : Machine :=
  let page := s.flash.read cfg.board.lastAddr pageSize
  let page := Bytes.fill page off 4 0
  s.perform cfg (flashErasePage cfg.board.lastPage :: flashWrite cfg.board.lastAddr page)

/-- `disable_bootloader`. -/
def disableBootloader (s : Machine) : Machine := clearInLastPage cfg (pageSize - 4) s

/-- `authorize_application`. -/
def authorizeApplication (s : Machine) : Machine :=
  if isAuthorizedToBoot cfg s.flash then s else clearInLastPage cfg (pageSize - 8) s

/-- `current_firmware_version`. -/
def currentFirmwareVersion (flash : Memory) : Version :=
  .ofMemory flash cfg.board.bootVersionAddr

/-- `new_version` in `is_firmware_version_newer_or_equal`: the word that ends
where the last write ended. -/
def newVersion (s : Machine) : Version :=
  .ofMemory s.flash (s.lastWrittenAppAddress - 8 + 4)

/-- The test `is_firmware_version_newer_or_equal` bases its answer on. -/
def versionAllowed (s : Machine) : Bool :=
  s.lastWrittenAppAddress != 0 &&
    (isNewer (newVersion s) (currentFirmwareVersion cfg s.flash) ||
      currentFirmwareVersion cfg s.flash == Version.erased)

/-- `is_firmware_version_newer_or_equal`. -/
def isFirmwareVersionNewerOrEqual (s : Machine) : Bool × Machine :=
  if versionAllowed cfg s then
    let page := s.flash.read cfg.board.bootVersionAddr pageSize
    let page := Bytes.overwrite page 0 (newVersion s).bytes
    (true, s.perform cfg
      (flashErasePage cfg.board.bootVersionPage :: flashWrite cfg.board.bootVersionAddr page))
  else (false, s)

/-! ### The commands -/

/-- `BootWrite`. -/
def bootWrite (req : BootloaderReq) (s : Machine) : Outcome × Machine :=
  let ptr := 0x8000000 + req.addr
  if ptr < applicationStartAddr ∨ ptr ≥ cfg.board.applicationEndAddr ∨
      ptr + req.len > cfg.board.applicationEndAddr then
    (.returned ctap2ErrNotAllowed, s)
  else
    let s :=
      if !s.hasErased || isAuthorizedToBoot cfg s.flash then
        { eraseApplication cfg s with hasErased := true }
      else s
    if isAuthorizedToBoot cfg s.flash then (.exited, s)
    else
      let currentAddress := ptr + req.len
      if currentAddress < s.lastWrittenAppAddress then
        (.returned ctap2ErrNotAllowed, { s with hasErased := false })
      else
        (.returned 0, { s with lastWrittenAppAddress := currentAddress }.perform cfg
          (flashWrite ptr (req.payloadBytes req.len)))

/-- The bytes `BootDone` hashes: the whole application area. -/
def applicationBytes (flash : Memory) : List UInt8 :=
  flash.read applicationStartAddr cfg.board.applicationSize

/-- The signature check of `BootDone`. -/
def signatureValid (flash : Memory) (signature : List UInt8) : Bool :=
  cfg.uECCVerify cfg.pubkeyBoot (cfg.sha256 (applicationBytes cfg flash)) signature

/-- `BootDone`. -/
def bootDone (req : BootloaderReq) (s : Machine) : Outcome × Machine :=
  if req.len ≠ 64 then (.returned ctap1ErrInvalidLength, s)
  else if !signatureValid cfg s.flash (req.payloadBytes 64) then
    (.returned ctap2ErrOperationDenied, { s with rebootFlag := true })
  else
    let (newerOrEqual, s) := isFirmwareVersionNewerOrEqual cfg s
    if !newerOrEqual then (.returned ctap2ErrOperationDenied, { s with rebootFlag := true })
    else (.returned 0, { authorizeApplication cfg s with rebootFlag := true })

/-- `BootPubkey`. -/
def bootPubkey (s : Machine) : Outcome × Machine :=
  (.returned 0, { s with hasErased := false }.writeback (cfg.pubkeyBoot.take 71))

/-- `BootVersion`. -/
def bootVersion (s : Machine) : Outcome × Machine :=
  (.returned 0, { s with hasErased := false }
    |>.writeback [cfg.soloVersion.1]
    |>.writeback [cfg.soloVersion.2.1]
    |>.writeback [cfg.soloVersion.2.2]
    |>.writeback [0xFF]
    |>.writeback cfg.usbdProductFsString
    |>.writeback [0xFF]
    |>.writeback cfg.usbdManufacturerString
    |>.writeback [0xFF])

/-- `BootDisable`, confirmed by a magic phrase. -/
def bootDisable (req : BootloaderReq) (s : Machine) : Outcome × Machine :=
  if req.payloadBytes 4 = [0xcd, 0xde, 0xba, 0xaa] then
    (.returned 0, (disableBootloader cfg s).writeback [0])
  else (.returned 0, s.writeback [ctap2ErrOperationDenied])

/-- The operations of `BootOperation` this build handles. -/
inductive BootOperation
  | bootWrite
  | bootDone
  | bootCheck
  | bootErase
  | bootVersion
  | bootReboot
  | bootDisable
  | bootPubkey
  deriving DecidableEq, Repr

/-- The cases of the switch. `BootBootloader` (0x46) belongs to the build
without signatures. -/
def BootOperation.ofByte (op : UInt8) : Option BootOperation :=
  match op.toNat with
  | 0x40 => some .bootWrite
  | 0x41 => some .bootDone
  | 0x42 => some .bootCheck
  | 0x43 => some .bootErase
  | 0x44 => some .bootVersion
  | 0x45 => some .bootReboot
  | 0x47 => some .bootDisable
  | 0x48 => some .bootPubkey
  | _ => none

/-- The switch of `bootloader_bridge`. -/
def bridgeSwitch (req : BootloaderReq) (s : Machine) : Outcome × Machine :=
  match BootOperation.ofByte req.op with
  | some .bootWrite => bootWrite cfg req s
  | some .bootDone => bootDone cfg req s
  | some .bootCheck => (.returned 0, s)
  | some .bootErase => (.returned 0, eraseApplication cfg s)
  | some .bootPubkey => bootPubkey cfg s
  | some .bootVersion => bootVersion cfg s
  | some .bootReboot => (.returned 0, { s with rebootFlag := true })
  | some .bootDisable => bootDisable cfg req s
  | none => (.returned ctap1ErrInvalidCommand, s)

/-- A command as the transport hands it over. -/
structure Command where
  klen : ℤ
  keyh : ℕ → UInt8

/-- The request inside a command. -/
def Command.req (c : Command) : BootloaderReq := .ofKeyHandle c.keyh

/-- `bootloader_bridge`. The response was initialised by the caller. -/
def bootloaderBridge (s : Machine) (c : Command) : Outcome × Machine :=
  let s := { s with flashOps := [], response := ctapResponseInit }
  if (c.req.len : ℤ) > c.klen - 10 then (.returned ctap1ErrInvalidLength, s)
  else bridgeSwitch cfg c.req s

/-- The machine after a command that ran to its end. -/
def bridgeStep (s : Machine) (c : Command) : Machine := (bootloaderBridge cfg s c).2

/-- The command is a `BootDone` that returns success, and so has authorised
the application. -/
def Authorises (s : Machine) (c : Command) : Prop :=
  BootOperation.ofByte c.req.op = some .bootDone ∧
    (bootloaderBridge cfg s c).1 = .returned 0

instance (s : Machine) (c : Command) : Decidable (Authorises cfg s c) :=
  inferInstanceAs (Decidable (_ ∧ _))

end Config

/-! ### A build to run examples on

The hash is constant and one signature is valid, so that a concrete run can
be evaluated; a word that is programmed twice keeps its first value. -/

def demoConfig : Config where
  board := .pages64
  chip := ⟨fun old _ i => old.getD i 0xFF⟩
  sha256 := fun _ => List.replicate 32 0
  uECCVerify := fun _ _ signature => signature == List.replicate 64 0x5A
  pubkeyBoot := List.replicate 64 1
  soloVersion := (2, 0, 0)
  usbdProductFsString := []
  usbdManufacturerString := []

/-- A command with the given bytes, zeros behind them. -/
def commandOf (bytes : List UInt8) : Command where
  klen := bytes.length
  keyh i := bytes.getD i 0

end NitrokeyFido2.Bootloader
