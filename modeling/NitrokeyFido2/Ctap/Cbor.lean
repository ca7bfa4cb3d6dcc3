import NitrokeyFido2.Ctap.Types
import NitrokeyFido2.Lib.Proc

/-!
The CBOR library as the authenticator uses it.

TinyCBOR is not part of the repository. A decoder is a type of cursors with
the library's accessors; an encoder is the list of the items encoded so far
into a buffer of some capacity, and the library decides which items it
accepts and which bytes they become. Parsers are procedures on the structure
they fill, since they leave it half filled when they stop.
-/

namespace NitrokeyFido2.Ctap

/-- `CborError`; zero is `CborNoError`. -/
abbrev CborError := UInt32

abbrev cborErrorOutOfMemory : CborError := 0x80000000

inductive CborType
  | integer | byteString | textString | array | map | tag | simple | boolean | null | undefined
  | halfFloat | float | double | invalid
  deriving DecidableEq

/-- What copying a string into a buffer did: its error, the length it
reports, and the bytes it wrote at the start of the buffer (a terminating
zero included where there is room for one). -/
structure Copied where
  err : CborError
  buflen : ℕ
  written : List UInt8

/-- The decoder. Accessors that report an error write nothing. -/
structure CborReader where
  Cursor : Type
  parserInit : List UInt8 → Except CborError Cursor
  getType : Cursor → CborType
  enterContainer : Cursor → Except CborError Cursor
  getMapLength : Cursor → Except CborError ℕ
  getArrayLength : Cursor → Except CborError ℕ
  advance : Cursor → Except CborError Cursor
  getInt : Cursor → ℤ
  getIntChecked : Cursor → Except CborError ℤ
  getBoolean : Cursor → Except CborError Bool
  getStringLength : Cursor → Except CborError ℕ
  calculateStringLength : Cursor → Except CborError ℕ
  copyByteString : Cursor → ℕ → Copied
  copyTextString : Cursor → ℕ → Copied
  mapFindValue : Cursor → List UInt8 → Except CborError Cursor
  /-- Where the next byte to be read lies in the request. -/
  getNextByte : Cursor → ℕ

/-! ### Encoding -/

inductive EncOp
  | createMap (length : ℕ)
  | createArray (length : ℕ)
  | closeContainer
  | uint (v : ℕ)
  | int (v : ℤ)
  | byteString (b : List UInt8)
  | textString (b : List UInt8)
  | boolean (b : Bool)
  /-- An item or a close on an encoder variable that was never initialised. -/
  | uninitialised (op : EncOp)
  deriving DecidableEq

/-- The encoder: whether it accepts an item after the ones before it, and the
bytes of the items. -/
structure CborWriter where
  accepts : ℕ → List EncOp → EncOp → Bool
  bytes : ℕ → List EncOp → List UInt8

/-- `cbor_encoder_init` and what was encoded since. -/
structure Writer where
  capacity : ℕ
  ops : List EncOp
  deriving DecidableEq

def Writer.init (capacity : ℕ) : Writer := ⟨capacity, []⟩

/-- Procedures on an encoder, stopping with a status. -/
abbrev Encode := Proc Writer UInt8

namespace CborWriter

variable (e : CborWriter)

/-- The bytes of the buffer that the encoder has filled. -/
def buffer (w : Writer) : List UInt8 := e.bytes w.capacity w.ops

/-- One encoding call and the `check_ret` behind it. -/
def emit (op : EncOp) : Encode Unit :=
  ⟨fun w =>
    (if e.accepts w.capacity w.ops op then .ok () else .error ctap2ErrCborParsing,
      { w with ops := w.ops ++ [op] })⟩

/-- Several of them. -/
def emitAll : List EncOp → Encode Unit
  | [] => pure ()
  | op :: ops => do
      e.emit op
      emitAll ops

end CborWriter

/-- `cbor_encode_text_stringz` of a literal. -/
def EncOp.text (s : String) : EncOp := .textString (Bytes.ascii s)

/-- `cbor_encode_text_stringz` of an array. -/
def EncOp.stringz {n : ℕ} (b : Buf n) : EncOp := .textString (Bytes.cString b.bytes)

/-- Encode, and go on with the encoder. -/
def encodeInto (w : Writer) (m : Encode Unit) : Except UInt8 Writer :=
  match m w with
  | (.ok (), w') => .ok w'
  | (.error c, _) => .error c

/-! ### Decoding -/

/-- Procedures on a structure being filled from a request, stopping with a
status. -/
abbrev Parse (τ : Type) := Proc τ UInt8

/-- `check_ret`. -/
def checkRet {τ α : Type} (r : Except CborError α) : Parse τ α :=
  Proc.ofExcept (r.mapError fun _ => ctap2ErrCborParsing)

/-- `if (ret != 0) return ret` behind a call of a parser. -/
def parsed {τ : Type} (m : Parse τ Unit) (t : τ) : Except UInt8 τ :=
  match m t with
  | (.ok (), t') => .ok t'
  | (.error c, t') => if c = 0 then .ok t' else .error c

/-- Repeat with a cursor that moves along. -/
def forEntries {τ γ : Type} : ℕ → (γ → Parse τ γ) → γ → Parse τ γ
  | 0, _, c => pure c
  | n + 1, body, c => do
      let c ← body c
      forEntries n body c

end NitrokeyFido2.Ctap
