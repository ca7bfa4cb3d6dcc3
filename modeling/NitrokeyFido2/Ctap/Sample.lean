import Mathlib.Data.List.Sort
import NitrokeyFido2.Ctap.Run

/-!
An environment in which requests can be carried out.

The decoder and the encoder handle what the authenticator exchanges with a
platform: integers, strings, arrays, maps and booleans of definite length.
The hash adds up columns, the block cipher is the identity, and a shared
secret is what the platform sends; none of this keeps a secret, and all of it
does what its users rely on.
-/

namespace NitrokeyFido2.Ctap.Sample

/-! ### Items -/

/-- The head of a data item: its major type and its argument. -/
def head (major v : ℕ) : List UInt8 :=
  if v < 24 then [UInt8.ofNat (32 * major + v)]
  else if v < 256 then [UInt8.ofNat (32 * major + 24), UInt8.ofNat v]
  else [UInt8.ofNat (32 * major + 25), UInt8.ofNat (v / 256), UInt8.ofNat v]

/-- The major type, the argument and the length of a head. -/
def readHead : List UInt8 → Option (ℕ × ℕ × ℕ)
  | [] => none
  | b :: rest =>
      let info := b.toNat % 32
      if info < 24 then some (b.toNat / 32, info, 1)
      else if info = 24 then rest[0]?.map fun v => (b.toNat / 32, v.toNat, 2)
      else if info = 25 then do
        let hi ← rest[0]?
        let lo ← rest[1]?
        pure (b.toNat / 32, 256 * hi.toNat + lo.toNat, 3)
      else none

theorem readHead_head {major v : ℕ} (hmajor : major < 8) (hv : v < 65536) (rest : List UInt8) :
    readHead (head major v ++ rest) = some (major, v, (head major v).length) := by
  unfold head
  split_ifs with h₁ h₂
  · simp only [List.cons_append, List.nil_append, readHead, UInt8.toNat_ofNat']
    rw [if_pos (by omega)]
    simp
    omega
  · simp only [List.cons_append, List.nil_append, readHead, UInt8.toNat_ofNat']
    rw [if_neg (by omega), if_pos (by omega)]
    simp
    omega
  · simp only [List.cons_append, List.nil_append, readHead, UInt8.toNat_ofNat']
    rw [if_neg (by omega), if_neg (by omega), if_pos (by omega)]
    simp
    omega

/-- The length of an item, nested at most so deep. -/
def itemLength : ℕ → List UInt8 → Option ℕ
  | 0, _ => none
  | depth + 1, b => do
      let (major, v, n) ← readHead b
      if major = 2 ∨ major = 3 then
        if n + v ≤ b.length then pure (n + v) else none
      else if major = 4 ∨ major = 5 then
        (List.range ((major - 3) * v)).foldlM
          (fun k _ => (itemLength depth (b.drop k)).map (k + ·)) n
      else pure n

/-! ### Decoding -/

/-- A place in a request: the bytes from there on, the items left in the
container, and the offset. -/
structure Cursor where
  rest : List UInt8
  left : ℕ
  pos : ℕ

namespace Cursor

variable (c : Cursor)

def kind : CborType :=
  if c.left = 0 then .invalid
  else match readHead c.rest with
    | some (0, _, _) | some (1, _, _) => .integer
    | some (2, _, _) => .byteString
    | some (3, _, _) => .textString
    | some (4, _, _) => .array
    | some (5, _, _) => .map
    | some (7, v, _) => if v = 20 ∨ v = 21 then .boolean else .simple
    | _ => .invalid

def argument : ℕ := ((readHead c.rest).getD (0, 0, 0)).2.1

def headLength : ℕ := ((readHead c.rest).getD (0, 0, 0)).2.2

def orError {α : Type} : Option α → Except CborError α
  | some a => .ok a
  | none => .error 1

def advance : Except CborError Cursor :=
  orError ((itemLength 8 c.rest).map fun n => ⟨c.rest.drop n, c.left - 1, c.pos + n⟩)

def enter : Except CborError Cursor :=
  .ok ⟨c.rest.drop c.headLength, (if c.kind = .map then 2 else 1) * c.argument,
    c.pos + c.headLength⟩

def value : ℤ := if (c.rest.getD 0 0).toNat < 32 then c.argument else -1 - c.argument

def payload : List UInt8 := (c.rest.drop c.headLength).take c.argument

/-- Copy the string, with a terminating zero where there is room. -/
def copy (type : CborType) (cap : ℕ) : Copied :=
  if c.kind ≠ type then ⟨1, 0, []⟩
  else if c.argument ≤ cap then ⟨0, c.argument, c.payload ++ (if c.argument < cap then [0] else [])⟩
  else ⟨cborErrorOutOfMemory, c.argument, []⟩

/-- The value behind a key, among so many entries. -/
def find (key : List UInt8) : ℕ → Cursor → Except CborError Cursor
  | 0, c => .ok { c with left := 0 }
  | n + 1, c => do
      let v ← c.advance
      if c.kind = .textString ∧ c.payload = key then pure v
      else do
        let next ← v.advance
        find key n next

end Cursor

def reader : CborReader where
  Cursor := Cursor
  parserInit request := if request = [] then .error 1 else .ok ⟨request, 1, 0⟩
  getType := Cursor.kind
  enterContainer := Cursor.enter
  getMapLength c := .ok c.argument
  getArrayLength c := .ok c.argument
  advance := Cursor.advance
  getInt := Cursor.value
  getIntChecked c := .ok c.value
  getBoolean c := .ok (c.argument = 21)
  getStringLength c := .ok c.argument
  calculateStringLength c := .ok c.argument
  copyByteString c := c.copy .byteString
  copyTextString c := c.copy .textString
  mapFindValue c key := do
    let first ← c.enter
    Cursor.find key c.argument first
  getNextByte := Cursor.pos

/-! ### Encoding -/

def encodeOp : EncOp → List UInt8
  | .createMap n => head 5 n
  | .createArray n => head 4 n
  | .closeContainer => []
  | .uint v => head 0 v
  | .int v => if 0 ≤ v then head 0 v.toNat else head 1 (-1 - v).toNat
  | .byteString b => head 2 b.length ++ b
  | .textString b => head 3 b.length ++ b
  | .boolean b => head 7 (if b then 21 else 20)
  | .uninitialised _ => []

def encodeOps (ops : List EncOp) : List UInt8 := ops.flatMap encodeOp

def writer : CborWriter where
  accepts capacity ops op := (encodeOps (ops ++ [op])).length ≤ capacity
  bytes _ ops := encodeOps ops

/-! ### Cryptography -/

/-- The columns of a byte string, 32 wide, with growing weights. -/
def addColumns : ℕ → List UInt8 → List UInt8 → List UInt8
  | 0, acc, _ => acc
  | n + 1, acc, b =>
      if b = [] then acc
      else addColumns n (List.zipWith (fun x y => 3 * x + y) acc
        (b.take 32 ++ List.replicate (32 - (b.take 32).length) 0)) (b.drop 32)

def hash (b : List UInt8) : Buf 32 :=
  Buf.ofList 32 (addColumns b.length (List.replicate 32 (UInt8.ofNat b.length)) b)

/-- A stable sort. -/
def sort (cmp : CredentialDescriptor → CredentialDescriptor → ℤ) :
    List CredentialDescriptor → List CredentialDescriptor :=
  List.insertionSort fun x y => cmp x y ≤ 0

def env : Env where
  reader := reader
  writer := writer
  sha256 := hash
  aesCbcEncrypt _ b := b
  aesCbcDecrypt _ b := b
  sharedSecret pub _ := some (Buf.ofList 32 pub)
  computePublicKey priv := some (Buf.ofList 64 (priv.bytes ++ priv.bytes))
  sign _ h _ := some (Buf.ofList 64 (h ++ h), 0)
  random i := UInt8.ofNat (37 * i + 11)
  qsort := sort
  aaguid := Buf.zero _
  soloVersion := ⟨[2, 4, 0], rfl⟩
  attestationKey := Buf.zero _
  attestationCertDer := [0x30, 0]
  memoryAtNull := Buf.zero _
  stack _ _ := 0

/-- A device that has never been used. -/
def device : Authenticator where
  state := AuthenticatorState.erased
  stored := AuthenticatorState.erased
  pinBootAttemptsLeft := 3
  pinToken := Buf.zero _
  keyAgreementPub := Buf.zero _
  keyAgreementPriv := Buf.zero _
  gas := GetAssertionState.zero
  credMgmt := ⟨0, 0, false, false⟩
  rks := List.replicate ctapRkSize ResidentKey.erased
  secrets := default
  signingKey := default
  counter := ⟨[], 0xffffffff⟩
  sc := 0
  rngPos := 0
  upDisabled := false
  nfcActive := false
  requestSource := .unknown
  trace := []

/-! ### Requests -/

/-- Touched at once. -/
def touch : Answers := ⟨.confirmed, true⟩

def request (cmd : UInt8) (ops : List EncOp) : Event := .request (cmd :: encodeOps ops) touch

/-- The key a platform sends, and the secret it shares with the device. -/
def platformKey : List EncOp :=
  [.createMap 5, .int 1, .int 2, .int 3, .int (-25), .int (-1), .int 1,
    .int (-2), .byteString (List.replicate 32 7), .int (-3), .byteString (List.replicate 32 9)]

def sharedSecret : List UInt8 := (hash (List.replicate 32 7)).bytes

def pinAuth (data : List UInt8) : List UInt8 :=
  (cryptoSha256Hmac env default (.bytes sharedSecret) data).slice 0 16

def paddedPin (pin : List UInt8) : List UInt8 := pin ++ List.replicate (64 - pin.length) 0

def leftHash (pin : List UInt8) : List UInt8 := (hash pin).slice 0 16

def setPinOps (pin : List UInt8) : List EncOp :=
  [.createMap 5, .int 1, .int 1, .int 2, .int 3, .int 3] ++ platformKey ++
    [.int 4, .byteString (pinAuth (paddedPin pin)), .int 5, .byteString (paddedPin pin)]

def getPinTokenOps (pin : List UInt8) : List EncOp :=
  [.createMap 4, .int 1, .int 1, .int 2, .int 5, .int 3] ++ platformKey ++
    [.int 6, .byteString (leftHash pin)]

/-- The parameters of a new credential. -/
def createEntries (user : List UInt8) : List EncOp :=
  [.int 1, .byteString (List.replicate 32 5),
    .int 2, .createMap 1, .text "id", .text "a.example",
    .int 3, .createMap 1, .text "id", .byteString user,
    .int 4, .createArray 1, .createMap 2, .text "alg", .int (-7), .text "type", .text "public-key"]

def createOps (user : List UInt8) : List EncOp := .createMap 4 :: createEntries user

def createResidentOps (user : List UInt8) : List EncOp :=
  .createMap 5 :: createEntries user ++ [.int 7, .createMap 1, .text "rk", .boolean true]

def assertOps (hash : UInt8) (ids : List (List UInt8)) : List EncOp :=
  [.createMap 3, .int 1, .text "a.example", .int 2, .byteString (List.replicate 32 hash),
    .int 3, .createArray ids.length] ++
    ids.flatMap fun id => [.createMap 2, .text "id", .byteString id, .text "type", .text "public-key"]

/-- The credential identifiers that a run creates. -/
def createdIds (m : Machine) : List Event → List (List UInt8)
  | [] => []
  | e :: es =>
      ((m.traceOf env e).filterMap fun
        | .created _ id _ => some id.bytes
        | _ => none) ++ createdIds (m.step env e) es

/-- The statuses that a run answers with. -/
def statuses (m : Machine) : List Event → List (Option UInt8)
  | [] => []
  | e :: es => (m.reply env e).map (·.status) :: statuses (m.step env e) es

/-- Two credentials of one relying party. -/
def twoCredentials : List Event := [request 1 (createOps [1]), request 1 (createOps [2])]

def twoIds : List (List UInt8) := createdIds (Machine.powerUp env device) twoCredentials

end NitrokeyFido2.Ctap.Sample
