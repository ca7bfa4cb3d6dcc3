import NitrokeyFido2.Lib.Bytes

/-!
A hash function that takes its message in pieces, and the message
authentication code made of it.
-/

/-- A streaming hash of `n` bytes, and the function of the whole message that
it computes. -/
structure StreamingHash (n : ℕ) where
  Ctx : Type
  init : Ctx
  update : Ctx → List UInt8 → Ctx
  final : Ctx → Buf n
  hash : List UInt8 → Buf n
  final_foldl : ∀ pieces : List (List UInt8), final (pieces.foldl update init) = hash pieces.flatten

namespace StreamingHash

variable {n : ℕ} (h : StreamingHash n)

theorem foldl_append_nil (pieces : List (List UInt8)) :
    pieces.foldl (fun kept p => kept ++ p) [] = pieces.flatten := by
  simpa using @List.foldl_append_eq_append _ _ pieces id []

/-- Any function, streamed by keeping the message. -/
def buffered (f : List UInt8 → Buf n) : StreamingHash n where
  Ctx := List UInt8
  init := []
  update kept p := kept ++ p
  final := f
  hash := f
  final_foldl pieces := congrArg f (foldl_append_nil pieces)

/-- The pieces given one after the other. -/
def updates (c : h.Ctx) (pieces : List (List UInt8)) : h.Ctx := pieces.foldl h.update c

theorem updates_cons (c : h.Ctx) (p : List UInt8) (pieces : List (List UInt8)) :
    h.updates (h.update c p) pieces = h.updates c (p :: pieces) := rfl

@[simp] theorem final_updates (pieces : List (List UInt8)) :
    h.final (h.updates h.init pieces) = h.hash pieces.flatten := h.final_foldl pieces

end StreamingHash

namespace Hmac

variable {n : ℕ}

/-- A key at the start of a block of zeros; one that does not fit is hashed. -/
def blockKey (f : List UInt8 → Buf n) (block : ℕ) (key : List UInt8) : Buf block :=
  Buf.ofList block (if block < key.length then (f key).bytes else key)

/-- A block with every byte masked. -/
def masked {block : ℕ} (mask : UInt8) (b : Buf block) : List UInt8 := b.bytes.map (· ^^^ mask)

/-- The two nested hashes, with the key of each. -/
def nested {block : ℕ} (f : List UInt8 → Buf n) (inner outer : Buf block) (message : List UInt8) :
    Buf n :=
  f (masked 0x5c outer ++ (f (masked 0x36 inner ++ message)).bytes)

/-- HMAC over a hash with blocks of the given size. -/
def hmac (f : List UInt8 → Buf n) (block : ℕ) (key message : List UInt8) : Buf n :=
  nested f (blockKey f block key) (blockKey f block key) message

theorem blockKey_of_le {f : List UInt8 → Buf n} {block : ℕ} {key : List UInt8}
    (hkey : key.length ≤ block) : blockKey f block key = Buf.ofList block key := by
  rw [blockKey, if_neg (by omega)]

/-- Both hashes streamed: the inner one gets the message in pieces. -/
theorem nested_stream {block : ℕ} (h : StreamingHash n) (inner outer : Buf block)
    (pieces : List (List UInt8)) :
    h.final (h.update (h.update h.init (masked 0x5c outer))
        (h.final (h.updates (h.update h.init (masked 0x36 inner)) pieces)).bytes) =
      nested h.hash inner outer pieces.flatten := by
  have hinner : h.final (h.updates (h.update h.init (masked 0x36 inner)) pieces) =
      h.hash (masked 0x36 inner ++ pieces.flatten) := by
    rw [h.updates_cons, h.final_updates, List.flatten_cons]
  have houter (digest : List UInt8) :
      h.final (h.update (h.update h.init (masked 0x5c outer)) digest) =
        h.hash (masked 0x5c outer ++ digest) := by
    simpa using h.final_foldl [masked 0x5c outer, digest]
  rw [hinner, houter, nested]

end Hmac
