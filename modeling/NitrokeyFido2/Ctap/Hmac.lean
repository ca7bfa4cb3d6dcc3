import NitrokeyFido2.Ctap.Sample
import NitrokeyFido2.Lib.Hmac

/-!
The two halves of the message authentication code in `crypto.c`.

Each half resolves the key argument by itself. They agree about a key that is
passed as bytes and about the master secret; about the two selectors of the
transport secret they do not, and one half pads no key at all.
-/

namespace NitrokeyFido2.Ctap

section Streaming

variable (sha : StreamingHash 32) (s : Secrets) (key : HmacKey)

/-- `crypto_sha256_hmac_init`; a key that does not fit in a block ends the
program. -/
def cryptoSha256HmacInit : Option sha.Ctx :=
  let k := s.hmacInitKey key
  if 64 < k.length then none
  else some (sha.update sha.init (hmacBlock 0x36 k))

/-- `crypto_sha256_hmac_final`. -/
def cryptoSha256HmacFinal (ctx : sha.Ctx) : Option (Buf 32) :=
  let hmac := sha.final ctx
  let k := s.hmacFinalKey key
  if 64 < k.length then none
  else some (sha.final (sha.update (sha.update sha.init (hmacBlock 0x5c k)) hmac.bytes))

/-- The calls of `crypto_sha256_update` stand between the two. -/
def cryptoSha256HmacStream (pieces : List (List UInt8)) : Option (Buf 32) :=
  (cryptoSha256HmacInit sha s key).bind fun ctx =>
    cryptoSha256HmacFinal sha s key (sha.updates ctx pieces)

/-- The secret that a key argument stands for. -/
def Secrets.named : HmacKey → List UInt8
  | .master => s.masterSecret.slice 0 32
  | .transport => s.transportSecret.bytes
  | .transport2 => s.transportSecret.bytes
  | .bytes key => key

/-- Both halves pad the same key, and the result is the code of the message
under the secret that the key argument names. -/
structure StreamsHmac (pieces : List (List UInt8)) : Prop where
  sameKey : Hmac.blockKey sha.hash 64 (s.hmacInitKey key) =
    Hmac.blockKey sha.hash 64 (s.hmacFinalKey key)
  result : cryptoSha256HmacStream sha s key pieces =
    some (Hmac.hmac sha.hash 64 (s.named key) pieces.flatten)

variable {sha s key}

theorem cryptoSha256HmacStream_eq (hinit : (s.hmacInitKey key).length ≤ 64)
    (hfinal : (s.hmacFinalKey key).length ≤ 64) (pieces : List (List UInt8)) :
    cryptoSha256HmacStream sha s key pieces =
      some (Hmac.nested sha.hash (Buf.ofList 64 (s.hmacInitKey key))
        (Buf.ofList 64 (s.hmacFinalKey key)) pieces.flatten) := by
  rw [cryptoSha256HmacStream, cryptoSha256HmacInit, if_neg (by omega), Option.bind_some,
    cryptoSha256HmacFinal, if_neg (by omega)]
  exact congrArg some (Hmac.nested_stream sha _ _ pieces)

/-- However the message is split, the stream gives what the model of the
requests computes in one piece. -/
theorem cryptoSha256HmacStream_eq_cryptoSha256Hmac {env : Env} (hsha : env.sha256 = sha.hash)
    (hinit : (s.hmacInitKey key).length ≤ 64) (hfinal : (s.hmacFinalKey key).length ≤ 64)
    (pieces : List (List UInt8)) :
    cryptoSha256HmacStream sha s key pieces = some (cryptoSha256Hmac env s key pieces.flatten) := by
  rw [cryptoSha256HmacStream_eq hinit hfinal, cryptoSha256Hmac, hsha]
  rfl

/-- The two halves pad the same block, up to zeros behind the key. -/
theorem streamsHmac_of_blocks (hkey : (s.named key).length ≤ 64)
    (hinit : (s.hmacInitKey key).length ≤ 64) (hfinal : (s.hmacFinalKey key).length ≤ 64)
    (hinner : Buf.ofList 64 (s.hmacInitKey key) = Buf.ofList 64 (s.named key))
    (houter : Buf.ofList 64 (s.hmacFinalKey key) = Buf.ofList 64 (s.named key))
    (pieces : List (List UInt8)) : StreamsHmac sha s key pieces where
  sameKey := by
    rw [Hmac.blockKey_of_le hinit, Hmac.blockKey_of_le hfinal, hinner, houter]
  result := by
    rw [cryptoSha256HmacStream_eq hinit hfinal, hinner, houter, Hmac.hmac,
      Hmac.blockKey_of_le hkey]

theorem StreamsHmac.sameBlock {pieces : List (List UInt8)} (h : StreamsHmac sha s key pieces)
    (hinit : (s.hmacInitKey key).length ≤ 64) (hfinal : (s.hmacFinalKey key).length ≤ 64) :
    Buf.ofList 64 (s.hmacInitKey key) = Buf.ofList 64 (s.hmacFinalKey key) := by
  have hsame := h.sameKey
  rwa [Hmac.blockKey_of_le hinit, Hmac.blockKey_of_le hfinal] at hsame

/-- A key that does not fit ends the program: there is no result. -/
theorem StreamsHmac.length_le {pieces : List (List UInt8)} (h : StreamsHmac sha s key pieces) :
    (s.hmacInitKey key).length ≤ 64 := by
  by_contra hlong
  have hstop : cryptoSha256HmacInit sha s key = none := by
    rw [cryptoSha256HmacInit, if_pos (not_le.mp hlong)]
  have hresult := h.result
  rw [cryptoSha256HmacStream, hstop] at hresult
  cases hresult

/-- A block without a key is the block of the transport secret exactly if that
is zero. -/
theorem ofList_nil_eq_iff : Buf.ofList 64 [] = Buf.ofList 64 s.transportSecret.bytes ↔
    s.transportSecret = Buf.zero 32 := by
  have hlen : s.transportSecret.bytes.length = 32 := s.transportSecret.length_bytes
  have hpad : (Buf.ofList 64 s.transportSecret.bytes).bytes =
      s.transportSecret.bytes ++ List.replicate 32 0 := by
    rw [Buf.bytes_ofList (by omega), hlen]
  have hnil : (Buf.ofList 64 []).bytes = List.replicate 32 0 ++ List.replicate 32 0 := by
    rw [Buf.bytes_ofList (by simp), List.replicate_append_replicate]
    rfl
  constructor
  · intro h
    have hbytes := congrArg Buf.bytes h
    rw [hnil, hpad] at hbytes
    exact Buf.ext (List.append_cancel_right hbytes).symm
  · intro h
    apply Buf.ext
    rw [hnil, hpad, h]
    rfl

/-- Both halves find the secret that the key argument names. -/
def Secrets.FoundTwice (s : Secrets) : HmacKey → Prop
  | .master => True
  | .transport => s.transportSecret = Buf.zero 32
  | .transport2 => s.transportSecret = Buf.zero 32
  | .bytes key => key.length ≤ 64

/-- The stream is the message authentication code, with one key throughout,
exactly for the keys that both halves find. -/
theorem streamsHmac_iff (pieces : List (List UInt8)) :
    StreamsHmac sha s key pieces ↔ s.FoundTwice key := by
  have hsecret : s.transportSecret.bytes.length ≤ 64 := by simp [s.transportSecret.length_bytes]
  have hshort : ([] : List UInt8).length ≤ 64 := by simp
  cases key with
  | master =>
    have hkey : (s.masterSecret.slice 0 32).length ≤ 64 := by
      rw [Buf.length_slice (by decide)]
      decide
    exact iff_of_true (@streamsHmac_of_blocks _ _ .master hkey hkey hkey rfl rfl pieces) trivial
  | transport =>
    -- the outer hash is the one without a key
    constructor
    · intro h
      exact ofList_nil_eq_iff.mp (h.sameBlock hsecret hshort).symm
    · intro h
      have hblock : Buf.ofList 64 [] = Buf.ofList 64 s.transportSecret.bytes :=
        ofList_nil_eq_iff.mpr h
      exact @streamsHmac_of_blocks _ _ .transport hsecret hsecret hshort rfl hblock pieces
  | transport2 =>
    -- here it is the inner hash
    constructor
    · intro h
      exact ofList_nil_eq_iff.mp (h.sameBlock hshort hsecret)
    · intro h
      have hblock : Buf.ofList 64 [] = Buf.ofList 64 s.transportSecret.bytes :=
        ofList_nil_eq_iff.mpr h
      exact @streamsHmac_of_blocks _ _ .transport2 hsecret hshort hsecret hblock rfl pieces
  | bytes k =>
    constructor
    · intro h
      exact h.length_le
    · intro h
      exact @streamsHmac_of_blocks _ _ (.bytes k) h h h rfl rfl pieces

/-- With either selector of the transport secret the result is not its code,
already for a hash that adds up columns. -/
theorem streamsHmac_counterexample :
    cryptoSha256HmacStream (.buffered Sample.hash) ⟨Buf.zero 64, Buf.fill 32 7⟩ .transport
        [[1, 2], [3]] ≠
      some (Hmac.hmac Sample.hash 64 (List.replicate 32 7) [1, 2, 3]) ∧
    cryptoSha256HmacStream (.buffered Sample.hash) ⟨Buf.zero 64, Buf.fill 32 7⟩ .transport2
        [[1, 2], [3]] ≠
      some (Hmac.hmac Sample.hash 64 (List.replicate 32 7) [1, 2, 3]) := by
  constructor <;> decide +kernel

/-- What a credential is authenticated with: the transport secret in the inner
hash, an empty block in the outer one. -/
theorem makeAuthTag_eq (env : Env) (rpIdHash nonce : List UInt8) (count : UInt32) :
    makeAuthTag env s rpIdHash nonce count =
      (Hmac.nested env.sha256 (Buf.ofList 64 s.transportSecret.bytes) (Buf.ofList 64 [])
        (rpIdHash ++ nonce ++ Bytes.toLe32 count)).slice 0 credentialTagSize := rfl

end Streaming

end NitrokeyFido2.Ctap
