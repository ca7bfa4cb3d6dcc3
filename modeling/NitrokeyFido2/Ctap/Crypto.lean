import NitrokeyFido2.Ctap.Cbor

/-!
What the authenticator is given from outside the repository, and `crypto.c`
on top of it.

The hash, the block cipher and the curve are abstract functions; the random
number generator is a stream of bytes, of which the state keeps the position.
-/

namespace NitrokeyFido2.Ctap

/-- Local buffers that are read before they are written everywhere. -/
inductive StackBuffer
  | textKey | authData | extensions | excludedCredential | signature
  deriving DecidableEq

structure Env where
  reader : CborReader
  writer : CborWriter
  sha256 : List UInt8 → Buf 32
  aesCbcEncrypt : List UInt8 → List UInt8 → List UInt8
  aesCbcDecrypt : List UInt8 → List UInt8 → List UInt8
  /-- `uECC_shared_secret`. -/
  sharedSecret : List UInt8 → Buf 32 → Option (Buf 32)
  /-- `uECC_compute_public_key`. -/
  computePublicKey : Buf 32 → Option (Buf 64)
  /-- `uECC_sign`, with the random bytes at its disposal; it tells how many it
  took. -/
  sign : Buf 32 → List UInt8 → (ℕ → UInt8) → Option (Buf 64 × ℕ)
  random : ℕ → UInt8
  /-- `qsort`. -/
  qsort : (CredentialDescriptor → CredentialDescriptor → ℤ) → List CredentialDescriptor →
    List CredentialDescriptor
  aaguid : Buf 16
  soloVersion : Buf 3
  attestationKey : Buf 32
  attestationCertDer : List UInt8
  /-- The bytes at address zero. -/
  memoryAtNull : CredentialId
  /-- The initial contents of local buffers. -/
  stack : StackBuffer → ℕ → UInt8

/-- `uint8_t buf[n];`. -/
def Env.uninit (env : Env) (v : StackBuffer) (n : ℕ) : Buf n :=
  ⟨(List.range n).map (env.stack v), by simp⟩

/-! ### `crypto.c` -/

/-- `master_secret` and `transport_secret`. -/
structure Secrets where
  masterSecret : Buf 64
  transportSecret : Buf 32
  deriving DecidableEq, Inhabited

/-- `crypto_load_master_secret`. -/
def cryptoLoadMasterSecret (key : Buf keySpaceBytes) : Secrets where
  masterSecret := Buf.ofList 64 (key.slice 0 64)
  transportSecret := Buf.ofList 32 (key.slice 64 32)

/-- The `key` argument of the HMAC functions: one of the selectors
`CRYPTO_MASTER_KEY`, `CRYPTO_TRANSPORT_KEY` and `CRYPTO_TRANSPORT_KEY2`, which
are passed with length 0, or a key of at most 64 bytes. -/
inductive HmacKey
  | master
  | transport
  | transport2
  | bytes (key : List UInt8)

/-- The key that `crypto_sha256_hmac_init` pads. -/
def Secrets.hmacInitKey (s : Secrets) : HmacKey → List UInt8
  | .master => s.masterSecret.slice 0 32
  | .transport => s.transportSecret.bytes
  | .transport2 => []
  | .bytes key => key

/-- The key that `crypto_sha256_hmac_final` pads. -/
def Secrets.hmacFinalKey (s : Secrets) : HmacKey → List UInt8
  | .master => s.masterSecret.slice 0 32
  | .transport => []
  | .transport2 => s.transportSecret.bytes
  | .bytes key => key

/-- A 64-byte block with the key at its start, every byte masked. -/
def hmacBlock (mask : UInt8) (key : List UInt8) : List UInt8 :=
  (Buf.ofList 64 key).bytes.map (· ^^^ mask)

variable (env : Env)

/-- `crypto_sha256_hmac_init`, the updates, and `crypto_sha256_hmac_final`
with the same key argument. -/
def cryptoSha256Hmac (s : Secrets) (key : HmacKey) (data : List UInt8) : Buf 32 :=
  env.sha256 (hmacBlock 0x5c (s.hmacFinalKey key) ++
    (env.sha256 (hmacBlock 0x36 (s.hmacInitKey key) ++ data)).bytes)

/-- `generate_private_key`; the second data argument is always empty. -/
def generatePrivateKey (s : Secrets) (data : List UInt8) : Buf 32 :=
  Buf.ofList 32 (env.aesCbcEncrypt (s.masterSecret.slice 32 32)
    (cryptoSha256Hmac env s .master (data ++ s.masterSecret.slice 0 32)).bytes)

/-- `crypto_ecc256_derive_public_key`. -/
def cryptoEcc256DerivePublicKey (s : Secrets) (data : List UInt8) : Buf 64 :=
  (env.computePublicKey (generatePrivateKey env s data)).getD (Buf.zero 64)

/-- Where a signing key comes from. -/
inductive KeySource
  | none
  | attestation
  | derived (secrets : Secrets) (data : List UInt8)
  deriving DecidableEq, Inhabited

/-- `_signing_key`. -/
structure SigningKey where
  key : Buf 32
  source : KeySource
  deriving DecidableEq, Inhabited

/-- `crypto_ecc256_load_key`. -/
def cryptoEcc256LoadKey (s : Secrets) (data : List UInt8) : SigningKey :=
  ⟨generatePrivateKey env s data, .derived s data⟩

/-- `crypto_ecc256_load_attestation_key`. -/
def cryptoEcc256LoadAttestationKey : SigningKey := ⟨env.attestationKey, .attestation⟩

end NitrokeyFido2.Ctap
