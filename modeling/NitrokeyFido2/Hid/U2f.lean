import NitrokeyFido2.Hid.World

/-!
The U2F protocol: `u2f_request` on the message in `ctap_buffer`.

The request is read where it lies, also after the wait for the user, and
signatures are made over its payload.
-/

namespace NitrokeyFido2.Hid

open Ctap

variable (env : Env)

abbrev u2fSwNoError : UInt16 := 0x9000
abbrev u2fSwConditionsNotSatisfied : UInt16 := 0x6985
abbrev u2fSwInsNotSupported : UInt16 := 0x6d00
abbrev u2fSwWrongLength : UInt16 := 0x6700
abbrev u2fSwClassNotSupported : UInt16 := 0x6e00
abbrev u2fSwWrongData : UInt16 := 0x6a80
abbrev u2fSwInsufficientMemory : UInt16 := 0x9210

abbrev u2fRegisterIns : UInt8 := 0x01
abbrev u2fAuthenticateIns : UInt8 := 0x02
abbrev u2fVersionIns : UInt8 := 0x03
abbrev u2fVendorFirst : UInt8 := 0xc0
abbrev u2fVendorLast : UInt8 := 0xff

abbrev u2fAuthenticateCheck : UInt8 := 0x07
abbrev u2fAuthenticateSign : UInt8 := 0x03
abbrev u2fAuthenticateSignNoUser : UInt8 := 0x08

abbrev u2fUpDelayMs : ℕ := 500

/-! ### The request -/

namespace World

variable (w : World)

def cla : UInt8 := (w.message 0 1).getD 0 0
def ins : UInt8 := (w.message 1 1).getD 0 0
def p1 : UInt8 := (w.message 2 1).getD 0 0

/-- `LC1`, `LC2` and `LC3`. -/
def lc : ℕ :=
  let b := w.message 4 3
  65536 * (b.getD 0 0).toNat + 256 * (b.getD 1 0).toNat + (b.getD 2 0).toNat

def chal : List UInt8 := w.message 7 32
def app : List UInt8 := w.message 39 32
def khl : ℕ := ((w.message 71 1).getD 0 0).toNat

/-- The key handle, and the memory behind it. -/
def kh : List UInt8 := w.message 72 (ctaphidBufferSize - 72)

end World

/-- The status word and what was written back. -/
abbrev U2fResult := UInt16 × CtapResponse

/-! ### Extensions -/

/-- `extension_needs_atomic_count`: `WalletRegister` and `WalletSign`. -/
def extensionNeedsAtomicCount (keyh : List UInt8) : Bool :=
  keyh.getD 0 0 = 0x11 || keyh.getD 0 0 = 0x10

/-- `bridge_u2f_to_extensions`. -/
def bridgeU2fToExtensions : HidM U2fResult := do
  let w ← (Proc.get : WorldM World)
  let count ← (
    if extensionNeedsAtomicCount w.kh then onDevice (ctapAtomicCount env)
    else pure 10 : WorldM UInt32)
  let resp := u2fResponseWriteback ctapResponseInit (1 :: Bytes.toBe32 count ++ [0])
  onDevice (Proc.modify fun a => { a with requestSource := .u2f })
  let (ret, out) ← onAuth
    (bridgeU2fToSolo env (Buf.ofList 71 ((env.uninit .signature 72).slice 0 71)) w.kh)
  if ret ≠ 0 then
    pure (u2fSwNoError, u2fResponseWriteback ctapResponseInit
      (1 :: Bytes.toBe32 count ++ (ret :: List.replicate 71 0)))
  else
    pure (u2fSwNoError, u2fResponseWriteback resp
      (out.bytes ++ (env.uninit .signature 72).slice 71 1))

/-- `u2f_version`. -/
def u2fVersion (resp : CtapResponse) : U2fResult :=
  (u2fSwNoError, u2fResponseWriteback resp (Bytes.ascii "U2F_V2"))

/-- `extend_u2f`. -/
def extendU2f (len : ℕ) : HidM U2fResult := do
  let w ← (Proc.get : WorldM World)
  if w.ins = u2fAuthenticateIns then
    if w.p1 = u2fAuthenticateCheck then
      pure (if isExtensionRequest w.kh w.khl then u2fSwConditionsNotSatisfied else u2fSwWrongData,
        ctapResponseInit)
    else if isExtensionRequest w.kh w.khl then bridgeU2fToExtensions env
    else pure (u2fSwWrongData, ctapResponseInit)
  else if w.ins = u2fVersionIns then
    pure (if len ≠ 0 then (u2fSwWrongLength, ctapResponseInit) else u2fVersion ctapResponseInit)
  else pure (u2fSwInsNotSupported, ctapResponseInit)

/-! ### Authentication and registration -/

/-- Sign the hash and leave the signature where the request was. -/
def u2fSign (hash : List UInt8) : WorldM (List UInt8) := do
  let sig ← onDevice (cryptoEcc256Sign env hash)
  writeMessage 7 sig.bytes
  let (sigder, len) := ctapEncodeDerSig sig
  pure (sigder.slice 0 len)

/-- The signature of `u2f_authenticate` with this user presence byte. -/
def u2fAuthenticateSigned (resp : CtapResponse) (up : UInt8) : WorldM U2fResult := do
  let count ← onDevice (ctapAtomicCount env)
  let w ← Proc.get
  let hash := env.sha256 (w.app ++ [up] ++ Bytes.toBe32 count ++ w.chal)
  let sigder ← u2fSign env hash.bytes
  onDevice (note (.carriedOut (.authenticate up)))
  pure (u2fSwNoError, u2fResponseWriteback resp (up :: Bytes.toBe32 count ++ sigder))

/-- `u2f_authenticate`. -/
def u2fAuthenticate (resp : CtapResponse) (control : UInt8) : HidM U2fResult := do
  let w ← (Proc.get : WorldM World)
  let authentic := u2fAuthenticateCredential env w.auth.secrets w.kh w.khl w.app
  if control = u2fAuthenticateCheck then
    pure (if authentic then u2fSwConditionsNotSatisfied else u2fSwWrongData, resp)
  else if (control ≠ u2fAuthenticateSign ∧ control ≠ u2fAuthenticateSignNoUser) ∨
      authentic = false then
    pure (u2fSwWrongData, resp)
  else do
    onDevice (loadKey (cryptoEcc256LoadKey env w.auth.secrets (w.kh.take w.khl)))
    if control = u2fAuthenticateSignNoUser then u2fAuthenticateSigned env resp 0
    else do
      let ret ← onAuth (ctapUserPresenceTest u2fUpDelayMs)
      if ret = 0 then pure (u2fSwConditionsNotSatisfied, resp)
      else u2fAuthenticateSigned env resp 1

/-- The key pair and the signature of `u2f_register`. -/
def u2fRegisterSigned (resp : CtapResponse) : WorldM U2fResult := do
  let key ← onDevice (ctapGenerateRng env 32)
  let w ← Proc.get
  let kh := u2fMakeAuthTag env w.auth.secrets key.bytes w.app ++ key.bytes
  let pubkey := cryptoEcc256DerivePublicKey env w.auth.secrets kh
  let hash := env.sha256 ([0] ++ w.app ++ w.chal ++ kh ++ [4] ++ pubkey.bytes)
  onDevice (loadKey (cryptoEcc256LoadAttestationKey env))
  let sigder ← u2fSign env hash.bytes
  onDevice (note (.carriedOut .register))
  let resp := u2fResponseWriteback resp
    ([5, 4] ++ pubkey.bytes ++ [UInt8.ofNat u2fKeyHandleSize] ++ kh)
  let resp := u2fResponseWriteback resp env.attestationCertDer
  pure (u2fSwNoError, u2fResponseWriteback resp sigder)

/-- `u2f_register`. -/
def u2fRegister (resp : CtapResponse) : HidM U2fResult :=
  if env.attestationCertDer.length > 1024 then pure (u2fSwInsufficientMemory, resp)
  else do
    let ret ← onAuth (ctapUserPresenceTest u2fUpDelayMs)
    if ret = 0 then pure (u2fSwConditionsNotSatisfied, resp)
    else u2fRegisterSigned env resp

/-- The switch of `u2f_request_ex`. -/
def u2fSwitch (resp : CtapResponse) (len : ℕ) : HidM U2fResult := do
  let w ← (Proc.get : WorldM World)
  if w.ins = u2fRegisterIns then
    if len ≠ 64 then pure (u2fSwWrongLength, resp) else u2fRegister env resp
  else if w.ins = u2fAuthenticateIns then u2fAuthenticate env resp w.p1
  else if w.ins = u2fVersionIns then
    pure (if len ≠ 0 then (u2fSwWrongLength, resp) else u2fVersion resp)
  else if w.ins = u2fVendorFirst ∨ w.ins = u2fVendorLast then pure (u2fSwNoError, resp)
  else pure (u2fSwInsNotSupported, resp)

/-- The response with its status word: an error leaves nothing else. -/
def u2fFinish (r : U2fResult) : List UInt8 :=
  let resp := if r.1 = u2fSwNoError then r.2 else ctapResponseInit
  (u2fResponseWriteback (u2fResponseWriteback resp [(r.1 >>> 8).toUInt8]) [r.1.toUInt8]).data

/-- `u2f_request`. -/
def u2fRequest : HidM (List UInt8) := do
  let w ← (Proc.get : WorldM World)
  let len := w.lc
  if w.cla ≠ 0 then pure (u2fFinish (u2fSwClassNotSupported, ctapResponseInit))
  else do
    let r ← extendU2f env len
    let r ← (
      if r.1 ≠ u2fSwNoError ∧ r.1 ≠ u2fSwConditionsNotSatisfied then u2fSwitch env r.2 len
      else pure r : HidM U2fResult)
    onAuth (deviceSetStatus .idle)
    pure (u2fFinish r)

end NitrokeyFido2.Hid
