import NitrokeyFido2.Ctap.MakeCredential

/-!
`ctap_client_pin`: setting, changing and verifying the PIN.
-/

namespace NitrokeyFido2.Ctap

variable (env : Env)

/-- `trailing_zeros`: how many zeros stand at index `indx` and before it,
the byte at index 0 left aside. -/
def trailingZeros {n : ℕ} (buf : Buf n) : ℕ → ℕ
  | 0 => 0
  | indx + 1 => if buf.byte (indx + 1) = 0 then trailingZeros buf indx + 1 else 0

/-- What is stored of a PIN hash: the hash of its first 16 bytes and the
salt. -/
def saltedPinHash (salt : Buf 32) (pinHash : List UInt8) : Buf 32 :=
  env.sha256 (pinHash ++ salt.bytes)

/-- `ctap_update_pin`. -/
def ctapUpdatePin (pin : List UInt8) (len : ℕ) : Device Unit := do
  Proc.stopIf (len ≥ newPinEncMinSize ∨ len < 4) .halted
  modifyState fun s =>
    { s with
      pinCodeHash := saltedPinHash env s.pinSalt ((env.sha256 (pin.take len)).slice 0 16)
      isPinSet := 1 }
  ctapFlushState
  note (.pinUpdated (pin.take len))

/-- The status of a device that has no attempts left, in this power-up or at
all. -/
def failIfLocked : Device Unit := do
  let a ← Proc.get
  failIf (ctapDeviceLocked a) ctap2ErrPinBlocked
  failIf (ctapDeviceBootLocked a) ctap2ErrPinAuthBlocked

/-- The shared secret of `pinAuth` and of the encrypted PINs. -/
def pinSharedSecret (platformPubkey : List UInt8) : Device (List UInt8) := do
  let a ← Proc.get
  let sharedSecret ← orHalt (env.sharedSecret platformPubkey a.keyAgreementPriv)
  pure (env.sha256 sharedSecret.bytes).bytes

/-- A PIN hash decrypted in place. -/
def decryptPinHash (sharedSecret : List UInt8) (pinHashEnc : Buf 16) : Buf 16 :=
  pinHashEnc.write 0 (env.aesCbcDecrypt sharedSecret pinHashEnc.bytes)

/-- `memcmp(pinHashEncSalted, STATE.PIN_CODE_HASH, 16) == 0`. -/
def pinHashMatches (s : AuthenticatorState) (pinHash : List UInt8) : Bool :=
  (saltedPinHash env s.pinSalt pinHash).slice 0 16 = s.pinCodeHash.slice 0 16

/-- What a wrong PIN costs: an attempt, and the key agreement key. -/
def wrongPin : Device Unit := do
  ctapResetKeyAgreement env
  ctapDecrementPinAttempts
  let a ← Proc.get
  fail (blockedOr a ctap2ErrPinInvalid)

/-- Compare a decrypted PIN hash with the stored one. -/
def comparePinHash (pinHash : List UInt8) : Device Unit := do
  let a ← Proc.get
  note (.pinCompared pinHash (pinHashMatches env a.state pinHash))
  if pinHashMatches env a.state pinHash then ctapResetPinAttempts else wrongPin env

/-- The current PIN hash in a changePIN request. -/
def verifyCurrentPin (sharedSecret : List UInt8) (pinHashEnc : Option (Buf 16)) : Device Unit := do
  let a ← Proc.get
  if ctapIsPinSet a then do
    failIfLocked
    let pinHashEnc ← orHalt pinHashEnc
    comparePinHash env (decryptPinHash env sharedSecret pinHashEnc).bytes
  else pure ()

/-- `ctap_update_pin_if_verified`. -/
def ctapUpdatePinIfVerified (pinEnc : Buf newPinEncMaxSize) (len : ℕ)
    (platformPubkey : List UInt8) (pinAuth : Buf 16) (pinHashEnc : Option (Buf 16)) :
    Device Unit := do
  failIf (len < 64) ctap1ErrOther
  let a ← Proc.get
  (if ctapIsPinSet a then failIfLocked else pure () : Device Unit)
  let sharedSecret ← pinSharedSecret env platformPubkey
  let signed := pinEnc.slice 0 len ++ (pinHashEnc.elim [] Buf.bytes)
  failIf ((cryptoSha256Hmac env a.secrets (.bytes sharedSecret) signed).slice 0 16 ≠ pinAuth.bytes)
    ctap2ErrPinAuthInvalid
  let blocks := (len + 15) / 16 * 16
  let pin := pinEnc.write 0 (env.aesCbcDecrypt sharedSecret (pinEnc.slice 0 blocks))
  let size := newPinEncMinSize - trailingZeros pin (newPinEncMinSize - 1)
  failIf ((size : ℤ) < newPinMinSize ∨ (size : ℤ) ≥ newPinMaxSize) ctap2ErrPinPolicyViolation
  verifyCurrentPin env sharedSecret pinHashEnc
  ctapUpdatePin env pin.bytes size

/-- `ctap_add_pin_if_verified`: the encrypted PIN token. -/
def ctapAddPinIfVerified (platformPubkey : List UInt8) (pinHashEnc : Buf 16) :
    Device (List UInt8) := do
  let sharedSecret ← pinSharedSecret env platformPubkey
  comparePinHash env (decryptPinHash env sharedSecret pinHashEnc).bytes
  let a ← Proc.get
  pure (a.pinToken.write 0 (env.aesCbcEncrypt sharedSecret a.pinToken.bytes)).bytes

/-! ### The subcommands -/

def clientPinGetKeyAgreement (w : Writer) (numMap : ℕ) : Device Writer := do
  let w ← encode w (env.writer.emitAll [.createMap numMap, .int 1])
  Proc.modify fun a =>
    { a with keyAgreementPub :=
      (env.computePublicKey a.keyAgreementPriv).getD a.keyAgreementPub }
  let a ← Proc.get
  encode w (ctapAddCoseKey env a.keyAgreementPub coseAlgEcdhEsHkdf256)

def clientPinSetPin (cp : ClientPin) : Device Unit := do
  let a ← Proc.get
  failIf (ctapIsPinSet a) ctap2ErrNotAllowed
  failIf (cp.newPinEncSize = 0 ∨ cp.pinAuthPresent = 0 ∨ cp.keyAgreementPresent = 0)
    ctap2ErrMissingParameter
  ctapUpdatePinIfVerified env cp.newPinEnc cp.newPinEncSize cp.keyAgreement.pubkey cp.pinAuth none

def clientPinChangePin (cp : ClientPin) : Device Unit := do
  let a ← Proc.get
  failIf (ctapIsPinSet a = false) ctap2ErrPinNotSet
  failIf (cp.newPinEncSize = 0 ∨ cp.pinAuthPresent = 0 ∨ cp.keyAgreementPresent = 0 ∨
    cp.pinHashEncPresent = 0) ctap2ErrMissingParameter
  ctapUpdatePinIfVerified env cp.newPinEnc cp.newPinEncSize cp.keyAgreement.pubkey cp.pinAuth
    (some cp.pinHashEnc)

def clientPinGetPinToken (w : Writer) (cp : ClientPin) (numMap : ℕ) : Device Writer := do
  let a ← Proc.get
  failIf (ctapIsPinSet a = false) ctap2ErrPinNotSet
  let w ← encode w (env.writer.emit (.createMap numMap))
  failIf (cp.keyAgreementPresent = 0 ∨ cp.pinHashEncPresent = 0) ctap2ErrMissingParameter
  let w ← encode w (env.writer.emit (.int 2))
  let pinTokenEnc ← ctapAddPinIfVerified env cp.keyAgreement.pubkey cp.pinHashEnc
  encode w (env.writer.emit (.byteString pinTokenEnc))

/-- The retries and the end of the map. The map variable was only initialised
by the subcommands that answer with data. -/
def clientPinFinish (w : Writer) (getRetries mapCreated : Bool) : Device Writer := do
  let a ← Proc.get
  let ops : List EncOp :=
    (if getRetries then [.int 3, .int a.state.remainingTries] else []) ++
      (if mapCreated || getRetries then [.closeContainer] else [])
  encode w (env.writer.emitAll (if mapCreated then ops else ops.map .uninitialised))

/-- The subcommand of `ctap_client_pin`. -/
def clientPinSubCommand (w : Writer) (cp : ClientPin) : Device Writer :=
  let retries := if cp.getRetries then 1 else 0
  if cp.subCommand = cpCmdGetRetries then do
    let w ← encode w (env.writer.emit (.createMap 1))
    clientPinFinish env w true true
  else if cp.subCommand = cpCmdGetKeyAgreement then do
    let w ← clientPinGetKeyAgreement env w (retries + 1)
    clientPinFinish env w cp.getRetries true
  else if cp.subCommand = cpCmdSetPin then do
    clientPinSetPin env cp
    clientPinFinish env w cp.getRetries false
  else if cp.subCommand = cpCmdChangePin then do
    clientPinChangePin env cp
    clientPinFinish env w cp.getRetries false
  else if cp.subCommand = cpCmdGetPinToken then do
    let w ← clientPinGetPinToken env w cp (retries + 1)
    clientPinFinish env w cp.getRetries true
  else fail ctap1ErrOther

/-- The subcommands that the gate of `ctap_client_pin` covers. -/
def usesPin (subCommand : ℤ) : Prop :=
  subCommand = cpCmdSetPin ∨ subCommand = cpCmdChangePin ∨ subCommand = cpCmdGetPinToken

instance (subCommand : ℤ) : Decidable (usesPin subCommand) := by
  unfold usesPin
  infer_instance

/-- `ctap_client_pin`. The gate looks at the subcommand even when the request
could not be parsed to its end. -/
def ctapClientPin (w : Writer) (request : List UInt8) : Device Writer := do
  let (r, cp) := ctapParseClientPin env request default
  (if usesPin cp.subCommand then failIfLocked else pure () : Device Unit)
  ofStatus r
  failIf (cp.pinProtocol ≠ 1 ∨ cp.subCommand = 0) ctap1ErrOther
  clientPinSubCommand env w cp

end NitrokeyFido2.Ctap
