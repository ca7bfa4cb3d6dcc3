import NitrokeyFido2.Lib.Bytes

/-!
The authenticator's data as the firmware lays it out: error codes, sizes,
credentials, resident keys, and the structures its parsers fill.

A credential id is kept as the 70 bytes it is, because the parsers copy key
handles of other lengths over it and the extensions read it as something
else; its fields are windows into those bytes.
-/

namespace NitrokeyFido2.Ctap

/-! ### Error codes -/

abbrev ctap1ErrSuccess : UInt8 := 0x00
abbrev ctap1ErrInvalidCommand : UInt8 := 0x01
abbrev ctap1ErrInvalidLength : UInt8 := 0x03
abbrev ctap2ErrCborUnexpectedType : UInt8 := 0x11
abbrev ctap2ErrCborParsing : UInt8 := 0x12
abbrev ctap2ErrInvalidCborType : UInt8 := 0x12
abbrev ctap2ErrMissingParameter : UInt8 := 0x14
abbrev ctap2ErrLimitExceeded : UInt8 := 0x15
abbrev ctap2ErrTooManyElements : UInt8 := 0x17
abbrev ctap2ErrCredentialExcluded : UInt8 := 0x19
abbrev ctap2ErrProcessing : UInt8 := 0x21
abbrev ctap2ErrUnsupportedAlgorithm : UInt8 := 0x26
abbrev ctap2ErrOperationDenied : UInt8 := 0x27
abbrev ctap2ErrKeyStoreFull : UInt8 := 0x28
abbrev ctap2ErrInvalidOption : UInt8 := 0x2C
abbrev ctap2ErrKeepaliveCancel : UInt8 := 0x2D
abbrev ctap2ErrNoCredentials : UInt8 := 0x2E
abbrev ctap2ErrNotAllowed : UInt8 := 0x30
abbrev ctap2ErrPinInvalid : UInt8 := 0x31
abbrev ctap2ErrPinBlocked : UInt8 := 0x32
abbrev ctap2ErrPinAuthInvalid : UInt8 := 0x33
abbrev ctap2ErrPinAuthBlocked : UInt8 := 0x34
abbrev ctap2ErrPinNotSet : UInt8 := 0x35
abbrev ctap2ErrPinRequired : UInt8 := 0x36
abbrev ctap2ErrPinPolicyViolation : UInt8 := 0x37
abbrev ctap2ErrActionTimeout : UInt8 := 0x3A
abbrev ctap1ErrOther : UInt8 := 0x7F
abbrev ctap2ErrExtensionFirst : UInt8 := 0xE0

/-! ### Sizes -/

abbrev clientDataHashSize : ℕ := 32
abbrev domainNameMaxSize : ℕ := 253
abbrev rpNameLimit : ℕ := 32
abbrev userIdMaxSize : ℕ := 64
abbrev userNameLimit : ℕ := 65
abbrev displayNameLimit : ℕ := 32
abbrev iconLimit : ℕ := 128
abbrev rpidLimit : ℕ := 48
abbrev ctapMaxMessageSize : ℕ := 1200
abbrev credentialTagSize : ℕ := 16
abbrev credentialNonceSize : ℕ := 18
abbrev credentialIdSize : ℕ := 70
abbrev u2fKeyHandleSize : ℕ := 48
abbrev allowListMaxSize : ℕ := 20
abbrev maxCredentialIdLength : ℕ := 128
abbrev newPinEncMaxSize : ℕ := 256
abbrev newPinEncMinSize : ℕ := 64
abbrev newPinMaxSize : ℤ := 64
abbrev newPinMinSize : ℤ := 4
abbrev pinLockoutAttempts : ℤ := 8
abbrev pinBootAttempts : ℤ := 3
abbrev pinTokenSize : ℕ := 16
abbrev keySpaceBytes : ℕ := 128
abbrev stateVersion : UInt8 := 2
abbrev initializedMarker : UInt8 := 0xA5

abbrev pubKeyCredPubKey : UInt8 := 0x01
abbrev pubKeyCredCtap1 : UInt8 := 0x41
abbrev pubKeyCredCustom : UInt8 := 0x42
abbrev pubKeyCredUnknown : UInt8 := 0x3F

abbrev extHmacSecretRequested : UInt8 := 0x01
abbrev extHmacSecretParsed : UInt8 := 0x02

abbrev extCredProtectInvalid : UInt32 := 0x00
abbrev extCredProtectOptional : UInt32 := 0x01
abbrev extCredProtectOptionalWithCredid : UInt32 := 0x02
abbrev extCredProtectRequired : UInt32 := 0x03

abbrev coseAlgEs256 : ℤ := -7
abbrev coseAlgEcdhEsHkdf256 : ℤ := -25

/-! ### Commands and request parameters -/

abbrev ctapMakeCredentialCmd : UInt8 := 0x01
abbrev ctapGetAssertionCmd : UInt8 := 0x02
abbrev ctapCancelCmd : UInt8 := 0x03
abbrev ctapGetInfoCmd : UInt8 := 0x04
abbrev ctapClientPinCmd : UInt8 := 0x06
abbrev ctapResetCmd : UInt8 := 0x07
abbrev getNextAssertionCmd : UInt8 := 0x08
abbrev ctapCborCredMgmtCmd : UInt8 := 0x0A
abbrev ctapCborCredMgmtPreCmd : UInt8 := 0x41

abbrev cpCmdGetRetries : ℤ := 1
abbrev cpCmdGetKeyAgreement : ℤ := 2
abbrev cpCmdSetPin : ℤ := 3
abbrev cpCmdChangePin : ℤ := 4
abbrev cpCmdGetPinToken : ℤ := 5

abbrev cmCmdMetadata : ℤ := 1
abbrev cmCmdRPBegin : ℤ := 2
abbrev cmCmdRPNext : ℤ := 3
abbrev cmCmdRKBegin : ℤ := 4
abbrev cmCmdRKNext : ℤ := 5
abbrev cmCmdRKDelete : ℤ := 6

/-- `MC_requiredMask`, the bits of `paramsParsed` that must be set. -/
abbrev mcRequiredMask : UInt32 := 0x0f

abbrev paramClientDataHash : UInt32 := 1
abbrev paramRp : UInt32 := 2
abbrev paramUser : UInt32 := 4
abbrev paramPubKeyCredParams : UInt32 := 8

/-! ### Credentials -/

structure UserEntity where
  id : Buf userIdMaxSize
  idSize : UInt8
  name : Buf userNameLimit
  displayName : Buf displayNameLimit
  icon : Buf iconLimit
  deriving DecidableEq, Inhabited

/-- The structure as it lies in memory; it is packed. -/
def UserEntity.toBytes (u : UserEntity) : List UInt8 :=
  u.id.bytes ++ [u.idSize] ++ u.name.bytes ++ u.displayName.bytes ++ u.icon.bytes

/-- The first `id_size` bytes from `user.id` on. -/
def UserEntity.idBytes (u : UserEntity) : List UInt8 := u.toBytes.take u.idSize.toNat

/-- A credential id: `tag`, `nonce` (whose last four bytes are the masked
metadata), `rpIdHash` and `count`, packed. -/
abbrev CredentialId := Buf credentialIdSize

namespace CredentialId

def tag (c : CredentialId) : List UInt8 := c.slice 0 credentialTagSize

def nonce (c : CredentialId) : List UInt8 := c.slice 16 credentialNonceSize

/-- The part of the nonce that is random. -/
def noncePad (c : CredentialId) : List UInt8 := c.slice 16 (credentialNonceSize - 4)

def metadata (c : CredentialId) : UInt32 := Bytes.le32 (c.slice 30 4)

def rpIdHash (c : CredentialId) : List UInt8 := c.slice 34 32

def count (c : CredentialId) : UInt32 := Bytes.le32 (c.slice 66 4)

def setTag (c : CredentialId) (t : List UInt8) : CredentialId := c.write 0 t

def setNonce (c : CredentialId) (n : List UInt8) : CredentialId := c.write 16 n

def setMetadata (c : CredentialId) (v : UInt32) : CredentialId := c.write 30 (Bytes.toLe32 v)

def setRpIdHash (c : CredentialId) (h : List UInt8) : CredentialId := c.write 34 h

def setCount (c : CredentialId) (v : UInt32) : CredentialId := c.write 66 (Bytes.toLe32 v)

end CredentialId

structure Credential where
  id : CredentialId
  user : UserEntity
  deriving DecidableEq, Inhabited

structure CredentialDescriptor where
  type : UInt8
  credential : Credential
  deriving DecidableEq, Inhabited

/-- The descriptor with its count field zeroed, which is how the filter
marks an entry as not usable. -/
def CredentialDescriptor.invalidate (d : CredentialDescriptor) : CredentialDescriptor :=
  { d with credential := { d.credential with id := CredentialId.setCount d.credential.id 0 } }

structure ResidentKey where
  id : CredentialId
  user : UserEntity
  rpId : Buf rpidLimit
  rpIdSize : UInt8
  deriving DecidableEq, Inhabited

/-- `(CTAP_residentKey *)&cred->credential`, as far as the fields that both
types share go. -/
def ResidentKey.credential (rk : ResidentKey) : Credential := ⟨rk.id, rk.user⟩

/-- What an erased slot reads as. -/
def ResidentKey.erased : ResidentKey where
  id := Buf.fill _ 0xff
  user := ⟨Buf.fill _ 0xff, 0xff, Buf.fill _ 0xff, Buf.fill _ 0xff, Buf.fill _ 0xff⟩
  rpId := Buf.fill _ 0xff
  rpIdSize := 0xff

structure RpId where
  id : Buf (domainNameMaxSize + 1)
  size : ℕ
  name : Buf rpNameLimit
  deriving DecidableEq, Inhabited

/-- The bytes `rp->id[0 .. rp->size)`. -/
def RpId.bytes (rp : RpId) : List UInt8 := rp.id.slice 0 rp.size

structure CoseKey where
  x : Buf 32
  y : Buf 32
  kty : ℤ
  crv : ℤ
  deriving DecidableEq, Inhabited

/-- `(uint8_t*)&key.pubkey`. -/
def CoseKey.pubkey (k : CoseKey) : List UInt8 := k.x.bytes ++ k.y.bytes

/-- Where `hmac_secret.credential` points. It is only ever made to point at
the first entry of the credential list. -/
inductive CredentialPtr
  | null
  | firstCred
  deriving DecidableEq, Inhabited

structure HmacSecret where
  saltLen : UInt8
  saltEnc : Buf 64
  saltAuth : Buf 32
  keyAgreement : CoseKey
  credential : CredentialPtr
  deriving DecidableEq, Inhabited

structure Extensions where
  hmacSecretPresent : UInt8
  hmacSecret : HmacSecret
  credProtect : UInt32
  deriving DecidableEq, Inhabited

/-- `customCredId` and `customCredIdSize` of the assertion state. -/
structure CustomCred where
  id : Buf 256
  size : UInt8
  deriving DecidableEq, Inhabited

/-! ### Parsed requests -/

structure CredInfo where
  user : UserEntity
  publicKeyCredentialType : UInt8
  coseAlgorithmIdentifier : ℤ
  rk : UInt8
  deriving Inhabited

structure CredMgmt where
  cmd : ℤ
  rpIdHash : Buf 32
  credentialDescriptor : CredentialDescriptor
  hashedCmd : UInt8
  subCommandParamsCborCopy : Buf 377
  subCommandParamsCborSize : ℕ
  pinAuth : Buf 16
  pinAuthPresent : UInt8
  pinProtocol : ℤ
  deriving Inhabited

/-- `(uint8_t*)&CM->hashed`, from its first byte on. -/
def CredMgmt.hashed (cm : CredMgmt) : List UInt8 :=
  cm.hashedCmd :: cm.subCommandParamsCborCopy.bytes

structure GetAssertion where
  clientDataHash : Buf clientDataHashSize
  clientDataHashPresent : UInt8
  rp : RpId
  credLen : ℕ
  rk : UInt8
  uv : UInt8
  up : UInt8
  pinAuth : Buf 16
  pinAuthPresent : UInt8
  pinAuthEmpty : UInt8
  pinProtocol : ℤ
  allowListPresent : UInt8
  extensions : Extensions
  deriving Inhabited

structure ClientPin where
  pinProtocol : ℤ
  subCommand : ℤ
  keyAgreement : CoseKey
  keyAgreementPresent : UInt8
  pinAuth : Buf 16
  pinAuthPresent : UInt8
  newPinEnc : Buf newPinEncMaxSize
  newPinEncSize : ℕ
  pinHashEnc : Buf 16
  pinHashEncPresent : UInt8
  getKeyAgreement : Bool
  getRetries : Bool
  deriving Inhabited

/-! ### Persistent state -/

/-- `AuthenticatorState`. The first stored layout kept the PIN itself where
the hash and the salt are now, and its length in `_reserved`. -/
structure AuthenticatorState where
  isInitialized : UInt8
  isPinSet : UInt8
  pinCodeHash : Buf 32
  pinSalt : Buf 32
  reserved : UInt32
  remainingTries : ℤ
  rkStored : UInt16
  keyLens : UInt16
  keySpace : Buf keySpaceBytes
  dataVersion : UInt8
  deriving DecidableEq, Inhabited

/-- `memset(&STATE, 0xff, sizeof STATE)`. -/
def AuthenticatorState.erased : AuthenticatorState where
  isInitialized := 0xff
  isPinSet := 0xff
  pinCodeHash := Buf.fill _ 0xff
  pinSalt := Buf.fill _ 0xff
  reserved := 0xffffffff
  remainingTries := -1
  rkStored := 0xffff
  keyLens := 0xffff
  keySpace := Buf.fill _ 0xff
  dataVersion := 0xff

end NitrokeyFido2.Ctap
