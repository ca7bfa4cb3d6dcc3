import NitrokeyFido2.Ctap.MakeCredential

/-!
`ctap_cred_mgmt`: listing and deleting resident keys.
-/

namespace NitrokeyFido2.Ctap

variable (env : Env)

/-! ### Scans -/

/-- The rpIdHash occurs in a slot before this one, valid or not. -/
def occursPreviously (a : Authenticator) (index : ℕ) (rpIdHash : List UInt8) : Bool :=
  (List.range index).any fun i => CredentialId.rpIdHash (ctapLoadRk a i default).id = rpIdHash

/-- The loop of `scan_for_next_rp`. -/
def scanForNextRpFrom (a : Authenticator) : ℕ → ℕ → ℤ
  | 0, _ => -1
  | fuel + 1, index =>
      let rk := ctapLoadRk a index default
      if index ≥ ctapRkSize then -1
      else if !ctapRkIsValid rk || occursPreviously a index (CredentialId.rpIdHash rk.id) then
        scanForNextRpFrom a fuel (index + 1)
      else index

/-- `scan_for_next_rp`. -/
def scanForNextRp (a : Authenticator) (index : ℤ) : ℤ :=
  if index = -1 then
    if ctapRkIsValid (ctapLoadRk a 0 default) then 0 else scanForNextRpFrom a ctapRkSize 1
  else if index < 0 then -1
  else scanForNextRpFrom a ctapRkSize (index.toNat + 1)

/-- The loop of `scan_for_next_rk`. -/
def scanForNextRkFrom (a : Authenticator) (rpIdHash : List UInt8) : ℕ → ℕ → ℤ
  | 0, _ => -1
  | fuel + 1, index =>
      if index ≥ ctapRkSize then -1
      else if CredentialId.rpIdHash (ctapLoadRk a index default).id = rpIdHash then index
      else scanForNextRkFrom a rpIdHash fuel (index + 1)

/-- `scan_for_next_rk` with an initial rpIdHash. -/
def scanForFirstRk (a : Authenticator) (rpIdHash : List UInt8) : ℤ :=
  scanForNextRkFrom a rpIdHash (ctapRkSize + 1) 0

/-- `scan_for_next_rk` without one. -/
def scanForNextRk (a : Authenticator) (index : ℤ) : ℤ :=
  scanForNextRkFrom a (CredentialId.rpIdHash (ctapLoadRk a index default).id) (ctapRkSize + 1)
    (index + 1).toNat

/-- How often the scan goes on. -/
def countScan (next : ℤ → ℤ) : ℕ → ℤ → ℕ
  | 0, _ => 0
  | fuel + 1, index => if index < 0 then 0 else countScan next fuel (next index) + 1

/-- `credentialId_to_rk_index`. -/
def credentialIdToRkIndex (a : Authenticator) (credId : CredentialId) : Option ℕ :=
  (List.range ctapRkSize).find? fun i =>
    ctapRkIsValid (ctapLoadRk a i default) && (ctapLoadRk a i default).id = credId

/-! ### Answers -/

/-- `ctap_cred_metadata`. -/
def ctapCredMetadata (a : Authenticator) : Encode Unit :=
  env.writer.emitAll [.createMap 2, .int 1, .int a.state.rkStored.toNat, .int 2,
    .int (ctapRkSize - a.state.rkStored.toNat), .closeContainer]

/-- An encoding call whose return value is not looked at. -/
def unchecked (m : Encode Unit) : Encode Unit := ⟨fun w => (.ok (), (m w).2)⟩

/-- `ctap_cred_rp`. -/
def ctapCredRp (rk : ResidentKey) (rpCount : ℕ) : Encode Unit := do
  env.writer.emitAll [.createMap (if rpCount > 0 then 3 else 2), .int 3, .createMap 2, .text "id",
    .textString (if rk.rpIdSize.toNat ≤ rpidLimit then rk.rpId.slice 0 rk.rpIdSize.toNat else []),
    .text "name", .stringz rk.user.name, .closeContainer, .int 4]
  unchecked (env.writer.emit (.byteString (CredentialId.rpIdHash rk.id)))
  env.writer.emitAll (if rpCount > 0 then [.int 5, .int rpCount] else [])
  env.writer.emit .closeContainer

/-- `ctap_cred_rk`. -/
def ctapCredRk (a : Authenticator) (rk : ResidentKey) (rkCount : ℕ) : Encode Unit := do
  let credProtect := readMetadataFromMaskedCredential env a.secrets rk.id
  let credProtect :=
    if credProtect = 0 ∨ credProtect > 3 then extCredProtectOptional else credProtect
  env.writer.emitAll [.createMap (if rkCount > 0 then 5 else 4), .int 6]
  ctapAddUserEntity env rk.user true
  env.writer.emit (.int 7)
  ctapAddCredentialDescriptor env a.gas.custom rk.credential pubKeyCredPubKey
  env.writer.emit (.int 8)
  unchecked (ctapGenerateCoseKey env a.secrets rk.id.bytes pubKeyCredPubKey coseAlgEs256)
  env.writer.emitAll (if rkCount > 0 then [.int 9, .int rkCount] else [])
  env.writer.emitAll [.int 0x0A, .int credProtect.toNat, .closeContainer]

/-! ### The request -/

/-- `ctap_cred_mgmt_pinauth`. -/
def ctapCredMgmtPinauth (cm : CredMgmt) : Device Unit :=
  if cm.cmd ≠ cmCmdMetadata ∧ cm.cmd ≠ cmCmdRPBegin ∧ cm.cmd ≠ cmCmdRKBegin ∧
      cm.cmd ≠ cmCmdRKDelete then pure ()
  else do
    let a ← Proc.get
    if verifyPinAuthEx env a cm.pinAuth (cm.hashed.take (cm.subCommandParamsCborSize + 1)) then do
      note .pinAuthVerified
      ctapResetPinAttempts
    else do
      ctapDecrementPinAttempts
      let a ← Proc.get
      fail (blockedOr a ctap2ErrPinAuthInvalid)

def modifyCredMgmt (f : CredMgmtState → CredMgmtState) : Device Unit :=
  Proc.modify fun a => { a with credMgmt := f a.credMgmt }

/-- The cursors that a command sets before it is carried out, and the totals
of the Begin commands. -/
def credMgmtPrepare (cm : CredMgmt) : Device (ℕ × ℕ) := do
  let a ← Proc.get
  if cm.cmd = cmCmdRPBegin then do
    let first := scanForNextRp a (-1)
    modifyCredMgmt fun _ => { currRkInd := -1, rpAuth := true, rkAuth := false, currRpInd := first }
    pure (countScan (scanForNextRp a) (ctapRkSize + 1) first, 0)
  else if cm.cmd = cmCmdRKBegin then do
    let first := scanForFirstRk a cm.rpIdHash.bytes
    modifyCredMgmt fun c => { c with currRkInd := first, rkAuth := true }
    pure (0, countScan (scanForNextRk a) (ctapRkSize + 1) first)
  else if cm.cmd ≠ cmCmdRKNext ∧ cm.cmd ≠ cmCmdRPNext then do
    modifyCredMgmt fun _ => { currRkInd := -1, currRpInd := -1, rpAuth := false, rkAuth := false }
    pure (0, 0)
  else pure (0, 0)

/-- The refusal of a Next command without its Begin, or after the last
entry. -/
def noCredentials : Device Writer := do
  modifyCredMgmt fun c => { c with rpAuth := false, rkAuth := false }
  fail ctap2ErrNoCredentials

def credMgmtRp (w : Writer) (rpCount : ℕ) : Device Writer := do
  let a ← Proc.get
  if a.credMgmt.currRpInd < 0 ∨ a.credMgmt.rpAuth = false then noCredentials
  else do
    let w ← encode w (ctapCredRp env (ctapLoadRk a a.credMgmt.currRpInd default) rpCount)
    modifyCredMgmt fun c => { c with currRpInd := scanForNextRp a c.currRpInd }
    pure w

def credMgmtRk (w : Writer) (rkCount : ℕ) : Device Writer := do
  let a ← Proc.get
  if a.credMgmt.currRkInd < 0 ∨ a.credMgmt.rkAuth = false then noCredentials
  else do
    let w ← encode w (ctapCredRk env a (ctapLoadRk a a.credMgmt.currRkInd default) rkCount)
    modifyCredMgmt fun c => { c with currRkInd := scanForNextRk a c.currRkInd }
    pure w

def credMgmtDelete (w : Writer) (cm : CredMgmt) : Device Writer := do
  let a ← Proc.get
  match credentialIdToRkIndex a cm.credentialDescriptor.credential.id with
  | some i => do
      ctapDeleteRk i
      ctapDecrementRkStore
      pure w
  | none => fail ctap2ErrNoCredentials

/-- `ctap_cred_mgmt`. -/
def ctapCredMgmt (w : Writer) (request : List UInt8) : Device Writer := do
  let cm ← parsedWithCustom (ctapParseCredMgmt env request) default
  ctapCredMgmtPinauth env cm
  let a ← Proc.get
  if a.state.rkStored = 0 ∧ cm.cmd ≠ cmCmdMetadata then pure w
  else do
    let (rpCount, rkCount) ← credMgmtPrepare cm
    if cm.cmd = cmCmdMetadata then do
      let a ← Proc.get
      encode w (ctapCredMetadata env a)
    else if cm.cmd = cmCmdRPBegin ∨ cm.cmd = cmCmdRPNext then credMgmtRp env w rpCount
    else if cm.cmd = cmCmdRKBegin ∨ cm.cmd = cmCmdRKNext then credMgmtRk env w rkCount
    else if cm.cmd = cmCmdRKDelete then credMgmtDelete w cm
    else fail ctap1ErrInvalidCommand

end NitrokeyFido2.Ctap
