import NitrokeyFido2.Ctap.Encoding
import NitrokeyFido2.Ctap.Enumeration
import NitrokeyFido2.Lib.Cursor

/-!
What the enumerations list.

A Begin command counts the slots that its scan stops at and answers with the
first of them; every Next command answers with the one under the cursor and
moves it on. Both scans are the cursor of `Lib.Cursor`, with the test that the
loop makes of a slot, and an enumeration gives the slots that pass it, one by
one. Which keys these are is a question about the store.
-/

namespace NitrokeyFido2.Ctap

open Proc Nesting

variable (env : Env)

/-! ### The entries -/

/-- `ctap_cred_rp`. -/
def rpItems (rk : ResidentKey) (rpCount : ℕ) : List EncOp :=
  [.createMap (if rpCount > 0 then 3 else 2), .int 3, .createMap 2, .text "id",
    .textString (if rk.rpIdSize.toNat ≤ rpidLimit then rk.rpId.slice 0 rk.rpIdSize.toNat else []),
    .text "name", .stringz rk.user.name, .closeContainer, .int 4,
    .byteString (CredentialId.rpIdHash rk.id)] ++
  (if rpCount > 0 then [.int 5, .int rpCount] else []) ++ [.closeContainer]

/-- The policy that `ctap_cred_rk` tells. -/
def listedCredProtect (s : Secrets) (rk : ResidentKey) : UInt32 :=
  let credProtect := readMetadataFromMaskedCredential env s rk.id
  if credProtect = 0 ∨ credProtect > 3 then extCredProtectOptional else credProtect

/-- `ctap_cred_rk`. -/
def rkItems (s : Secrets) (rk : ResidentKey) (rkCount : ℕ) : List EncOp :=
  [.createMap (if rkCount > 0 then 5 else 4), .int 6] ++ userItems rk.user true ++ [.int 7] ++
  descriptorItems (rk.credential.prefixBytes credentialIdSize) ++ [.int 8] ++
  coseKeyItems (cryptoEcc256DerivePublicKey env s rk.id.bytes) coseAlgEs256 ++
  (if rkCount > 0 then [.int 9, .int rkCount] else []) ++
  [.int 0x0A, .int (listedCredProtect env s rk).toNat, .closeContainer]

section Entries

variable {env}

/-- A pair at the end of an entry, where a total is told. -/
theorem adds_count (key : ℤ) (count : ℕ) :
    Adds EncOp.shape (2 * if count > 0 then 1 else 0)
      (if count > 0 then [.int key, .int count] else []) := by
  split
  · exact Adds.items (by simp [EncOp.shape])
  · exact Adds.nil

theorem isItem_rpItems (rk : ResidentKey) (rpCount : ℕ) :
    IsItem EncOp.shape (rpItems rk rpCount) := by
  have hkey : Adds EncOp.shape 1 [.int 3] := Adds.item rfl
  have hrp : Adds EncOp.shape (2 * 2) [.text "id",
      .textString (if rk.rpIdSize.toNat ≤ rpidLimit then rk.rpId.slice 0 rk.rpIdSize.toNat else []),
      .text "name", .stringz rk.user.name] :=
    Adds.items (by simp [EncOp.shape, EncOp.text, EncOp.stringz])
  have hhash : Adds EncOp.shape 2 [.int 4, .byteString (CredentialId.rpIdHash rk.id)] :=
    Adds.items (by simp [EncOp.shape])
  have hpairs := hkey.append ((adds_map hrp).append (hhash.append (adds_count 5 rpCount)))
  rw [show 1 + (1 + (2 + 2 * if rpCount > 0 then 1 else 0)) = 2 * if rpCount > 0 then 3 else 2 by
    split <;> rfl] at hpairs
  exact (adds_map hpairs).isItem

theorem isItem_rkItems (s : Secrets) (rk : ResidentKey) (rkCount : ℕ) :
    IsItem EncOp.shape (rkItems env s rk rkCount) := by
  have hkey (k : ℤ) : Adds EncOp.shape 1 [.int k] := Adds.item rfl
  have huser := adds_userItems rk.user true
  have hid := adds_descriptorItems (rk.credential.prefixBytes credentialIdSize)
  have hcose := adds_coseKeyItems (cryptoEcc256DerivePublicKey env s rk.id.bytes) coseAlgEs256
  have hpolicy : Adds EncOp.shape 2 [.int 0x0A, .int (listedCredProtect env s rk).toNat] :=
    Adds.items (by simp [EncOp.shape])
  have hpairs := (hkey 6).append (huser.append ((hkey 7).append (hid.append ((hkey 8).append
    (hcose.append ((adds_count 9 rkCount).append hpolicy))))))
  rw [show 1 + (1 + (1 + (1 + (1 + (1 + ((2 * if rkCount > 0 then 1 else 0) + 2)))))) =
    2 * if rkCount > 0 then 5 else 4 by split <;> rfl] at hpairs
  have hitem := (adds_map hpairs).isItem
  simpa only [rkItems, List.append_assoc, List.cons_append, List.nil_append] using hitem

theorem encodedBound_count (key : ℤ) (count : ℕ) :
    encodedBound (if count > 0 then [.int key, .int count] else []) ≤ 18 := by
  split <;> simp

theorem encodedSize_rpItems (rk : ResidentKey) (rpCount : ℕ) :
    encodedSize (rpItems rk rpCount) ≤ ctapResponseBufferSize := by
  refine (encodedSize_le_bound _).trans ?_
  have hid : (if rk.rpIdSize.toNat ≤ rpidLimit then rk.rpId.slice 0 rk.rpIdSize.toNat
      else []).length ≤ 48 := by
    split
    case isTrue hle => exact (Buf.length_slice_le ..).trans hle
    case isFalse => exact Nat.zero_le _
  have hname : (EncOp.stringz rk.user.name).bound ≤ 9 + 65 := bound_stringz_le _
  have hhash : (CredentialId.rpIdHash rk.id).length ≤ 32 := Buf.length_slice_le ..
  have hcount := encodedBound_count 5 rpCount
  have hkeys : (Bytes.ascii "id").length = 2 ∧ (Bytes.ascii "name").length = 4 := ⟨rfl, rfl⟩
  simp only [rpItems, encodedBound_append, encodedBound_cons, encodedBound_nil, bound_createMap,
    bound_int, bound_text, bound_textString, bound_byteString, bound_closeContainer, hkeys]
  unfold ctapResponseBufferSize
  omega

theorem encodedBound_userItems (user : UserEntity) (isVerified : Bool) :
    encodedBound (userItems user isVerified) ≤ 600 := by
  have hid : user.idBytes.length ≤ 255 := by
    have hsize := user.idSize.toNat_lt
    calc user.idBytes.length ≤ user.idSize.toNat := List.length_take_le ..
      _ ≤ 255 := by omega
  have hname : (EncOp.stringz user.name).bound ≤ 9 + 65 := bound_stringz_le _
  have hdisplay : (EncOp.stringz user.displayName).bound ≤ 9 + 32 := bound_stringz_le _
  have hicon : (EncOp.stringz user.icon).bound ≤ 9 + 128 := bound_stringz_le _
  have hkeys : (Bytes.ascii "id").length = 2 ∧ (Bytes.ascii "name").length = 4 ∧ (Bytes.ascii "icon").length = 4 ∧
      (Bytes.ascii "displayName").length = 11 := ⟨rfl, rfl, rfl, rfl⟩
  unfold userItems
  dsimp only
  split
  · split <;> simp only [encodedBound_append, encodedBound_cons, encodedBound_nil, bound_createMap,
      bound_text, bound_byteString, bound_closeContainer, hkeys] <;> omega
  · simp only [encodedBound_append, encodedBound_cons, encodedBound_nil, bound_createMap, bound_text,
      bound_byteString, bound_closeContainer, hkeys]
    omega

theorem encodedSize_rkItems (s : Secrets) (rk : ResidentKey) (rkCount : ℕ) :
    encodedSize (rkItems env s rk rkCount) ≤ ctapResponseBufferSize := by
  refine (encodedSize_le_bound _).trans ?_
  have huser := encodedBound_userItems rk.user true
  have hid : (rk.credential.prefixBytes credentialIdSize).length ≤ 108 :=
    (List.length_take_le ..).trans (by decide : credentialIdSize ≤ 108)
  have hx (pub : Buf 64) (off : ℕ) : (pub.slice off 32).length ≤ 32 := Buf.length_slice_le ..
  have hx₁ := hx (cryptoEcc256DerivePublicKey env s rk.id.bytes) 0
  have hx₂ := hx (cryptoEcc256DerivePublicKey env s rk.id.bytes) 32
  have hcount := encodedBound_count 9 rkCount
  have hkeys : (Bytes.ascii "id").length = 2 ∧ (Bytes.ascii "type").length = 4 ∧ (Bytes.ascii "public-key").length = 10 := ⟨rfl, rfl, rfl⟩
  simp only [rkItems, descriptorItems, coseKeyItems, encodedBound_append, encodedBound_cons,
    encodedBound_nil, bound_createMap, bound_int, bound_text, bound_byteString, bound_closeContainer, hkeys]
  unfold ctapResponseBufferSize
  omega

/-! ### The functions -/

theorem Writes.unchecked {m : Encode Unit} {ops : List EncOp} (hm : Writes m ops) :
    Writes (unchecked m) ops := by
  refine ⟨fun w hscan hsize => ?_⟩
  show (Except.ok (), (m w).2) = _
  rw [hm.run w hscan hsize]

theorem writes_ctapCredRp (hroomy : env.writer.Roomy) (rk : ResidentKey) (rpCount : ℕ) :
    Writes (ctapCredRp env rk rpCount) (rpItems rk rpCount) := by
  have hlast := (writes_emitAll hroomy (if rpCount > 0 then [.int 5, .int rpCount] else [])).seq
    fun _ => writes_emit hroomy .closeContainer
  have hhash := (writes_emit hroomy (.byteString (CredentialId.rpIdHash rk.id))).unchecked.seq
    fun _ => hlast
  have hitems : rpItems rk rpCount =
      [.createMap (if rpCount > 0 then 3 else 2), .int 3, .createMap 2, .text "id",
        .textString (if rk.rpIdSize.toNat ≤ rpidLimit then rk.rpId.slice 0 rk.rpIdSize.toNat else []),
        .text "name", .stringz rk.user.name, .closeContainer, .int 4] ++
      ([.byteString (CredentialId.rpIdHash rk.id)] ++
        ((if rpCount > 0 then [.int 5, .int rpCount] else []) ++ [.closeContainer])) := by
    simp [rpItems]
  rw [hitems]
  exact (writes_emitAll hroomy _).seq fun _ => hhash

theorem writes_ctapCredRk (hroomy : env.writer.Roomy) (a : Authenticator) (rk : ResidentKey)
    (rkCount : ℕ) : Writes (ctapCredRk env a rk rkCount) (rkItems env a.secrets rk rkCount) := by
  have hpolicy := (writes_emitAll hroomy (if rkCount > 0 then [.int 9, .int rkCount] else [])).seq
    fun _ => writes_emitAll hroomy
      [.int 0x0A, .int (listedCredProtect env a.secrets rk).toNat, .closeContainer]
  have hcose : Writes (ctapGenerateCoseKey env a.secrets rk.id.bytes pubKeyCredPubKey coseAlgEs256)
      (coseKeyItems (cryptoEcc256DerivePublicKey env a.secrets rk.id.bytes) coseAlgEs256) :=
    writes_emitAll hroomy _
  have hkey := (writes_emit hroomy (.int 8)).seq fun _ => hcose.unchecked.seq fun _ => hpolicy
  have hid : Writes (ctapAddCredentialDescriptor env a.gas.custom rk.credential pubKeyCredPubKey)
      (descriptorItems (rk.credential.prefixBytes credentialIdSize)) := writes_emitAll hroomy _
  have hid := (writes_emit hroomy (.int 7)).seq fun _ => hid.seq fun _ => hkey
  have huser : Writes (ctapAddUserEntity env rk.user true) (userItems rk.user true) :=
    writes_emitAll hroomy _
  have hall := (writes_emitAll hroomy [.createMap (if rkCount > 0 then 5 else 4), .int 6]).seq
    fun _ => huser.seq fun _ => hid
  simp only [rkItems, List.append_assoc]
  exact hall

end Entries

/-! ### The scans -/

/-- What a slot reads as. -/
def slot (a : Authenticator) (i : ℕ) : ResidentKey := ctapLoadRk a i default

def slotHash (a : Authenticator) (i : ℕ) : List UInt8 := CredentialId.rpIdHash (slot a i).id

/-- A slot at which the scan for relying parties stops. -/
def newRp (a : Authenticator) : ℕ → Bool :=
  Cursor.isFirst (fun i => ctapRkIsValid (slot a i)) (slotHash a)

/-- A slot at which the scan for the keys of a relying party stops. -/
def hasHash (a : Authenticator) (rpIdHash : List UInt8) (i : ℕ) : Bool :=
  decide (slotHash a i = rpIdHash)

section Scans

open Cursor

variable {a : Authenticator}

theorem newRp_eq (i : ℕ) :
    newRp a i = (ctapRkIsValid (slot a i) && !occursPreviously a i (slotHash a i)) := rfl

theorem scanForNextRpFrom_eq {fuel i : ℕ} (hfuel : ctapRkSize ≤ fuel + i) :
    scanForNextRpFrom a fuel i = position (rest (newRp a) ctapRkSize i) := by
  induction fuel generalizing i with
  | zero => rw [rest_of_le (by omega)]; rfl
  | succ fuel ih =>
      unfold scanForNextRpFrom
      dsimp only
      by_cases hi : i ≥ ctapRkSize
      · rw [if_pos hi, rest_of_le hi]
        rfl
      · rw [if_neg hi, rest_of_lt (not_le.mp hi), newRp_eq]
        by_cases hvalid : ctapRkIsValid (slot a i) = true
        · by_cases hbefore : occursPreviously a i (slotHash a i) = true
          · rw [if_pos, if_neg, ih (by omega)]
            · simp [hvalid, hbefore]
            · exact Bool.or_eq_true_iff.mpr (.inr hbefore)
          · rw [if_neg, if_pos]
            · rfl
            · simp [hvalid, hbefore]
            · intro h
              rcases Bool.or_eq_true_iff.mp h with h | h
              · exact absurd hvalid (by simpa [slot] using h)
              · exact hbefore h
        · rw [if_pos, if_neg, ih (by omega)]
          · simp [hvalid]
          · exact Bool.or_eq_true_iff.mpr (.inl (by simpa [slot] using hvalid))

/-- The first scan looks at slot 0 by itself; nothing can stand before it. -/
theorem scanForNextRp_start : scanForNextRp a (-1) = position (rest (newRp a) ctapRkSize 0) := by
  have hfirst : newRp a 0 = ctapRkIsValid (slot a 0) := by
    rw [newRp_eq, show occursPreviously a 0 (slotHash a 0) = false from rfl]
    simp
  rw [scanForNextRp, if_pos rfl, rest_of_lt (by decide), hfirst, scanForNextRpFrom_eq (by omega)]
  show (if ctapRkIsValid (slot a 0) = true then (0 : ℤ) else _) = _
  split <;> rfl

theorem scanForNextRp_next (i : ℕ) :
    scanForNextRp a i = position (rest (newRp a) ctapRkSize (i + 1)) := by
  rw [scanForNextRp, if_neg (by omega), if_neg (by omega), Int.toNat_natCast,
    scanForNextRpFrom_eq (by omega)]

theorem scanForNextRkFrom_eq {rpIdHash : List UInt8} {fuel i : ℕ} (hfuel : ctapRkSize ≤ fuel + i) :
    scanForNextRkFrom a rpIdHash fuel i = position (rest (hasHash a rpIdHash) ctapRkSize i) := by
  induction fuel generalizing i with
  | zero => rw [rest_of_le (by omega)]; rfl
  | succ fuel ih =>
      unfold scanForNextRkFrom
      by_cases hi : i ≥ ctapRkSize
      · rw [if_pos hi, rest_of_le hi]
        rfl
      · rw [if_neg hi, rest_of_lt (not_le.mp hi)]
        by_cases hhash : CredentialId.rpIdHash (ctapLoadRk a i default).id = rpIdHash
        · rw [if_pos hhash, if_pos (show hasHash a rpIdHash i = true from decide_eq_true hhash)]
          rfl
        · rw [if_neg hhash, if_neg (show ¬ hasHash a rpIdHash i = true from fun h =>
            hhash (of_decide_eq_true h))]
          exact ih (by omega)

theorem scanForFirstRk_eq (rpIdHash : List UInt8) :
    scanForFirstRk a rpIdHash = position (rest (hasHash a rpIdHash) ctapRkSize 0) :=
  scanForNextRkFrom_eq (by omega)

/-- The reference hash is the one of the slot under the cursor. -/
theorem scanForNextRk_next {rpIdHash : List UInt8} {i : ℕ} (h : hasHash a rpIdHash i = true) :
    scanForNextRk a i = position (rest (hasHash a rpIdHash) ctapRkSize (i + 1)) := by
  have hhash : slotHash a i = rpIdHash := of_decide_eq_true h
  rw [scanForNextRk, ← scanForNextRkFrom_eq (by omega : ctapRkSize ≤ ctapRkSize + 1 + (i + 1)), ← hhash]
  rfl

/-- Counting is following the cursor to the end. -/
theorem countScan_eq {next : ℤ → ℤ} {p : ℕ → Bool} {n : ℕ}
    (hnext : ∀ i, p i = true → next i = position (rest p n (i + 1))) {fuel k : ℕ}
    (hfuel : (rest p n k).length ≤ fuel) :
    countScan next fuel (position (rest p n k)) = (rest p n k).length := by
  induction fuel generalizing k with
  | zero => exact (Nat.le_zero.mp hfuel).symm
  | succ fuel ih =>
      rcases hlist : rest p n k with _ | ⟨i, l⟩
      · rfl
      · have htail : rest p n (i + 1) = l := rest_tail hlist
        have hpass : p i = true :=
          (mem_rest.mp (by rw [hlist]; exact List.mem_cons_self : i ∈ rest p n k)).2.2
        rw [hlist, List.length_cons] at hfuel
        rw [countScan, position_cons, if_neg (by omega), hnext i hpass, ih (by rw [htail]; omega), htail,
          List.length_cons]

theorem slot_congr {b : Authenticator} (h : a.rks = b.rks) : slot a = slot b := by
  funext i
  unfold slot ctapLoadRk
  rw [h]

theorem newRp_congr (a b : Authenticator) (h : a.rks = b.rks) : newRp a = newRp b := by
  unfold newRp slotHash
  rw [slot_congr h]

theorem hasHash_congr (a b : Authenticator) (h : a.rks = b.rks) (rpIdHash : List UInt8) :
    hasHash a rpIdHash = hasHash b rpIdHash := by
  unfold hasHash slotHash
  rw [slot_congr h]

end Scans

/-! ### Requests -/

section Requests

variable {env} {m : Machine} {a : Authenticator} {bytes : List UInt8} {h : Answers} {cm : CredMgmt}

/-- The status of a request, or the encoder that its answer is in. -/
def Machine.answer (env : Env) (m : Machine) : Event → Option (Except UInt8 (Option Writer))
  | .request bytes h =>
      if m.running then
        match (m.auth.dispatch env bytes h).1 with
        | .ok w => some (.ok w)
        | .error (.status c) => some (.error c)
        | .error .halted => none
      else none
  | .reboot => none

theorem Machine.reply_eq_answer (m : Machine) (e : Event) :
    m.reply env e = (m.answer env e).map (CtapResult.of env) := by
  cases e with
  | reboot => rfl
  | request bytes h =>
      rw [Machine.reply, Machine.answer, Authenticator.request_eq]
      by_cases hrun : m.running = true
      · rw [if_pos hrun, if_pos hrun]
        rcases m.auth.dispatch env bytes h with ⟨(c | _) | w, t⟩ <;> rfl
      · rw [if_neg hrun, if_neg hrun]
        rfl

/-- A request of credential management, from what `ctap_cred_mgmt` does. -/
theorem step_management (hrun : m.running = true) (hcmd : isManagement bytes)
    (hopen : ¬ Locked m.auth) {r : Except UInt8 Writer} {t : Authenticator}
    (hmgmt : ctapCredMgmt env (Writer.init ctapResponseBufferSize) bytes.tail
      { m.auth with trace := [] } = (r.mapError .status, t)) :
    m.answer env (.request bytes h) = some (r.map some) ∧
      (m.step env (.request bytes h)).running = true ∧
      ∃ c, (m.step env (.request bytes h)).auth = t.setLastcmd c := by
  have hdispatch := @dispatch_management env _ _ h hcmd hopen _ _ hmgmt
  rw [Machine.answer, if_pos hrun, hdispatch, Machine.step, if_pos hrun, Authenticator.request_eq,
    hdispatch]
  rcases r with c | w
  · exact ⟨rfl, rfl, _, rfl⟩
  · exact ⟨rfl, rfl, _, rfl⟩

/-- The request is one of credential management with this command. -/
def Asks (env : Env) (cmd : ℤ) (m : Machine) : Event → Prop
  | .request bytes _ =>
      isManagement bytes ∧ ∃ cm, parsedManagement env m.auth bytes.tail = some cm ∧ cm.cmd = cmd
  | .reboot => False

/-- A Next command gets through, while there are resident keys. -/
theorem ctapCredMgmt_next (hparsed : parsedManagement env a bytes = some cm)
    (hneeds : ¬ cm.NeedsPinAuth) (hresident : a.state.rkStored ≠ 0) (w : Writer) :
    ctapCredMgmt env w bytes a = credMgmtCarriedOut env w cm (a.afterParser env bytes) := by
  obtain ⟨custom, hafter⟩ := @afterParser_eq env a bytes
  have hstored : (a.afterParser env bytes).state.rkStored ≠ 0 := by rwa [hafter]
  rw [ctapCredMgmt_of_some hparsed, bind_of_ok (ctapCredMgmtPinauth_of_not_needed hneeds), get_bind,
    if_neg fun h => hstored h.1]

/-- A Begin command whose pinAuth is right. -/
theorem ctapCredMgmt_begin (hparsed : parsedManagement env a bytes = some cm)
    (hneeds : cm.NeedsPinAuth) (hverified : cm.Verified env a) (hresident : a.state.rkStored ≠ 0)
    (w : Writer) :
    ctapCredMgmt env w bytes a =
      credMgmtCarriedOut env w cm (a.afterParser env bytes).pinAuthAccepted := by
  obtain ⟨custom, hafter⟩ := @afterParser_eq env a bytes
  have hstored : (a.afterParser env bytes).pinAuthAccepted.state.rkStored ≠ 0 := by rwa [hafter]
  have hpin := @ctapCredMgmtPinauth_of_needed env (a.afterParser env bytes) _ hneeds
  rw [if_pos (CredMgmt.verified_afterParser.mpr hverified)] at hpin
  rw [ctapCredMgmt_of_some hparsed, bind_of_ok hpin, get_bind, if_neg fun h => hstored h.1]

end Requests

theorem not_locked_pinAuthAccepted (a : Authenticator) : ¬ Locked a.pinAuthAccepted := by
  show ¬ (pinLockoutAttempts ≤ 0 ∨ (pinBootAttempts : ℤ) ≤ 0)
  decide

/-! ### Enumerations -/

/-- One of the two enumerations: its flag and its cursor, the scan that moves
the cursor with the test it makes of a slot, and the entry of a slot. -/
structure Enumeration where
  auth : CredMgmtState → Bool
  cursor : CredMgmtState → ℤ
  moved : ℤ → CredMgmtState → CredMgmtState
  next : Authenticator → ℤ → ℤ
  test : Authenticator → ℕ → Bool
  write : Authenticator → ResidentKey → ℕ → Encode Unit
  items : Secrets → ResidentKey → ℕ → List EncOp
  auth_moved : ∀ i c, auth (moved i c) = auth c
  cursor_moved : ∀ i c, cursor (moved i c) = i
  auth_cleared : ∀ c : CredMgmtState, auth { c with rpAuth := false, rkAuth := false } = false
  next_eq : ∀ a i, test a i = true →
    next a i = Cursor.position (Cursor.rest (test a) ctapRkSize (i + 1))
  test_congr : ∀ a b : Authenticator, a.rks = b.rks → test a = test b
  writes : env.writer.Roomy → ∀ a rk n, Writes (write a rk n) (items a.secrets rk n)
  isItem : ∀ s rk n, IsItem EncOp.shape (items s rk n)
  size_le : ∀ s rk n, encodedSize (items s rk n) ≤ ctapResponseBufferSize

/-- The relying parties. -/
def rpEnumeration : Enumeration env where
  auth c := c.rpAuth
  cursor c := c.currRpInd
  moved i c := { c with currRpInd := i }
  next := scanForNextRp
  test := newRp
  write _ rk n := ctapCredRp env rk n
  items _ := rpItems
  auth_moved _ _ := rfl
  cursor_moved _ _ := rfl
  auth_cleared _ := rfl
  next_eq _ i _ := scanForNextRp_next i
  test_congr := newRp_congr
  writes hroomy _ := writes_ctapCredRp hroomy
  isItem _ := isItem_rpItems
  size_le _ := encodedSize_rpItems

/-- The keys of a relying party. -/
def rkEnumeration (rpIdHash : List UInt8) : Enumeration env where
  auth c := c.rkAuth
  cursor c := c.currRkInd
  moved i c := { c with currRkInd := i }
  next := scanForNextRk
  test a := hasHash a rpIdHash
  write := ctapCredRk env
  items := rkItems env
  auth_moved _ _ := rfl
  cursor_moved _ _ := rfl
  auth_cleared _ := rfl
  next_eq _ _ := scanForNextRk_next
  test_congr a b h := hasHash_congr a b h rpIdHash
  writes := writes_ctapCredRk
  isItem := isItem_rkItems
  size_le := encodedSize_rkItems

namespace Enumeration

variable {env} (E : Enumeration env) {a : Authenticator} {l : List ℕ} {c : CredMgmtState}

/-- The slots to be listed. -/
def slots (a : Authenticator) : List ℕ := Cursor.rest (E.test a) ctapRkSize 0

/-- `credMgmtRp` and `credMgmtRk`. -/
def entry (count : ℕ) (w : Writer) : Device Writer := do
  let a ← Proc.get
  if E.cursor a.credMgmt < 0 ∨ E.auth a.credMgmt = false then noCredentials
  else do
    let w ← encode w (E.write a (ctapLoadRk a (E.cursor a.credMgmt) default) count)
    modifyCredMgmt fun c => E.moved (E.next a (E.cursor c)) c
    pure w

/-- The flag and the cursor while these slots are still to be listed. -/
structure At (l : List ℕ) (c : CredMgmtState) : Prop where
  served : l ≠ [] → E.auth c = true ∧ E.cursor c = Cursor.position l
  ended : l = [] → E.cursor c < 0 ∨ E.auth c = false

/-- The entry of a slot, or the status that there is none. -/
def answerOf (a : Authenticator) (count : ℕ) : Option ℕ → Except UInt8 Writer
  | some i => .ok ⟨ctapResponseBufferSize, E.items a.secrets (slot a i) count⟩
  | none => .error ctap2ErrNoCredentials

variable {E}

theorem entry_eq (hroomy : env.writer.Roomy) (hat : E.At l a.credMgmt)
    (hrest : ∃ k, l = Cursor.rest (E.test a) ctapRkSize k) (count : ℕ) :
    ∃ c, E.entry count (Writer.init ctapResponseBufferSize) a =
        ((E.answerOf a count l.head?).mapError .status, { a with credMgmt := c }) ∧
      E.At l.tail c := by
  rcases l with _ | ⟨i, l⟩
  · refine ⟨{ a.credMgmt with rpAuth := false, rkAuth := false }, ?_, ?_⟩
    · rw [entry, get_bind, if_pos (hat.ended rfl)]
      rfl
    · exact ⟨fun h => absurd rfl h, fun _ => .inr (E.auth_cleared _)⟩
  · obtain ⟨hauth, hcursor⟩ := hat.served (List.cons_ne_nil i l)
    obtain ⟨k, hk⟩ := hrest
    have hpass : E.test a i = true :=
      (Cursor.mem_rest.mp (by rw [← hk]; exact List.mem_cons_self : i ∈ Cursor.rest _ _ k)).2.2
    have hnext : E.next a i = Cursor.position l := by
      rw [E.next_eq a i hpass, Cursor.rest_tail hk.symm]
    have hserve : ¬ (E.cursor a.credMgmt < 0 ∨ E.auth a.credMgmt = false) := by
      rw [hcursor, hauth, Cursor.position_cons]
      simp
    have hencode := (E.writes hroomy a (slot a i) count).encode (E.isItem ..) (E.size_le ..) a
    refine ⟨E.moved (Cursor.position l) a.credMgmt, ?_, ?_⟩
    · have hmove : E.next a (E.cursor a.credMgmt) = Cursor.position l := by
        rw [hcursor]
        exact hnext
      rw [entry, get_bind, if_neg hserve, hcursor, Cursor.position_cons,
        show ctapLoadRk a i default = slot a i from rfl, bind_of_ok hencode, ← hmove]
      rfl
    · refine ⟨fun _ => ⟨(E.auth_moved ..).trans hauth, E.cursor_moved ..⟩, fun hl => .inl ?_⟩
      rw [E.cursor_moved, show l = [] from hl]
      decide

/-- The machine while these slots of its store are still to be listed. -/
structure Lists (E : Enumeration env) (a : Authenticator) (l : List ℕ) (m : Machine) : Prop where
  running : m.running = true
  unlocked : ¬ Locked m.auth
  resident : m.auth.state.rkStored ≠ 0
  rks : m.auth.rks = a.rks
  secrets : m.auth.secrets = a.secrets
  rest : ∃ k, l = Cursor.rest (E.test a) ctapRkSize k
  flags : E.At l m.auth.credMgmt

theorem answerOf_congr {b : Authenticator} (hrks : b.rks = a.rks) (hsecrets : b.secrets = a.secrets)
    (count : ℕ) (i : Option ℕ) : E.answerOf b count i = E.answerOf a count i := by
  cases i with
  | none => rfl
  | some i => rw [answerOf, answerOf, slot_congr hrks, hsecrets]

/-- An entry is asked for, of a device that differs from the one before the
request only in what no entry depends on. -/
theorem step_entry (hroomy : env.writer.Roomy) {m : Machine} {bytes : List UInt8} {h : Answers}
    (hrun : m.running = true) (hcmd : isManagement bytes) (hopen : ¬ Locked m.auth) {b : Authenticator}
    {count : ℕ} (hmgmt : ctapCredMgmt env (Writer.init ctapResponseBufferSize) bytes.tail
      { m.auth with trace := [] } = E.entry count (Writer.init ctapResponseBufferSize) b)
    (hunlocked : ¬ Locked b) (hresident : b.state.rkStored ≠ 0) (hrks : b.rks = a.rks)
    (hsecrets : b.secrets = a.secrets) (hrest : ∃ k, l = Cursor.rest (E.test a) ctapRkSize k)
    (hat : E.At l b.credMgmt) :
    m.answer env (.request bytes h) = some ((E.answerOf a count l.head?).map some) ∧
      E.Lists a l.tail (m.step env (.request bytes h)) := by
  have hrest' : ∃ k, l = Cursor.rest (E.test b) ctapRkSize k := by
    rwa [E.test_congr b a hrks]
  obtain ⟨c, hentry, hnext⟩ := entry_eq hroomy hat hrest' count
  rw [answerOf_congr hrks hsecrets] at hentry
  obtain ⟨hanswer, hrunning, last, hauth⟩ := @step_management env _ _ h hrun hcmd hopen _ _
    (hmgmt.trans hentry)
  refine ⟨hanswer, hrunning, ?_, ?_, ?_, ?_, ?_, ?_⟩
  · rw [hauth]
    exact hunlocked
  · rw [hauth]
    exact hresident
  · rw [hauth]
    exact hrks
  · rw [hauth]
    exact hsecrets
  · obtain ⟨k, hk⟩ := hrest
    rcases hl : l with _ | ⟨i, l'⟩
    · exact ⟨ctapRkSize, (Cursor.rest_of_le le_rfl).symm⟩
    · exact ⟨i + 1, (Cursor.rest_tail (hk.symm.trans hl)).symm⟩
  · rw [hauth]
    exact hnext

theorem step_next (hroomy : env.writer.Roomy) {cmd : ℤ}
    (hcmd : cmd = cmCmdRPNext ∨ cmd = cmCmdRKNext)
    (hcarried : ∀ w (cm : CredMgmt) a, cm.cmd = cmd → credMgmtCarriedOut env w cm a = E.entry 0 w a)
    (l : List ℕ) (m : Machine) (e : Event) (hlists : E.Lists a l m) (hasks : Asks env cmd m e) :
    m.answer env e = some ((E.answerOf a 0 l.head?).map some) ∧ E.Lists a l.tail (m.step env e) := by
  cases e with
  | reboot => exact hasks.elim
  | request bytes h =>
      obtain ⟨hmanage, cm, hparsed, hcm⟩ := hasks
      have hneeds : ¬ cm.NeedsPinAuth := by
        unfold CredMgmt.NeedsPinAuth
        rw [hcm]
        rcases hcmd with rfl | rfl <;> decide
      have hparsed' : parsedManagement env { m.auth with trace := [] } bytes.tail = some cm :=
        (parsedManagement_congr (by rfl) _).trans hparsed
      obtain ⟨custom, hafter⟩ := @afterParser_eq env { m.auth with trace := [] } bytes.tail
      have hmgmt := ctapCredMgmt_next hparsed' hneeds hlists.resident (Writer.init ctapResponseBufferSize)
      rw [hcarried _ _ _ hcm, hafter] at hmgmt
      exact step_entry hroomy hlists.running hmanage hlists.unlocked hmgmt hlists.unlocked
        hlists.resident hlists.rks hlists.secrets hlists.rest hlists.flags

theorem step_begin (hroomy : env.writer.Roomy) {m : Machine} {bytes : List UInt8} {h : Answers}
    {cm : CredMgmt} (hcm : Handled env m bytes cm) (hneeds : cm.NeedsPinAuth)
    (hcarried : ∀ w b, ∃ c, credMgmtCarriedOut env w cm b =
      E.entry (E.slots b).length w { b with credMgmt := c } ∧ E.At (E.slots b) c) :
    m.answer env (.request bytes h) =
        some ((E.answerOf m.auth (E.slots m.auth).length (E.slots m.auth).head?).map some) ∧
      E.Lists m.auth (E.slots m.auth).tail (m.step env (.request bytes h)) := by
  have hparsed : parsedManagement env { m.auth with trace := [] } bytes.tail = some cm :=
    (parsedManagement_congr (by rfl) _).trans hcm.parsed
  obtain ⟨custom, hafter⟩ := @afterParser_eq env { m.auth with trace := [] } bytes.tail
  have hmgmt := ctapCredMgmt_begin hparsed hneeds (hcm.verified hneeds) hcm.resident
    (Writer.init ctapResponseBufferSize)
  -- the device behind the parser and the check of the pinAuth
  obtain ⟨b, hb, hrks, hsecrets, hstored, hopen⟩ : ∃ b,
      (({ m.auth with trace := [] } : Authenticator).afterParser env bytes.tail).pinAuthAccepted = b ∧
        b.rks = m.auth.rks ∧ b.secrets = m.auth.secrets ∧ b.state.rkStored = m.auth.state.rkStored ∧
        ¬ Locked b := by
    rw [hafter]
    exact ⟨_, rfl, rfl, rfl, rfl, not_locked_pinAuthAccepted _⟩
  rw [hb] at hmgmt
  obtain ⟨c, hentry, hat⟩ := hcarried (Writer.init ctapResponseBufferSize) b
  have hslots : E.slots b = E.slots m.auth :=
    congrArg (Cursor.rest · ctapRkSize 0) (E.test_congr _ _ hrks)
  rw [hentry, hslots] at hmgmt
  rw [hslots] at hat
  have hresident : b.state.rkStored ≠ 0 := by
    rw [hstored]
    exact hcm.resident
  exact step_entry hroomy hcm.running hcm.command hcm.unlocked hmgmt hopen hresident hrks hsecrets
    ⟨0, rfl⟩ hat

end Enumeration

/-! ### Runs -/

/-- What the requests of an enumeration of these keys are answered with: one
key after the other, the first with their number, and then that there are no
more. -/
def listed (items : ResidentKey → ℕ → List EncOp) (keys : List ResidentKey) (i : ℕ) :
    Option (Except UInt8 (Option Writer)) :=
  some (match keys[i]? with
    | some rk => .ok (some ⟨ctapResponseBufferSize, items rk (if i = 0 then keys.length else 0)⟩)
    | none => .error ctap2ErrNoCredentials)

/-- This request, and Next commands behind it, list these keys. -/
def ListsKeys (cmd : ℤ) (items : ResidentKey → ℕ → List EncOp) (m : Machine) (e : Event)
    (keys : List ResidentKey) : Prop :=
  ∀ es, Transition.Along (Machine.step env) (Asks env cmd) (m.step env e) es →
    Transition.outputs (Machine.step env) (Machine.answer env) m (e :: es) =
      (List.range (es.length + 1)).map (listed items keys)

/-- A store as the authenticator keeps it: the free slots are erased, and the
persistent state knows how many are not. -/
structure Authenticator.Store (a : Authenticator) : Prop where
  size : a.rks.length = ctapRkSize
  stored : a.state.rkStored.toNat = a.rks.countP ctapRkIsValid
  resident : ∃ rk ∈ a.rks, ctapRkIsValid rk = true
  free : ∀ rk ∈ a.rks, ctapRkIsValid rk = false → rk = ResidentKey.erased

section Runs

variable {env} {m : Machine} {bytes : List UInt8} {h : Answers} {cm : CredMgmt}

/-- A Begin command and its Next commands go through the slots that pass the
test. -/
theorem Enumeration.listsKeys {E : Enumeration env} (hroomy : env.writer.Roomy) {cmd : ℤ}
    (hcmd : cmd = cmCmdRPNext ∨ cmd = cmCmdRKNext)
    (hnext : ∀ w (cm : CredMgmt) a, cm.cmd = cmd → credMgmtCarriedOut env w cm a = E.entry 0 w a)
    (hcm : Handled env m bytes cm) (hneeds : cm.NeedsPinAuth)
    (hbegin : ∀ w b, ∃ c, credMgmtCarriedOut env w cm b =
      E.entry (E.slots b).length w { b with credMgmt := c } ∧ E.At (E.slots b) c) :
    ListsKeys env cmd (E.items m.auth.secrets) m (.request bytes h)
      ((E.slots m.auth).map (slot m.auth)) := by
  intro es hes
  obtain ⟨hfirst, hlists⟩ := @step_begin _ E hroomy m bytes h cm hcm hneeds hbegin
  have hrest := Transition.outputs_of_listing (f := fun i => some ((E.answerOf m.auth 0 i).map some))
    (step_next hroomy hcmd hnext) hlists hes
  rw [Transition.outputs, hfirst, hrest, List.range_succ_eq_map, List.map_cons, List.map_map]
  have hanswer (i : ℕ) : some ((E.answerOf m.auth (if i = 0 then (E.slots m.auth).length else 0)
      (E.slots m.auth)[i]?).map some) =
        listed (E.items m.auth.secrets) ((E.slots m.auth).map (slot m.auth)) i := by
    rw [listed, List.getElem?_map, List.length_map]
    rcases (E.slots m.auth)[i]? with _ | j <;> rfl
  congr 1
  · rw [← hanswer 0, List.head?_eq_getElem?]
    rfl
  · refine List.map_congr_left fun i _ => ?_
    rw [Function.comp_apply, ← hanswer (i + 1), List.getElem?_tail]
    rfl

/-! #### The commands -/

theorem Enumeration.At.of_cursor {E : Enumeration env} {l : List ℕ} {c : CredMgmtState}
    (hauth : E.auth c = true) (hcursor : E.cursor c = Cursor.position l) : E.At l c := by
  refine ⟨fun _ => ⟨hauth, hcursor⟩, fun hl => .inl ?_⟩
  rw [hcursor, hl]
  decide

theorem entry_rp (w : Writer) (rpCount : ℕ) :
    (rpEnumeration env).entry rpCount w = credMgmtRp env w rpCount := rfl

theorem entry_rk (rpIdHash : List UInt8) (w : Writer) (rkCount : ℕ) :
    (rkEnumeration env rpIdHash).entry rkCount w = credMgmtRk env w rkCount := rfl

theorem credMgmtPrepare_next (hcmd : cm.cmd = cmCmdRPNext ∨ cm.cmd = cmCmdRKNext)
    (a : Authenticator) : credMgmtPrepare cm a = (.ok (0, 0), a) := by
  have hrp : cm.cmd ≠ cmCmdRPBegin := by
    rcases hcmd with hcmd | hcmd <;> rw [hcmd] <;> decide
  have hrk : cm.cmd ≠ cmCmdRKBegin := by
    rcases hcmd with hcmd | hcmd <;> rw [hcmd] <;> decide
  have hnext : ¬ (cm.cmd ≠ cmCmdRKNext ∧ cm.cmd ≠ cmCmdRPNext) := fun h =>
    hcmd.elim h.2 h.1
  rw [credMgmtPrepare, get_bind, if_neg hrp, if_neg hrk, if_neg hnext]
  rfl

theorem carriedOut_rp {w : Writer} {a b : Authenticator} {rpCount rkCount : ℕ}
    (hcmd : cm.cmd = cmCmdRPBegin ∨ cm.cmd = cmCmdRPNext)
    (hprepare : credMgmtPrepare cm a = (.ok (rpCount, rkCount), b)) :
    credMgmtCarriedOut env w cm a = (rpEnumeration env).entry rpCount w b := by
  have hmeta : cm.cmd ≠ cmCmdMetadata := by
    rcases hcmd with hcmd | hcmd <;> rw [hcmd] <;> decide
  unfold credMgmtCarriedOut
  rw [bind_of_ok hprepare]
  dsimp only
  rw [if_neg hmeta, if_pos hcmd, entry_rp]

theorem carriedOut_rk {w : Writer} {a b : Authenticator} {rpCount rkCount : ℕ}
    (hcmd : cm.cmd = cmCmdRKBegin ∨ cm.cmd = cmCmdRKNext)
    (hprepare : credMgmtPrepare cm a = (.ok (rpCount, rkCount), b)) (rpIdHash : List UInt8) :
    credMgmtCarriedOut env w cm a = (rkEnumeration env rpIdHash).entry rkCount w b := by
  have hother : cm.cmd ≠ cmCmdMetadata ∧ ¬ (cm.cmd = cmCmdRPBegin ∨ cm.cmd = cmCmdRPNext) := by
    rcases hcmd with hcmd | hcmd <;> rw [hcmd] <;> decide
  unfold credMgmtCarriedOut
  rw [bind_of_ok hprepare]
  dsimp only
  rw [if_neg hother.1, if_neg hother.2, if_pos hcmd, entry_rk]

theorem credMgmtPrepare_rpBegin (hcmd : cm.cmd = cmCmdRPBegin) (a : Authenticator) :
    credMgmtPrepare cm a =
      (.ok (countScan (scanForNextRp a) (ctapRkSize + 1) (scanForNextRp a (-1)), 0),
        { a with credMgmt := ⟨scanForNextRp a (-1), -1, true, false⟩ }) := by
  rw [credMgmtPrepare, get_bind, if_pos hcmd]
  rfl

theorem credMgmtPrepare_rkBegin (hcmd : cm.cmd = cmCmdRKBegin) (a : Authenticator) :
    credMgmtPrepare cm a =
      (.ok (0, countScan (scanForNextRk a) (ctapRkSize + 1) (scanForFirstRk a cm.rpIdHash.bytes)),
        { a with
          credMgmt :=
            { a.credMgmt with
              currRkInd := scanForFirstRk a cm.rpIdHash.bytes
              rkAuth := true } }) := by
  have hrp : cm.cmd ≠ cmCmdRPBegin := by
    rw [hcmd]
    decide
  rw [credMgmtPrepare, get_bind, if_neg hrp, if_pos hcmd]
  rfl

theorem carriedOut_rpBegin (hcmd : cm.cmd = cmCmdRPBegin) (w : Writer) (a : Authenticator) :
    ∃ c, credMgmtCarriedOut env w cm a =
        (rpEnumeration env).entry ((rpEnumeration env).slots a).length w { a with credMgmt := c } ∧
      (rpEnumeration env).At ((rpEnumeration env).slots a) c := by
  have hfirst : scanForNextRp a (-1) = Cursor.position ((rpEnumeration env).slots a) :=
    scanForNextRp_start
  have hcount : countScan (scanForNextRp a) (ctapRkSize + 1) (scanForNextRp a (-1)) =
      ((rpEnumeration env).slots a).length := by
    rw [hfirst]
    exact countScan_eq (fun i _ => scanForNextRp_next i) (Cursor.length_rest_le.trans (by omega))
  refine ⟨⟨scanForNextRp a (-1), -1, true, false⟩, ?_, .of_cursor rfl hfirst⟩
  rw [← hcount]
  exact carriedOut_rp (.inl hcmd) (credMgmtPrepare_rpBegin hcmd a)

theorem carriedOut_rkBegin (hcmd : cm.cmd = cmCmdRKBegin) (w : Writer) (a : Authenticator) :
    ∃ c, credMgmtCarriedOut env w cm a =
        (rkEnumeration env cm.rpIdHash.bytes).entry
          ((rkEnumeration env cm.rpIdHash.bytes).slots a).length w { a with credMgmt := c } ∧
      (rkEnumeration env cm.rpIdHash.bytes).At ((rkEnumeration env cm.rpIdHash.bytes).slots a) c := by
  have hfirst : scanForFirstRk a cm.rpIdHash.bytes =
      Cursor.position ((rkEnumeration env cm.rpIdHash.bytes).slots a) := scanForFirstRk_eq _
  have hcount : countScan (scanForNextRk a) (ctapRkSize + 1) (scanForFirstRk a cm.rpIdHash.bytes) =
      ((rkEnumeration env cm.rpIdHash.bytes).slots a).length := by
    rw [hfirst]
    exact countScan_eq (fun i => scanForNextRk_next) (Cursor.length_rest_le.trans (by omega))
  refine ⟨{ a.credMgmt with currRkInd := scanForFirstRk a cm.rpIdHash.bytes, rkAuth := true }, ?_,
    .of_cursor rfl hfirst⟩
  rw [← hcount]
  exact carriedOut_rk (.inl hcmd) (credMgmtPrepare_rkBegin hcmd a) _

/-! #### The store -/

theorem map_slot {a : Authenticator} (hsize : a.rks.length = ctapRkSize) :
    (List.range ctapRkSize).map (slot a) = a.rks := by
  refine List.ext_getElem (by simp [hsize]) fun i h₁ h₂ => ?_
  rw [List.getElem_map, List.getElem_range, slot, ctapLoadRk, if_neg (by omega), Int.toNat_natCast,
    List.getD_eq_getElem _ _ h₂]

theorem mem_slots {a : Authenticator} (hsize : a.rks.length = ctapRkSize) {rk : ResidentKey} :
    rk ∈ a.rks ↔ ∃ i < ctapRkSize, slot a i = rk := by
  rw [← map_slot hsize]
  simp [List.mem_map]

/-- The slots at which the scan for keys stops. -/
theorem map_slots_rk {a : Authenticator} (hsize : a.rks.length = ctapRkSize) (rpIdHash : List UInt8) :
    ((rkEnumeration env rpIdHash).slots a).map (slot a) =
      a.rks.filter fun rk => decide (CredentialId.rpIdHash rk.id = rpIdHash) := by
  conv_rhs => rw [← map_slot hsize]
  rw [List.filter_map, Enumeration.slots, Cursor.rest_zero]
  rfl

end Runs

/-- Over every store as the authenticator keeps it, without a key whose hash
is that of an erased slot: an RPBegin with the right pinAuth and the RPNext
commands behind it list one key of every relying party, and no other. -/
theorem rp_enumeration (hroomy : env.writer.Roomy) {m : Machine} (hstore : m.auth.Store)
    (hkeys : ∀ rk ∈ m.auth.rks, ctapRkIsValid rk = true →
      CredentialId.rpIdHash rk.id ≠ List.replicate 32 0xff)
    {e : Event} (hbegin : Begins env cmCmdRPBegin m e) :
    ∃ keys : List ResidentKey, (∀ rk ∈ keys, rk ∈ m.auth.rks ∧ ctapRkIsValid rk = true) ∧
      (keys.map fun rk => CredentialId.rpIdHash rk.id).Nodup ∧
      (∀ rpIdHash, rpIdHash ∈ keys.map (fun rk => CredentialId.rpIdHash rk.id) ↔
        ∃ rk ∈ m.auth.rks, ctapRkIsValid rk = true ∧ CredentialId.rpIdHash rk.id = rpIdHash) ∧
      ListsKeys env cmCmdRPNext rpItems m e keys := by
  cases e with
  | reboot => exact hbegin.elim
  | request bytes h =>
      obtain ⟨cm, hcm, hcmd, -⟩ := hbegin
      have hmap (f : List ℕ) : (f.map (slot m.auth)).map (fun rk => CredentialId.rpIdHash rk.id) =
          f.map (slotHash m.auth) := by
        rw [List.map_map]
        rfl
      -- an erased slot does not have the hash of a key
      have hsep : ∀ i < ctapRkSize, ∀ j < ctapRkSize, ctapRkIsValid (slot m.auth i) = true →
          slotHash m.auth j = slotHash m.auth i → ctapRkIsValid (slot m.auth j) = true := by
        intro i hi j hj hvalid hhash
        by_contra hfree
        have hj' := (mem_slots hstore.size).mpr ⟨j, hj, rfl⟩
        have herased := hstore.free _ hj' (Bool.not_eq_true _ ▸ hfree)
        refine hkeys _ ((mem_slots hstore.size).mpr ⟨i, hi, rfl⟩) hvalid ?_
        show slotHash m.auth i = _
        rw [← hhash, slotHash, herased]
        rfl
      refine ⟨((rpEnumeration env).slots m.auth).map (slot m.auth), ?_, ?_, ?_, ?_⟩
      · intro rk hrk
        obtain ⟨i, hi, rfl⟩ := List.mem_map.mp hrk
        obtain ⟨-, hlt, hnew⟩ := Cursor.mem_rest.mp hi
        have hfirst : newRp m.auth i = true := hnew
        exact ⟨(mem_slots hstore.size).mpr ⟨i, hlt, rfl⟩, (Cursor.isFirst_iff.mp hfirst).1⟩
      · rw [hmap]
        exact Cursor.nodup_firsts
      · intro rpIdHash
        rw [hmap]
        refine (Cursor.mem_firsts hsep).trans ⟨?_, ?_⟩
        · rintro ⟨i, hi, hvalid, hhash⟩
          exact ⟨slot m.auth i, (mem_slots hstore.size).mpr ⟨i, hi, rfl⟩, hvalid, hhash⟩
        · rintro ⟨rk, hrk, hvalid, hhash⟩
          obtain ⟨i, hi, rfl⟩ := (mem_slots hstore.size).mp hrk
          exact ⟨i, hi, hvalid, hhash⟩
      · exact @Enumeration.listsKeys env _ _ h _ (rpEnumeration env) hroomy _ (.inl rfl)
          (fun w cm a hnext => carriedOut_rp (.inr hnext) (credMgmtPrepare_next (.inl hnext) a)) hcm
          (.inr (.inl hcmd)) (carriedOut_rpBegin hcmd)

/-! ### The keys of a relying party -/

section Keys

variable {env} {m : Machine} {bytes : List UInt8} {h : Answers} {cm : CredMgmt}

/-- The valid resident keys with this hash. -/
def Authenticator.keysOf (a : Authenticator) (rpIdHash : List UInt8) : List ResidentKey :=
  a.rks.filter fun rk => ctapRkIsValid rk && decide (CredentialId.rpIdHash rk.id = rpIdHash)

/-- The slots with this hash, valid or not. -/
def Authenticator.slotsOf (a : Authenticator) (rpIdHash : List UInt8) : List ResidentKey :=
  a.rks.filter fun rk => decide (CredentialId.rpIdHash rk.id = rpIdHash)

theorem keysOf_eq (a : Authenticator) (rpIdHash : List UInt8) :
    a.keysOf rpIdHash = (a.slotsOf rpIdHash).filter ctapRkIsValid := by
  rw [Authenticator.keysOf, Authenticator.slotsOf, List.filter_filter]

/-- What an enumeration lists are the slots with the hash that it is given. -/
theorem listsKeys_slotsOf (hroomy : env.writer.Roomy) (hsize : m.auth.rks.length = ctapRkSize)
    (hcm : Handled env m bytes cm) (hcmd : cm.cmd = cmCmdRKBegin) :
    ListsKeys env cmCmdRKNext (rkItems env m.auth.secrets) m (.request bytes h)
      (m.auth.slotsOf cm.rpIdHash.bytes) := by
  have hlists := @Enumeration.listsKeys env _ _ h _ (rkEnumeration env cm.rpIdHash.bytes) hroomy _
    (.inr rfl) (fun w cm a hnext => carriedOut_rk (.inr hnext) (credMgmtPrepare_next (.inr hnext) a) _)
    hcm (.inr (.inr (.inl hcmd))) (carriedOut_rkBegin hcmd)
  rwa [map_slots_rk hsize] at hlists

/-- The total that an entry tells. -/
theorem count_of_rkItems {s : Secrets} {rk rk' : ResidentKey} {n n' : ℕ}
    (hitems : rkItems env s rk (n + 1) = rkItems env s rk' (n' + 1)) : n = n' := by
  have hsplit (rk : ResidentKey) (n : ℕ) : ∃ items, rkItems env s rk (n + 1) = items ++
      [.int 9, .int (n + 1 : ℕ), .int 0x0A, .int (listedCredProtect env s rk).toNat,
        .closeContainer] := by
    refine ⟨[.createMap 5, .int 6] ++ userItems rk.user true ++ [.int 7] ++
      descriptorItems (rk.credential.prefixBytes credentialIdSize) ++ [.int 8] ++
      coseKeyItems (cryptoEcc256DerivePublicKey env s rk.id.bytes) coseAlgEs256, ?_⟩
    simp [rkItems]
  obtain ⟨items, hrk⟩ := hsplit rk n
  obtain ⟨items', hrk'⟩ := hsplit rk' n'
  rw [hrk, hrk'] at hitems
  have hends := List.append_inj_right' hitems rfl
  simp only [List.cons.injEq, EncOp.int.injEq] at hends
  omega

/-- Two lists of keys, the one listed as the other, have the same length. -/
theorem length_of_listed {s : Secrets} {keys keys' : List ResidentKey}
    (hlisted : listed (rkItems env s) keys 0 = listed (rkItems env s) keys' 0) :
    keys.length = keys'.length := by
  rcases keys with _ | ⟨rk, keys⟩ <;> rcases keys' with _ | ⟨rk', keys'⟩
  · rfl
  · cases Option.some.inj hlisted
  · cases Option.some.inj hlisted
  · have hitems := congrArg Writer.ops (Option.some.inj (Except.ok.inj (Option.some.inj hlisted)))
    rw [List.length_cons, List.length_cons, count_of_rkItems hitems]

end Keys

/-- Over every store as the authenticator keeps it: an RKBegin with the right
pinAuth and the RKNext commands behind it list exactly the valid keys with the
hash they were given, unless that is the hash of an erased slot and some slot
is free. -/
theorem rk_enumeration_iff (hroomy : env.writer.Roomy) {m : Machine} (hstore : m.auth.Store)
    {bytes : List UInt8} {h : Answers} {cm : CredMgmt} (hcm : Handled env m bytes cm)
    (hcmd : cm.cmd = cmCmdRKBegin) :
    ListsKeys env cmCmdRKNext (rkItems env m.auth.secrets) m (.request bytes h)
        (m.auth.keysOf cm.rpIdHash.bytes) ↔
      (cm.rpIdHash.bytes = List.replicate 32 0xff → ∀ rk ∈ m.auth.rks, ctapRkIsValid rk = true) := by
  have hslots := @listsKeys_slotsOf env m bytes h cm hroomy hstore.size hcm hcmd
  rw [keysOf_eq]
  constructor
  · intro hlists hhash rk hrk
    have hfirst := (hlists [] trivial).symm.trans (hslots [] trivial)
    have hlen : ((m.auth.slotsOf cm.rpIdHash.bytes).filter ctapRkIsValid).length =
        (m.auth.slotsOf cm.rpIdHash.bytes).length := length_of_listed (List.cons.inj hfirst).1
    by_contra hfree
    -- a free slot is one of those that the scan stops at
    have herased := hstore.free rk hrk (Bool.not_eq_true _ ▸ hfree)
    have hmem : rk ∈ m.auth.slotsOf cm.rpIdHash.bytes := by
      refine List.mem_filter.mpr ⟨hrk, decide_eq_true ?_⟩
      rw [herased, hhash]
      rfl
    exact hfree (List.length_filter_eq_length_iff.mp hlen rk hmem)
  · intro hfull
    have hvalid : (m.auth.slotsOf cm.rpIdHash.bytes).filter ctapRkIsValid =
        m.auth.slotsOf cm.rpIdHash.bytes := by
      refine List.filter_eq_self.mpr fun rk hrk => ?_
      obtain ⟨hrk, hhash⟩ := List.mem_filter.mp hrk
      by_contra hfree
      have herased := hstore.free rk hrk (Bool.not_eq_true _ ▸ hfree)
      refine hfree (hfull ?_ rk hrk)
      rw [← of_decide_eq_true hhash, herased]
      rfl
    rwa [hvalid]

/-! ### A store with two keys -/

/-- A device on which two resident keys were made. -/
def demoTwoKeys : Machine :=
  Transition.run (Machine.step Sample.env) (Machine.powerUp Sample.env Sample.device)
    [demoCreate "a.example", demoCreate "b.example"]

/-- An RKBegin for this hash, with the right pinAuth. -/
def demoRKBegin (rpIdHash : List UInt8) : List UInt8 :=
  let params := [.createMap 1, .int 1, .byteString rpIdHash]
  ctapCborCredMgmtPreCmd :: Sample.encodeOps
    ([.createMap 3, .int 1, .int cmCmdRKBegin, .int 2] ++ params ++ [.int 4, .byteString
      ((cryptoSha256Hmac Sample.env demoTwoKeys.auth.secrets (.bytes demoTwoKeys.auth.pinToken.bytes)
        (4 :: Sample.encodeOps params)).slice 0 16)])

theorem Sample.writer_roomy : Sample.writer.Roomy := by
  have hhead (major v : ℕ) : (Sample.head major v).length ≤ headSize v := by
    unfold Sample.head headSize
    split_ifs <;> simp
  have hop (op : EncOp) : (Sample.encodeOp op).length ≤ op.size := by
    cases op with
    | byteString b => simp [Sample.encodeOp, EncOp.size, hhead]
    | textString b => simp [Sample.encodeOp, EncOp.size, hhead]
    | int v =>
        simp only [Sample.encodeOp, EncOp.size]
        by_cases hv : 0 ≤ v
        · rw [if_pos hv, if_pos hv]
          exact hhead ..
        · rw [if_neg hv, if_neg hv]
          exact hhead ..
    | boolean b => cases b <;> decide
    | closeContainer => exact le_rfl
    | uninitialised op => exact le_rfl
    | _ => exact hhead ..
  have hops (xs : List EncOp) : (Sample.encodeOps xs).length ≤ encodedSize xs := by
    induction xs with
    | nil => exact le_rfl
    | cons x xs ih =>
        rw [encodedSize_cons, Sample.encodeOps, List.flatMap_cons, List.length_append]
        exact Nat.add_le_add (hop x) ih
  constructor
  · intro n ops op _ hsize
    exact decide_eq_true ((hops _).trans hsize)
  · intro n ops _ _
    exact hops ops

theorem demoTwoKeys_store : demoTwoKeys.auth.Store where
  size := by decide +kernel
  stored := by decide +kernel
  resident := by decide +kernel
  free := by decide +kernel

/-- A request that gets through, by evaluation. -/
theorem handled_of_evaluates {env : Env} {m : Machine} {bytes : List UInt8} (p : CredMgmt → Prop)
    [DecidablePred p] (hrun : m.running = true ∧ isManagement bytes ∧ ¬ Locked m.auth ∧
      m.auth.state.rkStored ≠ 0)
    (hparsed : (parsedManagement env m.auth bytes.tail).any
      (fun cm => decide (cm.Verified env m.auth ∧ p cm)) = true) :
    ∃ cm, Handled env m bytes cm ∧ p cm := by
  obtain ⟨cm, hcm, hdec⟩ := (Option.any_eq_true ..).mp hparsed
  obtain ⟨hverified, hp⟩ := of_decide_eq_true hdec
  exact ⟨cm, ⟨hrun.1, hrun.2.1, hrun.2.2.1, hcm, fun _ => hverified, hrun.2.2.2⟩, hp⟩

theorem rp_enumeration_demo :
    ∃ keys : List ResidentKey,
      (∀ rk ∈ keys, rk ∈ demoTwoKeys.auth.rks ∧ ctapRkIsValid rk = true) ∧
      (keys.map fun rk => CredentialId.rpIdHash rk.id).Nodup ∧
      (∀ rpIdHash, rpIdHash ∈ keys.map (fun rk => CredentialId.rpIdHash rk.id) ↔
        ∃ rk ∈ demoTwoKeys.auth.rks, ctapRkIsValid rk = true ∧ CredentialId.rpIdHash rk.id = rpIdHash) ∧
      ListsKeys Sample.env cmCmdRPNext rpItems demoTwoKeys demoRPBegin keys :=
  rp_enumeration Sample.env Sample.writer_roomy demoTwoKeys_store (by decide +kernel)
    (handled_of_evaluates (fun cm => cm.cmd = cmCmdRPBegin ∧ cm.Verified Sample.env demoTwoKeys.auth)
      (by decide +kernel) (by decide +kernel))

theorem rk_enumeration_iff_demo :
    ∃ cm, Handled Sample.env demoTwoKeys (demoRKBegin (Sample.hash (Bytes.ascii "a.example")).bytes) cm ∧
      (ListsKeys Sample.env cmCmdRKNext (rkItems Sample.env demoTwoKeys.auth.secrets) demoTwoKeys
          (.request (demoRKBegin (Sample.hash (Bytes.ascii "a.example")).bytes) Sample.touch)
          (demoTwoKeys.auth.keysOf cm.rpIdHash.bytes) ↔
        (cm.rpIdHash.bytes = List.replicate 32 0xff →
          ∀ rk ∈ demoTwoKeys.auth.rks, ctapRkIsValid rk = true)) := by
  obtain ⟨cm, hcm, hcmd⟩ := @handled_of_evaluates Sample.env demoTwoKeys
    (demoRKBegin (Sample.hash (Bytes.ascii "a.example")).bytes) (fun cm => cm.cmd = cmCmdRKBegin) _
    (by decide +kernel) (by decide +kernel)
  exact ⟨cm, hcm, rk_enumeration_iff Sample.env Sample.writer_roomy demoTwoKeys_store hcm hcmd⟩

/-- The hash of an erased slot, which no key has: the free slots are listed. -/
theorem rk_enumeration_counterexample :
    demoTwoKeys.auth.Store ∧
      ∃ cm, Handled Sample.env demoTwoKeys (demoRKBegin (List.replicate 32 0xff)) cm ∧
        cm.cmd = cmCmdRKBegin ∧ demoTwoKeys.auth.keysOf cm.rpIdHash.bytes = [] ∧
        (demoTwoKeys.reply Sample.env (.request (demoRKBegin (List.replicate 32 0xff)) Sample.touch)).map
          CtapResult.status = some 0 := by
  refine ⟨demoTwoKeys_store, ?_⟩
  obtain ⟨cm, hcm, hcmd, hkeys⟩ := @handled_of_evaluates Sample.env demoTwoKeys
    (demoRKBegin (List.replicate 32 0xff))
    (fun cm => cm.cmd = cmCmdRKBegin ∧ demoTwoKeys.auth.keysOf cm.rpIdHash.bytes = []) _
    (by decide +kernel) (by decide +kernel)
  exact ⟨cm, hcm, hcmd, hkeys, by decide +kernel⟩

end NitrokeyFido2.Ctap
