import NitrokeyFido2.Ctap.PinRefinement
import NitrokeyFido2.Ctap.ResidentKeys
import NitrokeyFido2.Ctap.Sample
import NitrokeyFido2.Storage.StatePages

/-!
Migration of the persistent state between its layouts.

Two record layouts lie over the same bytes: where the current one has the
hash of the PIN, its salt and a reserved word, the first one had the PIN
itself and its length, and the byte of the version was padding. The model
works on the bytes; `decodeState` is what the rest of the authenticator sees
of them.
-/

namespace NitrokeyFido2.Storage

open NorFlash Bootloader Ctap Proc

variable (env : Env) (chip : Chip) (b : Board)

/-! ### The record -/

/-- `state->pin_code` in the first layout, as far as its length says. A length
beyond the field reads on in the record. -/
def pinCode (s : StateBytes) : List UInt8 :=
  (s.bytes.drop 2).take (Bytes.le32 (s.slice 68 4)).toNat

/-- A signed byte. -/
def int8 (v : UInt8) : ℤ := if v.toNat < 128 then v.toNat else v.toNat - 256

/-- The fields of a record in the current layout. -/
def decodeState (s : StateBytes) : AuthenticatorState where
  isInitialized := s.byte 0
  isPinSet := s.byte 1
  pinCodeHash := ⟨s.slice 2 32, Buf.length_slice (by decide)⟩
  pinSalt := ⟨s.slice 34 32, Buf.length_slice (by decide)⟩
  reserved := Bytes.le32 (s.slice 68 4)
  remainingTries := int8 (s.byte 72)
  rkStored := UInt16.ofNat (Bytes.leNat (s.slice 74 2))
  keyLens := UInt16.ofNat (Bytes.leNat (s.slice 76 2))
  keySpace := ⟨s.slice 78 128, Buf.length_slice (by decide)⟩
  dataVersion := s.byte 206

/-! ### The code -/

/-- What the migration works on. -/
structure StateDevice where
  /-- `STATE`. -/
  state : StateBytes
  flash : Memory
  rks : List ResidentKey
  rngPos : ℕ

/-- `authenticator_write_state`. -/
def writeState (s : StateBytes) : Proc StateDevice Stop Unit :=
  Proc.modify fun d => { d with flash := applyAll chip d.flash (authenticatorWriteState b s) }

/-- `authenticator_read_state`, which may restore the first page. -/
def readState : Proc StateDevice Stop StateBytes :=
  ⟨fun d => (.ok (authenticatorReadState b d.flash).state,
    { d with flash := applyAll chip d.flash (authenticatorReadState b d.flash).ops })⟩

/-- `ctap_generate_rng` for a salt. -/
def generateSalt : Proc StateDevice Stop (Buf 32) :=
  ⟨fun d => (.ok ⟨(List.range 32).map fun i => env.random (d.rngPos + i), by simp⟩,
    { d with rngPos := d.rngPos + 32 })⟩

/-- The salt, and the hash in the place of the PIN. -/
def hashPin (prev tmp : StateBytes) (salt : Buf 32) : StateBytes :=
  if (decodeState prev).isPinSet ≠ 0 then
    (tmp.write 34 salt.bytes).write 2
      (saltedPinHash env salt ((env.sha256 (pinCode prev)).slice 0 16)).bytes
  else tmp.write 34 salt.bytes

/-- `_reserved` and `data_version` of the new record. -/
def markVersion1 (tmp : StateBytes) : StateBytes := (tmp.write 68 (Bytes.toLe32 0xFF)).write 206 [1]

/-- The `check` and `check_buf` macros. -/
def checkFields (prev tmp : StateBytes) : Proc StateDevice Stop Unit := do
  Proc.stopIf ((decodeState prev).isInitialized ≠ (decodeState tmp).isInitialized) .halted
  Proc.stopIf ((decodeState prev).isPinSet ≠ (decodeState tmp).isPinSet) .halted
  Proc.stopIf ((decodeState prev).remainingTries ≠ (decodeState tmp).remainingTries) .halted
  Proc.stopIf ((decodeState prev).rkStored ≠ (decodeState tmp).rkStored) .halted
  Proc.stopIf ((decodeState prev).keyLens ≠ (decodeState tmp).keyLens) .halted
  Proc.stopIf ((decodeState prev).keySpace ≠ (decodeState tmp).keySpace) .halted

/-- `migrate_from_FF_to_01`: the new record, unless it fails. -/
def migrateFromFFTo01 (prev tmp : StateBytes) : Proc StateDevice Stop (Option StateBytes) :=
  if (decodeState tmp).dataVersion ≠ 0xFF then pure none
  else do
    let salt ← generateSalt env
    Proc.stopIf ((decodeState (hashPin env prev tmp salt)).reserved ≠ (decodeState prev).reserved) .halted
    checkFields prev (markVersion1 (hashPin env prev tmp salt))
    Proc.stopIf ((decodeState (markVersion1 (hashPin env prev tmp salt))).dataVersion = 0xFF) .halted
    pure (some (markVersion1 (hashPin env prev tmp salt)))

/-- `save_migrated_state`. -/
def saveMigratedState (s : StateBytes) : Proc StateDevice Stop Unit := do
  Proc.modify fun d => { d with state := s }
  writeState chip b s

/-- `ctap_reset_rk`. -/
def resetRk : Proc StateDevice Stop Unit :=
  Proc.modify fun d => { d with rks := List.replicate ctapRkSize ResidentKey.erased }

/-- `assert(state_current->data_version == STATE_VERSION)`. -/
def assertStateVersion : Proc StateDevice Stop Unit := do
  let d ← Proc.get
  Proc.stopIf ((decodeState d.state).dataVersion ≠ stateVersion) .halted

/-- `do_migration_if_required(&STATE)`. -/
def doMigrationIfRequired : Proc StateDevice Stop Unit := do
  let d ← Proc.get
  if (decodeState d.state).isInitialized = 0 ∨ (decodeState d.state).dataVersion = stateVersion then
    pure ()
  else do
    let previous ← readState chip b
    let tmp ← readState chip b
    if (decodeState d.state).dataVersion = 0xFF then do
      match ← migrateFromFFTo01 env previous tmp with
      | none => pure ()
      | some tmp => do
          saveMigratedState chip b tmp
          assertStateVersion
    else if (decodeState d.state).dataVersion = 1 then do
      resetRk
      saveMigratedState chip b (d.state.write 206 [2])
      assertStateVersion
    else assertStateVersion

/-! ### What a migration is to leave -/

/-- The state in use, in both pages. -/
structure Stored (d : StateDevice) : Prop where
  first : loadState d.flash (state1Page b) = d.state
  second : loadState d.flash (state2Page b) = d.state
  marker : hasMarker d.state

/-- The PIN the record was made for, as far as its hash tells: the first
layout has the PIN itself. -/
def AcceptedPin (s : StateBytes) (pin : List UInt8) : Prop :=
  if (decodeState s).dataVersion = 0xFF then leftHash env pin = leftHash env (pinCode s)
  else pinHashMatches env (decodeState s) (leftHash env pin) = true

/-- The current version, in use and in both pages, with the same attempts,
keys and PIN, and with the right number of resident keys. -/
structure MigrationDone (before after : StateDevice) : Prop where
  version : (decodeState after.state).dataVersion = stateVersion
  pages : Stored b after
  remainingTries : (decodeState after.state).remainingTries = (decodeState before.state).remainingTries
  isPinSet : (decodeState after.state).isPinSet = (decodeState before.state).isPinSet
  keyLens : (decodeState after.state).keyLens = (decodeState before.state).keyLens
  keySpace : (decodeState after.state).keySpace = (decodeState before.state).keySpace
  pin : (decodeState before.state).isPinSet = 1 → ∀ pin,
    pinHashMatches env (decodeState after.state) (leftHash env pin) = true ↔
      AcceptedPin env before.state pin
  rkStored : (decodeState after.state).rkStored.toNat = after.rks.countP ctapRkIsValid

/-- The call returns, and did what it is for. -/
def Migrates (d : StateDevice) : Prop :=
  ∃ after, doMigrationIfRequired env chip b d = (.ok (), after) ∧ MigrationDone env b d after

section Proofs

variable {env} {chip} {b} {d : StateDevice}

theorem readState_of_stored (h : Stored b d) : readState chip b d = (.ok d.state, d) := by
  have hread := authenticatorReadState_first b (m := d.flash) (by rw [h.first]; exact h.marker)
  show (Except.ok (authenticatorReadState b d.flash).state, _) = _
  rw [hread, h.first]
  rfl

theorem isInitialized_of_stored (h : Stored b d) : (decodeState d.state).isInitialized ≠ 0 := by
  have hmarker : (decodeState d.state).isInitialized = initializedMarker := h.marker
  rw [hmarker]
  decide

/-- A call that has something to do reads the state in use twice. -/
theorem doMigrationIfRequired_of_stored (h : Stored b d)
    (hv : (decodeState d.state).dataVersion ≠ stateVersion) :
    doMigrationIfRequired env chip b d =
      (if (decodeState d.state).dataVersion = 0xFF then do
        match ← migrateFromFFTo01 env d.state d.state with
        | none => pure ()
        | some tmp => do
            saveMigratedState chip b tmp
            assertStateVersion
      else if (decodeState d.state).dataVersion = 1 then do
        resetRk
        saveMigratedState chip b (d.state.write 206 [2])
        assertStateVersion
      else assertStateVersion : Proc StateDevice Stop Unit) d := by
  rw [doMigrationIfRequired, get_bind, if_neg (not_or.mpr ⟨isInitialized_of_stored h, hv⟩),
    bind_of_ok (readState_of_stored h), bind_of_ok (readState_of_stored h)]

/-! A field that is written over changes that field only. -/

theorem decodeState_writeVersion (s : StateBytes) (v : UInt8) :
    decodeState (s.write 206 [v]) = { decodeState s with dataVersion := v } := by
  have hself : (s.write 206 [v]).byte 206 = v := by
    rw [Buf.byte_write (show 207 ≤ 208 by omega), if_pos ⟨le_refl _, Nat.lt_succ_self _⟩]
    rfl
  simp (disch := simp only [stateSize, List.length_singleton]; omega) only
    [decodeState, Buf.byte_write_other, Buf.slice_write_other, hself]

theorem decodeState_writeSalt (s : StateBytes) (salt : Buf 32) :
    decodeState (s.write 34 salt.bytes) = { decodeState s with pinSalt := salt } := by
  have hself : (s.write 34 salt.bytes).slice 34 32 = salt.bytes := by
    have h : (s.write 34 salt.bytes).slice 34 salt.bytes.length = salt.bytes :=
      Buf.slice_write_self (by rw [salt.length_bytes]; decide)
    rwa [salt.length_bytes] at h
  simp (disch := simp only [stateSize, Buf.length_bytes]; omega) only
    [decodeState, Buf.byte_write_other, Buf.slice_write_other, hself]

theorem decodeState_writeHash (s : StateBytes) (hash : Buf 32) :
    decodeState (s.write 2 hash.bytes) = { decodeState s with pinCodeHash := hash } := by
  have hself : (s.write 2 hash.bytes).slice 2 32 = hash.bytes := by
    have h : (s.write 2 hash.bytes).slice 2 hash.bytes.length = hash.bytes :=
      Buf.slice_write_self (by rw [hash.length_bytes]; decide)
    rwa [hash.length_bytes] at h
  simp (disch := simp only [stateSize, Buf.length_bytes]; omega) only
    [decodeState, Buf.byte_write_other, Buf.slice_write_other, hself]

theorem decodeState_writeReserved (s : StateBytes) (v : UInt32) :
    decodeState (s.write 68 (Bytes.toLe32 v)) = { decodeState s with reserved := v } := by
  have hself : Bytes.le32 ((s.write 68 (Bytes.toLe32 v)).slice 68 4) = v := by
    have h : (s.write 68 (Bytes.toLe32 v)).slice 68 (Bytes.toLe32 v).length = Bytes.toLe32 v :=
      Buf.slice_write_self (by rw [Bytes.length_toLe32]; decide)
    rw [Bytes.length_toLe32] at h
    rw [h, ← List.append_nil (Bytes.toLe32 v), Bytes.le32_toLe32]
  simp (disch := simp only [stateSize, Bytes.length_toLe32]; omega) only
    [decodeState, Buf.byte_write_other, Buf.slice_write_other, hself]

/-- A state that was saved. -/
def StateDevice.saved (chip : Chip) (b : Board) (d : StateDevice) (s : StateBytes) : StateDevice :=
  { d with state := s, flash := applyAll chip d.flash (authenticatorWriteState b s) }

theorem saveMigratedState_apply (s : StateBytes) (d : StateDevice) :
    saveMigratedState chip b s d = (.ok (), d.saved chip b s) := by
  rw [saveMigratedState, bind_of_ok (show Proc.modify _ d = (.ok (), _) from rfl), writeState]
  exact rfl

theorem stored_saved {s : StateBytes} (hs : hasMarker s) (d : StateDevice) :
    Stored b (d.saved chip b s) :=
  ⟨(loadState_written chip b d.flash s).1, (loadState_written chip b d.flash s).2, hs⟩

theorem assertStateVersion_apply (d : StateDevice) :
    assertStateVersion d =
      if (decodeState d.state).dataVersion ≠ stateVersion then (.error .halted, d) else (.ok (), d) := by
  rw [assertStateVersion, get_bind, Proc.stopIf]
  split <;> rfl

/-- The first migration makes a record of version 1. -/
theorem migrateFromFFTo01_ok {prev tmp : StateBytes} {r : Option StateBytes} {after : StateDevice}
    (hv : (decodeState tmp).dataVersion = 0xFF)
    (h : migrateFromFFTo01 env prev tmp d = (.ok r, after)) :
    ∃ s : StateBytes, r = some s ∧ (decodeState s).dataVersion = 1 := by
  rw [migrateFromFFTo01, if_neg (not_not_intro hv)] at h
  obtain ⟨salt, t₁, -, h⟩ := bind_ok.mp h
  obtain ⟨-, t₂, -, h⟩ := bind_ok.mp h
  obtain ⟨-, t₃, -, h⟩ := bind_ok.mp h
  obtain ⟨-, t₄, -, h⟩ := bind_ok.mp h
  obtain ⟨rfl, -⟩ := pure_ok.mp h
  exact ⟨_, rfl, by rw [markVersion1, decodeState_writeVersion]⟩

/-- The first layout ends in version 1, and so in the assertion. -/
theorem not_migrates_of_FF (h : Stored b d) (hv : (decodeState d.state).dataVersion = 0xFF) :
    ¬ Migrates env chip b d := by
  rintro ⟨after, hrun, -⟩
  rw [doMigrationIfRequired_of_stored h (by rw [hv]; decide), if_pos hv] at hrun
  obtain ⟨r, t, hm, hrest⟩ := bind_ok.mp hrun
  obtain ⟨s, rfl, hs⟩ := migrateFromFFTo01_ok hv hm
  dsimp only at hrest
  rw [bind_of_ok (saveMigratedState_apply s t), assertStateVersion_apply, if_pos] at hrest
  · exact absurd (congrArg Prod.fst hrest) (by simp)
  · show (decodeState s).dataVersion ≠ stateVersion
    rw [hs]
    decide

/-- Version 1 becomes version 2, with the resident keys erased. -/
theorem doMigrationIfRequired_of_1 (h : Stored b d) (hv : (decodeState d.state).dataVersion = 1) :
    doMigrationIfRequired env chip b d =
      (.ok (), StateDevice.saved chip b { d with rks := List.replicate ctapRkSize ResidentKey.erased }
        (d.state.write 206 [2])) := by
  rw [doMigrationIfRequired_of_stored h (by rw [hv]; decide), if_neg (by rw [hv]; decide), if_pos hv,
    bind_of_ok (show resetRk d = (.ok (), _) from rfl), bind_of_ok (saveMigratedState_apply _ _),
    assertStateVersion_apply, if_neg]
  show ¬ (decodeState (d.state.write 206 [2])).dataVersion ≠ stateVersion
  rw [decodeState_writeVersion]
  exact not_not_intro rfl

theorem doMigrationIfRequired_of_2 (hv : (decodeState d.state).dataVersion = stateVersion) :
    doMigrationIfRequired env chip b d = (.ok (), d) := by
  rw [doMigrationIfRequired, get_bind, if_pos (.inr hv)]
  rfl

theorem countP_erased :
    (List.replicate ctapRkSize ResidentKey.erased).countP ctapRkIsValid = 0 := by
  rw [List.countP_replicate, if_neg (by decide +kernel)]

theorem migrates_of_1_iff (h : Stored b d) (hv : (decodeState d.state).dataVersion = 1) :
    Migrates env chip b d ↔ (decodeState d.state).rkStored = 0 := by
  have hrun : doMigrationIfRequired env chip b d = _ := doMigrationIfRequired_of_1 h hv
  have hdecode := decodeState_writeVersion d.state 2
  have hmarker : hasMarker (d.state.write 206 [2]) := by
    have hinit : (decodeState (d.state.write 206 [2])).isInitialized = initializedMarker := by
      rw [hdecode]
      exact h.marker
    exact hinit
  constructor
  · rintro ⟨after, hafter, hdone⟩
    rw [hrun] at hafter
    obtain rfl := (Prod.mk.inj hafter).2
    have hcount := hdone.rkStored
    change (decodeState (d.state.write 206 [2])).rkStored.toNat =
      (List.replicate ctapRkSize ResidentKey.erased).countP ctapRkIsValid at hcount
    rw [hdecode, countP_erased] at hcount
    exact UInt16.toNat_inj.mp hcount
  · intro hzero
    refine ⟨_, hrun, ?_, stored_saved hmarker _, ?_, ?_, ?_, ?_, fun _ pin => ?_, ?_⟩
    case refine_6 =>
      show pinHashMatches env (decodeState (d.state.write 206 [2])) _ = true ↔ _
      rw [hdecode, AcceptedPin, if_neg (by rw [hv]; decide)]
      exact Iff.rfl
    case refine_7 =>
      show (decodeState (d.state.write 206 [2])).rkStored.toNat =
        (List.replicate ctapRkSize ResidentKey.erased).countP ctapRkIsValid
      rw [hdecode, countP_erased, hzero]
      rfl
    all_goals
      show _ = _
      simp only [StateDevice.saved, hdecode]

theorem migrates_of_2_iff (h : Stored b d) (hv : (decodeState d.state).dataVersion = stateVersion) :
    Migrates env chip b d ↔ (decodeState d.state).rkStored.toNat = d.rks.countP ctapRkIsValid := by
  have hrun : doMigrationIfRequired env chip b d = _ := doMigrationIfRequired_of_2 hv
  constructor
  · rintro ⟨after, hafter, hdone⟩
    rw [hrun] at hafter
    obtain rfl := (Prod.mk.inj hafter).2
    exact hdone.rkStored
  · intro hcount
    refine ⟨d, hrun, hv, h, rfl, rfl, rfl, rfl, fun _ pin => ?_, hcount⟩
    rw [AcceptedPin, if_neg (by rw [hv]; decide)]

/-- A stored state of a known version is migrated exactly if it is of version
2 and its number of resident keys is right, or of version 1 and there are
none. -/
theorem migrates_iff (env : Env) (chip : Chip) (b : Board) (d : StateDevice) (h : Stored b d)
    (hv : (decodeState d.state).dataVersion = 0xFF ∨ (decodeState d.state).dataVersion = 1 ∨
      (decodeState d.state).dataVersion = stateVersion) :
    Migrates env chip b d ↔
      ((decodeState d.state).dataVersion = stateVersion ∧
        (decodeState d.state).rkStored.toNat = d.rks.countP ctapRkIsValid) ∨
      ((decodeState d.state).dataVersion = 1 ∧ (decodeState d.state).rkStored = 0) := by
  obtain hv | hv | hv := hv
  · rw [iff_false_left (not_migrates_of_FF h hv), hv]
    rintro (⟨hv, -⟩ | ⟨hv, -⟩) <;> exact absurd hv (by decide)
  · rw [migrates_of_1_iff h hv, hv, or_iff_right (fun h => absurd h.1 (by decide)), and_iff_right rfl]
  · rw [migrates_of_2_iff h hv, hv, or_iff_left (fun h => absurd h.1 (by decide)), and_iff_right rfl]

/-! ### The view of the authenticator -/

/-- A PIN that fits its field lies where the hash and the salt are now. -/
theorem pinCode_eq (s : StateBytes) (hlen : (decodeState s).reserved.toNat ≤ 64) :
    pinCode s = ((decodeState s).pinCodeHash.bytes ++ (decodeState s).pinSalt.bytes).take
      (decodeState s).reserved.toNat := by
  have hfields : s.slice 2 32 ++ s.slice 34 32 = s.slice 2 64 := by
    unfold Buf.slice
    rw [show 34 = 2 + 32 by omega, ← List.drop_drop, ← List.take_add]
  show _ = (s.slice 2 32 ++ s.slice 34 32).take _
  have hmin : min (decodeState s).reserved.toNat 64 = (decodeState s).reserved.toNat := Nat.min_eq_left hlen
  rw [hfields, Buf.slice, List.take_take, hmin]
  rfl

/-- The new record, field by field. -/
theorem decodeState_markVersion1 (s : StateBytes) (salt : Buf 32) :
    decodeState (markVersion1 (hashPin env s s salt)) =
      { decodeState s with
        pinSalt := salt
        pinCodeHash := if (decodeState s).isPinSet ≠ 0 then
          saltedPinHash env salt ((env.sha256 (pinCode s)).slice 0 16) else (decodeState s).pinCodeHash
        reserved := 0xFF
        dataVersion := 1 } := by
  rw [markVersion1, decodeState_writeVersion, decodeState_writeReserved, hashPin]
  split
  · rw [decodeState_writeHash, decodeState_writeSalt]
  · rw [decodeState_writeSalt]

theorem checkFields_apply {s t : StateBytes} (h₁ : (decodeState s).isInitialized = (decodeState t).isInitialized)
    (h₂ : (decodeState s).isPinSet = (decodeState t).isPinSet)
    (h₃ : (decodeState s).remainingTries = (decodeState t).remainingTries)
    (h₄ : (decodeState s).rkStored = (decodeState t).rkStored)
    (h₅ : (decodeState s).keyLens = (decodeState t).keyLens)
    (h₆ : (decodeState s).keySpace = (decodeState t).keySpace) (d : StateDevice) :
    checkFields s t d = (.ok (), d) := by
  have hpass (c : Prop) [Decidable c] (hc : ¬ c) :
      (Proc.stopIf c .halted : Proc StateDevice Stop Unit) d = (.ok (), d) :=
    stopIf_ok.mpr ⟨hc, rfl⟩
  rw [checkFields, bind_of_ok (hpass _ (not_not_intro h₁)), bind_of_ok (hpass _ (not_not_intro h₂)),
    bind_of_ok (hpass _ (not_not_intro h₃)), bind_of_ok (hpass _ (not_not_intro h₄)),
    bind_of_ok (hpass _ (not_not_intro h₅)), hpass _ (not_not_intro h₆)]

/-- The authenticator has the fields of the record, in use and stored. -/
structure Shows (a : Authenticator) (d : StateDevice) : Prop where
  state : a.state = decodeState d.state
  stored : a.stored = decodeState d.state
  rks : a.rks = d.rks
  rngPos : a.rngPos = d.rngPos

theorem shows_saved {a : Authenticator} {s : StateBytes} (hrks : a.rks = d.rks)
    (hpos : a.rngPos = d.rngPos) :
    Shows { a with state := decodeState s, stored := decodeState s } (d.saved chip b s) :=
  ⟨rfl, rfl, hrks, hpos⟩

/-- The first migration of the bytes is the one of the fields. -/
theorem migrateFromFFTo01_refines {a : Authenticator} (ha : Shows a d)
    (hv : (decodeState d.state).dataVersion = 0xFF) (hlen : (decodeState d.state).reserved.toNat ≤ 64) :
    ∃ (s : StateBytes) (t : StateDevice) (u : Authenticator),
      migrateFromFFTo01 env d.state d.state d = (.ok (some s), t) ∧
        Ctap.migrateFromFFTo01 env a.stored a = (.ok (decodeState s), u) ∧
        u.rks = t.rks ∧ u.rngPos = t.rngPos := by
  let salt := a.drawn env 32
  have hsalt : generateSalt env d = (.ok salt, { d with rngPos := d.rngPos + 32 }) := by
    show (Except.ok (⟨(List.range 32).map fun i => env.random (d.rngPos + i), _⟩ : Buf 32), _) = _
    simp only [salt, Authenticator.drawn, ha.rngPos]
  have hdecode : decodeState (markVersion1 (hashPin env d.state d.state salt)) = _ :=
    decodeState_markVersion1 d.state salt
  have hversion : (decodeState (markVersion1 (hashPin env d.state d.state salt))).dataVersion = 1 := by
    rw [hdecode]
  have hreserved : (decodeState (hashPin env d.state d.state salt)).reserved =
      (decodeState d.state).reserved := by
    rw [hashPin]
    split
    · rw [decodeState_writeHash, decodeState_writeSalt]
    · rw [decodeState_writeSalt]
  refine ⟨markVersion1 (hashPin env d.state d.state salt), { d with rngPos := d.rngPos + 32 },
    { a with rngPos := a.rngPos + 32 }, ?_, ?_, ha.rks, congrArg (· + 32) ha.rngPos⟩
  · rw [migrateFromFFTo01, if_neg (not_not_intro hv), bind_of_ok hsalt,
      bind_of_ok (stopIf_ok (u := ()).mpr ⟨not_not_intro hreserved, rfl⟩),
      bind_of_ok (checkFields_apply (by rw [hdecode]) (by rw [hdecode]) (by rw [hdecode])
        (by rw [hdecode]) (by rw [hdecode]) (by rw [hdecode]) _),
      bind_of_ok (stopIf_ok (u := ()).mpr ⟨by rw [hversion]; decide, rfl⟩)]
    rfl
  · refine (congrArg (fun r => Ctap.migrateFromFFTo01 env r a) ha.stored).trans ?_
    rw [hdecode, pinCode_eq d.state hlen, Ctap.migrateFromFFTo01,
      bind_of_ok (show ctapGenerateRng env 32 a = (.ok salt, _) from rfl)]
    rfl

/-- The migration of the bytes is the one of the fields. -/
theorem doMigrationIfRequired_refines {a : Authenticator} (h : Stored b d) (ha : Shows a d)
    (hv : (decodeState d.state).dataVersion = 0xFF ∨ (decodeState d.state).dataVersion = 1 ∨
      (decodeState d.state).dataVersion = stateVersion)
    (hlen : (decodeState d.state).reserved.toNat ≤ 64 ∨ (decodeState d.state).dataVersion ≠ 0xFF) :
    (doMigrationIfRequired env chip b d).1 = (Ctap.doMigrationIfRequired env a).1 ∧
      Shows (Ctap.doMigrationIfRequired env a).2 (doMigrationIfRequired env chip b d).2 := by
  have hinit : a.state.isInitialized ≠ 0 := by
    rw [ha.state]
    exact isInitialized_of_stored h
  have hsame : a.state.dataVersion = (decodeState d.state).dataVersion := by rw [ha.state]
  obtain hv | hv | hv := hv
  · obtain ⟨s, t, u, hbytes, hfields, hrks, hpos⟩ :=
      migrateFromFFTo01_refines ha hv (hlen.resolve_right (not_not_intro hv))
    have hs : (decodeState s).dataVersion = 1 := by
      obtain ⟨s', hs', hone⟩ := migrateFromFFTo01_ok hv hbytes
      rwa [Option.some.inj hs']
    have hleft : doMigrationIfRequired env chip b d = (.error .halted, t.saved chip b s) := by
      rw [doMigrationIfRequired_of_stored h (by rw [hv]; decide), if_pos hv, bind_of_ok hbytes]
      dsimp only
      rw [bind_of_ok (saveMigratedState_apply s t), assertStateVersion_apply, if_pos]
      show (decodeState s).dataVersion ≠ stateVersion
      rw [hs]
      decide
    have hright : Ctap.doMigrationIfRequired env a =
        (.error .halted, { u with state := decodeState s, stored := decodeState s }) := by
      rw [Ctap.doMigrationIfRequired, get_bind,
        if_neg (not_or.mpr ⟨hinit, by rw [hsame, hv]; decide⟩), if_pos (hsame.trans hv), bind_assoc,
        bind_of_ok hfields, bind_of_ok (show Ctap.saveMigratedState (decodeState s) u = (.ok (), _) from rfl),
        get_bind, Proc.stopIf, if_pos]
      · rfl
      · show (decodeState s).dataVersion ≠ stateVersion
        rw [hs]
        decide
    rw [hleft, hright]
    exact ⟨rfl, shows_saved hrks hpos⟩
  · have hdecode := decodeState_writeVersion d.state 2
    have hright : Ctap.doMigrationIfRequired env a =
        (.ok (), { a with
          rks := List.replicate ctapRkSize ResidentKey.erased
          state := decodeState (d.state.write 206 [2])
          stored := decodeState (d.state.write 206 [2]) }) := by
      rw [Ctap.doMigrationIfRequired, get_bind,
        if_neg (not_or.mpr ⟨hinit, by rw [hsame, hv]; decide⟩), if_neg (by rw [hsame, hv]; decide),
        if_pos (hsame.trans hv), bind_assoc, bind_of_ok (show ctapResetRk a = (.ok (), _) from rfl),
        bind_of_ok (show Ctap.saveMigratedState _ _ = (.ok (), _) from rfl), get_bind, Proc.stopIf,
        if_neg]
      · rw [hdecode, ← ha.state]
        rfl
      · exact not_not_intro rfl
    rw [doMigrationIfRequired_of_1 h hv, hright]
    exact ⟨rfl, rfl, rfl, rfl, ha.rngPos⟩
  · have hright : Ctap.doMigrationIfRequired env a = (.ok (), a) := by
      rw [Ctap.doMigrationIfRequired, get_bind, if_pos (.inr (hsame.trans hv))]
      rfl
    rw [doMigrationIfRequired_of_2 hv, hright]
    exact ⟨rfl, ha⟩

end Proofs

/-! ### Two records -/

/-- Both pages with this record. -/
def pagesOf (b : Board) (s : StateBytes) (a : ℕ) : UInt8 :=
  if a < flashAddr (state1Page b) then s.bytes.getD (a - flashAddr (state2Page b)) 0xFF
  else s.bytes.getD (a - flashAddr (state1Page b)) 0xFF

theorem stored_pagesOf {s : StateBytes} (hs : hasMarker s) (rks : List ResidentKey) (pos : ℕ) :
    Stored b ⟨s, pagesOf b s, rks, pos⟩ := by
  have hapart := state2Page_lt b
  refine ⟨stateBytes_ext fun i hi => ?_, stateBytes_ext fun i hi => ?_, hs⟩
  · rw [getD_loadState _ _ hi]
    show pagesOf b s _ = _
    rw [pagesOf, if_neg (by omega), Nat.add_sub_cancel_left,
      List.getD_eq_getElem _ _ (s.length_bytes.symm ▸ hi), List.getD_eq_getElem _ _ (s.length_bytes.symm ▸ hi)]
  · have hpage : i < pageSize := lt_trans hi (by decide)
    rw [getD_loadState _ _ hi]
    show pagesOf b s _ = _
    rw [pagesOf, if_pos (by omega), Nat.add_sub_cancel_left,
      List.getD_eq_getElem _ _ (s.length_bytes.symm ▸ hi), List.getD_eq_getElem _ _ (s.length_bytes.symm ▸ hi)]

/-- Initialised, no PIN, eight attempts, no resident keys. -/
def demoRecord (version : UInt8) : StateBytes :=
  ⟨[initializedMarker, 0] ++ List.replicate 70 0xFF ++ [8, 0xFF, 0, 0] ++ List.replicate 130 0xFF ++
    [version, 0xFF], rfl⟩

theorem demoRecord_marker (version : UInt8) : hasMarker (demoRecord version) := rfl

def demoDevice (version : UInt8) : StateDevice :=
  ⟨demoRecord version, pagesOf .pages128 (demoRecord version),
    List.replicate ctapRkSize ResidentKey.erased, 0⟩

theorem migrates_iff_demo :
    Migrates Sample.env ⟨fun _ _ _ => 0⟩ .pages128 (demoDevice 1) ↔
      ((decodeState (demoDevice 1).state).dataVersion = stateVersion ∧
        (decodeState (demoDevice 1).state).rkStored.toNat = (demoDevice 1).rks.countP ctapRkIsValid) ∨
      ((decodeState (demoDevice 1).state).dataVersion = 1 ∧
        (decodeState (demoDevice 1).state).rkStored = 0) :=
  migrates_iff _ _ _ _ (stored_pagesOf _ (demoRecord_marker 1) _ _) (.inr (.inl rfl))

/-- A record of the first layout, without a PIN. -/
theorem migrates_counterexample :
    Stored .pages128 (demoDevice 0xFF) ∧ (decodeState (demoDevice 0xFF).state).dataVersion = 0xFF ∧
      ¬ Migrates Sample.env ⟨fun _ _ _ => 0⟩ .pages128 (demoDevice 0xFF) :=
  have hstored : Stored .pages128 (demoDevice 0xFF) := stored_pagesOf _ (demoRecord_marker 0xFF) _ _
  ⟨hstored, rfl, not_migrates_of_FF hstored rfl⟩

end NitrokeyFido2.Storage
