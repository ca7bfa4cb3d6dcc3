import NitrokeyFido2.Ctap.InOrder
import NitrokeyFido2.Ctap.Management

/-!
What the pinAuth of credential management covers.

The pinAuth is made from the command and from the bytes of its parameters. The
parser fills the parameters and records the bytes on two ways; here, both are
followed from map to map.
-/

namespace NitrokeyFido2.Ctap

open Proc

variable (env : Env)

/-! ### The copies of a map -/

/-- What the id of a credential descriptor copies. -/
def descriptorCopies (v : env.reader.Cursor) : List (List UInt8) :=
  match env.reader.mapFindValue v (Bytes.ascii "id") with
  | .ok id => [(env.reader.copyByteString id credentialIdSize).written]
  | .error _ => []

/-- What the entries of a map copy to the rpIdHash. Each copy may use no more
room than the one before it. -/
def hashCopies : ℕ → List (env.reader.Cursor × env.reader.Cursor) → List (List UInt8)
  | _, [] => []
  | sz, (key, v) :: entries =>
      if env.reader.getInt key = 1 then
        (env.reader.copyByteString v sz).written ::
          hashCopies (env.reader.copyByteString v sz).buflen entries
      else hashCopies sz entries

/-- What they copy to the credential id. -/
def idCopies (entries : List (env.reader.Cursor × env.reader.Cursor)) : List (List UInt8) :=
  entries.flatMap fun entry =>
    if env.reader.getInt entry.1 = 2 then descriptorCopies env entry.2 else []

/-- The first entry of a parameter map, its entries, and the place behind
them. -/
def paramEntries (v : env.reader.Cursor) : Except CborError
    (env.reader.Cursor × List (env.reader.Cursor × env.reader.Cursor) × env.reader.Cursor) := do
  let map ← env.reader.enterContainer v
  let length ← env.reader.getMapLength v
  let (entries, e) ← env.reader.walk length map
  pure (map, entries, e)

/-- What is used of the parameters, and what is recorded of them. -/
structure Fields where
  hash : Buf 32
  id : CredentialId
  recorded : List UInt8

def CredMgmt.fields (cm : CredMgmt) : Fields :=
  ⟨cm.rpIdHash, cm.credentialDescriptor.credential.id,
    cm.subCommandParamsCborCopy.bytes.take cm.subCommandParamsCborSize⟩

/-- The bytes of a parameter map, from the last byte of its head on. -/
def recordedBytes (request : List UInt8) (map e : env.reader.Cursor) : List UInt8 :=
  (request.drop (env.reader.getNextByte map - 1)).take
    (env.reader.getNextByte e - (env.reader.getNextByte map - 1))

/-- What a parameter map copies to the rpIdHash and to the credential id. -/
def mapCopies (v : env.reader.Cursor) : List (List UInt8) × List (List UInt8) :=
  match paramEntries env v with
  | .ok (_, entries, _) => (hashCopies env 32 entries, idCopies env entries)
  | .error _ => ([], [])

def mapBytes (request : List UInt8) (v : env.reader.Cursor) : List UInt8 :=
  match paramEntries env v with
  | .ok (map, _, e) => recordedBytes env request map e
  | .error _ => []

/-- One parameter map. -/
def Fields.fill (request : List UInt8) (f : Fields) (v : env.reader.Cursor) : Fields :=
  ⟨f.hash.writeAll (mapCopies env v).1, f.id.writeAll (mapCopies env v).2, mapBytes env request v⟩

/-- The values behind the key of the parameters. -/
def mapsOf (entries : List (env.reader.Cursor × env.reader.Cursor)) : List env.reader.Cursor :=
  entries.filterMap fun entry =>
    if env.reader.getIntChecked entry.1 = .ok 2 then some entry.2 else none

/-- The parameter maps of a request. -/
def paramMaps (request : List UInt8) : List env.reader.Cursor :=
  match (do
    let it ← env.reader.parserInit request
    let map ← env.reader.enterContainer it
    let length ← env.reader.getMapLength it
    env.reader.walk length map) with
  | .ok (entries, _) => mapsOf env entries
  | .error _ => []

/-! ### The parser -/

section Parser

variable {env} {request : List UInt8} {s t : WithCustom CredMgmt}

theorem parseCredentialId_id {s t : WithCustom CredentialDescriptor} {v : env.reader.Cursor}
    (h : parseCredentialId env v s = (.ok (), t)) :
    t.val.credential.id =
      s.val.credential.id.write 0 (env.reader.copyByteString v credentialIdSize).written := by
  unfold parseCredentialId at h
  dsimp only at h
  rw [bind_ok] at h
  obtain ⟨_, u, hu, h⟩ := h
  rw [modify_ok] at hu
  subst hu
  split at h
  · rw [bind_ok] at h
    obtain ⟨_, u, hu, h⟩ := h
    rw [modify_ok] at hu
    subst hu
    rw [checkErr, stopIf_ok] at h
    rw [← h.2]
  · split at h
    · rw [bind_ok] at h
      obtain ⟨_, u, hu, h⟩ := h
      rw [modify_ok] at hu
      subst hu
      rw [checkErr, stopIf_ok] at h
      rw [← h.2]
    · rw [checkErr, stopIf_ok] at h
      rw [← h.2]

theorem classifyDescriptor_id (type : Buf 12) (d : CredentialDescriptor) :
    (classifyDescriptor type d).credential = d.credential := by
  unfold classifyDescriptor
  split
  · split <;> rfl
  · rfl

theorem parseCredentialType_id {s t : CredentialDescriptor} {v : env.reader.Cursor}
    (h : parseCredentialType env v s = (.ok (), t)) : t.credential = s.credential := by
  unfold parseCredentialType at h
  dsimp only at h
  split at h
  · rw [modify_ok] at h
    rw [← h, classifyDescriptor_id]
  · rw [bind_ok] at h
    obtain ⟨_, u, hu, h⟩ := h
    obtain ⟨-, rfl⟩ := stopIf_ok.mp hu
    rw [modify_ok] at h
    rw [← h, classifyDescriptor_id]

theorem onVal_ok {τ α : Type} {m : Parse τ α} {a : α} {s t : WithCustom τ}
    (h : onVal m s = (.ok a, t)) : m s.val = (.ok a, t.val) ∧ t.custom = s.custom := by
  rw [onVal, zoom_ok] at h
  obtain ⟨u, hu, rfl⟩ := h
  exact ⟨hu, rfl⟩

theorem parseCredentialDescriptor_id {s t : WithCustom CredentialDescriptor} {v : env.reader.Cursor}
    (h : parseCredentialDescriptor env v s = (.ok (), t)) :
    env.reader.getType v = .map ∧
      t.val.credential.id = s.val.credential.id.writeAll (descriptorCopies env v) := by
  unfold parseCredentialDescriptor at h
  simp only [bind_ok, stopIf_ok, checkRet_ok] at h
  obtain ⟨_, s₁, h₁, _, _, ⟨htype, rfl⟩, id, _, ⟨hfind, rfl⟩, _, _, ⟨-, rfl⟩, _, s₂, hid, _, _,
    ⟨-, rfl⟩, _, _, ⟨-, rfl⟩, hlast⟩ := h
  refine ⟨not_not.mp htype, ?_⟩
  have h₁ := (onVal_ok h₁).1
  rw [modify_ok] at h₁
  rw [parseCredentialType_id (onVal_ok hlast).1, parseCredentialId_id hid, ← h₁, descriptorCopies,
    hfind]
  rfl

/-- The values of an entry are of the types that its copies are made from. -/
structure EntryRead (entry : env.reader.Cursor × env.reader.Cursor) : Prop where
  hash : env.reader.getInt entry.1 = 1 → ∃ cap, (env.reader.copyByteString entry.2 cap).err = 0
  id : env.reader.getInt entry.1 = 2 → env.reader.getType entry.2 = .map

/-- What the entries of a map do to the parameters: they make their copies and
leave the rest. -/
structure EntriesFilled (sz : ℕ) (entries : List (env.reader.Cursor × env.reader.Cursor))
    (s t : CredMgmt) : Prop where
  hash : t.rpIdHash = s.rpIdHash.writeAll (hashCopies env sz entries)
  id : t.credentialDescriptor.credential.id =
    s.credentialDescriptor.credential.id.writeAll (idCopies env entries)
  rest : t = { s with rpIdHash := t.rpIdHash, credentialDescriptor := t.credentialDescriptor }
  read : ∀ entry ∈ entries, EntryRead entry

variable {c : env.reader.Cursor} {sz n : ℕ}

/-- One entry, and the room it leaves for the next rpIdHash. -/
theorem parseSubCommandParam_filled {r : env.reader.Cursor × ℕ}
    (h : parseSubCommandParam env (c, sz) s = (.ok r, t)) :
    ∃ v, env.reader.advance c = .ok v ∧ env.reader.advance v = .ok r.1 ∧
      EntriesFilled sz [(c, v)] s.val t.val ∧
      ∀ entries, hashCopies env sz ((c, v) :: entries) =
        hashCopies env sz [(c, v)] ++ hashCopies env r.2 entries := by
  unfold parseSubCommandParam at h
  simp only [bind_ok, stopIf_ok, checkRet_ok] at h
  obtain ⟨_, _, ⟨-, rfl⟩, v, _, ⟨hv, rfl⟩, sz', u, hu, c', _, ⟨hc', rfl⟩, hr⟩ := h
  obtain ⟨rfl, rfl⟩ := pure_ok.mp hr
  refine ⟨v, hv, hc', ?_⟩
  by_cases h₁ : env.reader.getInt c = 1
  · rw [if_pos h₁] at hu
    simp only [bind_ok, stopIf_ok, checkErr, pure_ok] at hu
    obtain ⟨_, w, hw, _, _, ⟨-, rfl⟩, _, _, ⟨herr, rfl⟩, rfl, rfl⟩ := hu
    have hw := (onVal_ok hw).1
    rw [modify_ok] at hw
    have hne : ¬ env.reader.getInt c = 2 := by omega
    refine ⟨⟨?_, ?_, ?_, ?_⟩, fun entries => ?_⟩
    · rw [← hw, hashCopies, if_pos h₁]
      rfl
    · rw [← hw, idCopies, List.flatMap_cons, if_neg hne]
      rfl
    · rw [← hw]
    · intro entry hentry
      rw [List.mem_singleton.mp hentry]
      exact ⟨fun _ => ⟨sz, not_not.mp herr⟩, fun h₂ => absurd h₂ hne⟩
    · rw [hashCopies, hashCopies, if_pos h₁, if_pos h₁]
      rfl
  by_cases h₂ : env.reader.getInt c = 2
  · rw [if_neg h₁, if_pos h₂] at hu
    simp only [bind_ok, mapStop_ok, pure_ok] at hu
    obtain ⟨_, w, hw, rfl, rfl⟩ := hu
    obtain ⟨d, hd, rfl⟩ := zoom_ok.mp hw
    obtain ⟨htype, hid⟩ := parseCredentialDescriptor_id hd
    refine ⟨⟨?_, ?_, rfl, ?_⟩, fun entries => ?_⟩
    · rw [hashCopies, if_neg h₁]
      rfl
    · rw [idCopies, List.flatMap_cons, if_pos h₂, List.flatMap_nil, List.append_nil]
      exact hid
    · intro entry hentry
      rw [List.mem_singleton.mp hentry]
      exact ⟨fun h => absurd h h₁, fun _ => htype⟩
    · rw [hashCopies, hashCopies, if_neg h₁, if_neg h₁]
      rfl
  · rw [if_neg h₁, if_neg h₂] at hu
    exact (stop_ok.mp hu).elim

theorem parseSubCommandParams_filled {r : env.reader.Cursor × ℕ}
    (h : forEntries n (parseSubCommandParam env) (c, sz) s = (.ok r, t)) :
    ∃ entries, env.reader.walk n c = .ok (entries, r.1) ∧ EntriesFilled sz entries s.val t.val := by
  induction n generalizing c sz s with
  | zero =>
      obtain ⟨rfl, rfl⟩ := pure_ok.mp h
      exact ⟨[], rfl, rfl, rfl, rfl, (fun _ hentry => nomatch hentry)⟩
  | succ n ih =>
      rw [forEntries, bind_ok] at h
      obtain ⟨⟨c', sz'⟩, u, hu, h⟩ := h
      obtain ⟨v, hv, hc', hfirst, hroom⟩ := parseSubCommandParam_filled hu
      obtain ⟨entries, hwalk, hrest⟩ := ih h
      refine ⟨(c, v) :: entries, CborReader.walk_succ.mpr ⟨v, c', entries, hv, hc', hwalk, rfl⟩, ?_, ?_, ?_, ?_⟩
      · rw [hrest.hash, hfirst.hash, Buf.writeAll_append, ← hroom]
      · rw [hrest.id, hfirst.id, Buf.writeAll_append, idCopies, idCopies, ← List.flatMap_append]
        rfl
      · rw [hrest.rest, hfirst.rest]
      · exact List.forall_mem_cons.mpr ⟨hfirst.read _ (List.mem_singleton_self _), hrest.read⟩

/-- A parameter map of the request that was read to its end. -/
def MapRead (env : Env) (At : List UInt8 → env.reader.Cursor → ℕ → Prop) (request : List UInt8)
    (v : env.reader.Cursor) : Prop :=
  ∃ k map length entries e, At request v (k + 1) ∧ env.reader.getType v = .map ∧
    env.reader.enterContainer v = .ok map ∧ env.reader.getMapLength v = .ok length ∧
    env.reader.walk length map = .ok (entries, e) ∧ ∀ entry ∈ entries, EntryRead entry

variable {At : List UInt8 → env.reader.Cursor → ℕ → Prop} {v e : env.reader.Cursor} {k : ℕ}

theorem map_of_walk {map : env.reader.Cursor} {entries : List (env.reader.Cursor × env.reader.Cursor)}
    (hmap : env.reader.enterContainer v = .ok map) (hlength : env.reader.getMapLength v = .ok n)
    (hwalk : env.reader.walk n map = .ok (entries, e)) :
    mapCopies env v = (hashCopies env 32 entries, idCopies env entries) ∧
      mapBytes env request v = recordedBytes env request map e := by
  have hentries : paramEntries env v = .ok (map, entries, e) := by
    simp only [paramEntries, hmap, hlength, hwalk, bind, Except.bind, pure, Except.pure]
  rw [mapCopies, mapBytes, hentries]
  exact ⟨rfl, rfl⟩

/-- A parameter map fills the parameters and records its bytes. -/
theorem parseCredMgmtSubcommandparams_filled (hR : env.reader.InOrder At)
    (hv : At request v (k + 1))
    (h : parseCredMgmtSubcommandparams env request v s = (.ok (), t)) :
    MapRead env At request v ∧ t.val.fields = s.val.fields.fill env request v ∧
      t.val.cmd = s.val.cmd ∧ t.val.hashedCmd = s.val.hashedCmd := by
  unfold parseCredMgmtSubcommandparams at h
  simp only [bind_ok, stopIf_ok, checkRet_ok] at h
  obtain ⟨_, _, ⟨htype, rfl⟩, map, _, ⟨hmap, rfl⟩, length, _, ⟨hlength, rfl⟩, ⟨e, sz⟩, u, hu, _, _,
    ⟨hsize, rfl⟩, ht⟩ := h
  have htype := not_not.mp htype
  obtain ⟨entries, hwalk, hfilled⟩ := parseSubCommandParams_filled hu
  have ht := (onVal_ok ht).1
  rw [modify_ok] at ht
  dsimp only at ht hsize hwalk
  have hcmd : u.val.cmd = s.val.cmd := by rw [hfilled.rest]
  have hhashed : u.val.hashedCmd = s.val.hashedCmd := by rw [hfilled.rest]
  refine ⟨⟨k, map, length, entries, e, hv, htype, hmap, hlength, hwalk, hfilled.read⟩, ?_, ?_, ?_⟩
  · obtain ⟨hat, hlt, hin⟩ := hR.enter hv htype hmap hlength
    obtain ⟨hle, hend⟩ := hR.walk_le hat hin hwalk
    have hcopied : (recordedBytes env request map e).length =
        env.reader.getNextByte e - (env.reader.getNextByte map - 1) := by
      rw [recordedBytes, List.length_take, List.length_drop]
      omega
    have hrecorded := @Buf.slice_written _ u.val.subCommandParamsCborCopy 0 _ _ hcopied (by omega)
    obtain ⟨hcopies, hbytes⟩ := @map_of_walk _ request _ _ _ _ _ hmap hlength hwalk
    rw [Fields.fill, hcopies, hbytes, ← ht]
    simp only [CredMgmt.fields, Fields.mk.injEq]
    exact ⟨hfilled.hash, hfilled.id, hrecorded⟩
  · rw [← ht]
    exact hcmd
  · rw [← ht]
    exact hhashed

theorem intKey_ok {τ : Type} {code : UInt8} {key : ℤ} {s t : τ}
    (h : intKey env code c s = (.ok (key, v), t)) :
    env.reader.getIntChecked c = .ok key ∧ env.reader.advance c = .ok v ∧ t = s := by
  unfold intKey at h
  simp only [bind_ok, stopIf_ok, checkRet_ok, pure_ok] at h
  obtain ⟨_, _, ⟨-, rfl⟩, key', _, ⟨hkey, rfl⟩, v', _, ⟨hv, rfl⟩, hpair, rfl⟩ := h
  obtain ⟨rfl, rfl⟩ := Prod.mk.inj hpair
  exact ⟨hkey, hv, rfl⟩

/-- The command that is hashed is the low byte of the command. -/
def CredMgmt.CommandHashed (cm : CredMgmt) : Prop := cm.hashedCmd = UInt8.ofInt cm.cmd

/-- One parameter of a request. -/
theorem parseCmParameter_filled (hR : env.reader.InOrder At) (hv : At request v (k + 1)) {key : ℤ}
    (h : parseCmParameter env request key v s = (.ok (), t)) :
    t.val.fields = (if key = 2 then s.val.fields.fill env request v else s.val.fields) ∧
      (s.val.CommandHashed → t.val.CommandHashed) ∧ (key = 2 → MapRead env At request v) := by
  unfold parseCmParameter at h
  by_cases h₁ : key = 1
  · rw [if_pos h₁] at h
    rw [if_neg (show ¬ key = 2 by omega)]
    have h := (onVal_ok h).1
    simp only [bind_ok, parseInt, stopIf_ok, checkRet_ok, modify_ok] at h
    obtain ⟨cmd, _, ⟨_, _, ⟨-, rfl⟩, -, rfl⟩, ht⟩ := h
    rw [← ht]
    exact ⟨rfl, fun _ => rfl, fun h₂ => by omega⟩
  by_cases h₂ : key = 2
  · rw [if_neg h₁, if_pos h₂, mapStop_ok] at h
    obtain ⟨hread, hfields, hcmd, hhashed⟩ := parseCredMgmtSubcommandparams_filled hR hv h
    rw [if_pos h₂]
    refine ⟨hfields, fun hs => ?_, fun _ => hread⟩
    rw [CredMgmt.CommandHashed, hcmd, hhashed]
    exact hs
  rw [if_neg h₁, if_neg h₂] at h
  rw [if_neg h₂]
  have hsame : t.val.fields = s.val.fields ∧ t.val.cmd = s.val.cmd ∧
      t.val.hashedCmd = s.val.hashedCmd := by
    split_ifs at h
    · have h := (onVal_ok h).1
      simp only [bind_ok, parseInt, stopIf_ok, checkRet_ok, modify_ok] at h
      obtain ⟨_, _, ⟨_, _, ⟨-, rfl⟩, -, rfl⟩, ht⟩ := h
      rw [← ht]
      exact ⟨rfl, rfl, rfl⟩
    · have h := (onVal_ok h).1
      simp only [bind_ok, modify_ok, zoom_ok] at h
      obtain ⟨_, _, ⟨_, -, rfl⟩, ht⟩ := h
      rw [← ht]
      exact ⟨rfl, rfl, rfl⟩
    · obtain ⟨-, rfl⟩ := pure_ok.mp h
      exact ⟨rfl, rfl, rfl⟩
  obtain ⟨hfields, hcmd, hhashed⟩ := hsame
  refine ⟨hfields, fun hs => ?_, fun h => absurd h h₂⟩
  rw [CredMgmt.CommandHashed, hcmd, hhashed]
  exact hs

theorem mapsOf_cons {key : ℤ} (hkey : env.reader.getIntChecked c = .ok key)
    (entries : List (env.reader.Cursor × env.reader.Cursor)) :
    mapsOf env ((c, v) :: entries) =
      if key = 2 then v :: mapsOf env entries else mapsOf env entries := by
  rw [mapsOf, List.filterMap_cons]
  dsimp only
  rw [hkey]
  by_cases h₂ : key = 2
  · rw [if_pos h₂, if_pos (congrArg _ h₂)]
    rfl
  · rw [if_neg h₂, if_neg fun h => h₂ (Except.ok.inj h)]
    rfl

/-- The parameters of a request, from here on. -/
theorem parseCmParameters_filled (hR : env.reader.InOrder At) (hc : At request c (2 * n))
    (h : forEntries n (fun map => do
      let (key, map) ← intKey env ctap2ErrInvalidCborType map
      parseCmParameter env request key map
      checkRet (env.reader.advance map)) c s = (.ok e, t)) :
    ∃ entries, env.reader.walk n c = .ok (entries, e) ∧
      t.val.fields = (mapsOf env entries).foldl (Fields.fill env request) s.val.fields ∧
      (s.val.CommandHashed → t.val.CommandHashed) ∧
      ∀ v ∈ mapsOf env entries, MapRead env At request v := by
  induction n generalizing c s with
  | zero =>
      obtain ⟨rfl, rfl⟩ := pure_ok.mp h
      exact ⟨[], rfl, rfl, id, fun _ hv => nomatch hv⟩
  | succ n ih =>
      rw [forEntries, bind_ok] at h
      obtain ⟨c', u, hu, h⟩ := h
      rw [bind_ok] at hu
      obtain ⟨⟨key, v⟩, s', hkey, hu⟩ := hu
      obtain ⟨hgot, hv, rfl⟩ := intKey_ok hkey
      rw [bind_ok] at hu
      obtain ⟨_, u', hparam, hu⟩ := hu
      obtain ⟨hc', rfl⟩ := checkRet_ok.mp hu
      have hatv := (hR.advance (k := 2 * n + 1) hc hv).1
      have hatc := (hR.advance hatv hc').1
      obtain ⟨hfields, hhashed, hread⟩ := parseCmParameter_filled hR hatv hparam
      obtain ⟨entries, hwalk, hrest, hhashed', hread'⟩ := ih hatc h
      refine ⟨(c, v) :: entries, CborReader.walk_succ.mpr ⟨v, c', entries, hv, hc', hwalk, rfl⟩, ?_,
        fun hs => hhashed' (hhashed hs), ?_⟩
      · rw [hrest, hfields, mapsOf_cons hgot]
        split <;> rfl
      · rw [mapsOf_cons hgot]
        split
        · exact List.forall_mem_cons.mpr ⟨hread ‹_›, hread'⟩
        · exact hread'

instance (key : ℤ) : NeverSays 0 (parseCmParameter env request key v) := by
  unfold parseCmParameter
  infer_instance

/-- The parser stops with an error, so what it accepts was read to the end. -/
theorem neverSays_ctapParseCredMgmt : NeverSays 0 (ctapParseCredMgmt env request) := by
  have hmap : NeverSays 0 (requestMap env (fun _ => ctap2ErrCborParsing) ctap2ErrInvalidCborType
      request : Parse (WithCustom CredMgmt) _) := by
    unfold requestMap
    refine Never.seq (Never.ofExcept ?_) fun it => inferInstance
    cases env.reader.parserInit request with
    | error e =>
        exact fun h => absurd (Except.error.inj h) (by decide : ctap2ErrCborParsing ≠ 0)
    | ok it => exact fun h => nomatch h
  unfold ctapParseCredMgmt
  infer_instance

theorem parsedManagement_ok {a : Authenticator} {cm : CredMgmt}
    (h : parsedManagement env a request = some cm) :
    ∃ custom, ctapParseCredMgmt env request ⟨default, a.gas.custom⟩ = (.ok (), ⟨cm, custom⟩) := by
  have hne := (@neverSays_ctapParseCredMgmt env request).ne ⟨default, a.gas.custom⟩
  unfold parsedManagement parsedWithCustom withCustom at h
  rw [bind_apply] at h
  dsimp only at h
  rcases hr : ctapParseCredMgmt env request ⟨default, a.gas.custom⟩ with ⟨c | u, t⟩ <;> rw [hr] at h hne
  · have hc : c ≠ 0 := fun hc => hne (congrArg _ hc)
    simp only [checkRetr, failIf, stopIf, if_pos hc] at h
    cases h
  · obtain rfl := Option.some.inj h
    exact ⟨t.custom, rfl⟩

/-- What a request that is accepted fills in, map by map. -/
theorem parsedManagement_fields (hR : env.reader.InOrder At) {a : Authenticator} {cm : CredMgmt}
    (h : parsedManagement env a request = some cm) :
    cm.fields = (paramMaps env request).foldl (Fields.fill env request) (default : CredMgmt).fields ∧
      cm.CommandHashed ∧ ∀ v ∈ paramMaps env request, MapRead env At request v := by
  obtain ⟨custom, hparse⟩ := parsedManagement_ok h
  unfold ctapParseCredMgmt at hparse
  rw [bind_ok] at hparse
  obtain ⟨_, s, hs, hparse⟩ := hparse
  have hs := (onVal_ok hs).1
  rw [modify_ok] at hs
  rw [bind_ok] at hparse
  obtain ⟨⟨map, length⟩, s', hmap, hparse⟩ := hparse
  simp only [requestMap, enterMap, bind_ok, ofExcept_ok, stopIf_ok, checkRet_ok, pure_ok] at hmap
  obtain ⟨it, _, ⟨hinit, rfl⟩, _, _, ⟨htype, rfl⟩, map', _, ⟨hmap, rfl⟩, length', _,
    ⟨hlength, rfl⟩, hpair, rfl⟩ := hmap
  obtain ⟨rfl, rfl⟩ := Prod.mk.inj hpair
  rw [bind_ok] at hparse
  obtain ⟨e, t, hentries, ht⟩ := hparse
  obtain ⟨-, rfl⟩ := pure_ok.mp ht
  have hinit : env.reader.parserInit request = .ok it := by
    rcases hr : env.reader.parserInit request with c | it' <;> rw [hr] at hinit
    · cases hinit
    · exact congrArg Except.ok (Except.ok.inj hinit)
  have hat := (hR.enter (k := 0) (hR.init hinit) (not_not.mp htype) hmap hlength).1
  obtain ⟨entries, hwalk, hfields, hhashed, hread⟩ := parseCmParameters_filled hR hat hentries
  have hmaps : paramMaps env request = mapsOf env entries := by
    simp only [paramMaps, hinit, hmap, hlength, hwalk, bind, Except.bind]
  rw [hmaps]
  rw [← hs] at hfields hhashed
  have hzero : (default : CredMgmt).CommandHashed := (by decide : (0 : UInt8) = UInt8.ofInt 0)
  exact ⟨hfields, hhashed hzero, hread⟩

end Parser

/-! ### Two requests -/

/-- The bytes that the pinAuth of a command is made from. -/
def CredMgmt.hashInput (cm : CredMgmt) : List UInt8 := cm.hashed.take (cm.subCommandParamsCborSize + 1)

/-- Both act on the same: the same command, the same relying party that is
searched, the same credential that is deleted. -/
structure SameEffect (cm cm' : CredMgmt) : Prop where
  cmd : cm.cmd = cm'.cmd
  hash : cm.cmd = cmCmdRKBegin → cm.rpIdHash = cm'.rpIdHash
  id : cm.cmd = cmCmdRKDelete →
    cm.credentialDescriptor.credential.id = cm'.credentialDescriptor.credential.id

/-- What the parameter maps of a request leave before the last one. -/
def leftBefore (request : List UInt8) : Fields :=
  (paramMaps env request).dropLast.foldl (Fields.fill env request) (default : CredMgmt).fields

/-- What the last parameter map copies to the rpIdHash and to the credential
id. -/
def lastCopies (request : List UInt8) : List (List UInt8) × List (List UInt8) :=
  ((paramMaps env request).getLast?.map (mapCopies env)).getD ([], [])

/-- The bytes that the last parameter map does not write to, as the others
left them. -/
def hashLeft (request : List UInt8) : List UInt8 :=
  (leftBefore env request).hash.bytes.drop (Buf.reach (lastCopies env request).1)

def idLeft (request : List UInt8) : List UInt8 :=
  (leftBefore env request).id.bytes.drop (Buf.reach (lastCopies env request).2)

/-- The last parameter maps find the same where they do not write, as far as the
command uses it. -/
structure LeavesSame (cmd : ℤ) (r r' : List UInt8) : Prop where
  hash : cmd = cmCmdRKBegin → hashLeft env r = hashLeft env r'
  id : cmd = cmCmdRKDelete → idLeft env r = idLeft env r'

section Two

variable {env} {At : List UInt8 → env.reader.Cursor → ℕ → Prop} {r r' : List UInt8}
  {v v' : env.reader.Cursor} {es fs : List (env.reader.Cursor × env.reader.Cursor)}

theorem CredMgmt.hashInput_eq (cm : CredMgmt) :
    cm.hashInput = cm.hashedCmd :: cm.fields.recorded := rfl

/-- The effect is what the request does behind the check of its pinAuth. -/
theorem SameEffect.carriedOut {cm cm' : CredMgmt} (h : SameEffect cm cm') (w : Writer) :
    credMgmtCarriedOut env w cm = credMgmtCarriedOut env w cm' := by
  obtain ⟨hcmd, hhash, hid⟩ := h
  have hprepare : credMgmtPrepare cm = credMgmtPrepare cm' := by
    unfold credMgmtPrepare
    rw [← hcmd]
    by_cases hbegin : cm.cmd = cmCmdRKBegin
    · rw [hhash hbegin]
    · simp only [if_neg hbegin]
  unfold credMgmtCarriedOut
  rw [hprepare, ← hcmd]
  by_cases hdelete : cm.cmd = cmCmdRKDelete
  · have hsame : credMgmtDelete w cm = credMgmtDelete w cm' := by
      unfold credMgmtDelete
      rw [hid hdelete]
    rw [hsame]
  · simp only [if_neg hdelete]

/-- Entries that read the same make the same copies. -/
theorem hashCopies_congr (h : List.Forall₂ (CborReader.SameEntry env.reader) es fs)
    (hread : ∀ x ∈ es, env.reader.getInt x.1 = 1 → env.reader.getType x.2 = .byteString) (sz : ℕ) :
    hashCopies env sz es = hashCopies env sz fs := by
  induction h generalizing sz with
  | nil => rfl
  | @cons x y es fs hxy _ ih =>
      obtain ⟨hx, hes⟩ := List.forall_mem_cons.mp hread
      rw [hashCopies, hashCopies, hxy.1.getInt] at *
      by_cases h₁ : env.reader.getInt y.1 = 1
      · rw [if_pos h₁, if_pos h₁, hxy.2.copyByteString (hx h₁), ih hes]
      · rw [if_neg h₁, if_neg h₁, ih hes]

theorem descriptorCopies_congr {c d : env.reader.Cursor} (h : env.reader.SameItem c d)
    (htype : env.reader.getType c = .map) : descriptorCopies env c = descriptorCopies env d := by
  have hfind := h.mapFindValue htype (Bytes.ascii "id")
  unfold descriptorCopies
  rcases hc : env.reader.mapFindValue c (Bytes.ascii "id") with x | id <;>
    rcases hd : env.reader.mapFindValue d (Bytes.ascii "id") with y | id' <;>
    simp only [hc, hd, Except.map, reduceCtorEq] at hfind ⊢
  rw [Except.ok.inj hfind]

theorem idCopies_congr (h : List.Forall₂ (CborReader.SameEntry env.reader) es fs)
    (hread : ∀ x ∈ es, env.reader.getInt x.1 = 2 → env.reader.getType x.2 = .map) :
    idCopies env es = idCopies env fs := by
  induction h with
  | nil => rfl
  | @cons x y es fs hxy _ ih =>
      obtain ⟨hx, hes⟩ := List.forall_mem_cons.mp hread
      have ih := ih hes
      rw [idCopies, idCopies] at *
      rw [List.flatMap_cons, List.flatMap_cons, ih, hxy.1.getInt]
      rw [hxy.1.getInt] at hx
      by_cases h₂ : env.reader.getInt y.1 = 2
      · rw [if_pos h₂, if_pos h₂, descriptorCopies_congr hxy.2 (hx h₂)]
      · rw [if_neg h₂, if_neg h₂]

/-- A map takes up bytes, and its end lies in the request. -/
theorem MapRead.recorded (hR : env.reader.InOrder At) (hv : MapRead env At r v) :
    ∃ map n es e, At r map (2 * n) ∧ env.reader.getNextByte map ≤ r.length ∧
      env.reader.walk n map = .ok (es, e) ∧
      mapCopies env v = (hashCopies env 32 es, idCopies env es) ∧
      mapBytes env r v = recordedBytes env r map e ∧
      (mapBytes env r v).length = env.reader.getNextByte e - env.reader.getNextByte map + 1 ∧
      0 < env.reader.getNextByte map ∧
      (∀ x ∈ es, env.reader.getInt x.1 = 1 → env.reader.getType x.2 = .byteString) ∧
      ∀ x ∈ es, env.reader.getInt x.1 = 2 → env.reader.getType x.2 = .map := by
  obtain ⟨k, map, n, es, e, hat, htype, hmap, hlength, hwalk, hread⟩ := hv
  obtain ⟨hatmap, hlt, hin⟩ := hR.enter hat htype hmap hlength
  obtain ⟨hle, hend⟩ := hR.walk_le hatmap hin hwalk
  obtain ⟨hcopies, hbytes⟩ := @map_of_walk _ r _ _ _ _ _ hmap hlength hwalk
  refine ⟨map, n, es, e, hatmap, hin, hwalk, hcopies, hbytes, ?_, by omega, fun x hx h₁ => ?_,
    fun x hx h₂ => (hread x hx).id h₂⟩
  · rw [hbytes, recordedBytes, List.length_take, List.length_drop]
    omega
  · obtain ⟨l, hatx⟩ := hR.walk_at hatmap hwalk x hx
    obtain ⟨cap, herr⟩ := (hread x hx).hash h₁
    exact hR.copy hatx herr

/-- Maps that are recorded as the same bytes make the same copies. -/
theorem mapCopies_congr (hR : env.reader.InOrder At) (hv : MapRead env At r v)
    (hv' : MapRead env At r' v') (h : mapBytes env r v = mapBytes env r' v') :
    mapCopies env v = mapCopies env v' := by
  obtain ⟨map, n, es, e, hat, hin, hwalk, hcopies, hbytes, hlength, hpos, hstring, hmap⟩ :=
    hv.recorded hR
  obtain ⟨map', n', es', e', hat', hin', hwalk', hcopies', hbytes', hlength', hpos', -, -⟩ :=
    hv'.recorded hR
  have hle := (hR.walk_le hat hin hwalk).1
  have hle' := (hR.walk_le hat' hin' hwalk').1
  have hlen : env.reader.getNextByte e - env.reader.getNextByte map =
      env.reader.getNextByte e' - env.reader.getNextByte map' := by
    rw [h, hlength'] at hlength
    omega
  -- the first of the bytes belongs to the head of the map, the others to its entries
  have htail := congrArg (List.drop 1) h
  rw [hbytes, hbytes', recordedBytes, recordedBytes, List.drop_take, List.drop_take, List.drop_drop,
    List.drop_drop, Nat.sub_add_cancel hpos, Nat.sub_add_cancel hpos'] at htail
  rw [show env.reader.getNextByte e - (env.reader.getNextByte map - 1) - 1 =
      env.reader.getNextByte e - env.reader.getNextByte map by omega,
    show env.reader.getNextByte e' - (env.reader.getNextByte map' - 1) - 1 =
      env.reader.getNextByte e - env.reader.getNextByte map by omega] at htail
  have hsame := hR.walk_same hat hat' hin hin' hwalk hwalk' hlen htail
  rw [hcopies, hcopies', hashCopies_congr hsame hstring, idCopies_congr hsame hmap]

/-- The fields of a request that ends with this parameter map. -/
theorem fields_of_last (hR : env.reader.InOrder At) {cm : CredMgmt} {a : Authenticator}
    {maps : List env.reader.Cursor} (h : parsedManagement env a r = some cm)
    (hmaps : paramMaps env r = maps ++ [v]) :
    cm.fields = (leftBefore env r).fill env r v ∧ lastCopies env r = mapCopies env v ∧
      MapRead env At r v := by
  obtain ⟨hfields, -, hread⟩ := parsedManagement_fields hR h
  rw [lastCopies, leftBefore, hmaps, List.dropLast_concat, List.getLast?_concat]
  rw [hmaps, List.foldl_concat] at hfields
  rw [hmaps] at hread
  exact ⟨hfields, rfl, hread v (List.mem_append_right _ (List.mem_singleton_self v))⟩

/-- A request without parameters records nothing, one with parameters does. -/
theorem paramMaps_eq_nil_iff (hR : env.reader.InOrder At) {cm : CredMgmt} {a : Authenticator}
    (h : parsedManagement env a r = some cm) : paramMaps env r = [] ↔ cm.fields.recorded = [] := by
  rcases List.eq_nil_or_concat' (paramMaps env r) with hmaps | ⟨maps, v, hmaps⟩
  · refine iff_of_true hmaps ?_
    rw [(parsedManagement_fields hR h).1, hmaps]
    rfl
  · obtain ⟨hfields, -, hread⟩ := fields_of_last hR h hmaps
    refine iff_of_false (by rw [hmaps]; exact List.concat_ne_nil v maps) fun hnil => ?_
    obtain ⟨_, _, _, _, _, _, _, _, _, hlength, _⟩ := hread.recorded hR
    rw [hfields] at hnil
    have hzero := congrArg List.length hnil
    rw [show (Fields.fill env r (leftBefore env r) v).recorded = mapBytes env r v from rfl,
      hlength] at hzero
    exact nomatch hzero

/-- Of requests with the same hash input, the fields are the same if and only
if they were left the same where the last parameter map does not write. -/
theorem fields_eq_iff (hR : env.reader.InOrder At) {cm cm' : CredMgmt} {a : Authenticator}
    (h : parsedManagement env a r = some cm) (h' : parsedManagement env a r' = some cm')
    (hinput : cm.hashInput = cm'.hashInput) :
    (cm.rpIdHash = cm'.rpIdHash ↔ hashLeft env r = hashLeft env r') ∧
      (cm.credentialDescriptor.credential.id = cm'.credentialDescriptor.credential.id ↔
        idLeft env r = idLeft env r') := by
  have hrecorded : cm.fields.recorded = cm'.fields.recorded := (List.cons.inj hinput).2
  rcases List.eq_nil_or_concat' (paramMaps env r) with hmaps | ⟨maps, v, hmaps⟩
  · have hnil := (paramMaps_eq_nil_iff hR h).mp hmaps
    have hmaps' := (paramMaps_eq_nil_iff hR h').mpr (hrecorded.symm.trans hnil)
    have hfields := (parsedManagement_fields hR h).1
    have hfields' := (parsedManagement_fields hR h').1
    rw [hmaps] at hfields
    rw [hmaps'] at hfields'
    have hsame := hfields.trans hfields'.symm
    unfold hashLeft idLeft leftBefore lastCopies
    rw [hmaps, hmaps']
    exact ⟨iff_of_true (congrArg Fields.hash hsame) rfl, iff_of_true (congrArg Fields.id hsame) rfl⟩
  · have hne' : paramMaps env r' ≠ [] := fun hnil => by
      have hnil := (paramMaps_eq_nil_iff hR h).mpr (hrecorded.trans ((paramMaps_eq_nil_iff hR h').mp hnil))
      rw [hmaps] at hnil
      exact List.concat_ne_nil v maps hnil
    obtain ⟨maps', v', hmaps'⟩ := (List.eq_nil_or_concat' (paramMaps env r')).resolve_left hne'
    obtain ⟨hfields, hlast, hread⟩ := fields_of_last hR h hmaps
    obtain ⟨hfields', hlast', hread'⟩ := fields_of_last hR h' hmaps'
    rw [hfields, hfields'] at hrecorded
    have hcopies := mapCopies_congr hR hread hread' hrecorded
    have hhash : cm.rpIdHash = (leftBefore env r).hash.writeAll (mapCopies env v).1 :=
      congrArg Fields.hash hfields
    have hhash' : cm'.rpIdHash = (leftBefore env r').hash.writeAll (mapCopies env v).1 := by
      rw [hcopies]
      exact congrArg Fields.hash hfields'
    have hid : cm.credentialDescriptor.credential.id =
        (leftBefore env r).id.writeAll (mapCopies env v).2 := congrArg Fields.id hfields
    have hid' : cm'.credentialDescriptor.credential.id =
        (leftBefore env r').id.writeAll (mapCopies env v).2 := by
      rw [hcopies]
      exact congrArg Fields.id hfields'
    rw [hashLeft, hashLeft, idLeft, idLeft, hlast, hlast', ← hcopies, hhash, hhash', hid, hid']
    exact ⟨Buf.writeAll_eq_iff, Buf.writeAll_eq_iff⟩

end Two

/-- Two requests that come with a pinAuth, are accepted by the parser and have
the same hash input act on the same if and only if, where the last parameter map
does not write to the field that the command uses, the maps before it left the
same. -/
theorem pinAuth_covers_iff {At : List UInt8 → env.reader.Cursor → ℕ → Prop}
    (hR : env.reader.InOrder At) (a : Authenticator) (r r' : List UInt8) (cm cm' : CredMgmt)
    (h : parsedManagement env a r = some cm) (h' : parsedManagement env a r' = some cm')
    (hneeds : cm.NeedsPinAuth) (hneeds' : cm'.NeedsPinAuth) (hinput : cm.hashInput = cm'.hashInput) :
    (SameEffect cm cm' ↔ LeavesSame env cm.cmd r r') ∧
      (SameEffect cm cm' → ∀ w, credMgmtCarriedOut env w cm = credMgmtCarriedOut env w cm') := by
  obtain ⟨hhash, hid⟩ := fields_eq_iff hR h h' hinput
  refine ⟨⟨fun hsame => ?_, fun hleft => ?_⟩, fun hsame w => hsame.carriedOut w⟩
  · exact ⟨fun hcmd => hhash.mp (hsame.hash hcmd), fun hcmd => hid.mp (hsame.id hcmd)⟩
  · have hlow : UInt8.ofInt cm.cmd = UInt8.ofInt cm'.cmd := by
      have h₁ : cm.hashedCmd = UInt8.ofInt cm.cmd := (parsedManagement_fields hR h).2.1
      have h₂ : cm'.hashedCmd = UInt8.ofInt cm'.cmd := (parsedManagement_fields hR h').2.1
      rw [← h₁, ← h₂]
      exact (List.cons.inj hinput).1
    have hcmd : cm.cmd = cm'.cmd := by
      rcases hneeds with hc | hc | hc | hc <;> rcases hneeds' with hc' | hc' | hc' | hc' <;>
        rw [hc, hc'] at hlow ⊢ <;> exact absurd hlow (by decide)
    exact ⟨hcmd, fun hc => hhash.mpr (hleft.hash hc), fun hc => hid.mpr (hleft.id hc)⟩

/-! ### Requests to delete a credential -/

def demoCredential (id : UInt8) : List EncOp :=
  [.createMap 1, .int 2, .createMap 2, .text "id", .byteString [id], .text "type", .text "public-key"]

/-- The command and its parameters, in this order or in the other one. -/
def demoDelete (id : UInt8) : List UInt8 :=
  Sample.encodeOps ([.createMap 2, .int 1, .int cmCmdRKDelete, .int 2] ++ demoCredential id)

def demoDelete' (id : UInt8) : List UInt8 :=
  Sample.encodeOps ([.createMap 2, .int 2] ++ demoCredential id ++ [.int 1, .int cmCmdRKDelete])

/-- The parameters are followed by an empty map of parameters. -/
def demoDeleteTwice (id : UInt8) : List UInt8 :=
  Sample.encodeOps ([.createMap 3, .int 1, .int cmCmdRKDelete, .int 2] ++ demoCredential id ++
    [.int 2, .createMap 0])

/-- Both requests are accepted, with one hash input, and compare like this. -/
def demoCompare (r r' : List UInt8) (same : CredMgmt → CredMgmt → Bool) : Bool :=
  (parsedManagement Sample.env Sample.device r).any fun cm =>
    (parsedManagement Sample.env Sample.device r').any fun cm' =>
      decide (cm.NeedsPinAuth ∧ cm'.NeedsPinAuth ∧ cm.hashInput = cm'.hashInput) && same cm cm'

theorem pinAuth_covers_iff_demo :
    ∃ cm cm', parsedManagement Sample.env Sample.device (demoDelete 1) = some cm ∧
      parsedManagement Sample.env Sample.device (demoDelete' 1) = some cm' ∧ SameEffect cm cm' := by
  have hdemo : demoCompare (demoDelete 1) (demoDelete' 1)
      (fun cm _ => decide (cm.cmd = cmCmdRKDelete)) = true := by
    decide +kernel
  obtain ⟨cm, hcm, hdemo⟩ := (Option.any_eq_true ..).mp hdemo
  obtain ⟨cm', hcm', hdemo⟩ := (Option.any_eq_true ..).mp hdemo
  obtain ⟨hinput, hcmd⟩ := (Bool.and_eq_true ..).mp hdemo
  obtain ⟨hneeds, hneeds', hinput⟩ := of_decide_eq_true hinput
  have hcmd := of_decide_eq_true hcmd
  refine ⟨cm, cm', hcm, hcm', ?_⟩
  refine (pinAuth_covers_iff Sample.env Sample.reader_inOrder Sample.device _ _ cm cm' hcm hcm'
    hneeds hneeds' hinput).1.mpr ⟨fun hbegin => ?_, fun _ => by decide +kernel⟩
  rw [hcmd] at hbegin
  exact absurd hbegin (by decide)

/-- One pinAuth deletes either credential. -/
theorem pinAuth_covers_counterexample :
    ∃ cm cm', parsedManagement Sample.env Sample.device (demoDeleteTwice 1) = some cm ∧
      parsedManagement Sample.env Sample.device (demoDeleteTwice 2) = some cm' ∧
      cm.NeedsPinAuth ∧ cm'.NeedsPinAuth ∧ cm.hashInput = cm'.hashInput ∧ ¬ SameEffect cm cm' := by
  have hdemo : demoCompare (demoDeleteTwice 1) (demoDeleteTwice 2) (fun cm cm' =>
      decide (cm.cmd = cmCmdRKDelete ∧
        cm.credentialDescriptor.credential.id ≠ cm'.credentialDescriptor.credential.id)) = true := by
    decide +kernel
  obtain ⟨cm, hcm, hdemo⟩ := (Option.any_eq_true ..).mp hdemo
  obtain ⟨cm', hcm', hdemo⟩ := (Option.any_eq_true ..).mp hdemo
  obtain ⟨hinput, hdiffer⟩ := (Bool.and_eq_true ..).mp hdemo
  obtain ⟨hneeds, hneeds', hinput⟩ := of_decide_eq_true hinput
  obtain ⟨hcmd, hid⟩ := of_decide_eq_true hdiffer
  exact ⟨cm, cm', hcm, hcm', hneeds, hneeds', hinput, fun hsame => hid (hsame.id hcmd)⟩

end NitrokeyFido2.Ctap
