import NitrokeyFido2.Lib.LastSome
import NitrokeyFido2.Lib.Transition
import NitrokeyFido2.Ctap.Sample

/-!
The keys that are stored in the key space.

`ctap_store_key` and `ctap_load_key` look after a table of lengths and put the keys
one behind the other into `STATE.key_space`. The same array holds, from its first
byte on, the master secret and the transport secret. There is one slot, so of a
sequence of calls the first store that is accepted decides everything: what later
loads give, and what becomes of the secrets.
-/

namespace NitrokeyFido2.Ctap

/-! ### The table of keys -/

abbrev maxKeys : ℕ := 1

/-- `ERR_NO_KEY_SPACE`. -/
def errNoKeySpace : ℤ := -1

/-- `ERR_KEY_SPACE_TAKEN`. -/
def errKeySpaceTaken : ℤ := -2

/-- `ERR_KEY_SPACE_EMPTY`. -/
def errKeySpaceEmpty : ℤ := -2

/-- `key_lens`. -/
def AuthenticatorState.keyTable (s : AuthenticatorState) : List UInt16 := [s.keyLens]

/-- `ctap_keys_stored`. -/
def ctapKeysStored (s : AuthenticatorState) : ℕ := (s.keyTable.takeWhile (· ≠ 0xffff)).length

/-- `key_addr_offset`. -/
def keyAddrOffset (s : AuthenticatorState) (index : ℕ) : UInt16 :=
  (s.keyTable.take index).foldl (fun offset len => if len ≠ 0xffff then offset + len else offset) 0

/-- `ctap_key_len`. -/
def ctapKeyLen (s : AuthenticatorState) (index : UInt8) : UInt16 :=
  if ctapKeysStored s ≤ index.toNat ∨ maxKeys ≤ index.toNat then 0
  else if s.keyTable.getD index.toNat 0 = 0xffff then 0
  else s.keyTable.getD index.toNat 0

/-- `ctap_store_key`, or the code it returns. -/
def ctapStoreKey (index : UInt8) (key : List UInt8) : Device (Except ℤ Unit) := do
  let a ← Proc.get
  if maxKeys ≤ ctapKeysStored a.state ∨ maxKeys ≤ index.toNat ∨ key.length = 0 then
    pure (.error errNoKeySpace)
  else if a.state.keyTable.getD index.toNat 0 ≠ 0xffff then
    pure (.error errKeySpaceTaken)
  else
    let offset := keyAddrOffset a.state index.toNat
    if keySpaceBytes < offset.toNat + key.length then
      pure (.error errNoKeySpace)
    else do
      -- the table has the one entry
      modifyState fun s => { s with keyLens := UInt16.ofNat key.length }
      modifyState fun s => { s with keySpace := s.keySpace.write offset.toNat key }
      ctapFlushState
      pure (.ok ())

/-- `ctap_load_key`: the bytes it copies, or the code it returns. -/
def ctapLoadKey (index : UInt8) : Device (Except ℤ (List UInt8)) := do
  let a ← Proc.get
  if ctapKeysStored a.state ≤ index.toNat ∨ maxKeys ≤ index.toNat then
    pure (.error errNoKeySpace)
  else if a.state.keyTable.getD index.toNat 0 = 0xffff then
    pure (.error errKeySpaceEmpty)
  else
    let offset := keyAddrOffset a.state index.toNat
    let len := ctapKeyLen a.state index
    if keySpaceBytes < offset.toNat + len.toNat then
      pure (.error errNoKeySpace)
    else
      pure (.ok (a.state.keySpace.slice offset.toNat len.toNat))

/-! ### Sequences of calls -/

inductive KeyCall
  | store (index : UInt8) (key : List UInt8)
  | load (index : UInt8)

namespace KeyCall

/-- A call, with the bytes it gave or the code it returned. -/
def apply : KeyCall → Device (Except ℤ (List UInt8))
  | store index key => do
      let result ← ctapStoreKey index key
      pure (result.map fun _ => [])
  | load index => ctapLoadKey index

def answer (a : Authenticator) (c : KeyCall) : Except Stop (Except ℤ (List UInt8)) := (c.apply a).1

def step (a : Authenticator) (c : KeyCall) : Authenticator := (c.apply a).2

/-- The device behind a sequence of calls. -/
def run (a : Authenticator) (calls : List KeyCall) : Authenticator := Transition.run step a calls

/-- The calls with their answers. -/
def history (a : Authenticator) (calls : List KeyCall) :
    List (KeyCall × Except Stop (Except ℤ (List UInt8))) :=
  Transition.outputs step (fun a c => (c, answer a c)) a calls

/-- What a call has stored at an index. -/
def storedAt (index : UInt8) (c : KeyCall × Except Stop (Except ℤ (List UInt8))) :
    Option (List UInt8) :=
  match c with
  | (store i key, .ok (.ok _)) => if i = index then some key else none
  | _ => none

/-- What the calls last stored at an index. -/
def lastStored (a : Authenticator) (calls : List KeyCall) (index : UInt8) : Option (List UInt8) :=
  lastSome (storedAt index) (history a calls)

/-- A key that fits into the key space, for the one slot. -/
def fitting : KeyCall → Option (List UInt8)
  | store index key =>
      if index = 0 ∧ 0 < key.length ∧ key.length ≤ keySpaceBytes then some key else none
  | load _ => none

/-- The key of the first call that stores one. -/
def firstFitting (a : Authenticator) (calls : List KeyCall) : Option (List UInt8) :=
  if a.state.keyLens = 0xffff then calls.findSome? fitting else none

end KeyCall

/-- The device with a key in its slot. -/
def Authenticator.withKey (a : Authenticator) (key : List UInt8) : Authenticator :=
  let s := { a.state with
    keyLens := UInt16.ofNat key.length
    keySpace := a.state.keySpace.write 0 key }
  { a with state := s, stored := s }

/-- The device runs on the state that its flash holds, and this is one of its own. -/
structure Authenticator.Initialised (a : Authenticator) : Prop where
  stored : a.stored = a.state
  marker : a.state.isInitialized = initializedMarker
  version : a.state.dataVersion = stateVersion

/-- What is expected of the stored keys, along a sequence of calls: a load gives what
was last stored, a call that fails changes nothing, and the secrets remain, also
those that a power-up loads. -/
structure KeysKept (env : Env) (a : Authenticator) (calls : List KeyCall) : Prop where
  loads : ∀ done index rest, calls = done ++ .load index :: rest →
    (KeyCall.load index).answer (KeyCall.run a done) =
      (KeyCall.lastStored a done index).elim ((KeyCall.load index).answer a) fun key => .ok (.ok key)
  failing : ∀ done c rest, calls = done ++ c :: rest →
    (∀ bytes, c.answer (KeyCall.run a done) ≠ .ok (.ok bytes)) →
      c.step (KeyCall.run a done) = KeyCall.run a done
  secrets : ∀ done rest, calls = done ++ rest →
    (KeyCall.run a done).state.keySpace.slice 0 96 = a.state.keySpace.slice 0 96
  reboot : ∀ done rest, calls = done ++ rest →
    ((KeyCall.run a done).reboot env).2.secrets = (a.reboot env).2.secrets

/-! ### What a call does -/

section

variable {a : Authenticator} {key : List UInt8}

theorem ctapKeysStored_eq (s : AuthenticatorState) :
    ctapKeysStored s = if s.keyLens = 0xffff then 0 else 1 := by
  rw [ctapKeysStored, AuthenticatorState.keyTable]
  by_cases h : s.keyLens = 0xffff
  · simp [h]
  · simp [h]

theorem index_eq_zero {index : UInt8} : ¬ maxKeys ≤ index.toNat ↔ index = 0 := by
  rw [← UInt8.toNat_inj, maxKeys, UInt8.toNat_zero]
  omega

/-- A store that is accepted fills the slot. -/
theorem KeyCall.apply_of_fitting {c : KeyCall} (hfree : a.state.keyLens = 0xffff)
    (hc : c.fitting = some key) : c.apply a = (.ok (.ok []), a.withKey key) := by
  cases c with
  | load index => cases hc
  | store index bytes =>
      rw [fitting] at hc
      split at hc
      case isFalse => cases hc
      case isTrue h =>
      obtain rfl := Option.some.inj hc
      obtain ⟨rfl, hpos, hlen⟩ := h
      have htests : ¬ (maxKeys ≤ ctapKeysStored a.state ∨ maxKeys ≤ (0 : UInt8).toNat ∨ bytes.length = 0) := by
        rw [ctapKeysStored_eq, if_pos hfree, not_or, not_or]
        exact ⟨by decide, by decide, hpos.ne'⟩
      have hslot : ¬ a.state.keyTable.getD (0 : UInt8).toNat 0 ≠ 0xffff := not_not.mpr hfree
      have hroom : ¬ keySpaceBytes < (keyAddrOffset a.state (0 : UInt8).toNat).toNat + bytes.length := by
        show ¬ keySpaceBytes < 0 + bytes.length
        rw [Nat.zero_add]
        exact not_lt.mpr hlen
      have hstore : ctapStoreKey 0 bytes a = (.ok (.ok ()), a.withKey bytes) := by
        rw [ctapStoreKey, Proc.get_bind, if_neg htests, if_neg hslot, if_neg hroom]
        rfl
      rw [apply, Proc.bind_of_ok hstore]
      rfl

/-- Every other call leaves the device as it is, and gives bytes only as a load. -/
theorem KeyCall.apply_of_not_fitting {c : KeyCall}
    (h : a.state.keyLens = 0xffff → c.fitting = none) :
    (c.apply a).2 = a ∧ ∀ index, storedAt index (c, (c.apply a).1) = none := by
  cases c with
  | load index =>
      refine ⟨?_, fun _ => rfl⟩
      rw [apply, ctapLoadKey, Proc.get_bind]
      dsimp only
      split_ifs <;> rfl
  | store index bytes =>
      have hrefused : ∃ code, ctapStoreKey index bytes a = (.ok (.error code), a) := by
        rw [ctapStoreKey, Proc.get_bind]
        by_cases htests : maxKeys ≤ ctapKeysStored a.state ∨ maxKeys ≤ index.toNat ∨ bytes.length = 0
        · exact ⟨_, by rw [if_pos htests]; rfl⟩
        rw [if_neg htests]
        -- the slot is free, so the key does not fit
        obtain ⟨hnone, hindex, hlen⟩ : ¬ maxKeys ≤ ctapKeysStored a.state ∧ ¬ maxKeys ≤ index.toNat ∧
            ¬ bytes.length = 0 := by simpa only [not_or] using htests
        have hfree : a.state.keyLens = 0xffff := by
          by_contra hfull
          rw [ctapKeysStored_eq, if_neg hfull] at hnone
          exact hnone le_rfl
        obtain rfl := index_eq_zero.mp hindex
        have hslot : ¬ a.state.keyTable.getD (0 : UInt8).toNat 0 ≠ 0xffff := not_not.mpr hfree
        have hroom : keySpaceBytes < (keyAddrOffset a.state (0 : UInt8).toNat).toNat + bytes.length := by
          show keySpaceBytes < 0 + bytes.length
          have hfit := h hfree
          rw [fitting] at hfit
          split at hfit
          case isTrue => cases hfit
          case isFalse hlong =>
          rw [Nat.zero_add]
          by_contra hroom
          exact hlong ⟨rfl, Nat.pos_of_ne_zero hlen, not_lt.mp hroom⟩
        exact ⟨_, by rw [if_neg hslot, if_pos hroom]; rfl⟩
      obtain ⟨code, hcode⟩ := hrefused
      rw [apply, Proc.bind_of_ok hcode]
      exact ⟨rfl, fun _ => rfl⟩

theorem withKey_keyLens (hkey : key.length ≤ keySpaceBytes) (a : Authenticator) :
    (a.withKey key).state.keyLens ≠ 0xffff := by
  intro h
  have hnat := congrArg UInt16.toNat h
  have hmod : key.length % 65536 = 65535 := by simpa [Authenticator.withKey] using hnat
  rw [keySpaceBytes] at hkey
  omega

/-- A key in its slot is what a load gives. -/
theorem load_withKey (hpos : 0 < key.length) (hkey : key.length ≤ keySpaceBytes) (a : Authenticator) :
    (KeyCall.load 0).answer (a.withKey key) = .ok (.ok key) := by
  have hfull := withKey_keyLens hkey a
  have htests : ¬ (ctapKeysStored (a.withKey key).state ≤ (0 : UInt8).toNat ∨ maxKeys ≤ (0 : UInt8).toNat) := by
    rw [ctapKeysStored_eq, if_neg hfull]
    decide
  have hslot : ¬ (a.withKey key).state.keyTable.getD (0 : UInt8).toNat 0 = 0xffff := hfull
  have hlen : (ctapKeyLen (a.withKey key).state 0).toNat = key.length := by
    rw [ctapKeyLen, if_neg htests, if_neg hslot]
    show (UInt16.ofNat key.length).toNat = key.length
    rw [UInt16.toNat_ofNat', Nat.mod_eq_of_lt]
    rw [keySpaceBytes] at hkey
    omega
  have hroom : ¬ keySpaceBytes < (keyAddrOffset (a.withKey key).state (0 : UInt8).toNat).toNat +
      (ctapKeyLen (a.withKey key).state 0).toNat := by
    rw [hlen]
    show ¬ keySpaceBytes < 0 + key.length
    rw [Nat.zero_add]
    exact not_lt.mpr hkey
  have hslice : (a.withKey key).state.keySpace.slice 0 key.length = key :=
    Buf.slice_write_self (by omega)
  rw [KeyCall.answer, KeyCall.apply, ctapLoadKey, Proc.get_bind, if_neg htests, if_neg hslot,
    if_neg hroom, hlen]
  exact congrArg (fun bytes => Except.ok (Except.ok bytes)) hslice

/-- No index but the first has a slot. -/
theorem load_other {index : UInt8} (h : index ≠ 0) (a : Authenticator) :
    (KeyCall.load index).answer a = .ok (.error errNoKeySpace) := by
  have hindex : maxKeys ≤ index.toNat := not_not.mp (mt index_eq_zero.mp h)
  rw [KeyCall.answer, KeyCall.apply, ctapLoadKey, Proc.get_bind, if_pos (.inr hindex)]
  rfl

/-! ### What a sequence of calls does -/

namespace KeyCall

variable {calls : List KeyCall}

theorem run_append_singleton (a : Authenticator) (calls : List KeyCall) (c : KeyCall) :
    run a (calls ++ [c]) = c.step (run a calls) := by
  rw [run, Transition.run_append]
  rfl

theorem history_append_singleton (a : Authenticator) (calls : List KeyCall) (c : KeyCall) :
    history a (calls ++ [c]) = history a calls ++ [(c, c.answer (run a calls))] := by
  induction calls generalizing a with
  | nil => rfl
  | cons c' calls ih => exact congrArg (_ :: ·) (ih (c'.step a))

theorem lastStored_append_singleton (a : Authenticator) (calls : List KeyCall) (c : KeyCall)
    (index : UInt8) : lastStored a (calls ++ [c]) index =
      (storedAt index (c, c.answer (run a calls))).or (lastStored a calls index) := by
  rw [lastStored, lastStored, history_append_singleton, lastSome_append_singleton]

theorem firstFitting_append_singleton (a : Authenticator) (calls : List KeyCall) (c : KeyCall) :
    firstFitting a (calls ++ [c]) =
      (firstFitting a calls).or (if a.state.keyLens = 0xffff then c.fitting else none) := by
  rw [firstFitting, firstFitting]
  by_cases hfree : a.state.keyLens = 0xffff
  · rw [if_pos hfree, if_pos hfree, if_pos hfree, List.findSome?_append, List.findSome?_cons]
    cases c.fitting <;> rfl
  · rw [if_neg hfree, if_neg hfree, if_neg hfree]
    rfl

theorem fitting_eq_some {c : KeyCall} {key : List UInt8} (h : c.fitting = some key) :
    c = .store 0 key ∧ 0 < key.length ∧ key.length ≤ keySpaceBytes := by
  cases c with
  | load index => cases h
  | store index bytes =>
      rw [fitting] at h
      split at h
      case isFalse => cases h
      case isTrue hfits =>
      obtain rfl := Option.some.inj h
      obtain ⟨rfl, hpos, hlen⟩ := hfits
      exact ⟨rfl, hpos, hlen⟩

theorem firstFitting_eq_some {a : Authenticator} {key : List UInt8}
    (h : firstFitting a calls = some key) :
    a.state.keyLens = 0xffff ∧ 0 < key.length ∧ key.length ≤ keySpaceBytes := by
  rw [firstFitting] at h
  split at h
  case isFalse => cases h
  case isTrue hfree =>
  obtain ⟨c, -, hc⟩ := List.exists_of_findSome?_eq_some h
  exact ⟨hfree, (fitting_eq_some hc).2⟩

/-- A sequence of calls stores the first key that fits into a free slot, and nothing
else; and this is what is stored at the first index. -/
theorem run_eq (a : Authenticator) (calls : List KeyCall) :
    run a calls = (firstFitting a calls).elim a a.withKey ∧
      ∀ index, lastStored a calls index = if index = 0 then firstFitting a calls else none := by
  induction calls using List.reverseRecOn with
  | nil =>
      have hnone : firstFitting a [] = none := by
        rw [firstFitting]
        split <;> rfl
      rw [hnone]
      refine ⟨rfl, fun index => ?_⟩
      split <;> rfl
  | append_singleton calls c ih =>
      obtain ⟨hrun, hlast⟩ := ih
      simp only [run_append_singleton, lastStored_append_singleton, firstFitting_append_singleton]
      cases hfirst : firstFitting a calls with
      | some key =>
          -- the slot is full, and the call changes nothing
          obtain ⟨-, -, hlen⟩ := firstFitting_eq_some hfirst
          rw [hfirst, Option.elim_some] at hrun
          obtain ⟨hstep, hnone⟩ := @apply_of_not_fitting (a.withKey key) c fun hfree =>
            absurd hfree (withKey_keyLens hlen a)
          rw [hrun]
          refine ⟨hstep, fun index => ?_⟩
          rw [answer, hnone, hlast, hfirst]
          rfl
      | none =>
          rw [hfirst, Option.elim_none] at hrun
          rw [hrun]
          by_cases hstores : ∃ key, a.state.keyLens = 0xffff ∧ c.fitting = some key
          · obtain ⟨key, hfree, hc⟩ := hstores
            obtain ⟨rfl, -⟩ := fitting_eq_some hc
            have happly := apply_of_fitting hfree hc
            rw [step, answer, happly, if_pos hfree, hc]
            refine ⟨rfl, fun index => ?_⟩
            rw [hlast, hfirst, storedAt]
            by_cases hindex : index = 0
            · rw [hindex, if_pos rfl, if_pos rfl]
              rfl
            · rw [if_neg hindex, if_neg hindex, if_neg (Ne.symm hindex)]
              rfl
          · have hnot : a.state.keyLens = 0xffff → c.fitting = none := fun hfree =>
              Option.eq_none_iff_forall_ne_some.mpr fun key hkey => hstores ⟨key, hfree, hkey⟩
            obtain ⟨hstep, hnone⟩ := apply_of_not_fitting hnot
            have hrest : (if a.state.keyLens = 0xffff then c.fitting else none) = none := by
              split
              case isTrue hfree => exact hnot hfree
              case isFalse => rfl
            rw [hrest]
            refine ⟨hstep, fun index => ?_⟩
            rw [answer, hnone, hlast, hfirst]
            rfl

end KeyCall

/-! ### The secrets -/

/-- A key over the secrets leaves them as they are if it repeats them. -/
theorem slice_withKey_iff (hkey : key.length ≤ keySpaceBytes) (a : Authenticator) :
    (a.withKey key).state.keySpace.slice 0 96 = a.state.keySpace.slice 0 96 ↔
      key.take 96 = (a.state.keySpace.slice 0 96).take key.length := by
  have hbytes : (a.withKey key).state.keySpace.bytes =
      key ++ a.state.keySpace.bytes.drop key.length := by
    show (a.state.keySpace.write 0 key).bytes = _
    rw [Buf.bytes_write (by omega), Bytes.overwrite, List.take_zero, List.nil_append, Nat.zero_add]
  have hsplit : a.state.keySpace.bytes.take 96 =
      (a.state.keySpace.bytes.take 96).take key.length ++
        (a.state.keySpace.bytes.drop key.length).take (96 - key.length) := by
    rw [List.take_take, ← List.take_append_drop key.length (a.state.keySpace.bytes.take 96),
      List.take_take, List.drop_take]
  have hlen : ((a.state.keySpace.bytes.take 96).take key.length).length = (key.take 96).length := by
    simp only [List.length_take, a.state.keySpace.length_bytes]
    omega
  rw [Buf.slice, Buf.slice, hbytes, List.drop_zero, List.drop_zero, List.take_append]
  constructor
  · intro h
    rw [hsplit] at h
    exact (List.append_inj h hlen.symm).1
  · intro h
    rw [h, ← hsplit]

/-- What a power-up loads from a state of the device. -/
theorem secrets_reboot (env : Env) (h : a.Initialised) :
    (a.reboot env).2.secrets = cryptoLoadMasterSecret a.state.keySpace := by
  have hmarker : a.stored.isInitialized = initializedMarker := by rw [h.stored, h.marker]
  have hversion : a.stored.dataVersion = stateVersion := by rw [h.stored, h.version]
  have hreboot := @reboot_of_initialized env a hmarker hversion
  rw [hreboot, h.stored]
  rfl

theorem Authenticator.Initialised.withKey (h : a.Initialised) (key : List UInt8) :
    (a.withKey key).Initialised := ⟨rfl, h.marker, h.version⟩

/-- Two key spaces with the same first bytes hold the same secrets. -/
theorem cryptoLoadMasterSecret_congr {k k' : Buf keySpaceBytes} (h : k.slice 0 96 = k'.slice 0 96) :
    cryptoLoadMasterSecret k = cryptoLoadMasterSecret k' := by
  have hmaster : ∀ b : Buf keySpaceBytes, b.slice 0 64 = (b.slice 0 96).take 64 := by
    intro b
    rw [Buf.slice, Buf.slice, List.take_take]
    rfl
  have htransport : ∀ b : Buf keySpaceBytes, b.slice 64 32 = (b.slice 0 96).drop 64 := by
    intro b
    rw [Buf.slice, Buf.slice, List.drop_zero, List.drop_take]
  rw [cryptoLoadMasterSecret, cryptoLoadMasterSecret, hmaster, hmaster k', htransport, htransport k', h]

/-- The stored keys do not disturb the secrets if and only if the first key that fits
into a free slot is, as far as it reaches over the secrets, a copy of them. -/
theorem keys_kept_iff (env : Env) {a : Authenticator} (ha : a.Initialised) (calls : List KeyCall) :
    KeysKept env a calls ↔ ∀ key, KeyCall.firstFitting a calls = some key →
      key.take 96 = (a.state.keySpace.slice 0 96).take key.length := by
  constructor
  · intro hkept key hkey
    have hsecrets := hkept.secrets calls [] (List.append_nil calls).symm
    rw [(KeyCall.run_eq a calls).1, hkey, Option.elim_some] at hsecrets
    exact (slice_withKey_iff (KeyCall.firstFitting_eq_some hkey).2.2 a).mp hsecrets
  · intro hcopy
    -- what is stored behind a part of the calls is stored by all of them
    have hpart : ∀ done rest, calls = done ++ rest → ∀ key, KeyCall.firstFitting a done = some key →
        KeyCall.firstFitting a calls = some key := by
      rintro done rest rfl key hkey
      rw [KeyCall.firstFitting] at hkey ⊢
      split at hkey
      case isFalse => cases hkey
      case isTrue hfree => rw [if_pos hfree, List.findSome?_append, hkey]; rfl
    have hsecrets : ∀ done rest, calls = done ++ rest →
        (KeyCall.run a done).state.keySpace.slice 0 96 = a.state.keySpace.slice 0 96 := by
      intro done rest hcalls
      rw [(KeyCall.run_eq a done).1]
      cases hfirst : KeyCall.firstFitting a done with
      | none => rfl
      | some key =>
          exact (slice_withKey_iff (KeyCall.firstFitting_eq_some hfirst).2.2 a).mpr
            (hcopy key (hpart done rest hcalls key hfirst))
    refine ⟨?_, ?_, hsecrets, ?_⟩
    · intro done index rest _
      obtain ⟨hrun, hlast⟩ := KeyCall.run_eq a done
      rw [hrun, hlast]
      by_cases hindex : index = 0
      · rw [if_pos hindex, hindex]
        cases hfirst : KeyCall.firstFitting a done with
        | none => rfl
        | some key =>
            obtain ⟨-, hpos, hlen⟩ := KeyCall.firstFitting_eq_some hfirst
            exact load_withKey hpos hlen a
      · rw [if_neg hindex, load_other hindex, Option.elim_none, load_other hindex]
    · intro done c rest _ hfails
      by_cases hstores : ∃ key, (KeyCall.run a done).state.keyLens = 0xffff ∧ c.fitting = some key
      · obtain ⟨key, hfree, hc⟩ := hstores
        refine absurd ?_ (hfails [])
        rw [KeyCall.answer, KeyCall.apply_of_fitting hfree hc]
      · exact (KeyCall.apply_of_not_fitting fun hfree =>
          Option.eq_none_iff_forall_ne_some.mpr fun key hkey => hstores ⟨key, hfree, hkey⟩).1
    · intro done rest hcalls
      have hdone : (KeyCall.run a done).Initialised := by
        rw [(KeyCall.run_eq a done).1]
        cases KeyCall.firstFitting a done with
        | none => exact ha
        | some key => exact ha.withKey key
      rw [secrets_reboot env hdone, secrets_reboot env ha,
        cryptoLoadMasterSecret_congr (hsecrets done rest hcalls)]

end

/-- A device after its first power-up. -/
def Sample.freshDevice : Authenticator :=
  { Sample.device with
    state := Sample.device.freshState Sample.env
    stored := Sample.device.freshState Sample.env }

theorem Sample.freshDevice_initialised : Sample.freshDevice.Initialised := ⟨rfl, rfl, rfl⟩

/-- A store of the first half of the master secret, and a load of it. -/
theorem keys_kept_iff_copy :
    KeysKept Sample.env Sample.freshDevice
      [.store 0 (Sample.freshDevice.state.keySpace.slice 0 32), .load 0] :=
  (keys_kept_iff Sample.env Sample.freshDevice_initialised _).mpr fun key hkey => by
    have hfirst : KeyCall.firstFitting Sample.freshDevice
        [.store 0 (Sample.freshDevice.state.keySpace.slice 0 32), .load 0] =
          some (Sample.freshDevice.state.keySpace.slice 0 32) := by decide +kernel
    obtain rfl := Option.some.inj (hfirst.symm.trans hkey)
    decide +kernel

/-- A key of one byte takes the place of the first byte of the master secret. -/
theorem keys_kept_one_byte : ¬ KeysKept Sample.env Sample.freshDevice
    [.store 0 [Sample.freshDevice.state.keySpace.byte 0 + 1]] := by
  intro hkept
  have hsecrets := hkept.secrets [.store 0 [Sample.freshDevice.state.keySpace.byte 0 + 1]] [] rfl
  have hfirst : KeyCall.firstFitting Sample.freshDevice
      [.store 0 [Sample.freshDevice.state.keySpace.byte 0 + 1]] =
        some [Sample.freshDevice.state.keySpace.byte 0 + 1] := by decide +kernel
  rw [(KeyCall.run_eq _ _).1, hfirst, Option.elim_some] at hsecrets
  have hcopy := (slice_withKey_iff (by decide) Sample.freshDevice).mp hsecrets
  exact absurd hcopy (by decide +kernel)

end NitrokeyFido2.Ctap
