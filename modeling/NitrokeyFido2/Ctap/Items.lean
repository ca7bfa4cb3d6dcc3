import NitrokeyFido2.Ctap.Parse

/-!
The parsers on data items.

A cursor of the decoder stands at a data item. What its accessors say is a
function of that item (`Reading`), and a cursor that stands at a map leads through
its entries. On such cursors the parsers of the options, of the extensions, of an
hmac-secret request and of a COSE key are functions of the item alone: a map is
gone through entry by entry, and what an entry does depends on nothing else.
-/

namespace NitrokeyFido2.Ctap

/-- The types of what no parser looks into. -/
inductive OtherType
  | array | tag | simple | null | undefined | halfFloat | float | double | invalid

def OtherType.type : OtherType → CborType
  | array => .array
  | tag => .tag
  | simple => .simple
  | null => .null
  | undefined => .undefined
  | halfFloat => .halfFloat
  | float => .float
  | double => .double
  | invalid => .invalid

/-- A data item. -/
inductive Item
  | int (z : ℤ)
  | bytes (b : List UInt8)
  | text (b : List UInt8)
  | bool (b : Bool)
  | map (entries : List (Item × Item))
  | other (type : OtherType)

def Item.type : Item → CborType
  | .int _ => .integer
  | .bytes _ => .byteString
  | .text _ => .textString
  | .bool _ => .boolean
  | .map _ => .map
  | .other type => type.type

/-- What the accessors say about an item. -/
structure Reading where
  getInt : Item → ℤ
  getIntChecked : Item → Except CborError ℤ
  getBoolean : Item → Except CborError Bool
  copyByteString : Item → ℕ → Copied
  copyTextString : Item → ℕ → Copied

/-- The bytes that a copy of a string leaves, a terminating zero where there is
room. -/
def terminated (b : List UInt8) (n : ℕ) : List UInt8 := b ++ if b.length < n then [0] else []

/-- Integers and booleans are read as they are; strings are copied faithfully, and
refused when they do not fit. -/
structure Reading.Faithful (rd : Reading) : Prop where
  int : ∀ z, -2 ^ 31 ≤ z → z < 2 ^ 31 → rd.getInt (.int z) = z ∧ rd.getIntChecked (.int z) = .ok z
  boolean : ∀ b, rd.getBoolean (.bool b) = .ok b
  bytes_fits : ∀ b n, b.length ≤ n → rd.copyByteString (.bytes b) n = ⟨0, b.length, terminated b n⟩
  bytes_long : ∀ b n, n < b.length → (rd.copyByteString (.bytes b) n).err = cborErrorOutOfMemory
  text_fits : ∀ b n, b.length ≤ n → rd.copyTextString (.text b) n = ⟨0, b.length, terminated b n⟩
  text_long : ∀ b n, n < b.length → (rd.copyTextString (.text b) n).err = cborErrorOutOfMemory

section

variable (r : CborReader) (rd : Reading)

/-- The accessors say of the cursor what they say of the item. -/
structure Accesses (c : r.Cursor) (x : Item) : Prop where
  type : r.getType c = x.type
  int : r.getInt c = rd.getInt x
  intChecked : r.getIntChecked c = rd.getIntChecked x
  boolean : r.getBoolean c = rd.getBoolean x
  byteString : ∀ n, r.copyByteString c n = rd.copyByteString x n
  textString : ∀ n, r.copyTextString c n = rd.copyTextString x n

mutual

/-- The cursor stands at the item. -/
inductive Shows : r.Cursor → Item → Prop
  | plain {c : r.Cursor} {x : Item} (h : Accesses r rd c x) (htype : x.type ≠ .map) : Shows c x
  | map {c m : r.Cursor} {es : List (Item × Item)} (h : Accesses r rd c (.map es))
      (henter : r.enterContainer c = .ok m) (hlength : r.getMapLength c = .ok es.length)
      (hentries : Entries m es) : Shows c (.map es)

/-- The cursor stands at the first of the entries of a map. -/
inductive Entries : r.Cursor → List (Item × Item) → Prop
  | nil (c : r.Cursor) : Entries c []
  | cons {c v c' : r.Cursor} {k x : Item} {es : List (Item × Item)} (hkey : Shows c k)
      (hvalue : r.advance c = .ok v) (hx : Shows v x) (hnext : r.advance v = .ok c')
      (hes : Entries c' es) : Entries c ((k, x) :: es)

end

end

section

variable {r : CborReader} {rd : Reading} {τ γ : Type}

theorem Shows.accesses {c : r.Cursor} {x : Item} (h : Shows r rd c x) : Accesses r rd c x := by
  cases h with
  | plain h => exact h
  | map h => exact h

@[simp] theorem checkRet_of_ok {α : Type} (a : α) : (checkRet (.ok a) : Parse τ α) = pure a := rfl

/-- What a loop over the entries of a map does, when what is done for an entry
depends on the entry alone and the rest of the loop's state is only computed. -/
theorem forEntries_entries {body : r.Cursor × γ → Parse τ (r.Cursor × γ)}
    {effect : Item × Item → Parse τ Unit} {update : γ → Item × Item → γ}
    (hbody : ∀ c v c' k x s, Shows r rd c k → r.advance c = .ok v → Shows r rd v x →
      r.advance v = .ok c' → body (c, s) = (do effect (k, x); pure (c', update s (k, x))))
    {c : r.Cursor} {es : List (Item × Item)} (h : Entries r rd c es) (s : γ) :
    ∃ c', forEntries es.length body (c, s) =
      (do forM es effect; pure (c', es.foldl update s)) := by
  induction es generalizing c s with
  | nil => exact ⟨c, rfl⟩
  | cons e es ih =>
      cases h with
      | @cons _ v next k x _ hkey hvalue hx hnext hes =>
          obtain ⟨c', hrest⟩ := ih hes (update s (k, x))
          refine ⟨c', ?_⟩
          rw [List.length_cons, forEntries, hbody _ _ _ _ _ s hkey hvalue hx hnext, List.forM_cons,
            List.foldl_cons]
          simp only [bind_assoc, pure_bind, hrest]

/-- Entries that do nothing can be left out. -/
theorem forM_filter {α : Type} {f : α → Parse τ Unit} {p : α → Bool} {l : List α}
    (h : ∀ x ∈ l, p x = false → f x = pure ()) : forM l f = forM (l.filter p) f := by
  induction l with
  | nil => rfl
  | cons x l ih =>
      have hl := ih fun y hy => h y (List.mem_cons_of_mem _ hy)
      cases hp : p x with
      | true => simp [hp, hl]
      | false => simp [hp, hl, h x List.mem_cons_self hp]

@[simp] theorem stop_bind {α β : Type} (e : UInt8) (f : α → Parse τ β) :
    (Proc.stop e >>= f) = Proc.stop e := rfl

@[simp] theorem stopIf_true {c : Prop} [Decidable c] (h : c) (e : UInt8) :
    (Proc.stopIf c e : Parse τ Unit) = Proc.stop e := if_pos h

@[simp] theorem stopIf_false {c : Prop} [Decidable c] (h : ¬ c) (e : UInt8) :
    (Proc.stopIf c e : Parse τ Unit) = pure () := if_neg h

@[simp] theorem checkRet_of_error {α : Type} (e : CborError) :
    (checkRet (.error e) : Parse τ α) = Proc.stop ctap2ErrCborParsing := rfl

theorem enterMap_shown {env : Env} {c : env.reader.Cursor} {es : List (Item × Item)}
    (h : Shows env.reader rd c (.map es)) :
    ∃ m, (enterMap env c : Parse τ _) = pure (m, es.length) ∧ Entries env.reader rd m es := by
  cases h with
  | plain h htype => exact absurd rfl htype
  | map h henter hlength hentries =>
      refine ⟨_, ?_, hentries⟩
      simp only [enterMap, henter, hlength, checkRet_of_ok, pure_bind]

end

/-! ### COSE keys -/

section CoseKey

variable (rd : Reading)

/-- `parse_cose_key` on an entry. -/
def coseKeyEffect (e : Item × Item) : Parse CoseKey Unit := do
  Proc.stopIf (e.1.type ≠ .integer) ctap2ErrInvalidCborType
  let key ← checkRet (rd.getIntChecked e.1)
  if key = 1 then do
    Proc.stopIf (e.2.type ≠ .integer) ctap2ErrInvalidCborType
    let v ← checkRet (rd.getIntChecked e.2)
    Proc.modify fun k => { k with kty := v }
  else if key = -1 then do
    Proc.stopIf (e.2.type ≠ .integer) ctap2ErrInvalidCborType
    let v ← checkRet (rd.getIntChecked e.2)
    Proc.modify fun k => { k with crv := v }
  else if key = -2 then
    Proc.zoom CoseKey.x (fun k v => { k with x := v }) (fixedByteString e.2)
  else if key = -3 then
    Proc.zoom CoseKey.y (fun k v => { k with y := v }) (fixedByteString e.2)
  else pure ()
where
  /-- `parse_fixed_byte_string`. -/
  fixedByteString {n : ℕ} (x : Item) : Parse (Buf n) Unit := do
    Proc.stopIf (x.type ≠ .byteString) ctap2ErrInvalidCborType
    let copied := rd.copyByteString x n
    Proc.modify (·.write 0 copied.written)
    checkErr copied.err
    Proc.stopIf (copied.buflen ≠ n) ctap1ErrInvalidLength

/-- `xkey` and `ykey` behind an entry. -/
def coseKeySeen (s : Bool × Bool) (e : Item × Item) : Bool × Bool :=
  match rd.getIntChecked e.1 with
  | .ok key => if key = -2 then (true, s.2) else if key = -3 then (s.1, true) else s
  | .error _ => s

/-- `parse_cose_key`. -/
def coseKeyOf (x : Item) : Parse CoseKey Unit := do
  Proc.modify fun k => { k with kty := 0, crv := 0 }
  match x with
  | .map es => do
      forM es (coseKeyEffect rd)
      let k ← Proc.get
      let seen := es.foldl (coseKeySeen rd) (false, false)
      Proc.stopIf (seen.1 = false ∨ seen.2 = false ∨ k.kty = 0 ∨ k.crv = 0) ctap2ErrMissingParameter
  | _ => Proc.stop ctap2ErrInvalidCborType

end CoseKey

/-! ### hmac-secret requests -/

section HmacSecret

variable (rd : Reading)

/-- `ctap_parse_hmac_secret` on an entry. -/
def hmacSecretEffect (e : Item × Item) : Parse HmacSecret Unit := do
  Proc.stopIf (e.1.type ≠ .integer) ctap2ErrInvalidCborType
  if rd.getInt e.1 = 1 then
    Proc.zoom HmacSecret.keyAgreement (fun hs v => { hs with keyAgreement := v }) (coseKeyOf rd e.2)
  else if rd.getInt e.1 = 2 then do
    let copied := rd.copyByteString e.2 64
    Proc.modify fun hs => { hs with saltEnc := hs.saltEnc.write 0 copied.written }
    Proc.stopIf ((copied.buflen ≠ 32 ∧ copied.buflen ≠ 64) ∨
      copied.err = cborErrorOutOfMemory) ctap1ErrInvalidLength
    checkErr copied.err
    Proc.modify fun hs => { hs with saltLen := UInt8.ofNat copied.buflen }
  else if rd.getInt e.1 = 3 then do
    let copied := rd.copyByteString e.2 32
    Proc.modify fun hs => { hs with saltAuth := hs.saltAuth.write 0 copied.written }
    checkErr copied.err
  else pure ()

/-- `parsed_count` behind an entry. -/
def hmacSecretCount (n : UInt8) (e : Item × Item) : UInt8 :=
  if rd.getInt e.1 = 1 ∨ rd.getInt e.1 = 2 ∨ rd.getInt e.1 = 3 then n + 1 else n

/-- `ctap_parse_hmac_secret`. -/
def hmacSecretOf (x : Item) : Parse HmacSecret Unit :=
  match x with
  | .map es => do
      forM es (hmacSecretEffect rd)
      Proc.stopIf (es.foldl (hmacSecretCount rd) 0 ≠ 3) ctap2ErrMissingParameter
  | _ => Proc.stop ctap2ErrInvalidCborType

end HmacSecret

/-! ### Options and extensions -/

/-- The key begins with these characters. -/
def begins (s : String) (key : List UInt8) : Bool := (Bytes.ascii s).isPrefixOf key

section Entries

variable (rd : Reading)

/-- `parse_options` on the value of an entry. -/
def optionValueEffect (key : List UInt8) (x : Item) : Parse Options Unit :=
  if begins "rk" key then do
    let b ← checkRet (rd.getBoolean x)
    Proc.modify fun o => { o with rk := ofBool b }
  else if begins "uv" key then do
    let b ← checkRet (rd.getBoolean x)
    Proc.modify fun o => { o with uv := ofBool b }
  else if begins "up" key then do
    let b ← checkRet (rd.getBoolean x)
    Proc.modify fun o => { o with up := ofBool b }
  else pure ()

/-- `parse_options` on an entry. -/
def optionEffect (e : Item × Item) : Parse Options Unit :=
  match e.1 with
  | .text key =>
      if 8 < key.length then Proc.stop ctap2ErrLimitExceeded
      else do
        Proc.stopIf (e.2.type ≠ .boolean) ctap2ErrInvalidCborType
        optionValueEffect rd key e.2
  | _ => Proc.stop ctap2ErrInvalidCborType

/-- `ctap_parse_extensions` on the value of an entry. -/
def extensionValueEffect (key : List UInt8) (x : Item) : Parse Extensions Unit :=
  if begins "hmac-secret" key then
    if x.type = .boolean then do
      let b ← checkRet (rd.getBoolean x)
      if b then
        Proc.modify fun ext => { ext with hmacSecretPresent := extHmacSecretRequested }
      else
        pure ()
    else if x.type = .map then do
      Proc.zoom Extensions.hmacSecret (fun ext v => { ext with hmacSecret := v }) (hmacSecretOf rd x)
      Proc.modify fun ext => { ext with hmacSecretPresent := extHmacSecretParsed }
    else
      pure ()
  else if begins "credProtect" key then
    if x.type = .integer then
      Proc.modify fun ext => { ext with credProtect := UInt32.ofInt (rd.getInt x) }
    else
      pure ()
  else
    pure ()

/-- `ctap_parse_extensions` on an entry. -/
def extensionEffect (e : Item × Item) : Parse Extensions Unit :=
  match e.1 with
  | .text key => if 16 < key.length then pure () else extensionValueEffect rd key e.2
  | _ => Proc.stop ctap2ErrInvalidCborType

end Entries

section Shown

variable {env : Env} {rd : Reading} {c v c' : env.reader.Cursor} {k x : Item}

theorem OtherType.type_ne_map (t : OtherType) : t.type ≠ .map := by
  cases t <;> decide

theorem parseFixedByteString_shown {n : ℕ} (h : Shows env.reader rd c x) :
    (parseFixedByteString env c : Parse (Buf n) Unit) = coseKeyEffect.fixedByteString rd x := by
  simp only [parseFixedByteString, coseKeyEffect.fixedByteString, h.accesses.type,
    h.accesses.byteString]

theorem parseCoseKeyEntry_shown (s : Bool × Bool)
    (hk : Shows env.reader rd c k) (hv : env.reader.advance c = .ok v)
    (hx : Shows env.reader rd v x) (hn : env.reader.advance v = .ok c') :
    parseCoseKeyEntry env (c, s) = (do coseKeyEffect rd (k, x); pure (c', coseKeySeen rd s (k, x))) := by
  simp only [parseCoseKeyEntry, intKey, parseInt, coseKeyEffect, hk.accesses.type,
    hk.accesses.intChecked, hx.accesses.type, hx.accesses.intChecked, hv, hn, checkRet_of_ok,
    parseFixedByteString_shown hx, bind_assoc, pure_bind]
  by_cases htype : k.type = .integer
  · rw [stopIf_false (not_not.mpr htype), pure_bind, pure_bind]
    cases hkey : rd.getIntChecked k with
    | error e => rfl
    | ok key =>
        simp only [checkRet_of_ok, pure_bind, coseKeySeen, hkey]
        by_cases h₁ : key = 1
        · simp [h₁]
        by_cases h₂ : key = -1
        · simp [h₂]
        by_cases h₃ : key = -2
        · simp [h₃]
        by_cases h₄ : key = -3
        · simp [h₄]
        simp [h₁, h₂, h₃, h₄]
  · rw [stopIf_true htype]
    rfl

/-- On a cursor that shows an item, `parse_cose_key` is a function of the item. -/
theorem parseCoseKey_shown (h : Shows env.reader rd c x) : parseCoseKey env c = coseKeyOf rd x := by
  unfold parseCoseKey coseKeyOf
  congr 1
  funext _
  rw [h.accesses.type]
  match x with
  | .map es =>
      obtain ⟨m, henter, hm⟩ := @enterMap_shown rd CoseKey env c es h
      obtain ⟨c', hloop⟩ := forEntries_entries (fun _ _ _ _ _ s hk hv hx hn =>
        parseCoseKeyEntry_shown s hk hv hx hn) hm (false, false)
      simp only [henter, hloop, Item.type, ne_eq, not_true, pure_bind, bind_assoc]
      rfl
  | .int _ | .bytes _ | .text _ | .bool _ => rfl
  | .other type =>
      rw [stopIf_true (show (Item.other type).type ≠ .map from type.type_ne_map)]
      rfl

theorem parseHmacSecretEntry_shown (n : UInt8)
    (hk : Shows env.reader rd c k) (hv : env.reader.advance c = .ok v)
    (hx : Shows env.reader rd v x) (hn : env.reader.advance v = .ok c') :
    parseHmacSecretEntry env (c, n) =
      (do hmacSecretEffect rd (k, x); pure (c', hmacSecretCount rd n (k, x))) := by
  simp only [parseHmacSecretEntry, hmacSecretEffect, hk.accesses.type, hk.accesses.int,
    hx.accesses.byteString, parseCoseKey_shown hx, hv, hn, checkRet_of_ok, bind_assoc, pure_bind,
    hmacSecretCount]
  congr 1
  funext _
  by_cases h₁ : rd.getInt k = 1
  · simp [h₁]
  by_cases h₂ : rd.getInt k = 2
  · simp [h₂]
  by_cases h₃ : rd.getInt k = 3
  · simp [h₃]
  simp [h₁, h₂, h₃]

theorem ctapParseHmacSecret_shown (h : Shows env.reader rd c x) :
    ctapParseHmacSecret env c = hmacSecretOf rd x := by
  unfold ctapParseHmacSecret hmacSecretOf
  rw [h.accesses.type]
  match x with
  | .map es =>
      obtain ⟨m, henter, hm⟩ := @enterMap_shown rd HmacSecret env c es h
      obtain ⟨c', hloop⟩ := forEntries_entries (fun _ _ _ _ _ n hk hv hx hn =>
        parseHmacSecretEntry_shown n hk hv hx hn) hm 0
      simp only [henter, hloop, Item.type, ne_eq, not_true, pure_bind, bind_assoc]
      rfl
  | .int _ | .bytes _ | .text _ | .bool _ => rfl
  | .other type =>
      rw [stopIf_true (show (Item.other type).type ≠ .map from type.type_ne_map)]
      rfl

theorem cString_append_zero (p rest : List UInt8) :
    Bytes.cString (p ++ 0 :: rest) = Bytes.cString p := by
  induction p with
  | nil => rfl
  | cons x p ih =>
      unfold Bytes.cString at *
      rw [List.cons_append, List.takeWhile_cons, List.takeWhile_cons, ih]

theorem cString_append {a : List UInt8} (ha : ∀ x ∈ a, x ≠ 0) (rest : List UInt8) :
    Bytes.cString (a ++ rest) = a ++ Bytes.cString rest := by
  unfold Bytes.cString
  exact List.takeWhile_append_of_pos fun x hx => decide_eq_true (ha x hx)

/-- The key of an entry in its buffer, with the zero at the end. -/
theorem keyBuffer_eq {n : ℕ} {b : List UInt8} (hn : 0 < n) (hb : b.length ≤ n) (key : Buf n) :
    ∃ rest, ((key.write 0 (terminated b n)).write (n - 1) [0]).bytes = b.take (n - 1) ++ 0 :: rest := by
  have hwritten : (terminated b n).length ≤ n := by
    unfold terminated
    split
    · simpa
    · simpa
  have hfirst : (key.write 0 (terminated b n)).bytes =
      terminated b n ++ key.bytes.drop (terminated b n).length := by
    rw [Buf.bytes_write (by omega), Bytes.overwrite, List.take_zero, List.nil_append, Nat.zero_add]
  rw [Buf.bytes_write (by simp; omega), Bytes.overwrite, hfirst, List.append_assoc]
  by_cases hfull : b.length < n - 1
  · -- the copy itself is terminated
    have hb : terminated b n = b ++ [0] := by rw [terminated, if_pos (by omega)]
    have htake : b.take (n - 1) = b := List.take_of_length_le (by omega)
    obtain ⟨k, hk⟩ : ∃ k, n - 1 = b.length + (k + 1) := ⟨n - 1 - b.length - 1, by omega⟩
    rw [htake, hb, List.append_assoc, hk, List.take_length_add_append, List.singleton_append,
      List.take_succ_cons, List.append_assoc]
    exact ⟨_, rfl⟩
  · have hprefix : b.take (n - 1) <+: terminated b n :=
      (List.take_prefix _ _).trans (List.prefix_append ..)
    have hlen : (b.take (n - 1)).length = n - 1 := by
      rw [List.length_take]
      omega
    obtain ⟨t, ht⟩ := hprefix
    rw [← ht, List.append_assoc, List.take_left' hlen]
    exact ⟨_, rfl⟩

/-- What a key buffer begins with is what the key begins with. -/
theorem startsWith_key {n : ℕ} {s : String} {b : List UInt8} (hs : ∀ x ∈ Bytes.ascii s, x ≠ 0)
    (hlen : (Bytes.ascii s).length = s.length) (hn : s.length < n) (hb : b.length ≤ n) (key : Buf n) :
    startsWith ((key.write 0 (terminated b n)).write (n - 1) [0]) s = begins s b := by
  obtain ⟨rest, hbuf⟩ := keyBuffer_eq (by omega) hb key
  rw [Bool.eq_iff_iff, startsWith, begins, hbuf, cString_append_zero, beq_iff_eq,
    List.isPrefixOf_iff_prefix]
  constructor
  · intro h
    calc Bytes.ascii s = (Bytes.cString (b.take (n - 1))).take s.length := h.symm
      _ <+: Bytes.cString (b.take (n - 1)) := List.take_prefix ..
      _ <+: b.take (n - 1) := List.takeWhile_prefix _
      _ <+: b := List.take_prefix ..
  · rintro ⟨t, rfl⟩
    have htake : (Bytes.ascii s ++ t).take (n - 1) =
        Bytes.ascii s ++ t.take (n - 1 - (Bytes.ascii s).length) := by
      rw [List.take_append, List.take_of_length_le (by omega)]
    rw [htake, cString_append hs, ← hlen, List.take_left]

theorem startsWith_option {s : String} (hs : s = "rk" ∨ s = "uv" ∨ s = "up") {b : List UInt8}
    (hb : b.length ≤ 8) (key : Buf 8) :
    startsWith ((key.write 0 (terminated b 8)).write 7 [0]) s = begins s b := by
  rcases hs with rfl | rfl | rfl
  · exact startsWith_key (by decide +kernel) (by decide) (by decide) hb key
  · exact startsWith_key (by decide +kernel) (by decide) (by decide) hb key
  · exact startsWith_key (by decide +kernel) (by decide) (by decide) hb key

theorem startsWith_extension {s : String} (hs : s = "hmac-secret" ∨ s = "credProtect")
    {b : List UInt8} (hb : b.length ≤ 16) (key : Buf 16) :
    startsWith ((key.write 0 (terminated b 16)).write 15 [0]) s = begins s b := by
  rcases hs with rfl | rfl
  · exact startsWith_key (by decide +kernel) (by decide) (by decide) hb key
  · exact startsWith_key (by decide +kernel) (by decide) (by decide) hb key

/-- The key buffer behind an entry. -/
def keyBufferAfter {n : ℕ} (rd : Reading) (key : Buf n) (e : Item × Item) : Buf n :=
  let copied := rd.copyTextString e.1 n
  if copied.err = cborErrorOutOfMemory then key.write 0 copied.written
  else (key.write 0 copied.written).write (n - 1) [0]

/-- A key that is not a text, which the two parsers refuse first. -/
theorem exists_text {x : Item} (h : x.type = .textString) : ∃ b, x = .text b := by
  cases x with
  | text b => exact ⟨b, rfl⟩
  | other t => cases t <;> cases h
  | _ => cases h

theorem optionEffect_text (key : List UInt8) (x : Item) :
    optionEffect rd (.text key, x) =
      (if 8 < key.length then Proc.stop ctap2ErrLimitExceeded
      else do
        Proc.stopIf (x.type ≠ .boolean) ctap2ErrInvalidCborType
        optionValueEffect rd key x) := rfl

theorem extensionEffect_text (key : List UInt8) (x : Item) :
    extensionEffect rd (.text key, x) =
      if 16 < key.length then pure () else extensionValueEffect rd key x := rfl

theorem noError_ne_outOfMemory : (0 : CborError) ≠ cborErrorOutOfMemory := by decide

theorem optionEffect_of_not_text {e : Item × Item} (h : e.1.type ≠ .textString) :
    optionEffect rd e = Proc.stop ctap2ErrInvalidCborType := by
  unfold optionEffect
  split
  case h_1 key hkey => exact absurd (by rw [hkey]; rfl) h
  case h_2 => rfl

theorem extensionEffect_of_not_text {e : Item × Item} (h : e.1.type ≠ .textString) :
    extensionEffect rd e = Proc.stop ctap2ErrInvalidCborType := by
  unfold extensionEffect
  split
  case h_1 key hkey => exact absurd (by rw [hkey]; rfl) h
  case h_2 => rfl

theorem parseOptionField_shown {b : List UInt8} (hb : b.length ≤ 8) (key : Buf 8)
    (hx : Shows env.reader rd v x) :
    parseOptionField env ((key.write 0 (terminated b 8)).write 7 [0]) v = optionValueEffect rd b x := by
  simp only [parseOptionField, optionValueEffect, startsWith_option (.inl rfl) hb,
    startsWith_option (.inr (.inl rfl)) hb, startsWith_option (.inr (.inr rfl)) hb,
    hx.accesses.boolean]

theorem parseOption_shown (hrd : rd.Faithful) (key : Buf 8)
    (hk : Shows env.reader rd c k) (hv : env.reader.advance c = .ok v)
    (hx : Shows env.reader rd v x) (hn : env.reader.advance v = .ok c') :
    parseOption env (c, key) = (do optionEffect rd (k, x); pure (c', keyBufferAfter rd key (k, x))) := by
  simp only [parseOption, textKey, hk.accesses.type, hk.accesses.textString, hv, hn, hx.accesses.type,
    checkRet_of_ok, bind_assoc, pure_bind]
  by_cases htype : k.type = .textString
  · obtain ⟨b, rfl⟩ := exists_text htype
    rw [stopIf_false (not_not.mpr htype), pure_bind]
    by_cases hlong : 8 < b.length
    · rw [stopIf_true (hrd.text_long b 8 hlong), optionEffect_text, if_pos hlong]
      rfl
    · have hb : b.length ≤ 8 := not_lt.mp hlong
      have hcopy := hrd.text_fits b 8 hb
      have hafter : keyBufferAfter rd key (.text b, x) = (key.write 0 (terminated b 8)).write 7 [0] := by
        simp only [keyBufferAfter, hcopy, if_neg noError_ne_outOfMemory]
      simp only [hcopy, optionEffect_text, if_neg hlong, hafter, parseOptionField_shown hb key hx,
        checkErr]
      rw [stopIf_false noError_ne_outOfMemory, stopIf_false (not_not.mpr rfl), pure_bind, pure_bind,
        bind_assoc]
  · rw [stopIf_true htype, optionEffect_of_not_text htype]
    rfl

theorem parseExtensionValue_shown {b : List UInt8} (hb : b.length ≤ 16) (key : Buf 16)
    (hx : Shows env.reader rd v x) :
    parseExtensionValue env ((key.write 0 (terminated b 16)).write 15 [0]) v =
      extensionValueEffect rd b x := by
  simp only [parseExtensionValue, extensionValueEffect, startsWith_extension (.inl rfl) hb,
    startsWith_extension (.inr rfl) hb, hx.accesses.type, hx.accesses.boolean, hx.accesses.int,
    ctapParseHmacSecret_shown hx]

theorem parseExtension_shown (hrd : rd.Faithful) (key : Buf 16)
    (hk : Shows env.reader rd c k) (hv : env.reader.advance c = .ok v)
    (hx : Shows env.reader rd v x) (hn : env.reader.advance v = .ok c') :
    parseExtension env (c, key) =
      (do extensionEffect rd (k, x); pure (c', keyBufferAfter rd key (k, x))) := by
  simp only [parseExtension, hk.accesses.type, hk.accesses.textString, hv, hn, checkRet_of_ok, pure_bind]
  by_cases htype : k.type = .textString
  · obtain ⟨b, rfl⟩ := exists_text htype
    rw [stopIf_false (not_not.mpr htype), pure_bind]
    by_cases hlong : 16 < b.length
    · have hcopy := hrd.text_long b 16 hlong
      rw [if_pos hcopy, extensionEffect_text, if_pos hlong, keyBufferAfter, if_pos hcopy]
      rfl
    · have hb : b.length ≤ 16 := not_lt.mp hlong
      have hcopy := hrd.text_fits b 16 hb
      have hafter : keyBufferAfter rd key (.text b, x) = (key.write 0 (terminated b 16)).write 15 [0] := by
        simp only [keyBufferAfter, hcopy, if_neg noError_ne_outOfMemory]
      simp only [hcopy, extensionEffect_text, if_neg hlong, hafter, parseExtensionValue_shown hb key hx,
        checkErr]
      rfl
  · rw [stopIf_true htype, extensionEffect_of_not_text htype]
    rfl

/-- On a cursor that shows a map, the two parsers go through its entries. -/
theorem parseOptions_shown (hrd : rd.Faithful) {es : List (Item × Item)}
    (h : Shows env.reader rd c (.map es)) : parseOptions env c = forM es (optionEffect rd) := by
  obtain ⟨m, henter, hm⟩ := @enterMap_shown rd Options env c es h
  obtain ⟨c', hloop⟩ := forEntries_entries (fun _ _ _ _ _ key hk hv hx hn =>
    parseOption_shown hrd key hk hv hx hn) hm (env.uninit .textKey 8)
  unfold parseOptions
  rw [h.accesses.type]
  simp only [henter, hloop, Item.type, ne_eq, not_true, pure_bind, bind_assoc]
  exact bind_pure_unit

theorem ctapParseExtensions_shown (hrd : rd.Faithful) {es : List (Item × Item)}
    (h : Shows env.reader rd c (.map es)) :
    ctapParseExtensions env c = forM es (extensionEffect rd) := by
  obtain ⟨m, henter, hm⟩ := @enterMap_shown rd Extensions env c es h
  obtain ⟨c', hloop⟩ := forEntries_entries (fun _ _ _ _ _ key hk hv hx hn =>
    parseExtension_shown hrd key hk hv hx hn) hm (env.uninit .textKey 16)
  unfold ctapParseExtensions
  rw [h.accesses.type]
  simp only [henter, hloop, Item.type, ne_eq, not_true, pure_bind, bind_assoc]
  exact bind_pure_unit

end Shown

end NitrokeyFido2.Ctap
