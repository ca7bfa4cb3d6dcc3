import NitrokeyFido2.Ctap.Items
import NitrokeyFido2.Ctap.Sample

/-!
Items as the sample decoder reads them.

A map of integers, strings and booleans is laid out as its heads and payloads one
after the other, and a cursor at its first byte shows it.
-/

namespace NitrokeyFido2.Ctap.Sample

def majorOf : Item → ℕ
  | .int z => if 0 ≤ z then 0 else 1
  | .bytes _ => 2
  | .text _ => 3
  | .map _ => 5
  | .bool _ => 7
  | .other _ => 6

def argumentOf : Item → ℕ
  | .int z => if 0 ≤ z then z.toNat else (-1 - z).toNat
  | .bytes b => b.length
  | .text b => b.length
  | .map es => es.length
  | .bool b => if b then 21 else 20
  | .other _ => 0

def payloadOf : Item → List UInt8
  | .bytes b => b
  | .text b => b
  | _ => []

/-- The number that is read, also where there is no integer. -/
def valueOf (x : Item) : ℤ := if majorOf x = 0 then argumentOf x else -1 - argumentOf x

def copyOf (type : CborType) (x : Item) (cap : ℕ) : Copied :=
  if x.type ≠ type then ⟨1, 0, []⟩
  else if argumentOf x ≤ cap then
    ⟨0, argumentOf x, payloadOf x ++ if argumentOf x < cap then [0] else []⟩
  else ⟨cborErrorOutOfMemory, argumentOf x, []⟩

/-- What the sample decoder says of an item. -/
def reading : Reading where
  getInt := valueOf
  getIntChecked x := .ok (valueOf x)
  getBoolean x := .ok (argumentOf x = 21)
  copyByteString := copyOf .byteString
  copyTextString := copyOf .textString

theorem valueOf_int (z : ℤ) : valueOf (.int z) = z := by
  simp only [valueOf, majorOf, argumentOf]
  by_cases hz : 0 ≤ z
  · simp [hz]
  · simp [hz]
    omega

theorem copyOf_fits {type : CborType} {x : Item} (htype : x.type = type) {n : ℕ}
    (h : argumentOf x ≤ n) : copyOf type x n =
      ⟨0, argumentOf x, payloadOf x ++ if argumentOf x < n then [0] else []⟩ := by
  rw [copyOf, if_neg (not_not.mpr htype), if_pos h]

theorem copyOf_long {type : CborType} {x : Item} (htype : x.type = type) {n : ℕ}
    (h : n < argumentOf x) : (copyOf type x n).err = cborErrorOutOfMemory := by
  rw [copyOf, if_neg (not_not.mpr htype), if_neg (not_le.mpr h)]

theorem reading_faithful : reading.Faithful where
  int z _ _ := ⟨valueOf_int z, congrArg Except.ok (valueOf_int z)⟩
  boolean b := by cases b <;> rfl
  bytes_fits b _ h := @copyOf_fits _ (.bytes b) rfl _ h
  bytes_long b _ h := @copyOf_long _ (.bytes b) rfl _ h
  text_fits b _ h := @copyOf_fits _ (.text b) rfl _ h
  text_long b _ h := @copyOf_long _ (.text b) rfl _ h

/-- An item that the sample decoder knows, but for the entries of a map. -/
def Plain (x : Item) : Prop :=
  argumentOf x < 65536 ∧ match x with
    | .other _ => False
    | .bool _ | .int _ | .bytes _ | .text _ | .map _ => True

/-- The head and the payload of an item. -/
def start (x : Item) : List UInt8 := head (majorOf x) (argumentOf x) ++ payloadOf x

section

variable {x : Item}

theorem majorOf_lt (x : Item) : majorOf x < 8 := by
  cases x with
  | int z =>
      simp only [majorOf]
      split <;> omega
  | _ => simp [majorOf]

theorem readHead_start (hx : Plain x) (rest : List UInt8) :
    readHead (start x ++ rest) =
      some (majorOf x, argumentOf x, (head (majorOf x) (argumentOf x)).length) := by
  rw [start, List.append_assoc, readHead_head (majorOf_lt x) hx.1]

/-- The first byte of a head tells non-negative integers from everything else. -/
theorem head_getD {major v : ℕ} (hmajor : major < 8) (rest : List UInt8) :
    (((head major v ++ rest).getD 0 0).toNat < 32) ↔ major = 0 := by
  unfold head
  split_ifs with h₁ h₂
  · simp
    omega
  · simp
    omega
  · simp
    omega

section Cursor

variable (hx : Plain x) (rest : List UInt8) (left pos : ℕ)

include hx

theorem kind_start : Cursor.kind ⟨start x ++ rest, left + 1, pos⟩ = x.type := by
  simp only [Cursor.kind, readHead_start hx, Nat.add_eq_zero_iff, Nat.one_ne_zero, and_false,
    if_false]
  cases x with
  | int z => by_cases hz : 0 ≤ z <;> simp [majorOf, hz, Item.type]
  | bool b => cases b <;> rfl
  | other t => exact hx.2.elim
  | _ => rfl

theorem argument_start : Cursor.argument ⟨start x ++ rest, left, pos⟩ = argumentOf x := by
  simp only [Cursor.argument, readHead_start hx, Option.getD_some]

theorem headLength_start :
    Cursor.headLength ⟨start x ++ rest, left, pos⟩ = (head (majorOf x) (argumentOf x)).length := by
  simp only [Cursor.headLength, readHead_start hx, Option.getD_some]

theorem value_start : Cursor.value ⟨start x ++ rest, left, pos⟩ = valueOf x := by
  simp only [Cursor.value, argument_start hx, valueOf]
  rw [start, List.append_assoc]
  simp only [head_getD (majorOf_lt x)]

theorem copy_start (type : CborType) (htype : type = .byteString ∨ type = .textString) (cap : ℕ) :
    Cursor.copy ⟨start x ++ rest, left + 1, pos⟩ type cap = copyOf type x cap := by
  have hpayload : Cursor.payload ⟨start x ++ rest, left + 1, pos⟩ =
      (payloadOf x ++ rest).take (argumentOf x) := by
    simp only [Cursor.payload, headLength_start hx, argument_start hx]
    rw [start, List.append_assoc, List.drop_left]
  simp only [Cursor.copy, kind_start hx, argument_start hx, copyOf, hpayload]
  by_cases hkind : x.type = type
  · -- only a string has a payload
    have hlen : (payloadOf x).length = argumentOf x := by
      cases x with
      | bytes b => rfl
      | text b => rfl
      | other t => exact hx.2.elim
      | _ => rcases htype with rfl | rfl <;> cases hkind
    rw [← hlen, List.take_left]
  · simp [hkind]

theorem accesses_start : Accesses reader reading ⟨start x ++ rest, left + 1, pos⟩ x where
  type := kind_start hx rest left pos
  int := value_start hx rest (left + 1) pos
  intChecked := congrArg Except.ok (value_start hx rest (left + 1) pos)
  boolean := by
    change Except.ok (decide (Cursor.argument _ = 21)) = _
    rw [argument_start hx]
    rfl
  byteString := copy_start hx rest left pos _ (.inl rfl)
  textString := copy_start hx rest left pos _ (.inr rfl)

end Cursor

/-- These bytes are an item, nested at most so deep. -/
structure Block (n : ℕ) (x : Item) (b : List UInt8) : Prop where
  shown : ∀ rest left pos, Shows reader reading ⟨b ++ rest, left + 1, pos⟩ x
  length : ∀ depth rest, n ≤ depth → itemLength depth (b ++ rest) = some b.length

theorem Block.advance {n : ℕ} {b : List UInt8} (h : Block n x b) (hn : n ≤ 8) (rest : List UInt8)
    (left pos : ℕ) :
    Cursor.advance ⟨b ++ rest, left + 1, pos⟩ = .ok ⟨rest, left, pos + b.length⟩ := by
  rw [Cursor.advance, h.length 8 rest hn, Option.map_some, List.drop_left]
  rfl

theorem Block.mono {n m : ℕ} {b : List UInt8} (h : Block n x b) (hnm : n ≤ m) : Block m x b where
  shown := h.shown
  length depth rest hdepth := h.length depth rest (hnm.trans hdepth)

/-- An integer, a string or a boolean. -/
def Leaf (x : Item) : Prop := Plain x ∧ x.type ≠ .map

theorem Leaf.block (hx : Leaf x) : Block 1 x (start x) where
  shown rest left pos := .plain (accesses_start hx.1 rest left pos) hx.2
  length depth rest hdepth := by
    obtain ⟨depth, rfl⟩ := Nat.exists_eq_add_of_le' hdepth
    rw [itemLength, readHead_start hx.1]
    cases x with
    | int z =>
        simp only [majorOf, start, payloadOf, List.append_nil]
        split <;> rfl
    | bytes b => simp [majorOf, argumentOf, start, payloadOf]
    | text b => simp [majorOf, argumentOf, start, payloadOf]
    | map es => exact absurd rfl hx.2
    | bool b => cases b <;> rfl
    | other t => exact hx.1.2.elim

theorem leaf_int {z : ℤ} (h : argumentOf (.int z) < 65536) : Leaf (.int z) :=
  ⟨⟨h, trivial⟩, by simp [Item.type]⟩

theorem leaf_bytes {b : List UInt8} (h : b.length < 65536) : Leaf (.bytes b) :=
  ⟨⟨h, trivial⟩, by simp [Item.type]⟩

theorem leaf_text {b : List UInt8} (h : b.length < 65536) : Leaf (.text b) :=
  ⟨⟨h, trivial⟩, by simp [Item.type]⟩

theorem leaf_bool (b : Bool) : Leaf (.bool b) :=
  ⟨⟨by cases b <;> decide, trivial⟩, by simp [Item.type]⟩

/-! ### Maps -/

/-- An entry of a map with the bytes of its key and of its value. -/
structure Part where
  key : Item
  keyBytes : List UInt8
  value : Item
  valueBytes : List UInt8

def Part.entry (p : Part) : Item × Item := (p.key, p.value)

def Part.bytes (p : Part) : List UInt8 := p.keyBytes ++ p.valueBytes

structure Part.Blocks (n : ℕ) (p : Part) : Prop where
  key : Block n p.key p.keyBytes
  value : Block n p.value p.valueBytes

def mapBytes (parts : List Part) : List UInt8 :=
  start (.map (parts.map Part.entry)) ++ parts.flatMap Part.bytes

section Maps

variable {n : ℕ} {parts : List Part} (hn : n ≤ 8) (hparts : ∀ p ∈ parts, p.Blocks n)

include hparts

/-- The lengths of the entries add up. -/
theorem length_parts (depth : ℕ) (hdepth : n ≤ depth) {l : List ℕ} (hl : l.length = 2 * parts.length)
    (before rest : List UInt8) :
    l.foldlM (fun k _ =>
        (itemLength depth ((before ++ (parts.flatMap Part.bytes ++ rest)).drop k)).map (k + ·))
      before.length = some (before.length + (parts.flatMap Part.bytes).length) := by
  induction parts generalizing l before with
  | nil =>
      obtain rfl := List.length_eq_zero_iff.mp hl
      rfl
  | cons p parts ih =>
      obtain ⟨i, l, rfl⟩ := @List.exists_cons_of_length_pos _ l (by
        rw [hl, List.length_cons]
        omega)
      obtain ⟨j, l, rfl⟩ := @List.exists_cons_of_length_pos _ l (by
        simp only [List.length_cons] at hl
        omega)
      have hp := hparts p List.mem_cons_self
      have hrest := @ih (fun q hq => hparts q (List.mem_cons_of_mem _ hq)) l
        (by simp only [List.length_cons] at hl; omega) (before ++ p.bytes)
      have hbytes : before ++ ((p :: parts).flatMap Part.bytes ++ rest) =
          before ++ p.keyBytes ++ (p.valueBytes ++ (parts.flatMap Part.bytes ++ rest)) := by
        simp [Part.bytes, List.append_assoc]
      have hbytes' : before ++ p.keyBytes ++ (p.valueBytes ++ (parts.flatMap Part.bytes ++ rest)) =
          before ++ p.bytes ++ (parts.flatMap Part.bytes ++ rest) := by
        simp [Part.bytes, List.append_assoc]
      have hkey : itemLength depth ((before ++ p.keyBytes ++ (p.valueBytes ++
          (parts.flatMap Part.bytes ++ rest))).drop before.length) = some p.keyBytes.length := by
        rw [List.append_assoc, List.drop_left]
        exact hp.key.length depth _ hdepth
      have hvalue : itemLength depth ((before ++ p.keyBytes ++ (p.valueBytes ++
          (parts.flatMap Part.bytes ++ rest))).drop (before.length + p.keyBytes.length)) =
            some p.valueBytes.length := by
        rw [← List.length_append, List.drop_left]
        exact hp.value.length depth _ hdepth
      have hlength : before.length + p.keyBytes.length + p.valueBytes.length =
          (before ++ p.bytes).length := by
        simp only [List.length_append, Part.bytes]
        omega
      rw [hbytes, List.foldlM_cons, hkey, Option.map_some, Option.bind_eq_bind, Option.bind_some,
        List.foldlM_cons, hvalue, Option.map_some, Option.bind_eq_bind, Option.bind_some, hbytes',
        hlength, hrest]
      simp [Nat.add_assoc]

theorem entries_parts (hn : n ≤ 8) (rest : List UInt8) (left pos : ℕ) :
    Entries reader reading ⟨parts.flatMap Part.bytes ++ rest, 2 * parts.length + left, pos⟩
      (parts.map Part.entry) := by
  induction parts generalizing pos with
  | nil => exact .nil _
  | cons p parts ih =>
      have hp := hparts p List.mem_cons_self
      have hbytes : (p :: parts).flatMap Part.bytes ++ rest =
          p.keyBytes ++ (p.valueBytes ++ (parts.flatMap Part.bytes ++ rest)) := by
        simp [Part.bytes, List.append_assoc]
      have hleft : 2 * (p :: parts).length + left = 2 * parts.length + left + 1 + 1 := by
        rw [List.length_cons]
        omega
      rw [hbytes, hleft]
      exact .cons (hp.key.shown ..) (hp.key.advance hn ..) (hp.value.shown ..)
        (hp.value.advance hn ..) (ih (fun q hq => hparts q (List.mem_cons_of_mem _ hq)) _)

/-- A map of blocks is one. -/
theorem block_map (hn : n ≤ 8) (hlen : parts.length < 65536) :
    Block (n + 1) (.map (parts.map Part.entry)) (mapBytes parts) := by
  have hx : Plain (.map (parts.map Part.entry)) := ⟨by simpa [argumentOf] using hlen, trivial⟩
  have hpayload : start (.map (parts.map Part.entry)) =
      head (majorOf (.map (parts.map Part.entry))) (argumentOf (.map (parts.map Part.entry))) := by
    simp [start, payloadOf]
  constructor
  · intro rest left pos
    have hentries := entries_parts hparts hn rest 0 (pos + (start (.map (parts.map Part.entry))).length)
    rw [mapBytes, List.append_assoc]
    refine .map (accesses_start hx _ left pos) ?_ ?_ hentries
    · change Cursor.enter _ = _
      rw [Cursor.enter, kind_start hx, headLength_start hx, argument_start hx, ← hpayload,
        List.drop_left]
      simp [Item.type, argumentOf]
      rfl
    · exact congrArg Except.ok (argument_start hx _ (left + 1) pos)
  · intro depth rest hdepth
    obtain ⟨depth, rfl⟩ := Nat.exists_eq_add_of_le' hdepth
    have hlength := @length_parts n parts hparts (n + depth) (by omega)
      (List.range (2 * parts.length)) List.length_range (start (.map (parts.map Part.entry))) rest
    rw [mapBytes, List.append_assoc, List.length_append, ← hlength, Nat.add_comm depth,
      Nat.add_right_comm, itemLength, readHead_start hx, ← hpayload]
    simp [majorOf, argumentOf]

end Maps

/-- A map of leaves. -/
def leafParts (es : List (Item × Item)) : List Part :=
  es.map fun e => ⟨e.1, start e.1, e.2, start e.2⟩

/-- A cursor at a map of leaves. -/
def mapCursor (es : List (Item × Item)) : Cursor := ⟨mapBytes (leafParts es), 1, 0⟩

theorem map_entry_leafParts (es : List (Item × Item)) : (leafParts es).map Part.entry = es := by
  simp [leafParts, Part.entry, Function.comp_def]

theorem block_leafParts {es : List (Item × Item)} (hlen : es.length < 65536)
    (hes : ∀ e ∈ es, Leaf e.1 ∧ Leaf e.2) : Block 2 (.map es) (mapBytes (leafParts es)) := by
  have hblock := @block_map 1 (leafParts es) (fun p hp => by
    obtain ⟨e, he, rfl⟩ := List.mem_map.mp hp
    exact ⟨(hes e he).1.block, (hes e he).2.block⟩) (by decide) (by simpa [leafParts] using hlen)
  rwa [map_entry_leafParts] at hblock

theorem shows_map {es : List (Item × Item)} (hlen : es.length < 65536)
    (hes : ∀ e ∈ es, Leaf e.1 ∧ Leaf e.2) : Shows reader reading (mapCursor es) (.map es) := by
  have hshown := (block_leafParts hlen hes).shown [] 0 0
  rwa [List.append_nil] at hshown

end

end NitrokeyFido2.Ctap.Sample
