import Mathlib.Tactic

/-!
Command APDUs of ISO 7816-4 and `apdu_decode`, which takes them apart.

The input of the decoder is a pointer and a length. What lies behind the
pointer is `data : ℕ → UInt8`, since the decoder looks at the fifth byte
before it knows that there is one.
-/

namespace NitrokeyFido2.Nfc

abbrev swSuccess : UInt16 := 0x9000
abbrev swWrongLength : UInt16 := 0x6700
abbrev swCondUseNotSatisfied : UInt16 := 0x6985
abbrev swFileNotFound : UInt16 := 0x6a82
abbrev swIncorrectP1P2 : UInt16 := 0x6a86
abbrev swInsInvalid : UInt16 := 0x6d00
abbrev swClaInvalid : UInt16 := 0x6e00
abbrev swInternalException : UInt16 := 0x6f00

/-! ### The decoder -/

/-- `APDU_STRUCT`; the data pointer is kept as an offset into the input. -/
structure ApduStruct where
  cla : UInt8
  ins : UInt8
  p1 : UInt8
  p2 : UInt8
  lc : ℕ
  data : Option ℕ
  le : ℕ
  extendedApdu : Bool
  caseType : UInt8
  deriving DecidableEq

/-- The `n` bytes from `off` on. -/
def bytesAt (data : ℕ → UInt8) (off n : ℕ) : List UInt8 := (List.range n).map fun i => data (off + i)

/-- A big-endian 16-bit number. -/
def be16 (hi lo : UInt8) : ℕ := 256 * hi.toNat + lo.toNat

/-- A length field that holds zero stands for the first length that does not
fit into it. -/
def orElse (le max : ℕ) : ℕ := if le = 0 then max else le

namespace ApduStruct

/-- The bytes the data pointer points at. -/
def dataBytes (a : ApduStruct) (data : ℕ → UInt8) : List UInt8 :=
  match a.data with
  | none => []
  | some off => bytesAt data off a.lc

/-- The data bytes lie inside an input of `len` bytes. -/
def Inside (a : ApduStruct) (len : ℕ) : Prop :=
  match a.data with
  | none => a.lc = 0
  | some off => off + a.lc ≤ len

/-- The assignments before the first test. -/
def header (data : ℕ → UInt8) : ApduStruct where
  cla := data 0 &&& 0xef
  ins := data 1
  p1 := data 2
  p2 := data 3
  lc := 0
  data := none
  le := 0
  extendedApdu := false
  caseType := 0

/-- The tests for cases 1, 2S, 3S and 4S, one after the other. -/
def decodeShort (data : ℕ → UInt8) (len : ℕ) (a : ApduStruct) : ApduStruct :=
  let b0 := data 4
  let a := if len = 4 then { a with caseType := 0x01 } else a
  let a := if len = 5 then { a with caseType := 0x02, le := orElse b0.toNat 0x100 } else a
  let a := if len = 5 + b0.toNat ∧ b0 ≠ 0 then { a with caseType := 0x03, lc := b0.toNat } else a
  if len = 5 + b0.toNat + 1 ∧ b0 ≠ 0 then
    { a with caseType := 0x04, lc := b0.toNat, le := orElse (data (len - 1)).toNat 0x100 }
  else a

/-- The tests for cases 2E, 3E and 4E, the last with two ways of writing Le. -/
def decodeExtended (data : ℕ → UInt8) (len : ℕ) (a : ApduStruct) : ApduStruct :=
  let extlen := be16 (data 5) (data 6)
  let le := orElse (be16 (data (len - 2)) (data (len - 1))) 0x10000
  let a := if len = 7 then
      { a with caseType := 0x12, extendedApdu := true, le := orElse extlen 0x10000 }
    else a
  let a := if len = 7 + extlen then { a with caseType := 0x13, extendedApdu := true, lc := extlen }
    else a
  let a := if len = 7 + extlen + 2 then
      { a with caseType := 0x14, extendedApdu := true, lc := extlen, le := le }
    else a
  if len = 7 + extlen + 3 ∧ data (len - 3) = 0 then
    { a with caseType := 0x24, extendedApdu := true, lc := extlen, le := le }
  else a

/-- The end of `apdu_decode`: some test must have fired; the data pointer is
set when there is data. -/
def withData (a : ApduStruct) : Except UInt16 ApduStruct :=
  if a.caseType = 0 then .error swCondUseNotSatisfied
  else if a.lc = 0 then .ok a
  else .ok { a with data := some (if a.extendedApdu then 7 else 5) }

end ApduStruct

open ApduStruct

/-- `apdu_decode`. -/
def apduDecode (data : ℕ → UInt8) (len : ℕ) : Except UInt16 ApduStruct :=
  let a := decodeShort data len (header data)
  if 7 ≤ len ∧ data 4 = 0 then
    if len - 7 < be16 (data 5) (data 6) then .error swWrongLength
    else withData (decodeExtended data len a)
  else if 5 < len ∧ len - 5 < (data 4).toNat then .error swWrongLength
  else withData a

/-! ### Command APDUs -/

/-- A data field of at most `max` bytes. -/
abbrev DataField (max : ℕ) : Type := { d : List UInt8 // 0 < d.length ∧ d.length ≤ max }

/-- A number of expected bytes, at most `max`. -/
abbrev Expected (max : ℕ) : Type := { le : ℕ // 0 < le ∧ le ≤ max }

/-- What follows the header of a command APDU, by case. -/
inductive Body
  | case1
  | case2S (le : Expected 256)
  | case3S (d : DataField 255)
  | case4S (d : DataField 255) (le : Expected 256)
  | case2E (le : Expected 65536)
  | case3E (d : DataField 65535)
  | case4E (d : DataField 65535) (le : Expected 65536)

/-- A well-formed command APDU. -/
structure CommandApdu where
  cla : UInt8
  ins : UInt8
  p1 : UInt8
  p2 : UInt8
  body : Body

/-- A 16-bit length field. -/
def field16 (n : ℕ) : List UInt8 := [UInt8.ofNat (n / 256), UInt8.ofNat n]

namespace Body

def data : Body → List UInt8
  | .case1 | .case2S _ | .case2E _ => []
  | .case3S d | .case4S d _ => d.1
  | .case3E d | .case4E d _ => d.1

def le : Body → ℕ
  | .case1 | .case3S _ | .case3E _ => 0
  | .case2S le | .case4S _ le => le.1
  | .case2E le | .case4E _ le => le.1

def extended : Body → Bool
  | .case1 | .case2S _ | .case3S _ | .case4S _ _ => false
  | .case2E _ | .case3E _ | .case4E _ _ => true

def caseType : Body → UInt8
  | .case1 => 0x01
  | .case2S _ => 0x02
  | .case3S _ => 0x03
  | .case4S _ _ => 0x04
  | .case2E _ => 0x12
  | .case3E _ => 0x13
  | .case4E _ _ => 0x14

/-- Where the data field starts in the APDU. -/
def dataOffset : Body → Option ℕ
  | .case1 | .case2S _ | .case2E _ => none
  | .case3S _ | .case4S _ _ => some 5
  | .case3E _ | .case4E _ _ => some 7

def encode : Body → List UInt8
  | .case1 => []
  | .case2S le => [UInt8.ofNat le.1]
  | .case3S d => UInt8.ofNat d.1.length :: d.1
  | .case4S d le => UInt8.ofNat d.1.length :: (d.1 ++ [UInt8.ofNat le.1])
  | .case2E le => 0 :: field16 le.1
  | .case3E d => 0 :: (field16 d.1.length ++ d.1)
  | .case4E d le => 0 :: (field16 d.1.length ++ (d.1 ++ field16 le.1))

end Body

namespace CommandApdu

def encode (c : CommandApdu) : List UInt8 := [c.cla, c.ins, c.p1, c.p2] ++ c.body.encode

/-- What a decoder has to find out about the command. -/
def apdu (c : CommandApdu) : ApduStruct where
  cla := c.cla &&& 0xef
  ins := c.ins
  p1 := c.p1
  p2 := c.p2
  lc := c.body.data.length
  data := c.body.dataOffset
  le := c.body.le
  extendedApdu := c.body.extended
  caseType := c.body.caseType

end CommandApdu

/-- The decoder undoes the encoding on this input: it finds the command whose
bytes these are, and whatever it accepts has its data inside the input. -/
structure Undoes (data : ℕ → UInt8) (len : ℕ) : Prop where
  command : ∀ c : CommandApdu, bytesAt data 0 len = c.encode →
    apduDecode data len = .ok c.apdu ∧ c.apdu.dataBytes data = c.body.data
  inside : ∀ a, apduDecode data len = .ok a → a.Inside len

/-! ### One decoder run for each case -/

section Cases

variable {data : ℕ → UInt8} {len : ℕ}

theorem toNat_ne_zero {b : UInt8} (h : b ≠ 0) : b.toNat ≠ 0 :=
  fun h0 => h (UInt8.toNat_inj.mp h0)

theorem apduDecode_case1 (hlen : len = 4) :
    apduDecode data len = .ok { header data with caseType := 0x01 } := by
  subst hlen
  have h3 : ¬ 4 = 5 + (data 4).toNat := by omega
  have h4 : ¬ 4 = 5 + (data 4).toNat + 1 := by omega
  simp [apduDecode, decodeShort, withData, header, h3, h4]

theorem apduDecode_case2S (hlen : len = 5) :
    apduDecode data len =
      .ok { header data with caseType := 0x02, le := orElse (data 4).toNat 0x100 } := by
  subst hlen
  have h3 : ¬ (5 = 5 + (data 4).toNat ∧ data 4 ≠ 0) := by
    rintro ⟨h, hne⟩
    exact toNat_ne_zero hne (by omega)
  have h4 : ¬ 5 = 5 + (data 4).toNat + 1 := by omega
  simp only [apduDecode, decodeShort, if_neg h3, h4]
  simp [withData, header]

theorem apduDecode_case3S (h : data 4 ≠ 0) (hlen : len = 5 + (data 4).toNat) :
    apduDecode data len =
      .ok { header data with caseType := 0x03, lc := (data 4).toNat, data := some 5 } := by
  have hne := toNat_ne_zero h
  have h1 : ¬ len = 4 := by omega
  have h2 : ¬ len = 5 := by omega
  have h3 : len = 5 + (data 4).toNat ∧ data 4 ≠ 0 := ⟨hlen, h⟩
  have h4 : ¬ (len = 5 + (data 4).toNat + 1 ∧ data 4 ≠ 0) := by omega
  have hshort : ¬ (5 < len ∧ len - 5 < (data 4).toNat) := by omega
  simp only [apduDecode, decodeShort, if_neg h1, if_neg h2, if_pos h3, if_neg h4, if_neg hshort]
  simp [withData, header, h, hne]

theorem apduDecode_case4S (h : data 4 ≠ 0) (hlen : len = 5 + (data 4).toNat + 1) :
    apduDecode data len =
      .ok { header data with
        caseType := 0x04, lc := (data 4).toNat, le := orElse (data (len - 1)).toNat 0x100,
        data := some 5 } := by
  have hne := toNat_ne_zero h
  have h1 : ¬ len = 4 := by omega
  have h2 : ¬ len = 5 := by omega
  have h3 : ¬ (len = 5 + (data 4).toNat ∧ data 4 ≠ 0) := by omega
  have h4 : len = 5 + (data 4).toNat + 1 ∧ data 4 ≠ 0 := ⟨hlen, h⟩
  have hshort : ¬ (5 < len ∧ len - 5 < (data 4).toNat) := by omega
  simp only [apduDecode, decodeShort, if_neg h1, if_neg h2, if_neg h3, if_pos h4, if_neg hshort]
  simp [withData, header, h, hne]

/-- With a zero fifth byte none of the short tests fires from seven bytes on. -/
theorem decodeShort_of_zero {a : ApduStruct} (h : data 4 = 0) (hlen : 7 ≤ len) :
    decodeShort data len a = a := by
  have h1 : ¬ len = 4 := by omega
  have h2 : ¬ len = 5 := by omega
  simp [decodeShort, h, h1, h2]

theorem apduDecode_case3E (h : data 4 = 0) (hext : be16 (data 5) (data 6) ≠ 0)
    (hlen : len = 7 + be16 (data 5) (data 6)) :
    apduDecode data len =
      .ok { header data with
        caseType := 0x13, lc := be16 (data 5) (data 6), extendedApdu := true, data := some 7 } := by
  have h2 : ¬ len = 7 := by omega
  have h4 : ¬ len = 7 + be16 (data 5) (data 6) + 2 := by omega
  have h4' : ¬ (len = 7 + be16 (data 5) (data 6) + 3 ∧ data (len - 3) = 0) := by omega
  have hle : 7 ≤ len := by omega
  have hshort : ¬ len - 7 < be16 (data 5) (data 6) := by omega
  simp only [apduDecode, decodeShort_of_zero h hle, if_pos (And.intro hle h), if_neg hshort,
    decodeExtended, if_neg h2, if_pos hlen, if_neg h4, if_neg h4']
  simp [withData, header, hext]

theorem apduDecode_case4E (h : data 4 = 0) (hext : be16 (data 5) (data 6) ≠ 0)
    (hlen : len = 7 + be16 (data 5) (data 6) + 2) :
    apduDecode data len =
      .ok { header data with
        caseType := 0x14, lc := be16 (data 5) (data 6), extendedApdu := true, data := some 7,
        le := orElse (be16 (data (len - 2)) (data (len - 1))) 0x10000 } := by
  have h2 : ¬ len = 7 := by omega
  have h3 : ¬ len = 7 + be16 (data 5) (data 6) := by omega
  have h4' : ¬ (len = 7 + be16 (data 5) (data 6) + 3 ∧ data (len - 3) = 0) := by omega
  have hle : 7 ≤ len := by omega
  have hshort : ¬ len - 7 < be16 (data 5) (data 6) := by omega
  simp only [apduDecode, decodeShort_of_zero h hle, if_pos (And.intro hle h), if_neg hshort,
    decodeExtended, if_neg h2, if_neg h3, if_pos hlen, if_neg h4']
  simp [withData, header, hext]

/-- The early length check takes the expected length of case 2E for a data
length; a zero one passes it and is then taken for an empty case 3E. -/
theorem apduDecode_case2E (h : data 4 = 0) (hlen : len = 7) :
    apduDecode data len =
      if be16 (data 5) (data 6) = 0 then
        .ok { header data with caseType := 0x13, extendedApdu := true, le := 0x10000 }
      else .error swWrongLength := by
  subst hlen
  by_cases hext : be16 (data 5) (data 6) = 0
  · simp only [apduDecode, decodeShort_of_zero h le_rfl, h, decodeExtended, hext]
    simp [withData, header, orElse]
  · have hlt : 0 < be16 (data 5) (data 6) := by omega
    simp [apduDecode, h, hlt, hext]

/-! ### What an accepted input looks like -/

/-- A test that fires overwrites what the tests before it found. -/
theorem test_keeps {P : ApduStruct → Prop} {c : Prop} [Decidable c] {a b : ApduStruct}
    (ha : P a) (hb : c → P a → P b) : P (if c then b else a) := by
  by_cases hc : c
  · rw [if_pos hc]
    exact hb hc ha
  · rw [if_neg hc]
    exact ha

/-- The lengths found so far leave the data inside the input. -/
def Sound (len : ℕ) (a : ApduStruct) : Prop :=
  a.data = none ∧ (a.lc = 0 ∨ (if a.extendedApdu then 7 else 5) + a.lc ≤ len)

theorem decodeShort_sound : Sound len (decodeShort data len (header data)) := by
  let P (a : ApduStruct) : Prop := a.data = none ∧ a.extendedApdu = false ∧ (a.lc = 0 ∨ 5 + a.lc ≤ len)
  have hP : P (decodeShort data len (header data)) := by
    refine test_keeps (P := P) (test_keeps (P := P) (test_keeps (P := P) (test_keeps (P := P)
      ⟨rfl, rfl, .inl rfl⟩ ?_) ?_) ?_) ?_
    · exact fun _ ha => ha
    · exact fun _ ha => ha
    · exact fun hc ha => ⟨ha.1, ha.2.1, .inr hc.1.ge⟩
    · exact fun hc ha => ⟨ha.1, ha.2.1, .inr (by
        show 5 + (data 4).toNat ≤ len
        omega)⟩
  refine ⟨hP.1, ?_⟩
  rw [hP.2.1]
  exact hP.2.2

theorem decodeExtended_sound : Sound len (decodeExtended data len (header data)) := by
  let P (a : ApduStruct) : Prop :=
    a.data = none ∧ (a.lc = 0 ∨ a.extendedApdu = true ∧ 7 + a.lc ≤ len)
  have hP : P (decodeExtended data len (header data)) := by
    refine test_keeps (P := P) (test_keeps (P := P) (test_keeps (P := P) (test_keeps (P := P)
      ⟨rfl, .inl rfl⟩ ?_) ?_) ?_) ?_
    · exact fun hc ha => ⟨ha.1, .inl rfl⟩
    · exact fun hc ha => ⟨ha.1, .inr ⟨rfl, hc.ge⟩⟩
    · exact fun hc ha => ⟨ha.1, .inr ⟨rfl, by
        show 7 + be16 (data 5) (data 6) ≤ len
        omega⟩⟩
    · exact fun hc ha => ⟨ha.1, .inr ⟨rfl, by
        show 7 + be16 (data 5) (data 6) ≤ len
        omega⟩⟩
  refine ⟨hP.1, hP.2.imp_right ?_⟩
  rintro ⟨hext, hle⟩
  rw [hext]
  exact hle

/-- The header fields found before the first test. -/
def SameHeader (a b : ApduStruct) : Prop := a.cla = b.cla ∧ a.ins = b.ins ∧ a.p1 = b.p1 ∧ a.p2 = b.p2

theorem decodeShort_header (a : ApduStruct) : SameHeader (decodeShort data len a) a :=
  test_keeps (P := (SameHeader · a)) (test_keeps (P := (SameHeader · a)) (test_keeps
    (P := (SameHeader · a)) (test_keeps (P := (SameHeader · a)) ⟨rfl, rfl, rfl, rfl⟩
      fun _ h => h) fun _ h => h) fun _ h => h) fun _ h => h

theorem decodeExtended_header (a : ApduStruct) : SameHeader (decodeExtended data len a) a :=
  test_keeps (P := (SameHeader · a)) (test_keeps (P := (SameHeader · a)) (test_keeps
    (P := (SameHeader · a)) (test_keeps (P := (SameHeader · a)) ⟨rfl, rfl, rfl, rfl⟩
      fun _ h => h) fun _ h => h) fun _ h => h) fun _ h => h

theorem withData_header {a b : ApduStruct} (h : withData a = .ok b) : SameHeader b a := by
  unfold withData at h
  split_ifs at h <;> cases h <;> exact ⟨rfl, rfl, rfl, rfl⟩

theorem withData_inside {a b : ApduStruct} (ha : Sound len a) (h : withData a = .ok b) :
    b.Inside len := by
  unfold withData at h
  by_cases hcase : a.caseType = 0
  · rw [if_pos hcase] at h
    cases h
  rw [if_neg hcase] at h
  by_cases hlc : a.lc = 0
  · rw [if_pos hlc, Except.ok.injEq] at h
    subst h
    rw [Inside, ha.1]
    exact hlc
  · rw [if_neg hlc, Except.ok.injEq] at h
    subst h
    exact ha.2.resolve_left hlc

/-- Whatever is accepted has its data inside the input. -/
theorem apduDecode_inside {a : ApduStruct} (h : apduDecode data len = .ok a) : a.Inside len := by
  unfold apduDecode at h
  by_cases hext : 7 ≤ len ∧ data 4 = 0
  · simp only [if_pos hext, decodeShort_of_zero hext.2 hext.1] at h
    by_cases hshort : len - 7 < be16 (data 5) (data 6)
    · rw [if_pos hshort] at h
      cases h
    · rw [if_neg hshort] at h
      exact withData_inside decodeExtended_sound h
  · simp only [if_neg hext] at h
    by_cases hshort : 5 < len ∧ len - 5 < (data 4).toNat
    · rw [if_pos hshort] at h
      cases h
    · rw [if_neg hshort] at h
      exact withData_inside decodeShort_sound h

theorem ApduStruct.Inside.length_dataBytes {a : ApduStruct} (h : a.Inside len) :
    (a.dataBytes data).length = a.lc := by
  unfold ApduStruct.Inside at h
  unfold dataBytes
  split
  · next hnone =>
      rw [hnone] at h
      exact h.symm
  · rw [bytesAt, List.length_map, List.length_range]

theorem ApduStruct.Inside.lc_le {a : ApduStruct} (h : a.Inside len) : a.lc ≤ len := by
  unfold ApduStruct.Inside at h
  split at h <;> omega

/-- An accepted input has a header and is no longer than an extended APDU. -/
theorem apduDecode_len {a : ApduStruct} (h : apduDecode data len = .ok a) : 4 ≤ len ∧ len ≤ 65545 := by
  have h4 := (data 4).toNat_lt
  have hext : be16 (data 5) (data 6) ≤ 65535 := by
    have h5 := (data 5).toNat_lt
    have h6 := (data 6).toNat_lt
    unfold be16
    omega
  let P (a : ApduStruct) : Prop := a.caseType ≠ 0 → 4 ≤ len ∧ len ≤ 65545
  have hshort : P (decodeShort data len (header data)) := by
    refine test_keeps (P := P) (test_keeps (P := P) (test_keeps (P := P) (test_keeps (P := P)
      (fun h => absurd rfl h) ?_) ?_) ?_) ?_ <;> exact fun hc _ _ => by omega
  have hlong : P (decodeExtended data len (decodeShort data len (header data))) := by
    refine test_keeps (P := P) (test_keeps (P := P) (test_keeps (P := P) (test_keeps (P := P)
      hshort ?_) ?_) ?_) ?_ <;> exact fun hc _ _ => by omega
  have hcase : ∀ {b}, P b → withData b = .ok a → 4 ≤ len ∧ len ≤ 65545 := by
    intro b hb hok
    refine hb fun hzero => ?_
    rw [withData, if_pos hzero] at hok
    cases hok
  unfold apduDecode at h
  dsimp only at h
  split_ifs at h
  · exact hcase hlong h
  · exact hcase hshort h

theorem apduDecode_header {a : ApduStruct} (h : apduDecode data len = .ok a) :
    SameHeader a (header data) := by
  have trans : ∀ {x y z : ApduStruct}, SameHeader x y → SameHeader y z → SameHeader x z :=
    fun h₁ h₂ => ⟨h₁.1.trans h₂.1, h₁.2.1.trans h₂.2.1, h₁.2.2.1.trans h₂.2.2.1,
      h₁.2.2.2.trans h₂.2.2.2⟩
  unfold apduDecode at h
  dsimp only at h
  split_ifs at h
  · exact trans (withData_header h) (trans (decodeExtended_header _) (decodeShort_header _))
  · exact trans (withData_header h) (decodeShort_header _)

end Cases

/-! ### Decoding an encoded command -/

theorem be16_field16 (n : ℕ) :
    be16 (UInt8.ofNat (n / 256)) (UInt8.ofNat n) = n % 65536 := by
  rw [be16, UInt8.toNat_ofNat', UInt8.toNat_ofNat']
  omega

theorem orElse_short (le : Expected 256) : orElse (UInt8.ofNat le.1).toNat 0x100 = le.1 := by
  obtain ⟨le, hpos, hmax⟩ := le
  rw [UInt8.toNat_ofNat', orElse]
  split_ifs with h <;> dsimp only at h ⊢ <;> omega

theorem orElse_extended (le : Expected 65536) :
    orElse (be16 (UInt8.ofNat (le.1 / 256)) (UInt8.ofNat le.1)) 0x10000 = le.1 := by
  obtain ⟨le, hpos, hmax⟩ := le
  rw [be16_field16, orElse]
  split_ifs with h <;> dsimp only at h ⊢ <;> omega

@[simp] theorem length_bytesAt (data : ℕ → UInt8) (off n : ℕ) : (bytesAt data off n).length = n := by
  rw [bytesAt, List.length_map, List.length_range]

theorem getElem?_bytesAt (data : ℕ → UInt8) {off n i : ℕ} (hi : i < n) :
    (bytesAt data off n)[i]? = some (data (off + i)) := by
  rw [bytesAt, List.getElem?_map, List.getElem?_range hi, Option.map_some]

/-- An input that holds a byte string, read byte by byte. -/
theorem data_of_bytesAt {data : ℕ → UInt8} {len : ℕ} {l : List UInt8} (h : bytesAt data 0 len = l)
    {i : ℕ} {b : UInt8} (hi : l[i]? = some b) : data i = b := by
  subst h
  have hlt : i < len := by
    by_contra hge
    rw [List.getElem?_eq_none (by rw [length_bytesAt]; omega)] at hi
    cases hi
  rw [getElem?_bytesAt data hlt, Nat.zero_add, Option.some.injEq] at hi
  exact hi

theorem data_of_tail {data : ℕ → UInt8} {len : ℕ} {p q : List UInt8}
    (h : bytesAt data 0 len = p ++ q) {i : ℕ} {b : UInt8} (hi : q[i]? = some b) :
    data (p.length + i) = b := by
  refine data_of_bytesAt h ?_
  rw [List.getElem?_append_right (Nat.le_add_right ..), Nat.add_sub_cancel_left, hi]

/-- An input that holds a byte string holds its parts. -/
theorem bytesAt_part {data : ℕ → UInt8} {len : ℕ} {p l q : List UInt8}
    (h : bytesAt data 0 len = p ++ l ++ q) : bytesAt data p.length l.length = l := by
  apply List.ext_getElem?
  intro i
  by_cases hi : i < l.length
  · rw [getElem?_bytesAt data hi, List.getElem?_eq_getElem hi]
    rw [List.append_assoc] at h
    refine congrArg some (data_of_tail h ?_)
    rw [List.getElem?_append_left hi, List.getElem?_eq_getElem hi]
  · rw [List.getElem?_eq_none (by rw [length_bytesAt]; omega), List.getElem?_eq_none (by omega)]

theorem header_of_encode {data : ℕ → UInt8} {len : ℕ} {c : CommandApdu}
    (h : bytesAt data 0 len = c.encode) :
    header data = { c.apdu with lc := 0, data := none, le := 0, extendedApdu := false, caseType := 0 } := by
  have h0 : data 0 = c.cla := data_of_bytesAt h rfl
  have h1 : data 1 = c.ins := data_of_bytesAt h rfl
  have h2 : data 2 = c.p1 := data_of_bytesAt h rfl
  have h3 : data 3 = c.p2 := data_of_bytesAt h rfl
  simp only [header, CommandApdu.apdu, h0, h1, h2, h3]

theorem length_of_encode {data : ℕ → UInt8} {len : ℕ} {c : CommandApdu}
    (h : bytesAt data 0 len = c.encode) : len = 4 + c.body.encode.length := by
  have := congrArg List.length h
  rw [length_bytesAt, CommandApdu.encode, List.length_append] at this
  exact this

/-- The length field of a number in range, read back as bytes. -/
theorem field16_orElse (hi lo : UInt8) : field16 (orElse (be16 hi lo) 0x10000) = [hi, lo] := by
  have hhi := hi.toNat_lt
  have hlo := lo.toNat_lt
  unfold orElse
  split_ifs with h
  · have h0 : hi = 0 := UInt8.toNat_inj.mp (by unfold be16 at h; simp; omega)
    have h1 : lo = 0 := UInt8.toNat_inj.mp (by unfold be16 at h; simp; omega)
    rw [h0, h1]
    rfl
  · unfold be16 field16
    congr 1
    · apply UInt8.toNat_inj.mp
      rw [UInt8.toNat_ofNat']
      omega
    · congr 1
      apply UInt8.toNat_inj.mp
      rw [UInt8.toNat_ofNat']
      omega

theorem toNat_length (d : DataField 255) : (UInt8.ofNat d.1.length).toNat = d.1.length := by
  have := d.2
  rw [UInt8.toNat_ofNat']
  omega

theorem ofNat_length_ne_zero (d : DataField 255) : UInt8.ofNat d.1.length ≠ 0 := by
  intro h
  have := congrArg UInt8.toNat h
  rw [toNat_length] at this
  exact d.2.1.ne' this

theorem be16_length (d : DataField 65535) :
    be16 (UInt8.ofNat (d.1.length / 256)) (UInt8.ofNat d.1.length) = d.1.length := by
  have := d.2
  rw [be16_field16]
  omega

/-- Every case but 2E is decoded. -/
theorem apduDecode_command {data : ℕ → UInt8} {len : ℕ} {c : CommandApdu}
    (h : bytesAt data 0 len = c.encode) (h2E : ∀ le, c.body ≠ .case2E le) :
    apduDecode data len = .ok c.apdu ∧ c.apdu.dataBytes data = c.body.data := by
  have hheader := header_of_encode h
  have hlen := length_of_encode h
  obtain ⟨cla, ins, p1, p2, body⟩ := c
  cases body with
  | case1 =>
      refine ⟨?_, rfl⟩
      rw [apduDecode_case1 hlen, hheader]
      rfl
  | case2S le =>
      have h4 : data 4 = UInt8.ofNat le.1 := data_of_bytesAt h rfl
      refine ⟨?_, rfl⟩
      rw [apduDecode_case2S hlen, hheader, h4, orElse_short]
      rfl
  | case3S d =>
      have h4 : data 4 = UInt8.ofNat d.1.length := data_of_bytesAt h rfl
      have hpart : bytesAt data 5 d.1.length = d.1 :=
        bytesAt_part (p := [cla, ins, p1, p2, UInt8.ofNat d.1.length]) (q := []) (by
          rw [h, List.append_nil]
          rfl)
      refine ⟨?_, hpart⟩
      rw [apduDecode_case3S (by rw [h4]; exact ofNat_length_ne_zero d), hheader, h4, toNat_length]
      · rfl
      · rw [h4, toNat_length, hlen]
        simp only [Body.encode, List.length_cons]
        omega
  | case4S d le =>
      have h4 : data 4 = UInt8.ofNat d.1.length := data_of_bytesAt h rfl
      have hlen' : len = 5 + d.1.length + 1 := by
        rw [hlen]
        simp only [Body.encode, List.length_cons, List.length_append, List.length_nil]
        omega
      have hpart : bytesAt data 5 d.1.length = d.1 :=
        bytesAt_part (p := [cla, ins, p1, p2, UInt8.ofNat d.1.length])
          (q := [UInt8.ofNat le.1]) (by rw [h]; rfl)
      have htail : bytesAt data 0 len =
          [cla, ins, p1, p2, UInt8.ofNat d.1.length] ++ d.1 ++ [UInt8.ofNat le.1] := by
        rw [h]
        rfl
      have hle : data (len - 1) = UInt8.ofNat le.1 := by
        rw [← data_of_tail htail (i := 0) rfl]
        simp only [List.length_append, List.length_cons, List.length_nil]
        congr 1
        omega
      refine ⟨?_, hpart⟩
      rw [apduDecode_case4S (by rw [h4]; exact ofNat_length_ne_zero d), hheader, h4, toNat_length,
        hle, orElse_short]
      · rfl
      · rw [h4, toNat_length, hlen']
  | case2E le => exact absurd rfl (h2E le)
  | case3E d =>
      have h4 : data 4 = 0 := data_of_bytesAt h rfl
      have hext : be16 (data 5) (data 6) = d.1.length := by
        rw [data_of_bytesAt h rfl, data_of_bytesAt h (i := 6) rfl, be16_length]
      have hpart : bytesAt data 7 d.1.length = d.1 :=
        bytesAt_part (p := [cla, ins, p1, p2, 0] ++ field16 d.1.length) (q := []) (by
          rw [h, List.append_nil]
          rfl)
      refine ⟨?_, hpart⟩
      rw [apduDecode_case3E h4 (by rw [hext]; exact d.2.1.ne'), hheader, hext]
      · rfl
      · rw [hext, hlen]
        simp only [Body.encode, field16, List.length_cons, List.length_append, List.length_nil]
        omega
  | case4E d le =>
      have h4 : data 4 = 0 := data_of_bytesAt h rfl
      have hext : be16 (data 5) (data 6) = d.1.length := by
        rw [data_of_bytesAt h rfl, data_of_bytesAt h (i := 6) rfl, be16_length]
      have hlen' : len = 7 + d.1.length + 2 := by
        rw [hlen]
        simp only [Body.encode, field16, List.length_cons, List.length_append, List.length_nil]
        omega
      have hpart : bytesAt data 7 d.1.length = d.1 :=
        bytesAt_part (p := [cla, ins, p1, p2, 0] ++ field16 d.1.length) (q := field16 le.1) (by
          rw [h]
          rfl)
      have htail : bytesAt data 0 len =
          [cla, ins, p1, p2, 0] ++ field16 d.1.length ++ d.1 ++ field16 le.1 := by
        rw [h]
        rfl
      have hle : be16 (data (len - 2)) (data (len - 1)) =
          be16 (UInt8.ofNat (le.1 / 256)) (UInt8.ofNat le.1) := by
        rw [← data_of_tail htail (i := 0) rfl, ← data_of_tail htail (i := 1) rfl]
        simp only [field16, List.length_append, List.length_cons, List.length_nil]
        congr 2 <;> omega
      refine ⟨?_, hpart⟩
      rw [apduDecode_case4E h4 (by rw [hext]; exact d.2.1.ne'), hheader, hext, hle, orElse_extended]
      · rfl
      · rw [hext, hlen']

/-- The decoder undoes the encoding except in case 2E: a non-zero Le is taken
for the length of data that is not there, and a zero one decodes as case 3E. -/
theorem apduDecode_undoes_iff (data : ℕ → UInt8) (len : ℕ) :
    Undoes data len ↔ ¬ (len = 7 ∧ data 4 = 0) := by
  constructor
  · rintro hundoes ⟨rfl, h4⟩
    -- the command these seven bytes are
    let le : Expected 65536 := ⟨orElse (be16 (data 5) (data 6)) 0x10000, by
      have h5 := (data 5).toNat_lt
      have h6 := (data 6).toNat_lt
      unfold orElse be16
      split_ifs <;> omega⟩
    have henc : bytesAt data 0 7 = (⟨data 0, data 1, data 2, data 3, .case2E le⟩ : CommandApdu).encode := by
      show [data 0, data 1, data 2, data 3, data 4, data 5, data 6] =
        [data 0, data 1, data 2, data 3] ++ 0 :: field16 le.1
      rw [h4, field16_orElse]
      rfl
    have hdec := (hundoes.command _ henc).1
    rw [apduDecode_case2E h4 rfl] at hdec
    by_cases hext : be16 (data 5) (data 6) = 0
    · rw [if_pos hext, Except.ok.injEq] at hdec
      have hcase : (0x13 : UInt8) = 0x12 := congrArg ApduStruct.caseType hdec
      exact absurd hcase (by decide)
    · rw [if_neg hext] at hdec
      cases hdec
  · intro hne
    refine ⟨fun c hc => apduDecode_command hc ?_, fun a ha => apduDecode_inside ha⟩
    intro le hbody
    refine hne ⟨?_, ?_⟩
    · rw [length_of_encode hc, hbody]
      rfl
    · refine data_of_bytesAt hc ?_
      rw [CommandApdu.encode, hbody]
      rfl

/-- READ BINARY for up to 256 bytes, with an extended length field. -/
theorem apduDecode_counterexample :
    ¬ Undoes (fun i => [0x00, 0xb0, 0x00, 0x00, 0x00, 0x01, 0x00].getD i 0) 7 := by
  intro h
  have hdec := (h.command ⟨0x00, 0xb0, 0x00, 0x00, .case2E ⟨256, by decide⟩⟩ (by decide)).1
  exact absurd hdec (by decide)

end NitrokeyFido2.Nfc
