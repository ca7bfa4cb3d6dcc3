import Mathlib.Data.Nat.Digits.Lemmas
import Mathlib.Tactic

/-!
Distinguished encoding of pairs of natural numbers.

An element is a tag, a length below 128 in one byte and its content. The content
of a natural number is its bytes, the most significant one first: as few as there
can be, with a zero byte in front where the sign bit would be set. A pair is an
element around two of them.

The decoder takes nothing else: it reads back what was encoded, and what it reads
is what the encoder writes.
-/

namespace Der

/-! ### Bytes of a number -/

/-- The number that bytes stand for, the most significant one first. -/
def beNat (b : List UInt8) : ℕ := Nat.ofDigits 256 (b.map UInt8.toNat).reverse

/-- The bytes of a number, none of them a zero in front. -/
def magnitude (n : ℕ) : List UInt8 := ((Nat.digits 256 n).map UInt8.ofNat).reverse

@[simp] theorem beNat_zero_cons (b : List UInt8) : beNat (0 :: b) = beNat b := by
  simp [beNat, Nat.ofDigits_append]

theorem beNat_magnitude (n : ℕ) : beNat (magnitude n) = n := by
  have hbytes : (Nat.digits 256 n).map (UInt8.toNat ∘ UInt8.ofNat) = Nat.digits 256 n := by
    conv_rhs => rw [← List.map_id (Nat.digits 256 n)]
    refine List.map_congr_left fun d hd => ?_
    have hlt : d < 256 := Nat.digits_lt_base (by decide) hd
    simp [Nat.mod_eq_of_lt hlt]
  simp [beNat, magnitude, hbytes, Nat.ofDigits_digits]

/-- Bytes without a zero in front are all there is of their number. -/
theorem magnitude_beNat_of_head {b : List UInt8} (h : b.head? ≠ some 0) :
    magnitude (beNat b) = b := by
  have hdigits : Nat.digits 256 (beNat b) = (b.map UInt8.toNat).reverse := by
    refine Nat.digits_ofDigits 256 (by decide) _ (fun d hd => ?_) fun hne => ?_
    · obtain ⟨x, -, rfl⟩ := List.mem_map.mp (List.mem_reverse.mp hd)
      exact x.toNat_lt
    · cases b with
      | nil => simp at hne
      | cons x b =>
          have hx : x ≠ 0 := by simpa using h
          simpa [← UInt8.toNat_inj] using hx
  simp [magnitude, hdigits, Function.comp_def]

theorem beNat_dropWhile (b : List UInt8) : beNat (b.dropWhile (· = 0)) = beNat b := by
  induction b with
  | nil => rfl
  | cons x b ih =>
      by_cases hx : x = 0
      · simp [hx, ih]
      · simp [hx]

/-- The bytes of a number are what is left when the zeros in front go. -/
theorem magnitude_beNat (b : List UInt8) : magnitude (beNat b) = b.dropWhile (· = 0) := by
  rw [← beNat_dropWhile]
  apply magnitude_beNat_of_head
  intro h
  have hhead := List.head?_dropWhile_not (p := fun x : UInt8 => decide (x = 0)) b
  rw [h] at hhead
  simp at hhead

theorem length_magnitude_beNat (b : List UInt8) : (magnitude (beNat b)).length ≤ b.length := by
  rw [magnitude_beNat]
  exact (List.dropWhile_sublist _).length_le

/-! ### Encoding -/

/-- The content of a number: its bytes, one at least and the sign bit clear. -/
def content (n : ℕ) : List UInt8 :=
  match magnitude n with
  | [] => [0]
  | x :: b => if 0x80 ≤ x then 0 :: x :: b else x :: b

/-- An element: the tag, the length and the content. -/
def element (tag : UInt8) (c : List UInt8) : List UInt8 := tag :: UInt8.ofNat c.length :: c

/-- `INTEGER`. -/
def integer (n : ℕ) : List UInt8 := element 0x02 (content n)

/-- `SEQUENCE { INTEGER r, INTEGER s }`. -/
def pair (r s : ℕ) : List UInt8 := element 0x30 (integer r ++ integer s)

@[simp] theorem length_element (tag : UInt8) (c : List UInt8) :
    (element tag c).length = 2 + c.length := by
  simp [element]
  omega

theorem beNat_content (n : ℕ) : beNat (content n) = n := by
  have hn := beNat_magnitude n
  unfold content
  split
  case h_1 h => simpa [h] using hn
  case h_2 x b h =>
      rw [h] at hn
      split
      · simpa using hn
      · exact hn

theorem length_content_le (n : ℕ) : (content n).length ≤ (magnitude n).length + 1 := by
  unfold content
  split
  case h_1 h => simp
  case h_2 x b h =>
      split
      · simp [h]
      · simp [h]

/-! ### Decoding -/

/-- The next element, when it has this tag: its content and what follows. -/
def readElement (tag : UInt8) : List UInt8 → Option (List UInt8 × List UInt8)
  | t :: l :: rest =>
      if t = tag ∧ l < 0x80 ∧ l.toNat ≤ rest.length then
        some (rest.take l.toNat, rest.drop l.toNat)
      else none
  | _ => none

/-- Content with no byte to spare and the sign bit clear. -/
def minimal : List UInt8 → Bool
  | [] => false
  | [x] => x < 0x80
  | x :: y :: _ => if x = 0 then 0x80 ≤ y else x < 0x80

/-- The number of a content, refused when it is not minimal. -/
def readContent (c : List UInt8) : Option ℕ := if minimal c then some (beNat c) else none

/-- The next `INTEGER` and what follows. -/
def readInteger (l : List UInt8) : Option (ℕ × List UInt8) :=
  (readElement 0x02 l).bind fun e => (readContent e.1).map fun n => (n, e.2)

/-- A `SEQUENCE` of two numbers and nothing else. -/
def readPair (l : List UInt8) : Option (ℕ × ℕ) :=
  (readElement 0x30 l).bind fun e =>
    if e.2 ≠ [] then none
    else (readInteger e.1).bind fun r => (readInteger r.2).bind fun s =>
      if s.2 ≠ [] then none else some (r.1, s.1)

theorem minimal_content (n : ℕ) : minimal (content n) = true := by
  have hhead : ∀ x b, magnitude n = x :: b → x ≠ 0 := by
    intro x b h hx
    have hdrop := magnitude_beNat (magnitude n)
    rw [beNat_magnitude, h, hx] at hdrop
    have hlen := congrArg List.length hdrop
    have hle := (List.dropWhile_sublist (fun x : UInt8 => decide (x = 0)) (l := b)).length_le
    simp at hlen
    omega
  unfold content
  split
  case h_1 h => rfl
  case h_2 x b h =>
      have hx := hhead x b h
      split
      case isTrue htop => simpa [minimal] using htop
      case isFalse htop =>
          cases b with
          | nil => simpa [minimal] using htop
          | cons y b => simpa [minimal, hx] using htop

/-- A minimal content is the one of its number. -/
theorem content_beNat {c : List UInt8} (h : minimal c = true) : content (beNat c) = c := by
  match c with
  | [x] =>
      by_cases hx : x = 0
      · simp [content, magnitude_beNat, hx]
      · simp [content, magnitude_beNat, hx]
        simpa [minimal] using h
  | x :: y :: b =>
      by_cases hx : x = 0
      · have hy : 0x80 ≤ y := by simpa [minimal, hx] using h
        have hy0 : y ≠ 0 := by
          rintro rfl
          exact absurd hy (by decide)
        simp [content, magnitude_beNat, hx, hy0, hy]
      · have hlt : x < 0x80 := by simpa [minimal, hx] using h
        simp [content, magnitude_beNat, hx, hlt]

theorem readContent_eq_some {c : List UInt8} {n : ℕ} : readContent c = some n ↔ c = content n := by
  unfold readContent
  constructor
  · intro h
    split at h
    case isTrue hc =>
        cases h
        exact (content_beNat hc).symm
    case isFalse => cases h
  · rintro rfl
    rw [if_pos (minimal_content n), beNat_content]

/-- An element is read back, whatever follows. -/
theorem readElement_append {tag : UInt8} {c : List UInt8} (h : c.length < 128) (rest : List UInt8) :
    readElement tag (element tag c ++ rest) = some (c, rest) := by
  have hlen : (UInt8.ofNat c.length).toNat = c.length := by
    simp
    omega
  have hlt : UInt8.ofNat c.length < 0x80 := by
    rw [UInt8.lt_iff_toNat_lt, hlen]
    exact h
  simp [element, readElement, hlen, hlt]

theorem readElement_eq_some {tag : UInt8} {l c rest : List UInt8}
    (h : readElement tag l = some (c, rest)) : l = element tag c ++ rest := by
  match l with
  | t :: k :: l =>
      simp only [readElement] at h
      split at h
      case isTrue hk =>
          obtain ⟨rfl, -, hle⟩ := hk
          obtain ⟨rfl, rfl⟩ : l.take k.toNat = c ∧ l.drop k.toNat = rest := by simpa using h
          simp [element, Nat.min_eq_left hle]
      case isFalse => cases h
  | [_] => cases h
  | [] => cases h

theorem readInteger_append {n : ℕ} (h : (content n).length < 128) (rest : List UInt8) :
    readInteger (integer n ++ rest) = some (n, rest) := by
  simp [readInteger, integer, readElement_append h, readContent_eq_some.mpr rfl]

theorem readInteger_eq_some {l rest : List UInt8} {n : ℕ} (h : readInteger l = some (n, rest)) :
    l = integer n ++ rest := by
  obtain ⟨⟨c, rest'⟩, he, hc⟩ := Option.bind_eq_some_iff.mp h
  obtain ⟨m, hm, heq⟩ := Option.map_eq_some_iff.mp hc
  cases heq
  have hcontent : c = content n := readContent_eq_some.mp hm
  rw [readElement_eq_some he, hcontent]
  rfl

/-- What was encoded is read back. -/
theorem readPair_pair {r s : ℕ} (h : (integer r ++ integer s).length < 128) :
    readPair (pair r s) = some (r, s) := by
  have hlen : 2 + (content r).length + (2 + (content s).length) < 128 := by
    simpa [integer] using h
  have hpair := @readElement_append 0x30 _ h []
  have hr := readInteger_append (n := r) (by omega) (integer s)
  have hs := readInteger_append (n := s) (by omega) []
  rw [List.append_nil] at hpair hs
  simp [readPair, pair, hpair, hr, hs]

/-- What is read is what the encoder writes. -/
theorem eq_pair_of_readPair {l : List UInt8} {r s : ℕ} (h : readPair l = some (r, s)) :
    l = pair r s := by
  obtain ⟨⟨c, rest⟩, he, h⟩ := Option.bind_eq_some_iff.mp h
  split at h
  case isTrue => cases h
  case isFalse hrest =>
      obtain ⟨⟨n, mid⟩, hr, h⟩ := Option.bind_eq_some_iff.mp h
      obtain ⟨⟨m, last⟩, hs, h⟩ := Option.bind_eq_some_iff.mp h
      split at h
      case isTrue => cases h
      case isFalse hlast =>
          cases h
          have hrest : rest = [] := not_not.mp hrest
          have hlast : last = [] := not_not.mp hlast
          subst hrest hlast
          have hmid : mid = integer m := by simpa using readInteger_eq_some hs
          have hc : c = integer n ++ mid := readInteger_eq_some hr
          rw [readElement_eq_some he, List.append_nil, hc, hmid]
          rfl

/-- There is one encoding of a pair. -/
theorem readPair_eq_some {l : List UInt8} {r s : ℕ} (h : (integer r ++ integer s).length < 128) :
    readPair l = some (r, s) ↔ l = pair r s := by
  constructor
  · exact eq_pair_of_readPair
  · rintro rfl
    exact readPair_pair h

end Der
