import Mathlib.Data.List.GetD
import Mathlib.Tactic

/-!
Byte strings as a C program handles them: overwriting part of a buffer,
filling part of it, reading and writing words.

The list operations are total; where the buffer is long enough they keep its
length, and the lemmas carry that as their only side condition. An array of
fixed size is a `Buf n`, a list that carries its length, whose operations
need no side condition at all.
-/

namespace Bytes

/-- A statement about a byte is checked byte by byte. -/
theorem forall_byte {P : UInt8 → Prop} (h : ∀ n : Fin 256, P (UInt8.ofNat n)) (b : UInt8) : P b := by
  have hb := h ⟨b.toNat, b.toNat_lt⟩
  rwa [UInt8.ofNat_toNat] at hb

/-- `memmove(buf + off, src, src.length)`. -/
def overwrite (buf : List UInt8) (off : ℕ) (src : List UInt8) : List UInt8 :=
  buf.take off ++ src ++ buf.drop (off + src.length)

/-- `memset(buf + off, v, n)`. -/
def fill (buf : List UInt8) (off n : ℕ) (v : UInt8) : List UInt8 :=
  overwrite buf off (List.replicate n v)

theorem length_overwrite {buf src : List UInt8} {off : ℕ} (h : off + src.length ≤ buf.length) :
    (overwrite buf off src).length = buf.length := by
  simp only [overwrite, List.length_append, List.length_take, List.length_drop]
  omega

theorem length_fill {buf : List UInt8} {off n : ℕ} {v : UInt8} (h : off + n ≤ buf.length) :
    (fill buf off n v).length = buf.length :=
  length_overwrite (by simpa using h)

theorem getD_overwrite {buf src : List UInt8} {off : ℕ} (h : off + src.length ≤ buf.length)
    (i : ℕ) (d : UInt8) :
    (overwrite buf off src).getD i d =
      if off ≤ i ∧ i < off + src.length then src.getD (i - off) d else buf.getD i d := by
  have htake : (buf.take off).length = off := by
    rw [List.length_take]
    omega
  unfold overwrite
  by_cases h₁ : i < off
  · rw [if_neg (by omega), List.append_assoc, List.getD_append _ _ _ _ (by omega)]
    simp [List.getD, h₁]
  · by_cases h₂ : i < off + src.length
    · rw [if_pos (by omega), List.append_assoc, List.getD_append_right _ _ _ _ (by omega), htake,
        List.getD_append _ _ _ _ (by omega)]
    · rw [if_neg (by omega), List.getD_append_right _ _ _ _ (by
        rw [List.length_append]
        omega)]
      rw [List.length_append, htake]
      simp only [List.getD, List.getElem?_drop]
      rw [show off + src.length + (i - (off + src.length)) = i by omega]

theorem getD_fill {buf : List UInt8} {off n : ℕ} {v : UInt8} (h : off + n ≤ buf.length)
    (i : ℕ) (d : UInt8) :
    (fill buf off n v).getD i d =
      if off ≤ i ∧ i < off + n then v else buf.getD i d := by
  rw [fill, getD_overwrite (by simpa using h), List.length_replicate]
  by_cases hi : off ≤ i ∧ i < off + n
  · rw [if_pos hi, if_pos hi, List.getD_replicate _ (by omega)]
  · rw [if_neg hi, if_neg hi]

/-! ### Words -/

/-- The bytes of a little-endian 32-bit word. -/
def toLe32 (v : UInt32) : List UInt8 :=
  [UInt8.ofNat v.toNat, UInt8.ofNat (v.toNat / 2 ^ 8), UInt8.ofNat (v.toNat / 2 ^ 16),
    UInt8.ofNat (v.toNat / 2 ^ 24)]

/-- The bytes of a big-endian 32-bit word. -/
def toBe32 (v : UInt32) : List UInt8 := (toLe32 v).reverse

/-- The little-endian 32-bit word at the start of a byte string. -/
def le32 (b : List UInt8) : UInt32 :=
  UInt32.ofNat ((b.getD 0 0).toNat + (b.getD 1 0).toNat * 2 ^ 8 + (b.getD 2 0).toNat * 2 ^ 16 +
    (b.getD 3 0).toNat * 2 ^ 24)

@[simp] theorem length_toLe32 (v : UInt32) : (toLe32 v).length = 4 := rfl

@[simp] theorem length_toBe32 (v : UInt32) : (toBe32 v).length = 4 := rfl

theorem le32_toLe32 (v : UInt32) (rest : List UInt8) : le32 (toLe32 v ++ rest) = v := by
  apply UInt32.toNat_inj.mp
  have hv := v.toNat_lt
  simp only [le32, toLe32, List.cons_append, List.nil_append, List.getD_cons_zero,
    List.getD_cons_succ, UInt8.toNat_ofNat', UInt32.toNat_ofNat']
  omega

/-- The number that bytes stand for, the least significant one first. -/
def leNat : List UInt8 → ℕ
  | [] => 0
  | b :: bs => b.toNat + 256 * leNat bs

/-- The `k` least significant bytes of a number. -/
def toLe : (k n : ℕ) → List UInt8
  | 0, _ => []
  | k + 1, n => UInt8.ofNat n :: toLe k (n / 256)

@[simp] theorem length_toLe (k n : ℕ) : (toLe k n).length = k := by
  induction k generalizing n with
  | zero => rfl
  | succ k ih => rw [toLe, List.length_cons, ih]

theorem leNat_toLe (k n : ℕ) : leNat (toLe k n) = n % 256 ^ k := by
  induction k generalizing n with
  | zero => rw [toLe, leNat, Nat.pow_zero, Nat.mod_one]
  | succ k ih =>
      calc (UInt8.ofNat n).toNat + 256 * leNat (toLe k (n / 256))
          = n % 256 + 256 * (n / 256 % 256 ^ k) := by rw [ih, UInt8.toNat_ofNat']
        _ = n % (256 * 256 ^ k) := Nat.mod_mul.symm
        _ = n % 256 ^ (k + 1) := by rw [Nat.pow_succ']

/-- The `n` bytes of a hexadecimal numeral, as they are written. -/
def ofHex (n v : ℕ) : List UInt8 := (List.range n).map fun i => UInt8.ofNat (v >>> (8 * (n - 1 - i)))

@[simp] theorem length_ofHex (n v : ℕ) : (ofHex n v).length = n := by
  rw [ofHex, List.length_map, List.length_range]

/-- The characters of a C string literal. -/
def ascii (s : String) : List UInt8 := s.toList.map fun c => c.toNat.toUInt8

/-- The C string at the start of a buffer: what comes before the first zero. -/
def cString (buf : List UInt8) : List UInt8 := buf.takeWhile (· ≠ 0)

end Bytes

/-- An array of `n` bytes. -/
structure Buf (n : ℕ) where
  bytes : List UInt8
  length_bytes : bytes.length = n
  deriving DecidableEq

namespace Buf

variable {n : ℕ}

@[ext] theorem ext {a b : Buf n} (h : a.bytes = b.bytes) : a = b := by
  cases a
  cases b
  simp_all

/-- An array with the same byte everywhere. -/
def fill (n : ℕ) (v : UInt8) : Buf n := ⟨List.replicate n v, List.length_replicate⟩

/-- An array of zeros. -/
def zero (n : ℕ) : Buf n := fill n 0

instance : Inhabited (Buf n) := ⟨zero n⟩

/-- `memmove(buf + off, src, src.length)`; what would lie behind the array is
dropped. -/
def write (b : Buf n) (off : ℕ) (src : List UInt8) : Buf n :=
  ⟨(Bytes.overwrite b.bytes off src).take n, by
    simp only [Bytes.overwrite, List.length_take, List.length_append, List.length_drop,
      b.length_bytes]
    omega⟩

/-- The array that starts with the given bytes, zeros behind them. -/
def ofList (n : ℕ) (l : List UInt8) : Buf n := (zero n).write 0 l

/-- The bytes `[off, off + len)`. -/
def slice (b : Buf n) (off len : ℕ) : List UInt8 := (b.bytes.drop off).take len

/-- One byte; zero outside the array. -/
def byte (b : Buf n) (i : ℕ) : UInt8 := b.bytes.getD i 0

theorem bytes_write {b : Buf n} {off : ℕ} {src : List UInt8} (h : off + src.length ≤ n) :
    (b.write off src).bytes = Bytes.overwrite b.bytes off src := by
  apply List.take_of_length_le
  rw [Bytes.length_overwrite (by rw [b.length_bytes]; exact h), b.length_bytes]

theorem slice_write_self {b : Buf n} {off : ℕ} {src : List UInt8} (h : off + src.length ≤ n) :
    (b.write off src).slice off src.length = src := by
  have hlen : (b.bytes.take off).length = off := by
    rw [List.length_take, b.length_bytes]
    omega
  rw [slice, bytes_write h, Bytes.overwrite, List.append_assoc, List.drop_left' hlen,
    List.take_left]

theorem slice_written {b : Buf n} {off k : ℕ} {src : List UInt8} (hk : src.length = k)
    (hn : off + k ≤ n) : (b.write off src).slice off k = src := by
  subst hk
  exact slice_write_self hn

/-- Bytes before the written stretch stay. -/
theorem slice_write_before {b : Buf n} {off lo len : ℕ} {src : List UInt8}
    (h : off + src.length ≤ n) (hlo : lo + len ≤ off) :
    (b.write off src).slice lo len = b.slice lo len := by
  have hlen : (b.bytes.take off).length = off := by
    rw [List.length_take, b.length_bytes]
    omega
  rw [slice, bytes_write h, Bytes.overwrite, List.append_assoc, List.drop_append_of_le_length
    (by omega), List.take_append_of_le_length (by rw [List.length_drop]; omega), List.drop_take,
    List.take_take, Nat.min_eq_left (by omega), slice]

/-- Bytes behind the written stretch stay. -/
theorem slice_write_after {b : Buf n} {off lo len : ℕ} {src : List UInt8}
    (h : off + src.length ≤ n) (hlo : off + src.length ≤ lo) :
    (b.write off src).slice lo len = b.slice lo len := by
  have hlen : (b.bytes.take off ++ src).length = off + src.length := by
    rw [List.length_append, List.length_take, b.length_bytes]
    omega
  rw [slice, bytes_write h, Bytes.overwrite, List.drop_append, List.drop_eq_nil_of_le (by omega),
    List.nil_append, hlen, List.drop_drop, slice]
  rw [show off + src.length + (lo - (off + src.length)) = lo by omega]

theorem bytes_ofList {l : List UInt8} (h : l.length ≤ n) :
    (ofList n l).bytes = l ++ List.replicate (n - l.length) 0 := by
  rw [ofList, bytes_write (by omega), Bytes.overwrite, List.take_zero, List.nil_append, Nat.zero_add]
  exact congrArg _ List.drop_replicate

theorem byte_ofList {l : List UInt8} (h : l.length ≤ n) (i : ℕ) : (ofList n l).byte i = l.getD i 0 := by
  rw [byte, bytes_ofList h]
  by_cases hi : i < l.length
  · rw [List.getD_append _ _ _ _ hi]
  · rw [List.getD_append_right _ _ _ _ (not_lt.mp hi), List.getD_eq_default l _ (not_lt.mp hi)]
    by_cases hpad : i - l.length < n - l.length
    · rw [List.getD_replicate _ hpad]
    · rw [List.getD_eq_default]
      simpa using hpad

theorem slice_ofList (p : List UInt8) {l : List UInt8} (q : List UInt8)
    (h : (p ++ l ++ q).length ≤ n) : (ofList n (p ++ l ++ q)).slice p.length l.length = l := by
  rw [slice, bytes_ofList h, List.append_assoc, List.append_assoc, List.drop_left, List.take_left]

theorem byte_write {b : Buf n} {off : ℕ} {src : List UInt8} (h : off + src.length ≤ n) (i : ℕ) :
    (b.write off src).byte i =
      if off ≤ i ∧ i < off + src.length then src.getD (i - off) 0 else b.byte i := by
  rw [byte, bytes_write h, Bytes.getD_overwrite (by rw [b.length_bytes]; exact h), byte]

theorem byte_write_other {b : Buf n} {off i : ℕ} {src : List UInt8} (h : off + src.length ≤ n)
    (hi : i < off ∨ off + src.length ≤ i) : (b.write off src).byte i = b.byte i := by
  rw [byte_write h, if_neg (by omega)]

theorem slice_write_other {b : Buf n} {off lo len : ℕ} {src : List UInt8} (h : off + src.length ≤ n)
    (hlo : lo + len ≤ off ∨ off + src.length ≤ lo) : (b.write off src).slice lo len = b.slice lo len := by
  obtain hlo | hlo := hlo
  · exact slice_write_before h hlo
  · exact slice_write_after h hlo

theorem length_slice {b : Buf n} {off len : ℕ} (h : off + len ≤ n) : (b.slice off len).length = len := by
  rw [slice, List.length_take, List.length_drop, b.length_bytes]
  omega

theorem length_slice_le (b : Buf n) (off len : ℕ) : (b.slice off len).length ≤ len :=
  List.length_take_le ..

/-- Writing on where the last stretch ended. -/
theorem write_write {b : Buf n} {off : ℕ} {xs ys : List UInt8}
    (h : off + xs.length + ys.length ≤ n) :
    (b.write off xs).write (off + xs.length) ys = b.write off (xs ++ ys) := by
  have hlen : (b.bytes.take off ++ xs).length = off + xs.length := by
    rw [List.length_append, List.length_take, b.length_bytes]
    omega
  apply ext
  rw [bytes_write h, bytes_write (by omega), bytes_write (by rw [List.length_append]; omega),
    Bytes.overwrite, Bytes.overwrite, Bytes.overwrite, List.take_left' hlen]
  have hdrop : (b.bytes.take off ++ xs ++ b.bytes.drop (off + xs.length)).drop
      (off + xs.length + ys.length) = b.bytes.drop (off + (xs ++ ys).length) := by
    rw [List.drop_append, List.drop_eq_nil_of_le (by omega), List.nil_append, hlen, List.drop_drop,
      List.length_append]
    congr 1
    omega
  rw [hdrop, List.append_assoc, List.append_assoc, List.append_assoc, List.append_assoc]

/-- An array that is written over holds what was written. -/
theorem write_eq_ofList {b : Buf n} {xs : List UInt8} (h : xs.length = n) :
    b.write 0 xs = ofList n xs := by
  apply ext
  rw [bytes_write (by omega), bytes_ofList (by omega), Bytes.overwrite, h, List.drop_eq_nil_of_le]
  · simp
  · rw [b.length_bytes]
    omega

/-- Zeros behind the bytes are there anyway. -/
theorem ofList_append_zeros {xs : List UInt8} {k : ℕ} (h : xs.length + k ≤ n) :
    ofList n (xs ++ List.replicate k 0) = ofList n xs := by
  apply ext
  rw [bytes_ofList (by simp; omega), bytes_ofList (by omega), List.append_assoc,
    List.replicate_append_replicate]
  congr 2
  simp
  omega

/-- Writing on behind some of the zeros. -/
theorem ofList_write {xs ys : List UInt8} {k : ℕ} (h : xs.length + k + ys.length ≤ n) :
    (ofList n xs).write (xs.length + k) ys = ofList n (xs ++ List.replicate k 0 ++ ys) := by
  have hlen : xs.length + k = 0 + (xs ++ List.replicate k 0).length := by simp
  rw [← ofList_append_zeros (show xs.length + k ≤ n by omega), hlen, ofList, ofList]
  exact write_write (by simp; omega)

/-- A zero among the zeros changes nothing. -/
theorem ofList_write_zero {xs : List UInt8} {i : ℕ} (hi : xs.length ≤ i) (h : i < n) :
    (ofList n xs).write i [0] = ofList n xs := by
  obtain ⟨k, rfl⟩ := Nat.exists_eq_add_of_le hi
  have hzeros : List.replicate k (0 : UInt8) ++ [0] = List.replicate (k + 1) 0 :=
    List.replicate_succ'.symm
  rw [ofList_write (by simpa using h), List.append_assoc, hzeros, ofList_append_zeros (by omega)]

@[simp] theorem write_nil (b : Buf n) (off : ℕ) : b.write off [] = b := by
  apply ext
  show (Bytes.overwrite b.bytes off []).take n = b.bytes
  rw [Bytes.overwrite, List.append_nil, List.length_nil, Nat.add_zero, List.take_append_drop]
  exact List.take_of_length_le b.length_bytes.le

theorem slice_zero_write {b : Buf n} {off : ℕ} {src : List UInt8} (h : off + src.length ≤ n) :
    (b.write off src).slice 0 (off + src.length) = b.slice 0 off ++ src := by
  have hlen : (b.bytes.take off).length = off := by
    rw [List.length_take, b.length_bytes]
    omega
  rw [slice, bytes_write h, Bytes.overwrite, List.drop_zero, slice, List.drop_zero]
  refine List.take_left' ?_
  rw [List.length_append, hlen]

/-- `memmove(buf + off, src, src.length)`, undefined when it leaves the array. -/
def store (b : Buf n) (off : ℕ) (src : List UInt8) : Option (Buf n) :=
  if off + src.length ≤ n then some (b.write off src) else none

theorem store_of_le {b : Buf n} {off : ℕ} {src : List UInt8} (h : off + src.length ≤ n) :
    b.store off src = some (b.write off src) := if_pos h

theorem store_of_lt {b : Buf n} {off : ℕ} {src : List UInt8} (h : n < off + src.length) :
    b.store off src = none := if_neg (not_le.mpr h)

@[simp] theorem store_eq_some {b b' : Buf n} {off : ℕ} {src : List UInt8} :
    b.store off src = some b' ↔ off + src.length ≤ n ∧ b.write off src = b' := by
  unfold store
  by_cases h : off + src.length ≤ n
  · simp [h]
  · simp [h]

/-! ### Writes at the start -/

theorem drop_eq_drop_iff {l l' : List UInt8} {k : ℕ} :
    l.drop k = l'.drop k ↔ ∀ i, k ≤ i → l[i]? = l'[i]? := by
  constructor
  · intro h i hi
    have hget := congrArg (fun l => l[i - k]?) h
    simp only [List.getElem?_drop] at hget
    rwa [Nat.add_sub_cancel' hi] at hget
  · intro h
    apply List.ext_getElem?
    intro i
    rw [List.getElem?_drop, List.getElem?_drop]
    exact h (k + i) (Nat.le_add_right k i)

/-- A write at the start leaves the bytes behind it. -/
theorem getElem?_write_zero (b : Buf n) (w : List UInt8) (i : ℕ) :
    (b.write 0 w).bytes[i]? = if i < n ∧ i < w.length then w[i]? else b.bytes[i]? := by
  simp only [write, Bytes.overwrite, List.take_zero, List.nil_append, Nat.zero_add]
  by_cases hi : i < n
  · rw [List.getElem?_take_of_lt hi]
    by_cases hw : i < w.length
    · rw [if_pos ⟨hi, hw⟩, List.getElem?_append_left hw]
    · rw [if_neg (fun h => hw h.2), List.getElem?_append_right (by omega), List.getElem?_drop,
        Nat.add_sub_cancel' (by omega)]
  · rw [if_neg (fun h => hi h.1), List.getElem?_take_eq_none (by omega), List.getElem?_eq_none]
    rw [b.length_bytes]
    omega

/-- Several strings, one after the other, at the start of the array. -/
def writeAll (b : Buf n) (ws : List (List UInt8)) : Buf n := ws.foldl (fun b w => b.write 0 w) b

theorem writeAll_append (b : Buf n) (ws ws' : List (List UInt8)) :
    (b.writeAll ws).writeAll ws' = b.writeAll (ws ++ ws') := List.foldl_append.symm

/-- How far they reach. -/
def reach (ws : List (List UInt8)) : ℕ := ws.foldr (fun w k => max w.length k) 0

/-- What is left of the array lies behind all of them. -/
theorem writeAll_eq_iff {a b : Buf n} {ws : List (List UInt8)} :
    a.writeAll ws = b.writeAll ws ↔ a.bytes.drop (reach ws) = b.bytes.drop (reach ws) := by
  induction ws generalizing a b with
  | nil => exact Buf.ext_iff
  | cons w ws ih =>
      show (a.write 0 w).writeAll ws = (b.write 0 w).writeAll ws ↔ _
      rw [ih, drop_eq_drop_iff, drop_eq_drop_iff]
      simp only [getElem?_write_zero, reach, List.foldr_cons]
      constructor <;> intro h i hi
      · have hw : ¬ (i < n ∧ i < w.length) := fun hlt => absurd (le_of_max_le_left hi) (by omega)
        have hget := h i (le_of_max_le_right hi)
        rwa [if_neg hw, if_neg hw] at hget
      · by_cases hw : i < n ∧ i < w.length
        · rw [if_pos hw, if_pos hw]
        · rw [if_neg hw, if_neg hw]
          by_cases hn : i < n
          · exact h i (max_le (by omega) hi)
          · rw [List.getElem?_eq_none (by rw [a.length_bytes]; omega),
              List.getElem?_eq_none (by rw [b.length_bytes]; omega)]

end Buf
