import NitrokeyFido2.Lib.Der
import NitrokeyFido2.Ctap.Credential

/-!
The encoded signature.

`ctap_encode_der_sig` clears its buffer and then stores piece after piece. A pad
is a zero among the zeros, so what has been stored so far is always a list of
bytes with zeros behind it; the byte counts that follow a pad overwrite it where
there is none. The pieces are those of the encoding of the two numbers, whatever
the zeros in front and the sign bits.
-/

namespace NitrokeyFido2.Ctap

/-! ### The two numbers -/

/-- The first number of a signature. -/
def sigR (sig : Buf 64) : ℕ := Der.beNat (sig.slice 0 32)

/-- The second one. -/
def sigS (sig : Buf 64) : ℕ := Der.beNat (sig.slice 32 32)

/-- The pad in front of a byte: one where the sign bit is set. -/
def signPad (x : UInt8) : ℕ := if x &&& 0x80 = 0x80 then 1 else 0

theorem signPad_eq (x : UInt8) : signPad x = if 0x80 ≤ x then 1 else 0 := by
  revert x
  exact Bytes.forall_byte (by decide +kernel)

theorem signPad_le (x : UInt8) : signPad x ≤ 1 := by
  unfold signPad
  split
  · exact le_rfl
  · exact Nat.zero_le 1

theorem drop_leadingZeros (l : List UInt8) : l.drop (leadingZeros l) = l.dropWhile (· = 0) := by
  conv_lhs => rw [← @List.takeWhile_append_dropWhile _ (fun x : UInt8 => decide (x = 0)) l]
  exact List.drop_left' (by simp [leadingZeros])

section Half

variable {sig : Buf 64} {off : ℕ}

/-- The bytes of half a signature from its first one on that is not zero. -/
theorem slice_leadingZeros (sig : Buf 64) (off : ℕ) :
    sig.slice (off + leadingZeros (sig.slice off 32)) (32 - leadingZeros (sig.slice off 32)) =
      Der.magnitude (Der.beNat (sig.slice off 32)) := by
  rw [Der.magnitude_beNat, ← drop_leadingZeros, Buf.slice, Buf.slice, List.drop_take, List.drop_drop]

theorem leadingZeros_le (hoff : off + 32 ≤ 64) : leadingZeros (sig.slice off 32) ≤ 32 := by
  calc leadingZeros (sig.slice off 32)
      ≤ (sig.slice off 32).length := (List.takeWhile_sublist _).length_le
    _ = 32 := Buf.length_slice hoff

/-- A number other than zero has a first byte, the one the pad looks at. -/
theorem magnitude_half (h : Der.beNat (sig.slice off 32) ≠ 0) :
    ∃ rest, Der.magnitude (Der.beNat (sig.slice off 32)) =
      sig.byte (off + leadingZeros (sig.slice off 32)) :: rest := by
  cases hmag : Der.magnitude (Der.beNat (sig.slice off 32)) with
  | nil =>
      have hzero := Der.beNat_magnitude (Der.beNat (sig.slice off 32))
      rw [hmag] at hzero
      exact absurd hzero.symm h
  | cons x rest =>
      rw [← slice_leadingZeros, Buf.slice] at hmag
      have hget := congrArg (fun l => l[0]?) hmag
      have hlt : 0 < 32 - leadingZeros (sig.slice off 32) := by
        have hlen := congrArg List.length hmag
        simp at hlen
        omega
      simp only [List.getElem?_take_of_lt hlt, List.getElem?_drop, Nat.add_zero,
        List.getElem?_cons_zero] at hget
      exact ⟨rest, by rw [Buf.byte, List.getD, hget, Option.getD_some]⟩

theorem length_magnitude_half (hoff : off + 32 ≤ 64) :
    (Der.magnitude (Der.beNat (sig.slice off 32))).length =
      32 - leadingZeros (sig.slice off 32) := by
  have hle := @leadingZeros_le sig off hoff
  rw [← slice_leadingZeros, Buf.length_slice (by omega)]

/-- What is stored of a number, the pad in front, is its content. -/
theorem content_half (h : Der.beNat (sig.slice off 32) ≠ 0) :
    Der.content (Der.beNat (sig.slice off 32)) =
      List.replicate (signPad (sig.byte (off + leadingZeros (sig.slice off 32)))) 0 ++
        Der.magnitude (Der.beNat (sig.slice off 32)) := by
  obtain ⟨rest, hmag⟩ := magnitude_half h
  rw [Der.content, hmag, signPad_eq]
  by_cases htop : 0x80 ≤ sig.byte (off + leadingZeros (sig.slice off 32))
  · simp [htop]
  · simp [htop]

end Half

/-! ### What is stored -/

/-- The pieces, one after the other: `r` and `s` are the bytes of the two
numbers, `p` and `q` their pads. -/
def derPieces (p q : ℕ) (r s : List UInt8) : List UInt8 :=
  [0x30, UInt8.ofNat (4 + p + r.length + q + s.length)] ++
    ([0x02, UInt8.ofNat (p + r.length)] ++ List.replicate p 0 ++ r) ++
    ([0x02, UInt8.ofNat (q + s.length)] ++ List.replicate q 0 ++ s)

/-- The stores of `ctap_encode_der_sig`, with the numbers of bytes they go by. -/
theorem stores_derPieces {p q : ℕ} {r s : List UInt8} (hp : p ≤ 1) (hq : q ≤ 1)
    (hr : r.length ≤ 32) (hs : s.length ≤ 32) :
    ((((((((((Buf.zero 72).write 0 [0x30]).write 1
        [UInt8.ofNat (4 + p + r.length + q + s.length)]).write 2 [0x02]).write (3 + p) [0]).write 3
        [UInt8.ofNat (p + r.length)]).write (4 + p) r).write (4 + p + r.length) [0x02]).write
        (5 + p + r.length + q) [0]).write (5 + p + r.length) [UInt8.ofNat (q + s.length)]).write
        (6 + p + r.length + q) s = Buf.ofList 72 (derPieces p q r s) := by
  have hstart : (Buf.zero 72).write 0 [0x30] = Buf.ofList 72 [0x30] := rfl
  have hstep : ∀ (l x : List UInt8) (k i : ℕ), i = l.length + k → i + x.length ≤ 72 →
      (Buf.ofList 72 l).write i x = Buf.ofList 72 (l ++ List.replicate k 0 ++ x) := by
    rintro l x k i rfl h
    exact Buf.ofList_write h
  rw [hstart, hstep _ _ 0 1 (by simp) (by simp), hstep _ _ 0 2 (by simp) (by simp),
    Buf.ofList_write_zero (by simp) (by omega), hstep _ _ 0 3 (by simp) (by simp),
    hstep _ _ p (4 + p) (by simp) (by omega),
    hstep _ _ 0 (4 + p + r.length) (by simp; omega) (by simp; omega),
    Buf.ofList_write_zero (by simp; omega) (by omega),
    hstep _ _ 0 (5 + p + r.length) (by simp; omega) (by simp; omega),
    hstep _ _ q (6 + p + r.length + q) (by simp; omega) (by omega)]
  simp [derPieces]

theorem derPieces_eq (p q : ℕ) (r s : List UInt8) :
    derPieces p q r s = Der.element 0x30 (Der.element 0x02 (List.replicate p 0 ++ r) ++
      Der.element 0x02 (List.replicate q 0 ++ s)) := by
  have hlen : 4 + p + r.length + q + s.length = 2 + (p + r.length) + (2 + (q + s.length)) := by
    omega
  rw [derPieces, hlen, Der.element, List.length_append, Der.length_element, Der.length_element]
  simp only [Der.element, List.length_append, List.length_replicate, List.cons_append,
    List.nil_append, List.append_assoc]

/-- The function, by the zeros in front and the pads. -/
theorem ctapEncodeDerSig_stores {sig : Buf 64} {a b p q : ℕ}
    (ha : leadingZeros (sig.slice 0 32) = a) (hb : leadingZeros (sig.slice 32 32) = b)
    (hp : signPad (sig.byte a) = p) (hq : signPad (sig.byte (32 + b)) = q) :
    ctapEncodeDerSig sig =
      (((((((((((Buf.zero 72).write 0 [0x30]).write 1
        [UInt8.ofNat (0x44 + q + p - b - a)]).write 2 [0x02]).write (3 + p) [0]).write 3
        [UInt8.ofNat (0x20 + p - a)]).write (4 + p) (sig.slice a (32 - a))).write (4 + 32 + p - a)
        [0x02]).write (5 + 32 + p + q - a) [0]).write (5 + 32 + p - a)
        [UInt8.ofNat (0x20 + q - b)]).write (6 + 32 + p + q - a) (sig.slice (32 + b) (32 - b)),
        0x46 + q + p - a - b) := by
  subst ha hb hp hq
  rfl

/-- `ctap_encode_der_sig` stores the encoding of the two numbers. -/
theorem ctapEncodeDerSig_eq {sig : Buf 64} (hr : sigR sig ≠ 0) (hs : sigS sig ≠ 0) :
    ctapEncodeDerSig sig = (Buf.ofList 72 (Der.pair (sigR sig) (sigS sig)),
      (Der.pair (sigR sig) (sigS sig)).length) := by
  have hcr := content_half hr
  have hcs := content_half hs
  have hbytesR := slice_leadingZeros sig 0
  have hbytesS := slice_leadingZeros sig 32
  have hlenR := @length_magnitude_half sig 0 (by omega)
  have hlenS := @length_magnitude_half sig 32 (by omega)
  have hleR := @leadingZeros_le sig 0 (by omega)
  have hleS := @leadingZeros_le sig 32 (by omega)
  rw [Nat.zero_add] at hcr hbytesR
  rw [ctapEncodeDerSig_stores rfl rfl rfl rfl, hbytesR, hbytesS, Der.pair, Der.integer, Der.integer,
    sigR, sigS, hcr, hcs, ← derPieces_eq]
  generalize Der.magnitude (Der.beNat (sig.slice 0 32)) = r at hlenR
  generalize Der.magnitude (Der.beNat (sig.slice 32 32)) = s at hlenS
  generalize leadingZeros (sig.slice 0 32) = a at *
  generalize leadingZeros (sig.slice 32 32) = b at *
  have hp := signPad_le (sig.byte a)
  have hq := signPad_le (sig.byte (32 + b))
  generalize signPad (sig.byte a) = p at *
  generalize signPad (sig.byte (32 + b)) = q at *
  refine Prod.ext ?_ ?_
  · rw [← stores_derPieces hp hq (by omega) (by omega)]
    -- the places and the lengths go by the zeros, or by the bytes that are left
    rw [show 0x44 + q + p - b - a = 4 + p + r.length + q + s.length by omega,
      show 0x20 + p - a = p + r.length by omega, show 0x20 + q - b = q + s.length by omega,
      show 4 + 32 + p - a = 4 + p + r.length by omega,
      show 5 + 32 + p + q - a = 5 + p + r.length + q by omega,
      show 5 + 32 + p - a = 5 + p + r.length by omega,
      show 6 + 32 + p + q - a = 6 + p + r.length + q by omega]
  · simp [derPieces]
    omega

/-- An encoded pair of halves fits into the buffer. -/
theorem length_pair_le (sig : Buf 64) :
    (Der.integer (sigR sig) ++ Der.integer (sigS sig)).length ≤ 70 := by
  have hr := Der.length_content_le (sigR sig)
  have hs := Der.length_content_le (sigS sig)
  have hlr := Der.length_magnitude_beNat (sig.slice 0 32)
  have hls := Der.length_magnitude_beNat (sig.slice 32 32)
  rw [Buf.length_slice (by omega)] at hlr hls
  simp [Der.integer, sigR, sigS] at *
  omega

/-- The signature of two numbers other than zero is the strict encoding of the
pair, the only bytes that a strict decoder reads as these numbers, and nothing
stands behind it. -/
theorem der_sig_strict (sig : Buf 64) (hr : sigR sig ≠ 0) (hs : sigS sig ≠ 0) :
    (ctapEncodeDerSig sig).2 ≤ 72 ∧
      (ctapEncodeDerSig sig).1.slice 0 (ctapEncodeDerSig sig).2 =
        Der.pair (sigR sig) (sigS sig) ∧
      (∀ l, Der.readPair l = some (sigR sig, sigS sig) ↔
        l = (ctapEncodeDerSig sig).1.slice 0 (ctapEncodeDerSig sig).2) ∧
      ∀ i, (ctapEncodeDerSig sig).2 ≤ i → (ctapEncodeDerSig sig).1.byte i = 0 := by
  have hlen := length_pair_le sig
  have hle : (Der.pair (sigR sig) (sigS sig)).length ≤ 72 := by
    simp [Der.pair] at *
    omega
  rw [ctapEncodeDerSig_eq hr hs]
  have hslice : (Buf.ofList 72 (Der.pair (sigR sig) (sigS sig))).slice 0
      (Der.pair (sigR sig) (sigS sig)).length = Der.pair (sigR sig) (sigS sig) := by
    simpa using @Buf.slice_ofList 72 [] (Der.pair (sigR sig) (sigS sig)) [] (by simpa using hle)
  refine ⟨hle, hslice, fun l => ?_, fun i hi => ?_⟩
  · rw [hslice]
    exact Der.readPair_eq_some (by omega)
  · rw [Buf.byte_ofList hle]
    exact List.getD_eq_default _ _ hi

/-- 128 and 5: the first one needs its pad. -/
def paddedSig : Buf 64 :=
  Buf.ofList 64 (List.replicate 31 0 ++ [0x80] ++ List.replicate 31 0 ++ [5])

theorem der_sig_strict_padded :
    sigR paddedSig = 128 ∧ sigS paddedSig = 5 ∧
      (ctapEncodeDerSig paddedSig).1.slice 0 (ctapEncodeDerSig paddedSig).2 = Der.pair 128 5 := by
  have hr : sigR paddedSig = 128 := by decide +kernel
  have hs : sigS paddedSig = 5 := by decide +kernel
  have h := (der_sig_strict paddedSig (by rw [hr]; decide) (by rw [hs]; decide)).2.1
  rw [hr, hs] at h
  exact ⟨hr, hs, h⟩

end NitrokeyFido2.Ctap
