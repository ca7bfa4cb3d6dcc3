import NitrokeyFido2.Ctap.Sample

/-!
Decoders that go through a request in the order of its bytes.

What is read there depends on the bytes that an item takes up, so containers
over the same bytes are read the same, in whatever request they stand.
-/

namespace NitrokeyFido2.Ctap

/-! ### The order -/

namespace CborReader

variable (R : CborReader)

/-- The entries of a container, as pairs of a key and its value, and the place
behind them. -/
def walk : ℕ → R.Cursor → Except CborError (List (R.Cursor × R.Cursor) × R.Cursor)
  | 0, c => pure ([], c)
  | n + 1, c => do
      let v ← R.advance c
      let c' ← R.advance v
      let (entries, e) ← walk n c'
      pure ((c, v) :: entries, e)

/-- Both cursors read the same. -/
structure SameItem (c d : R.Cursor) : Prop where
  getInt : R.getInt c = R.getInt d
  copyByteString : R.getType c = .byteString → ∀ cap, R.copyByteString c cap = R.copyByteString d cap
  mapFindValue : R.getType c = .map → ∀ key,
    (R.mapFindValue c key).map R.copyByteString = (R.mapFindValue d key).map R.copyByteString

/-- What is assumed of the decoder: it goes through a request item by item, in
the order of the bytes, and an item is read off the bytes that it takes up.
Copying a byte string fails for another item. -/
structure InOrder (At : List UInt8 → R.Cursor → ℕ → Prop) : Prop where
  init {request : List UInt8} {c : R.Cursor} (h : R.parserInit request = .ok c) : At request c 1
  enter {request : List UInt8} {c m : R.Cursor} {k n : ℕ} (hc : At request c (k + 1))
    (htype : R.getType c = .map) (hm : R.enterContainer c = .ok m) (hn : R.getMapLength c = .ok n) :
    At request m (2 * n) ∧ R.getNextByte c < R.getNextByte m ∧ R.getNextByte m ≤ request.length
  advance {request : List UInt8} {c c' : R.Cursor} {k : ℕ} (hc : At request c (k + 1))
    (h : R.advance c = .ok c') :
    At request c' k ∧ R.getNextByte c < R.getNextByte c' ∧ R.getNextByte c' ≤ request.length
  item {r s : List UInt8} {c c' d d' : R.Cursor} {k l : ℕ} (hc : At r c (k + 1))
    (hd : At s d (l + 1)) (hc' : R.advance c = .ok c') (hd' : R.advance d = .ok d')
    (hsame : (r.drop (R.getNextByte c)).take (R.getNextByte c' - R.getNextByte c) <+:
      s.drop (R.getNextByte d)) :
    R.getNextByte d' - R.getNextByte d = R.getNextByte c' - R.getNextByte c ∧ R.SameItem c d
  copy {request : List UInt8} {c : R.Cursor} {k cap : ℕ} (hc : At request c (k + 1))
    (h : (R.copyByteString c cap).err = 0) : R.getType c = .byteString

section Walk

variable {R} {At : List UInt8 → R.Cursor → ℕ → Prop} {r s : List UInt8} {c d e f : R.Cursor}
  {n k : ℕ} {es fs : List (R.Cursor × R.Cursor)}

theorem walk_succ : R.walk (n + 1) c = .ok (es, e) ↔
    ∃ v c' rest, R.advance c = .ok v ∧ R.advance v = .ok c' ∧ R.walk n c' = .ok (rest, e) ∧
      es = (c, v) :: rest := by
  rw [walk]
  constructor
  · intro h
    rcases hv : R.advance c with x | v <;> rw [hv] at h
    · exact nomatch h
    rcases hc' : R.advance v with x | c' <;> simp only [hc', bind, Except.bind] at h
    · exact nomatch h
    rcases hw : R.walk n c' with x | ⟨rest, e'⟩ <;> rw [hw] at h
    · exact nomatch h
    · obtain ⟨rfl, rfl⟩ := Prod.mk.inj (Except.ok.inj h)
      exact ⟨v, c', rest, rfl, hc', hw, rfl⟩
  · rintro ⟨v, c', rest, hv, hc', hw, rfl⟩
    rw [hv]
    simp only [bind, Except.bind, hc', hw]
    rfl

/-- The end of a container lies in the request, and behind its start. -/
theorem InOrder.walk_le (hR : R.InOrder At) (hc : At r c (2 * n)) (hin : R.getNextByte c ≤ r.length)
    (h : R.walk n c = .ok (es, e)) :
    R.getNextByte c ≤ R.getNextByte e ∧ R.getNextByte e ≤ r.length := by
  induction n generalizing c es with
  | zero =>
      obtain ⟨rfl, rfl⟩ := Prod.mk.inj (Except.ok.inj h)
      exact ⟨le_rfl, hin⟩
  | succ n ih =>
      obtain ⟨v, c', rest, hv, hc', hw, rfl⟩ := walk_succ.mp h
      obtain ⟨hatv, hltv, -⟩ := hR.advance (k := 2 * n + 1) hc hv
      obtain ⟨hatc, hltc, hlec⟩ := hR.advance hatv hc'
      obtain ⟨hle, hend⟩ := ih hatc hlec hw
      exact ⟨by omega, hend⟩

/-- The values of the entries are met in the request. -/
theorem InOrder.walk_at (hR : R.InOrder At) (hc : At r c (2 * n)) (h : R.walk n c = .ok (es, e)) :
    ∀ x ∈ es, ∃ k, At r x.2 (k + 1) := by
  induction n generalizing c es with
  | zero =>
      obtain ⟨rfl, rfl⟩ := Prod.mk.inj (Except.ok.inj h)
      exact fun x hx => nomatch hx
  | succ n ih =>
      obtain ⟨v, c', rest, hv, hc', hw, rfl⟩ := walk_succ.mp h
      have hatv := (hR.advance (k := 2 * n + 1) hc hv).1
      exact List.forall_mem_cons.mpr ⟨⟨2 * n, hatv⟩, ih (hR.advance hatv hc').1 hw⟩

/-- The entries of both containers read the same. -/
def SameEntry (R : CborReader) (x y : R.Cursor × R.Cursor) : Prop :=
  R.SameItem x.1 y.1 ∧ R.SameItem x.2 y.2

/-- Containers over the same bytes have the same entries. -/
theorem InOrder.walk_same (hR : R.InOrder At) {m : ℕ} (hc : At r c (2 * n)) (hd : At s d (2 * m))
    (hinc : R.getNextByte c ≤ r.length) (hind : R.getNextByte d ≤ s.length)
    (hn : R.walk n c = .ok (es, e)) (hm : R.walk m d = .ok (fs, f))
    (hlen : R.getNextByte e - R.getNextByte c = R.getNextByte f - R.getNextByte d)
    (hsame : (r.drop (R.getNextByte c)).take (R.getNextByte e - R.getNextByte c) =
      (s.drop (R.getNextByte d)).take (R.getNextByte e - R.getNextByte c)) :
    List.Forall₂ (SameEntry R) es fs := by
  induction n generalizing c d es m fs with
  | zero =>
      obtain ⟨rfl, rfl⟩ := Prod.mk.inj (Except.ok.inj hn)
      rcases m with _ | m
      · obtain ⟨rfl, rfl⟩ := Prod.mk.inj (Except.ok.inj hm)
        exact .nil
      · obtain ⟨v, d', rest, hv, hd', hw, rfl⟩ := walk_succ.mp hm
        obtain ⟨hatv, hltv, -⟩ := hR.advance (k := 2 * m + 1) hd hv
        obtain ⟨hatd, hltd, hled⟩ := hR.advance hatv hd'
        have hle := (hR.walk_le hatd hled hw).1
        omega
  | succ n ih =>
      obtain ⟨v, c', es', hv, hc', hwc, rfl⟩ := walk_succ.mp hn
      obtain ⟨hatv, hltv, hlev⟩ := hR.advance (k := 2 * n + 1) hc hv
      obtain ⟨hatc, hltc, hlec⟩ := hR.advance hatv hc'
      have hle := (hR.walk_le hatc hlec hwc).1
      rcases m with _ | m
      · obtain ⟨rfl, rfl⟩ := Prod.mk.inj (Except.ok.inj hm)
        omega
      obtain ⟨u, d', fs', hu, hd', hwd, rfl⟩ := walk_succ.mp hm
      obtain ⟨hatu, hltu, hleu⟩ := hR.advance (k := 2 * m + 1) hd hu
      obtain ⟨hatd, hltd, hled⟩ := hR.advance hatu hd'
      -- the bytes agree from here to the end, and so they do up to any place between
      have hpart (i j : ℕ) (hij : R.getNextByte c + i + j ≤ R.getNextByte e) :
          (r.drop (R.getNextByte c + i)).take j = (s.drop (R.getNextByte d + i)).take j := by
        have h := congrArg (fun l => (l.drop i).take j) hsame
        simp only [List.drop_take, List.take_take, List.drop_drop] at h
        rwa [Nat.min_eq_left (by omega)] at h
      have hstart {i j : ℕ} (hij : R.getNextByte c + i + j ≤ R.getNextByte e) :
          (r.drop (R.getNextByte c + i)).take j <+: s.drop (R.getNextByte d + i) := by
        rw [hpart i j hij]
        exact List.take_prefix _ _
      obtain ⟨hkey, hsamekey⟩ := hR.item (k := 2 * n + 1) (l := 2 * m + 1) hc hd hv hu
        (hstart (i := 0) (by omega))
      have hv' : R.getNextByte v = R.getNextByte c + (R.getNextByte v - R.getNextByte c) := by omega
      have hu' : R.getNextByte u = R.getNextByte d + (R.getNextByte v - R.getNextByte c) := by omega
      obtain ⟨hvalue, hsamevalue⟩ := hR.item hatv hatu hc' hd' (by
        have h := hstart (i := R.getNextByte v - R.getNextByte c)
          (j := R.getNextByte c' - R.getNextByte v) (by omega)
        rwa [← hv', ← hu'] at h)
      refine .cons ⟨hsamekey, hsamevalue⟩ (ih hatc hatd hlec hled hwc hwd (by omega) ?_)
      have h := hpart (R.getNextByte c' - R.getNextByte c) (R.getNextByte e - R.getNextByte c')
        (by omega)
      rwa [show R.getNextByte c + (R.getNextByte c' - R.getNextByte c) = R.getNextByte c' by omega,
        show R.getNextByte d + (R.getNextByte c' - R.getNextByte c) = R.getNextByte d' by omega] at h

end Walk

end CborReader

/-! ### The decoder of the sample environment -/

namespace Sample

theorem prefix_part {b b' : List UInt8} {n k j : ℕ} (h : b.take n <+: b') (hkj : k + j ≤ n) :
    (b.drop k).take j <+: b'.drop k := by
  have hdrop := h.drop k
  rw [List.drop_take] at hdrop
  exact (List.take_prefix_take_left (by omega)).trans hdrop

theorem eq_take_of_take_le {l b : List UInt8} {n : ℕ} (h : l.take n <+: b) (hn : n ≤ l.length) :
    b.take n = l.take n := by
  have hlen : (l.take n).length = n := List.length_take_of_le hn
  rw [List.prefix_iff_eq_take, hlen] at h
  exact h.symm

/-- A head is read off its bytes. -/
theorem readHead_congr {b : List UInt8} {major v n : ℕ} (h : readHead b = some (major, v, n)) :
    0 < n ∧ n ≤ b.length ∧ ∀ b', b.take n <+: b' → readHead b' = some (major, v, n) := by
  rcases b with _ | ⟨x, rest⟩
  · cases h
  unfold readHead at h
  dsimp only at h
  split_ifs at h with h₁ h₂ h₃
  · obtain ⟨rfl, rfl, rfl⟩ := by simpa using h
    refine ⟨one_pos, by simp, ?_⟩
    rintro _ ⟨t, rfl⟩
    simp [readHead, h₁]
  · rcases rest with _ | ⟨y, rest⟩
    · cases h
    obtain ⟨rfl, rfl, rfl⟩ := by simpa using h
    refine ⟨two_pos, by simp, ?_⟩
    rintro _ ⟨t, rfl⟩
    simp [readHead, h₂]
  · rcases rest with _ | ⟨y, _ | ⟨z, rest⟩⟩
    · cases h
    · cases h
    obtain ⟨rfl, rfl, rfl⟩ := by simpa using h
    refine ⟨three_pos, by simp, ?_⟩
    rintro _ ⟨t, rfl⟩
    simp [readHead, h₃]

/-- Several items, one after the other. -/
abbrev itemsLength (depth : ℕ) (b : List UInt8) (k : ℕ) (l : List ℕ) : Option ℕ :=
  l.foldlM (fun k _ => (itemLength depth (b.drop k)).map (k + ·)) k

/-- Items are read off their bytes, whatever the depth that is allowed. -/
def ReadOff (depth : ℕ) : Prop :=
  ∀ b n, itemLength depth b = some n → 0 < n ∧ n ≤ b.length ∧
    ∀ b' depth', b.take n <+: b' → depth ≤ depth' → itemLength depth' b' = some n

theorem itemsLength_cons {depth k n : ℕ} {b : List UInt8} {x : ℕ} {l : List ℕ} :
    itemsLength depth b k (x :: l) = some n ↔
      ∃ j, itemLength depth (b.drop k) = some j ∧ itemsLength depth b (k + j) l = some n := by
  rw [itemsLength, List.foldlM_cons]
  rcases itemLength depth (b.drop k) with _ | j <;> simp [itemsLength]

theorem itemsLength_readOff {depth : ℕ} (hdepth : ReadOff depth) {b : List UInt8} {l : List ℕ} {k n : ℕ}
    (hk : k ≤ b.length) (h : itemsLength depth b k l = some n) :
    k ≤ n ∧ n ≤ b.length ∧ ∀ b' depth', b.take n <+: b' → depth ≤ depth' →
      itemsLength depth' b' k l = some n := by
  induction l generalizing k with
  | nil =>
      obtain rfl := Option.some.inj h
      exact ⟨le_rfl, hk, fun _ _ _ _ => rfl⟩
  | cons x l ih =>
      obtain ⟨j, hj, h⟩ := itemsLength_cons.mp h
      obtain ⟨hpos, hle, hsame⟩ := hdepth _ _ hj
      rw [List.length_drop] at hle
      obtain ⟨hkn, hn, hrest⟩ := ih (by omega) h
      refine ⟨by omega, hn, fun b' depth' hb' hd => itemsLength_cons.mpr ⟨j, ?_, hrest b' depth' hb' hd⟩⟩
      exact hsame _ _ (prefix_part hb' (by omega)) hd

theorem itemLength_readOff (depth : ℕ) : ReadOff depth := by
  induction depth with
  | zero => exact fun b n h => nomatch h
  | succ depth ih =>
      intro b n h
      rw [itemLength] at h
      rcases hhead : readHead b with _ | ⟨major, v, m⟩
      · rw [hhead] at h
        exact nomatch h
      obtain ⟨hpos, hle, hsame⟩ := readHead_congr hhead
      simp only [hhead, Option.bind_eq_bind, Option.bind_some] at h
      split_ifs at h with h₁ h₂ h₃
      · obtain rfl := Option.some.inj h
        refine ⟨by omega, h₂, fun b' depth' hb' hd => ?_⟩
        obtain ⟨d, rfl⟩ : ∃ d, depth' = d + 1 := ⟨depth' - 1, by omega⟩
        have hlen : m + v ≤ b'.length := by
          have hle' := hb'.length_le
          rwa [List.length_take_of_le h₂] at hle'
        have hhead' := hsame b' (by simpa using prefix_part (k := 0) (j := m) hb' (by omega))
        rw [itemLength, hhead']
        simp only [Option.bind_eq_bind, Option.bind_some, if_pos h₁, if_pos hlen]
        rfl
      · obtain ⟨hmn, hn, hrest⟩ := itemsLength_readOff ih hle h
        refine ⟨by omega, hn, fun b' depth' hb' hd => ?_⟩
        obtain ⟨d, rfl⟩ : ∃ d, depth' = d + 1 := ⟨depth' - 1, by omega⟩
        have hhead' := hsame b' (by simpa using prefix_part (k := 0) (j := m) hb' (by omega))
        rw [itemLength, hhead']
        simp only [Option.bind_eq_bind, Option.bind_some, if_neg h₁, if_pos h₃]
        exact hrest b' d hb' (by omega)
      · obtain rfl := Option.some.inj h
        refine ⟨hpos, hle, fun b' depth' hb' hd => ?_⟩
        obtain ⟨d, rfl⟩ : ∃ d, depth' = d + 1 := ⟨depth' - 1, by omega⟩
        rw [itemLength, hsame b' hb']
        simp only [Option.bind_eq_bind, Option.bind_some, if_neg h₁, if_neg h₃]
        rfl

namespace Cursor

variable {c d : Cursor} {depth n : ℕ}

theorem major_of_kind {major v m : ℕ} (hleft : c.left ≠ 0)
    (hhead : readHead c.rest = some (major, v, m)) :
    (c.kind = .byteString → major = 2) ∧ (c.kind = .textString → major = 3) ∧
      (c.kind = .map → major = 5) := by
  rw [kind, if_neg hleft, hhead]
  split <;> try split
  all_goals simp_all

/-- Both cursors stand before an item with the same bytes. -/
structure Alike (depth n : ℕ) (c d : Cursor) : Prop where
  left : 0 < c.left ∧ 0 < d.left
  item : itemLength depth c.rest = some n
  same : c.rest.take n <+: d.rest

theorem Alike.head (h : Alike depth n c d) :
    ∃ major v m, readHead c.rest = some (major, v, m) ∧ readHead d.rest = some (major, v, m) ∧
      m ≤ n ∧ n ≤ c.rest.length ∧ ((major = 2 ∨ major = 3) → n = m + v) := by
  obtain ⟨-, hitem, hsame⟩ := h
  obtain ⟨hpos, hle, hcongr⟩ := itemLength_readOff depth _ _ hitem
  rcases depth with _ | depth
  · exact nomatch hitem
  rw [itemLength] at hitem
  rcases hhead : readHead c.rest with _ | ⟨major, v, m⟩
  · rw [hhead] at hitem
    exact nomatch hitem
  obtain ⟨hmpos, hmle, hread⟩ := readHead_congr hhead
  simp only [hhead, Option.bind_eq_bind, Option.bind_some] at hitem
  have hmn : m ≤ n ∧ ((major = 2 ∨ major = 3) → n = m + v) := by
    split_ifs at hitem with h₁ h₂ h₃
    · obtain rfl := Option.some.inj hitem
      exact ⟨by omega, fun _ => rfl⟩
    · exact ⟨(itemsLength_readOff (itemLength_readOff depth) hmle hitem).1, fun h => absurd h h₁⟩
    · obtain rfl := Option.some.inj hitem
      exact ⟨le_rfl, fun h => absurd h h₁⟩
  have hhead' := hread d.rest (by simpa using prefix_part (k := 0) (j := m) hsame (by omega))
  exact ⟨major, v, m, rfl, hhead', hmn.1, hle, hmn.2⟩

/-- What stands before an item with the same bytes reads the same. -/
theorem Alike.reads (h : Alike depth n c d) :
    c.kind = d.kind ∧ c.argument = d.argument ∧ c.headLength = d.headLength ∧ c.value = d.value ∧
      (c.kind = .byteString ∨ c.kind = .textString → c.payload = d.payload) := by
  obtain ⟨major, v, m, hc, hd, hmn, hle, hstring⟩ := h.head
  have hargument : c.argument = d.argument := by rw [argument, argument, hc, hd]
  have hlength : c.headLength = m ∧ d.headLength = m := by
    rw [headLength, headLength, hc, hd]
    exact ⟨rfl, rfl⟩
  have hkind : c.kind = d.kind := by
    rw [kind, kind, if_neg h.left.1.ne', if_neg h.left.2.ne', hc, hd]
  refine ⟨hkind, hargument, hlength.1.trans hlength.2.symm, ?_, fun hk => ?_⟩
  · have hpos := (itemLength_readOff depth _ _ h.item).1
    obtain ⟨t, ht⟩ := h.same
    have hfirst : c.rest.getD 0 0 = d.rest.getD 0 0 := by
      rw [← ht]
      rcases hrest : c.rest with _ | ⟨x, rest⟩
      · rw [hrest] at hle
        exact absurd (lt_of_lt_of_le hpos hle) (lt_irrefl 0)
      · obtain ⟨k, rfl⟩ : ∃ k, n = k + 1 := ⟨n - 1, by omega⟩
        rfl
    rw [value, value, hfirst, hargument]
  · obtain ⟨hbytes, htext, -⟩ := major_of_kind h.left.1.ne' hc
    have hmajor : major = 2 ∨ major = 3 := hk.imp hbytes htext
    have hn := hstring hmajor
    have hv : c.argument = v := by
      rw [argument, hc]
      rfl
    have hpart := prefix_part (k := m) (j := v) h.same (by omega)
    rw [payload, payload, ← hargument, hlength.1, hlength.2, hv]
    exact (eq_take_of_take_le hpart (by rw [List.length_drop]; omega)).symm

theorem Alike.copy_eq (h : Alike depth n c d) (cap : ℕ) :
    c.copy .byteString cap = d.copy .byteString cap := by
  obtain ⟨hkind, hargument, -, -, hpayload⟩ := h.reads
  unfold copy
  rw [← hkind, ← hargument]
  by_cases hk : c.kind = .byteString
  · rw [hpayload (.inl hk)]
  · rw [if_pos hk, if_pos hk]

theorem advance_eq {n : ℕ} (h : itemLength depth c.rest = some n) (hdepth : depth ≤ 8) :
    c.advance = .ok ⟨c.rest.drop n, c.left - 1, c.pos + n⟩ := by
  have h8 := (itemLength_readOff depth _ _ h).2.2 c.rest 8 (List.take_prefix _ _) hdepth
  rw [advance, h8]
  rfl

/-- Entries with the same bytes hold the same value behind a key. -/
theorem find_same (key : List UInt8) (hdepth : depth ≤ 8) {b b' : List UInt8} {m k : ℕ} {l : List ℕ}
    (hlength : l.length = 2 * m) (hitems : itemsLength depth b k l = some n) (hsame : b.take n <+: b')
    (hk : k ≤ b.length) (hc : c.rest = b.drop k) (hd : d.rest = b'.drop k) (hleft : c.left = d.left)
    (hm : 2 * m ≤ c.left) :
    (find key m c).map (fun v cap => v.copy .byteString cap) =
      (find key m d).map fun v cap => v.copy .byteString cap := by
  induction m generalizing k l c d with
  | zero =>
      refine congrArg Except.ok (funext fun cap => ?_)
      simp [copy, kind]
  | succ m ih =>
      rcases l with _ | ⟨x, _ | ⟨y, l⟩⟩ <;> simp only [List.length_cons, List.length_nil] at hlength
      · omega
      · omega
      have hread := itemLength_readOff depth
      obtain ⟨i, hi, hitems⟩ := itemsLength_cons.mp hitems
      obtain ⟨j, hj, hitems⟩ := itemsLength_cons.mp hitems
      obtain ⟨hipos, hile, hicongr⟩ := hread _ _ hi
      obtain ⟨hjpos, hjle, hjcongr⟩ := hread _ _ hj
      rw [List.length_drop] at hile hjle
      have hkn := (itemsLength_readOff hread (by omega) hitems).1
      have hi' := hicongr (b'.drop k) depth (prefix_part hsame (by omega)) le_rfl
      have hj' := hjcongr (b'.drop (k + i)) depth (prefix_part hsame (by omega)) le_rfl
      have hkey : Alike depth i c d := by
        refine ⟨by omega, by rw [hc]; exact hi, ?_⟩
        rw [hc, hd]
        exact prefix_part hsame (by omega)
      have hvalue : Alike depth j ⟨c.rest.drop i, c.left - 1, c.pos + i⟩
          ⟨d.rest.drop i, d.left - 1, d.pos + i⟩ := by
        refine ⟨⟨by dsimp only; omega, by dsimp only; omega⟩, ?_, ?_⟩ <;>
          dsimp only <;> rw [hc, List.drop_drop]
        · exact hj
        · rw [hd, List.drop_drop]
          exact prefix_part hsame (by omega)
      obtain ⟨hkind, -, -, -, hpayload⟩ := hkey.reads
      rw [find, find, advance_eq (n := i) (hc ▸ hi) hdepth, advance_eq (n := i) (hd ▸ hi') hdepth]
      simp only [bind, Except.bind]
      by_cases hfound : c.kind = .textString ∧ c.payload = key
      · have hfound' : d.kind = .textString ∧ d.payload = key := by
          rw [← hkind, ← hpayload (.inr hfound.1)]
          exact hfound
        rw [if_pos hfound, if_pos hfound']
        exact congrArg Except.ok (funext hvalue.copy_eq)
      · have hfound' : ¬ (d.kind = .textString ∧ d.payload = key) := by
          rintro ⟨hk, hp⟩
          rw [← hkind] at hk
          rw [← hpayload (.inr hk)] at hp
          exact hfound ⟨hk, hp⟩
        rw [if_neg hfound, if_neg hfound', advance_eq hvalue.item hdepth,
          @advance_eq _ depth j (by dsimp only; rw [hd, List.drop_drop]; exact hj') hdepth]
        refine ih (k := k + i + j) (l := l) (by omega) hitems (by omega) ?_ ?_ ?_ ?_
        · dsimp only
          rw [hc, List.drop_drop, List.drop_drop, Nat.add_assoc]
        · dsimp only
          rw [hd, List.drop_drop, List.drop_drop, Nat.add_assoc]
        · dsimp only
          omega
        · dsimp only
          omega

/-- What a map with the same bytes holds behind a key. -/
theorem Alike.find_eq (h : Alike 8 n c d) (htype : c.kind = .map) (key : List UInt8) :
    (reader.mapFindValue c key).map reader.copyByteString =
      (reader.mapFindValue d key).map reader.copyByteString := by
  obtain ⟨hkind, hargument, hhead, -, -⟩ := h.reads
  obtain ⟨major, v, m, hc, hd, hmn, hle, -⟩ := h.head
  have hitem := h.item
  obtain rfl : major = 5 := (major_of_kind h.left.1.ne' hc).2.2 htype
  have hlength : c.headLength = m ∧ c.argument = v := by
    rw [headLength, argument, hc]
    exact ⟨rfl, rfl⟩
  rw [itemLength, hc] at hitem
  rw [Option.bind_eq_bind, Option.bind_some] at hitem
  dsimp only at hitem
  rw [if_neg (by decide), if_pos (by decide)] at hitem
  show (find key c.argument _).map _ = (find key d.argument _).map _
  rw [← hargument, hlength.2]
  have hlen : (List.range ((5 - 3) * v)).length = 2 * v := by rw [List.length_range]
  refine find_same key (by decide) hlen hitem h.same (by omega) ?_ ?_ ?_ ?_
  · show c.rest.drop c.headLength = _
    rw [hlength.1]
  · show d.rest.drop d.headLength = _
    rw [← hhead, hlength.1]
  · show (if c.kind = .map then 2 else 1) * v = (if d.kind = .map then 2 else 1) * v
    rw [hkind]
  · show 2 * v ≤ (if c.kind = .map then 2 else 1) * v
    rw [if_pos htype]

end Cursor

theorem Cursor.head_of_map {c : Cursor} (h : c.kind = .map) :
    0 < c.headLength ∧ c.headLength ≤ c.rest.length := by
  rw [Cursor.kind] at h
  split at h
  · exact nomatch h
  · rw [Cursor.headLength]
    rcases hr : readHead c.rest with _ | ⟨major, v, l⟩
    · rw [hr] at h
      exact nomatch h
    · obtain ⟨hpos, hle, -⟩ := readHead_congr hr
      exact ⟨hpos, hle⟩

theorem Cursor.kind_of_copied {c : Cursor} {type : CborType} {cap : ℕ} (h : (c.copy type cap).err = 0) :
    c.kind = type := by
  by_contra hne
  rw [Cursor.copy, if_pos hne] at h
  exact absurd h (by decide : (1 : UInt32) ≠ 0)

/-- The cursor stands in the request, with so many items left. -/
def At (request : List UInt8) (c : Cursor) (left : ℕ) : Prop :=
  c.rest = request.drop c.pos ∧ c.left = left ∧ c.pos ≤ request.length

theorem Cursor.advance_ok {c c' : Cursor} (h : c.advance = .ok c') :
    ∃ n, itemLength 8 c.rest = some n ∧ c' = ⟨c.rest.drop n, c.left - 1, c.pos + n⟩ := by
  unfold advance at h
  rcases hn : itemLength 8 c.rest with _ | n <;> rw [hn] at h
  · exact nomatch h
  · exact ⟨n, rfl, (Except.ok.inj h).symm⟩

theorem reader_inOrder : reader.InOrder At where
  init {request c} h := by
    change (if request = [] then Except.error 1 else .ok (⟨request, 1, 0⟩ : Cursor)) = .ok c at h
    split at h
    · exact nomatch h
    · obtain rfl := Except.ok.inj h
      exact ⟨rfl, rfl, Nat.zero_le _⟩
  enter {request c m k n} hc htype hm hn := by
    obtain ⟨hrest, hleft, hin⟩ := hc
    obtain rfl := Except.ok.inj hm
    obtain rfl : Cursor.argument c = n := Except.ok.inj hn
    change c.kind = .map at htype
    have hhead := Cursor.head_of_map htype
    have hlen : c.rest.length = request.length - c.pos := by rw [hrest, List.length_drop]
    refine ⟨⟨?_, ?_, ?_⟩, ?_, ?_⟩
    · show c.rest.drop c.headLength = _
      rw [hrest, List.drop_drop]
    · show (if c.kind = .map then 2 else 1) * c.argument = _
      rw [if_pos htype]
    · show c.pos + c.headLength ≤ _
      omega
    · show c.pos < c.pos + c.headLength
      omega
    · show c.pos + c.headLength ≤ _
      omega
  advance {request c c' k} hc h := by
    obtain ⟨hrest, hleft, hin⟩ := hc
    obtain ⟨n, hn, rfl⟩ := Cursor.advance_ok h
    obtain ⟨hpos, hle, -⟩ := itemLength_readOff 8 _ _ hn
    rw [hrest, List.length_drop] at hle
    refine ⟨⟨?_, ?_, ?_⟩, ?_, ?_⟩
    · rw [hrest, List.drop_drop]
    · show c.left - 1 = k
      omega
    · show c.pos + n ≤ _
      omega
    · show c.pos < c.pos + n
      omega
    · show c.pos + n ≤ _
      omega
  item {r s c c' d d' k l} hc hd hc' hd' hsame := by
    obtain ⟨hcrest, hcleft, -⟩ := hc
    obtain ⟨hdrest, hdleft, -⟩ := hd
    obtain ⟨n, hn, rfl⟩ := Cursor.advance_ok hc'
    obtain ⟨n', hn', rfl⟩ := Cursor.advance_ok hd'
    change (r.drop c.pos).take (c.pos + n - c.pos) <+: s.drop d.pos at hsame
    rw [← hcrest, ← hdrest, Nat.add_sub_cancel_left] at hsame
    have hcongr := (itemLength_readOff 8 _ _ hn).2.2 _ 8 hsame le_rfl
    obtain rfl := Option.some.inj (hcongr.symm.trans hn')
    have halike : Cursor.Alike 8 n c d := ⟨by omega, hn, hsame⟩
    obtain ⟨hkind, hargument, hhead, hvalue, -⟩ := halike.reads
    refine ⟨?_, hvalue, fun _ => halike.copy_eq, fun htype key => ?_⟩
    · show d.pos + n - d.pos = c.pos + n - c.pos
      omega
    · exact halike.find_eq htype key
  copy _ h := Cursor.kind_of_copied h

end Sample

end NitrokeyFido2.Ctap
