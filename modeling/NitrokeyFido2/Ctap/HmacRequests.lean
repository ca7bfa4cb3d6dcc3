import NitrokeyFido2.Lib.LastSome
import NitrokeyFido2.Ctap.SampleItems

/-!
What a parsed hmac-secret request holds.

`ctap_parse_hmac_secret` counts the entries it has gone through, in a byte, and
takes a request for complete when the count is three. Each entry writes the field
of its key from what the entry brings alone, so a field whose key occurs holds what
the last entry with this key brings.
-/

namespace NitrokeyFido2.Ctap

/-! ### COSE keys -/

section CoseKey

variable {rd : Reading}

/-- A string of just the length of its array takes the place of all that was there. -/
theorem fixedByteString_ok (hrd : rd.Faithful) {n : ℕ} {x : Item} {b t : Buf n} :
    coseKeyEffect.fixedByteString rd x b = (.ok (), t) ↔
      ∃ bytes, x = .bytes bytes ∧ bytes.length = n ∧ t = Buf.ofList n bytes := by
  simp only [coseKeyEffect.fixedByteString, checkErr, Proc.bind_ok, Proc.stopIf_ok, Proc.modify_ok]
  constructor
  · rintro ⟨_, _, ⟨htype, rfl⟩, _, _, rfl, _, _, ⟨herr, rfl⟩, hlen, rfl⟩
    obtain ⟨bytes, rfl⟩ : ∃ bytes, x = .bytes bytes := by
      cases x with
      | bytes bytes => exact ⟨bytes, rfl⟩
      | other t => cases t <;> simp [Item.type, OtherType.type] at htype
      | _ => simp [Item.type] at htype
    have hfits : bytes.length ≤ n := by
      by_contra hlong
      exact herr (by rw [hrd.bytes_long bytes n (not_le.mp hlong)]; decide)
    have hcopy := hrd.bytes_fits bytes n hfits
    have hfull : bytes.length = n := by simpa [hcopy] using hlen
    refine ⟨bytes, rfl, hfull, ?_⟩
    rw [hcopy, terminated, if_neg (by omega), List.append_nil, Buf.write_eq_ofList hfull]
  · rintro ⟨bytes, rfl, hfull, rfl⟩
    have hcopy := hrd.bytes_fits bytes n hfull.le
    refine ⟨(), b, ⟨by simp [Item.type], rfl⟩, (), _, rfl, (), _, ⟨by simp [hcopy], rfl⟩,
      by simp [hcopy, hfull], ?_⟩
    rw [hcopy, terminated, if_neg (by omega), List.append_nil, Buf.write_eq_ofList hfull]

/-- What an accepted entry of a COSE key sets. -/
def SetsKey (rd : Reading) (key : ℤ) (x : Item) (k t : CoseKey) : Prop :=
  (key = 1 ∧ ∃ v, x.type = .integer ∧ rd.getIntChecked x = .ok v ∧ t = { k with kty := v }) ∨
  (key = -1 ∧ ∃ v, x.type = .integer ∧ rd.getIntChecked x = .ok v ∧ t = { k with crv := v }) ∨
  (key = -2 ∧ ∃ bytes, x = .bytes bytes ∧ bytes.length = 32 ∧
    t = { k with x := Buf.ofList 32 bytes }) ∨
  (key = -3 ∧ ∃ bytes, x = .bytes bytes ∧ bytes.length = 32 ∧
    t = { k with y := Buf.ofList 32 bytes }) ∨
  (key ≠ 1 ∧ key ≠ -1 ∧ key ≠ -2 ∧ key ≠ -3 ∧ t = k)

theorem coseKeyEffect_ok (hrd : rd.Faithful) {e : Item × Item} {k t : CoseKey} :
    coseKeyEffect rd e k = (.ok (), t) ↔
      e.1.type = .integer ∧ ∃ key, rd.getIntChecked e.1 = .ok key ∧ SetsKey rd key e.2 k t := by
  have hint : ∀ f : ℤ → CoseKey → CoseKey, (do
      Proc.stopIf (e.2.type ≠ .integer) ctap2ErrInvalidCborType
      let v ← checkRet (rd.getIntChecked e.2)
      Proc.modify (f v) : Parse CoseKey Unit) k = (.ok (), t) ↔
      ∃ v, e.2.type = .integer ∧ rd.getIntChecked e.2 = .ok v ∧ t = f v k := by
    intro f
    simp only [Proc.bind_ok, Proc.stopIf_ok, checkRet_ok, Proc.modify_ok, not_not]
    constructor
    · rintro ⟨_, _, ⟨htype, rfl⟩, v, _, ⟨hv, rfl⟩, rfl⟩
      exact ⟨v, htype, hv, rfl⟩
    · rintro ⟨v, htype, hv, rfl⟩
      exact ⟨(), k, ⟨htype, rfl⟩, v, k, ⟨hv, rfl⟩, rfl⟩
  have hbody : coseKeyEffect rd e k = (.ok (), t) ↔ e.1.type = .integer ∧
      ∃ key, rd.getIntChecked e.1 = .ok key ∧ coseKeyEffect rd e k = (.ok (), t) := by
    constructor
    · intro h
      have hparts := h
      simp only [coseKeyEffect, Proc.bind_ok, Proc.stopIf_ok, checkRet_ok, not_not] at hparts
      obtain ⟨_, _, ⟨htype, rfl⟩, key, _, ⟨hkey, rfl⟩, -⟩ := hparts
      exact ⟨htype, key, hkey, h⟩
    · rintro ⟨-, _, -, h⟩
      exact h
  rw [hbody]
  refine and_congr_right fun htype => exists_congr fun key => and_congr_right fun hkey => ?_
  rw [coseKeyEffect, stopIf_false (not_not.mpr htype), pure_bind, hkey, checkRet_of_ok, pure_bind,
    SetsKey]
  -- the cases of the key exclude each other
  by_cases h₁ : key = 1
  · simp [h₁, hint fun v k => { k with kty := v }]
  by_cases h₂ : key = -1
  · simp [h₂, hint fun v k => { k with crv := v }]
  by_cases h₃ : key = -2
  · simp [h₃, Proc.zoom_ok, fixedByteString_ok hrd, and_assoc, @eq_comm _ t]
  by_cases h₄ : key = -3
  · simp [h₄, Proc.zoom_ok, fixedByteString_ok hrd, and_assoc, @eq_comm _ t]
  simp [h₁, h₂, h₃, h₄, @eq_comm _ t]

/-- The keys agree in what the entries up to here have set. -/
def AgreeSeen (seen : Bool × Bool) (k k' : CoseKey) : Prop :=
  k.kty = k'.kty ∧ k.crv = k'.crv ∧ (seen.1 = true → k.x = k'.x) ∧ (seen.2 = true → k.y = k'.y)

/-- An entry of a COSE key does the same to both. -/
theorem coseKeyEffect_same (hrd : rd.Faithful) {e : Item × Item} {seen : Bool × Bool}
    {k k' t : CoseKey} (h : coseKeyEffect rd e k = (.ok (), t)) (hagree : AgreeSeen seen k k') :
    ∃ t', coseKeyEffect rd e k' = (.ok (), t') ∧ AgreeSeen (coseKeySeen rd seen e) t t' := by
  obtain ⟨hkty, hcrv, hx, hy⟩ := hagree
  obtain ⟨htype, key, hkey, hsets⟩ := (coseKeyEffect_ok hrd).mp h
  have hstep : ∀ t', SetsKey rd key e.2 k' t' → coseKeyEffect rd e k' = (.ok (), t') := fun t' ht' =>
    (coseKeyEffect_ok hrd).mpr ⟨htype, key, hkey, ht'⟩
  rcases hsets with ⟨rfl, v, hv, hread, rfl⟩ | ⟨rfl, v, hv, hread, rfl⟩ | ⟨rfl, bytes, hb, hlen, rfl⟩ |
    ⟨rfl, bytes, hb, hlen, rfl⟩ | ⟨h₁, h₂, h₃, h₄, rfl⟩
  · exact ⟨_, hstep _ (.inl ⟨rfl, v, hv, hread, rfl⟩), by
      simpa [coseKeySeen, hkey, AgreeSeen] using ⟨hcrv, hx, hy⟩⟩
  · exact ⟨_, hstep _ (.inr (.inl ⟨rfl, v, hv, hread, rfl⟩)), by
      simpa [coseKeySeen, hkey, AgreeSeen] using ⟨hkty, hx, hy⟩⟩
  · exact ⟨_, hstep _ (.inr (.inr (.inl ⟨rfl, bytes, hb, hlen, rfl⟩))), by
      simpa [coseKeySeen, hkey, AgreeSeen] using ⟨hkty, hcrv, hy⟩⟩
  · exact ⟨_, hstep _ (.inr (.inr (.inr (.inl ⟨rfl, bytes, hb, hlen, rfl⟩)))), by
      simpa [coseKeySeen, hkey, AgreeSeen] using ⟨hkty, hcrv, hx⟩⟩
  · exact ⟨_, hstep _ (.inr (.inr (.inr (.inr ⟨h₁, h₂, h₃, h₄, rfl⟩)))), by
      simpa [coseKeySeen, hkey, AgreeSeen, h₃, h₄] using ⟨hkty, hcrv, hx, hy⟩⟩

theorem forM_coseKeyEffect_same (hrd : rd.Faithful) {es : List (Item × Item)} {seen : Bool × Bool}
    {k k' t : CoseKey} (h : forM es (coseKeyEffect rd) k = (.ok (), t)) (hagree : AgreeSeen seen k k') :
    ∃ t', forM es (coseKeyEffect rd) k' = (.ok (), t') ∧
      AgreeSeen (es.foldl (coseKeySeen rd) seen) t t' := by
  induction es generalizing seen k k' with
  | nil =>
      cases h
      exact ⟨k', rfl, hagree⟩
  | cons e es ih =>
      rw [List.forM_cons] at h
      obtain ⟨_, k₁, hfirst, hrest⟩ := Proc.bind_ok.mp h
      obtain ⟨k₁', hfirst', hagree⟩ := coseKeyEffect_same hrd hfirst hagree
      obtain ⟨t', hrest', hagree⟩ := ih hrest hagree
      refine ⟨t', ?_, hagree⟩
      rw [List.forM_cons, Proc.bind_of_ok hfirst', hrest']

/-- An accepted COSE key is read from the item alone: nothing is left of what was
there before. -/
theorem coseKeyOf_same (hrd : rd.Faithful) {x : Item} {k t : CoseKey}
    (h : coseKeyOf rd x k = (.ok (), t)) (k' : CoseKey) : coseKeyOf rd x k' = (.ok (), t) := by
  cases x with
  | map es =>
      simp only [coseKeyOf, Proc.bind_ok, Proc.modify_ok, Proc.get_ok, Proc.stopIf_ok] at h ⊢
      obtain ⟨_, _, rfl, _, t₁, hrun, _, _, ⟨rfl, rfl⟩, hseen, rfl⟩ := h
      obtain ⟨t', hrun', hkty, hcrv, hx, hy⟩ := @forM_coseKeyEffect_same rd hrd es (false, false) _
        { k' with kty := 0, crv := 0 } _ hrun ⟨rfl, rfl, by simp, by simp⟩
      simp only [not_or, Bool.not_eq_false] at hseen
      have ht : t' = t₁ := by
        cases t'
        cases t₁
        rw [CoseKey.mk.injEq]
        exact ⟨(hx hseen.1).symm, (hy hseen.2.1).symm, hkty.symm, hcrv.symm⟩
      rw [ht] at hrun'
      exact ⟨(), _, rfl, (), t₁, hrun', t₁, t₁, ⟨rfl, rfl⟩, by simpa using hseen, rfl⟩
  | _ => simp [coseKeyOf, Proc.bind_ok] at h

end CoseKey

/-! ### Entries of a request -/

section Entries

variable (rd : Reading)

/-- No check refuses the entry. -/
def hmacEntryAccepted (e : Item × Item) : Prop :=
  e.1.type = .integer ∧
  (rd.getInt e.1 = 1 → (coseKeyOf rd e.2 default).1 = .ok ()) ∧
  (rd.getInt e.1 = 2 → ((rd.copyByteString e.2 64).buflen = 32 ∨ (rd.copyByteString e.2 64).buflen = 64) ∧
    (rd.copyByteString e.2 64).err = 0) ∧
  (rd.getInt e.1 = 3 → (rd.copyByteString e.2 32).err = 0)

/-- The platform key was read from this item. -/
def PlatformKeyRead (x : Item) (hs : HmacSecret) : Prop :=
  ∀ k, coseKeyOf rd x k = (.ok (), hs.keyAgreement)

/-- The salts were read from this item. -/
def SaltEncRead (x : Item) (hs : HmacSecret) : Prop :=
  ((rd.copyByteString x 64).buflen = 32 ∨ (rd.copyByteString x 64).buflen = 64) ∧
  hs.saltLen = UInt8.ofNat (rd.copyByteString x 64).buflen ∧
  ∃ before : Buf 64, hs.saltEnc = before.write 0 (rd.copyByteString x 64).written

/-- The authentication of the salts was read from this item. -/
def SaltAuthRead (x : Item) (hs : HmacSecret) : Prop :=
  (rd.copyByteString x 32).err = 0 ∧
  ∃ before : Buf 32, hs.saltAuth = before.write 0 (rd.copyByteString x 32).written

/-- What an accepted entry sets. -/
def SetsHmac (key : ℤ) (x : Item) (hs t : HmacSecret) : Prop :=
  (key = 1 ∧ PlatformKeyRead rd x t ∧ t = { hs with keyAgreement := t.keyAgreement }) ∨
  (key = 2 ∧ ((rd.copyByteString x 64).buflen = 32 ∨ (rd.copyByteString x 64).buflen = 64) ∧
    (rd.copyByteString x 64).err = 0 ∧
    t = { hs with
      saltEnc := hs.saltEnc.write 0 (rd.copyByteString x 64).written
      saltLen := UInt8.ofNat (rd.copyByteString x 64).buflen }) ∨
  (key = 3 ∧ (rd.copyByteString x 32).err = 0 ∧
    t = { hs with saltAuth := hs.saltAuth.write 0 (rd.copyByteString x 32).written }) ∨
  (key ≠ 1 ∧ key ≠ 2 ∧ key ≠ 3 ∧ t = hs)

variable {rd}

theorem hmacSecretEffect_ok (hrd : rd.Faithful) {e : Item × Item} {hs t : HmacSecret} :
    hmacSecretEffect rd e hs = (.ok (), t) ↔
      e.1.type = .integer ∧ SetsHmac rd (rd.getInt e.1) e.2 hs t := by
  unfold hmacSecretEffect SetsHmac
  by_cases htype : e.1.type = .integer
  · rw [stopIf_false (not_not.mpr htype), pure_bind, eq_true htype, true_and]
    by_cases h₁ : rd.getInt e.1 = 1
    · simp only [h₁, if_true, Proc.zoom_ok]
      constructor
      · rintro ⟨k, hk, rfl⟩
        exact .inl ⟨trivial, coseKeyOf_same hrd hk, rfl⟩
      · rintro (⟨-, hk, ht⟩ | ⟨h, -⟩ | ⟨h, -⟩ | ⟨h, -⟩)
        · exact ⟨t.keyAgreement, hk _, ht.symm⟩
        · cases h
        · cases h
        · exact absurd rfl h
    by_cases h₂ : rd.getInt e.1 = 2
    · simp [h₂, Proc.bind_ok, checkErr, @eq_comm _ t]
      -- a copy without an error is not one that was too long
      intro herr _
      simp [herr, noError_ne_outOfMemory, or_iff_not_imp_left]
    by_cases h₃ : rd.getInt e.1 = 3
    · simp [h₃, Proc.bind_ok, checkErr, @eq_comm _ t]
    simp [h₁, h₂, h₃, @eq_comm _ t]
  · rw [stopIf_true htype]
    simp [htype]

/-- Whether an entry is accepted does not depend on what was read before. -/
theorem hmacSecretEffect_accepts (hrd : rd.Faithful) (e : Item × Item) (hs : HmacSecret) :
    (∃ hs', hmacSecretEffect rd e hs = (.ok (), hs')) ↔ hmacEntryAccepted rd e := by
  simp only [hmacSecretEffect_ok hrd]
  constructor
  · rintro ⟨t, htype, ⟨h, hk, -⟩ | ⟨h, hlen, herr, -⟩ | ⟨h, herr, -⟩ | ⟨h₁, h₂, h₃, -⟩⟩
    · refine ⟨htype, fun _ => by rw [hk default], ?_, ?_⟩
      · intro h'
        omega
      · intro h'
        omega
    · exact ⟨htype, fun h' => by omega, fun _ => ⟨hlen, herr⟩, fun h' => by omega⟩
    · exact ⟨htype, fun h' => by omega, fun h' => by omega, fun _ => herr⟩
    · exact ⟨htype, fun h => absurd h h₁, fun h => absurd h h₂, fun h => absurd h h₃⟩
  · rintro ⟨htype, hkey, henc, hauth⟩
    by_cases h₁ : rd.getInt e.1 = 1
    · obtain ⟨k, hk⟩ : ∃ k, coseKeyOf rd e.2 default = (.ok (), k) := ⟨_, Prod.ext (hkey h₁) rfl⟩
      exact ⟨{ hs with keyAgreement := k }, htype, .inl ⟨h₁, coseKeyOf_same hrd hk, rfl⟩⟩
    by_cases h₂ : rd.getInt e.1 = 2
    · exact ⟨_, htype, .inr (.inl ⟨h₂, (henc h₂).1, (henc h₂).2, rfl⟩)⟩
    by_cases h₃ : rd.getInt e.1 = 3
    · exact ⟨_, htype, .inr (.inr (.inl ⟨h₃, hauth h₃, rfl⟩))⟩
    · exact ⟨_, htype, .inr (.inr (.inr ⟨h₁, h₂, h₃, rfl⟩))⟩

theorem forM_hmacSecretEffect_accepts (hrd : rd.Faithful) (es : List (Item × Item)) (hs : HmacSecret) :
    (∃ hs', forM es (hmacSecretEffect rd) hs = (.ok (), hs')) ↔ ∀ e ∈ es, hmacEntryAccepted rd e := by
  induction es generalizing hs with
  | nil =>
      constructor
      · intro _ e he
        cases he
      · exact fun _ => ⟨hs, rfl⟩
  | cons e es ih =>
      rw [List.forall_mem_cons, ← hmacSecretEffect_accepts hrd e hs]
      simp only [List.forM_cons, Proc.bind_ok]
      constructor
      · rintro ⟨hs', _, hs₁, hfirst, hrest⟩
        exact ⟨⟨hs₁, hfirst⟩, (ih hs₁).mp ⟨hs', hrest⟩⟩
      · rintro ⟨⟨hs₁, hfirst⟩, hrest⟩
        obtain ⟨hs', hrest⟩ := (ih hs₁).mpr hrest
        exact ⟨hs', (), hs₁, hfirst, hrest⟩

end Entries

/-! ### Requests -/

section Requests

variable (rd : Reading)

/-- The item behind the last entry with this key. -/
def lastWith (key : ℤ) (es : List (Item × Item)) : Option Item :=
  lastSome (fun e => if rd.getInt e.1 = key then some e.2 else none) es

/-- An entry with one of the keys that are counted. -/
def isCounted (e : Item × Item) : Bool :=
  rd.getInt e.1 = 1 ∨ rd.getInt e.1 = 2 ∨ rd.getInt e.1 = 3

/-- The three fields were read from the map, each from the last entry with its key. -/
structure ReadFrom (es : List (Item × Item)) (hs : HmacSecret) : Prop where
  platformKey : ∃ x, lastWith rd 1 es = some x ∧ PlatformKeyRead rd x hs
  saltEnc : ∃ x, lastWith rd 2 es = some x ∧ SaltEncRead rd x hs
  saltAuth : ∃ x, lastWith rd 3 es = some x ∧ SaltAuthRead rd x hs

variable {rd} {es : List (Item × Item)}

theorem lastWith_append_singleton (key : ℤ) (es : List (Item × Item)) (e : Item × Item) :
    lastWith rd key (es ++ [e]) = if rd.getInt e.1 = key then some e.2 else lastWith rd key es := by
  rw [lastWith, lastWith, lastSome_append_singleton]
  split <;> rfl

theorem foldl_hmacSecretCount (es : List (Item × Item)) (n : UInt8) :
    es.foldl (hmacSecretCount rd) n = n + UInt8.ofNat (es.countP (isCounted rd)) := by
  induction es generalizing n with
  | nil => simp
  | cons e es ih =>
      rw [List.foldl_cons, ih, List.countP_cons, hmacSecretCount]
      by_cases h : isCounted rd e = true
      · have hcount : rd.getInt e.1 = 1 ∨ rd.getInt e.1 = 2 ∨ rd.getInt e.1 = 3 := by
          simpa [isCounted] using h
        rw [if_pos hcount, if_pos h, UInt8.ofNat_add, UInt8.add_assoc,
          UInt8.add_comm 1]
        rfl
      · have hcount : ¬ (rd.getInt e.1 = 1 ∨ rd.getInt e.1 = 2 ∨ rd.getInt e.1 = 3) := by
          simpa [isCounted] using h
        rw [if_neg hcount, if_neg h, Nat.add_zero]

/-- Where each entry with a key is read, and no other entry touches what was read, a
run ends with what the last entry with the key brought. -/
theorem forM_hmacSecretEffect_last {key : ℤ} {Read : Item → HmacSecret → Prop}
    (hstep : ∀ e hs hs', hmacSecretEffect rd e hs = (.ok (), hs') →
      (rd.getInt e.1 = key → Read e.2 hs') ∧
      (rd.getInt e.1 ≠ key → ∀ x, Read x hs → Read x hs')) {hs hs' : HmacSecret}
    (h : forM es (hmacSecretEffect rd) hs = (.ok (), hs')) {x : Item}
    (hx : lastWith rd key es = some x) : Read x hs' := by
  induction es using List.reverseRecOn generalizing hs' with
  | nil => cases hx
  | append_singleton es e ih =>
      rw [List.forM_append] at h
      obtain ⟨_, hs₁, hinit, hlast⟩ := Proc.bind_ok.mp h
      simp only [List.forM_cons, List.forM_nil, bind_pure_unit] at hlast
      obtain ⟨hread, hother⟩ := hstep e hs₁ hs' hlast
      rw [lastWith_append_singleton] at hx
      by_cases hkey : rd.getInt e.1 = key
      · rw [if_pos hkey] at hx
        obtain rfl := Option.some.inj hx
        exact hread hkey
      · rw [if_neg hkey] at hx
        exact hother hkey x (ih hinit hx)

theorem platformKeyRead_of_run (hrd : rd.Faithful) {hs hs' : HmacSecret}
    (h : forM es (hmacSecretEffect rd) hs = (.ok (), hs')) {x : Item}
    (hx : lastWith rd 1 es = some x) : PlatformKeyRead rd x hs' := by
  refine forM_hmacSecretEffect_last (fun e hs hs' he => ?_) h hx
  rcases ((hmacSecretEffect_ok hrd).mp he).2 with ⟨h₁, hread, -⟩ | ⟨h₂, -, -, rfl⟩ | ⟨h₃, -, rfl⟩ |
    ⟨h₁, -, -, rfl⟩
  · exact ⟨fun _ => hread, fun h => absurd h₁ h⟩
  · exact ⟨fun h => by omega, fun _ x hx => hx⟩
  · exact ⟨fun h => by omega, fun _ x hx => hx⟩
  · exact ⟨fun h => absurd h h₁, fun _ x hx => hx⟩

theorem saltEncRead_of_run (hrd : rd.Faithful) {hs hs' : HmacSecret}
    (h : forM es (hmacSecretEffect rd) hs = (.ok (), hs')) {x : Item}
    (hx : lastWith rd 2 es = some x) : SaltEncRead rd x hs' := by
  refine forM_hmacSecretEffect_last (fun e hs hs' he => ?_) h hx
  rcases ((hmacSecretEffect_ok hrd).mp he).2 with ⟨h₁, -, ht⟩ | ⟨h₂, hlen, -, rfl⟩ | ⟨h₃, -, rfl⟩ |
    ⟨-, h₂, -, rfl⟩
  · refine ⟨fun h => by omega, fun _ x hx => ?_⟩
    rw [ht]
    exact hx
  · exact ⟨fun _ => ⟨hlen, rfl, hs.saltEnc, rfl⟩, fun h => absurd h₂ h⟩
  · exact ⟨fun h => by omega, fun _ x hx => hx⟩
  · exact ⟨fun h => absurd h h₂, fun _ x hx => hx⟩

theorem saltAuthRead_of_run (hrd : rd.Faithful) {hs hs' : HmacSecret}
    (h : forM es (hmacSecretEffect rd) hs = (.ok (), hs')) {x : Item}
    (hx : lastWith rd 3 es = some x) : SaltAuthRead rd x hs' := by
  refine forM_hmacSecretEffect_last (fun e hs hs' he => ?_) h hx
  rcases ((hmacSecretEffect_ok hrd).mp he).2 with ⟨h₁, -, ht⟩ | ⟨h₂, -, -, rfl⟩ | ⟨h₃, herr, rfl⟩ |
    ⟨-, -, h₃, rfl⟩
  · refine ⟨fun h => by omega, fun _ x hx => ?_⟩
    rw [ht]
    exact hx
  · exact ⟨fun h => by omega, fun _ x hx => hx⟩
  · exact ⟨fun _ => ⟨herr, hs.saltAuth, rfl⟩, fun h => absurd h₃ h⟩
  · exact ⟨fun h => absurd h h₃, fun _ x hx => hx⟩

theorem lastWith_isSome (key : ℤ) :
    (∃ x, lastWith rd key es = some x) ↔ ∃ e ∈ es, rd.getInt e.1 = key := by
  rw [← Option.isSome_iff_exists, lastWith, lastSome_isSome]
  refine exists_congr fun e => and_congr_right fun _ => ?_
  by_cases h : rd.getInt e.1 = key
  · simp [h]
  · simp [h]

/-- A request is accepted when none of its entries is refused and the count, in a
byte, is three. -/
theorem hmacSecretOf_accepts (hrd : rd.Faithful) (hs : HmacSecret) :
    (∃ hs', hmacSecretOf rd (.map es) hs = (.ok (), hs')) ↔
      (∀ e ∈ es, hmacEntryAccepted rd e) ∧ es.countP (isCounted rd) % 256 = 3 := by
  have hcount : ¬ es.foldl (hmacSecretCount rd) 0 ≠ 3 ↔ es.countP (isCounted rd) % 256 = 3 := by
    rw [foldl_hmacSecretCount, UInt8.zero_add, not_not, ← UInt8.toNat_inj, UInt8.toNat_ofNat']
    rfl
  simp only [hmacSecretOf, Proc.bind_ok, Proc.stopIf_ok, hcount, ← forM_hmacSecretEffect_accepts hrd es hs]
  constructor
  · rintro ⟨hs', _, hs₁, hrun, hn, rfl⟩
    exact ⟨⟨hs₁, hrun⟩, hn⟩
  · rintro ⟨⟨hs₁, hrun⟩, hn⟩
    exact ⟨hs₁, (), hs₁, hrun, hn, rfl⟩

theorem readFrom_iff (hrd : rd.Faithful) {hs hs' : HmacSecret}
    (h : hmacSecretOf rd (.map es) hs = (.ok (), hs')) :
    ReadFrom rd es hs' ↔ ∀ key, (key = 1 ∨ key = 2 ∨ key = 3) → ∃ e ∈ es, rd.getInt e.1 = key := by
  simp only [hmacSecretOf, Proc.bind_ok, Proc.stopIf_ok] at h
  obtain ⟨_, _, hrun, -, rfl⟩ := h
  simp only [← lastWith_isSome]
  constructor
  · rintro ⟨⟨x, hx, -⟩, ⟨y, hy, -⟩, ⟨z, hz, -⟩⟩ key (rfl | rfl | rfl)
    · exact ⟨x, hx⟩
    · exact ⟨y, hy⟩
    · exact ⟨z, hz⟩
  · intro hkeys
    obtain ⟨x, hx⟩ := hkeys 1 (.inl rfl)
    obtain ⟨y, hy⟩ := hkeys 2 (.inr (.inl rfl))
    obtain ⟨z, hz⟩ := hkeys 3 (.inr (.inr rfl))
    exact ⟨⟨x, hx, platformKeyRead_of_run hrd hrun hx⟩, ⟨y, hy, saltEncRead_of_run hrd hrun hy⟩,
      ⟨z, hz, saltAuthRead_of_run hrd hrun hz⟩⟩

/-- The saltAuth that was read fills the sixteen bytes that are compared. -/
def SaltAuthWhole (rd : Reading) (es : List (Item × Item)) : Prop :=
  ∃ x, lastWith rd 3 es = some x ∧ 16 ≤ (rd.copyByteString x 32).buflen

/-- The platform key, saltEnc and saltAuth of every request that is accepted were read
from its map if and only if the map holds all three keys, or holds an entry that is
refused, or the number of its entries for these keys is not three, modulo 256; and
nothing of saltAuth is left over either if, besides, the last saltAuth of an accepted
request has sixteen bytes. -/
theorem hmac_secret_complete_iff (env : Env) {rd : Reading} (hrd : rd.Faithful)
    {c : env.reader.Cursor} {es : List (Item × Item)} (hc : Shows env.reader rd c (.map es))
    (hs : HmacSecret) :
    ((∀ hs', ctapParseHmacSecret env c hs = (.ok (), hs') → ReadFrom rd es hs') ↔
      ((∀ key, key = 1 ∨ key = 2 ∨ key = 3 → ∃ e ∈ es, rd.getInt e.1 = key) ∨
        (∃ e ∈ es, ¬ hmacEntryAccepted rd e) ∨ es.countP (isCounted rd) % 256 ≠ 3)) ∧
    ((∀ hs', ctapParseHmacSecret env c hs = (.ok (), hs') → ReadFrom rd es hs' ∧ SaltAuthWhole rd es) ↔
      (((∀ key, key = 1 ∨ key = 2 ∨ key = 3 → ∃ e ∈ es, rd.getInt e.1 = key) ∧ SaltAuthWhole rd es) ∨
        (∃ e ∈ es, ¬ hmacEntryAccepted rd e) ∨ es.countP (isCounted rd) % 256 ≠ 3)) := by
  rw [ctapParseHmacSecret_shown hc]
  by_cases hgoes : (∀ e ∈ es, hmacEntryAccepted rd e) ∧ es.countP (isCounted rd) % 256 = 3
  · -- the request is accepted, and what it holds is what the keys say
    obtain ⟨hs₁, hrun⟩ := (hmacSecretOf_accepts hrd hs).mpr hgoes
    have hread := readFrom_iff hrd hrun
    have hall : ∀ P : HmacSecret → Prop,
        (∀ hs', hmacSecretOf rd (.map es) hs = (.ok (), hs') → P hs') ↔ P hs₁ := by
      intro P
      refine ⟨fun h => h hs₁ hrun, fun h hs' hrun' => ?_⟩
      rw [hrun] at hrun'
      cases hrun'
      exact h
    have hnone : ¬ ((∃ e ∈ es, ¬ hmacEntryAccepted rd e) ∨ es.countP (isCounted rd) % 256 ≠ 3) := by
      rintro (⟨e, he, hrefused⟩ | hcount)
      · exact hrefused (hgoes.1 e he)
      · exact hcount hgoes.2
    rw [hall, hall, hread, or_iff_left hnone, or_iff_left hnone]
    exact ⟨Iff.rfl, Iff.rfl⟩
  · have hstops : ∀ hs', ¬ hmacSecretOf rd (.map es) hs = (.ok (), hs') := fun hs' hrun =>
      hgoes ((hmacSecretOf_accepts hrd hs).mp ⟨hs', hrun⟩)
    have hsome : (∃ e ∈ es, ¬ hmacEntryAccepted rd e) ∨ es.countP (isCounted rd) % 256 ≠ 3 := by
      by_contra hnone
      push Not at hnone
      exact hgoes hnone
    exact ⟨⟨fun _ => .inr hsome, fun _ hs' hrun => absurd hrun (hstops hs')⟩,
      ⟨fun _ => .inr hsome, fun _ hs' hrun => absurd hrun (hstops hs')⟩⟩

end Requests

/-! ### Two requests -/

namespace Sample

/-- The public key of a platform. -/
def platformKeyEntries : List (Item × Item) :=
  [(.int 1, .int 2), (.int 3, .int (-25)), (.int (-1), .int 1),
    (.int (-2), .bytes (List.replicate 32 5)), (.int (-3), .bytes (List.replicate 32 6))]

/-- A request with its three entries. -/
def wholeRequest : List Part :=
  [⟨.int 1, start (.int 1), .map platformKeyEntries, mapBytes (leafParts platformKeyEntries)⟩,
    ⟨.int 2, start (.int 2), .bytes (List.replicate 32 7), start (.bytes (List.replicate 32 7))⟩,
    ⟨.int 3, start (.int 3), .bytes (List.replicate 16 8), start (.bytes (List.replicate 16 8))⟩]

def wholeCursor : Sample.env.reader.Cursor := (⟨mapBytes wholeRequest, 1, 0⟩ : Cursor)

theorem blocks_wholeRequest : ∀ p ∈ wholeRequest, p.Blocks 2 := by
  have hkey : Block 2 (.map platformKeyEntries) (mapBytes (leafParts platformKeyEntries)) := by
    refine block_leafParts (by decide) fun e he => ?_
    simp only [platformKeyEntries, List.mem_cons, List.not_mem_nil, or_false] at he
    rcases he with rfl | rfl | rfl | rfl | rfl
    · exact ⟨leaf_int (by decide), leaf_int (by decide)⟩
    · exact ⟨leaf_int (by decide), leaf_int (by decide)⟩
    · exact ⟨leaf_int (by decide), leaf_int (by decide)⟩
    · exact ⟨leaf_int (by decide), leaf_bytes (by simp)⟩
    · exact ⟨leaf_int (by decide), leaf_bytes (by simp)⟩
  intro p hp
  simp only [wholeRequest, List.mem_cons, List.not_mem_nil, or_false] at hp
  rcases hp with rfl | rfl | rfl
  · exact ⟨(leaf_int (by decide)).block.mono (by decide), hkey⟩
  · exact ⟨(leaf_int (by decide)).block.mono (by decide),
      (leaf_bytes (by simp)).block.mono (by decide)⟩
  · exact ⟨(leaf_int (by decide)).block.mono (by decide),
      (leaf_bytes (by simp)).block.mono (by decide)⟩

theorem shows_wholeRequest :
    Shows Sample.env.reader reading wholeCursor (.map (wholeRequest.map Part.entry)) := by
  have hshown := (block_map blocks_wholeRequest (by decide) (by decide)).shown [] 0 0
  rw [List.append_nil] at hshown
  exact hshown

end Sample

/-- A request with its three entries is accepted and holds what they bring. -/
theorem hmac_secret_complete_iff_whole :
    (ctapParseHmacSecret Sample.env Sample.wholeCursor default).1 = .ok () ∧
      ∀ hs', ctapParseHmacSecret Sample.env Sample.wholeCursor default = (.ok (), hs') →
        ReadFrom Sample.reading (Sample.wholeRequest.map Sample.Part.entry) hs' ∧
          SaltAuthWhole Sample.reading (Sample.wholeRequest.map Sample.Part.entry) := by
  have hkeys : ∀ key : ℤ, key = 1 ∨ key = 2 ∨ key = 3 →
      ∃ e ∈ Sample.wholeRequest.map Sample.Part.entry, Sample.reading.getInt e.1 = key := by
    rintro key (rfl | rfl | rfl)
    · exact ⟨_, List.mem_cons_self, by decide⟩
    · exact ⟨_, List.mem_cons_of_mem _ List.mem_cons_self, by decide⟩
    · exact ⟨_, List.mem_cons_of_mem _ (List.mem_cons_of_mem _ List.mem_cons_self), by decide⟩
  have hwhole : SaltAuthWhole Sample.reading (Sample.wholeRequest.map Sample.Part.entry) :=
    ⟨.bytes (List.replicate 16 8), rfl, by decide +kernel⟩
  refine ⟨?_, (hmac_secret_complete_iff Sample.env Sample.reading_faithful Sample.shows_wholeRequest
    default).2.mpr (.inl ⟨hkeys, hwhole⟩)⟩
  rw [ctapParseHmacSecret_shown Sample.shows_wholeRequest]
  decide +kernel

/-- Three times a saltAuth are taken for a request, with salts of length zero. -/
theorem hmac_secret_three_saltAuth :
    let entry : Item × Item := (.int 3, .bytes (List.replicate 16 8))
    Shows Sample.env.reader Sample.reading (Sample.mapCursor [entry, entry, entry])
        (.map [entry, entry, entry]) ∧
      ∃ hs', ctapParseHmacSecret Sample.env (Sample.mapCursor [entry, entry, entry]) default =
          (.ok (), hs') ∧
        hs'.saltLen = 0 ∧ ¬ ReadFrom Sample.reading [entry, entry, entry] hs' := by
  intro entry
  have hshown : Shows Sample.env.reader Sample.reading (Sample.mapCursor [entry, entry, entry])
      (.map [entry, entry, entry]) := by
    refine Sample.shows_map (by decide) fun e he => ?_
    simp only [List.mem_cons, List.not_mem_nil, or_false, or_self] at he
    subst he
    exact ⟨Sample.leaf_int (by decide), Sample.leaf_bytes (by simp)⟩
  refine ⟨hshown, (hmacSecretOf Sample.reading (.map [entry, entry, entry]) default).2, ?_, ?_, ?_⟩
  · rw [ctapParseHmacSecret_shown hshown]
    exact Prod.ext (by decide +kernel) rfl
  · decide +kernel
  · intro hread
    obtain ⟨x, hx, -⟩ := hread.platformKey
    obtain ⟨e, he, hkey⟩ := (lastWith_isSome 1).mp ⟨x, hx⟩
    simp only [List.mem_cons, List.not_mem_nil, or_false, or_self] at he
    subst he
    exact absurd hkey (by decide)

end NitrokeyFido2.Ctap
