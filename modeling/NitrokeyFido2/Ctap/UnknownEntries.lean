import NitrokeyFido2.Lib.LastSome
import NitrokeyFido2.Ctap.SampleItems

/-!
Entries of the options and extensions whose key is not known.

Both parsers compare a key by its first characters only, and only one of the two
passes over a key that is too long for its buffer. What an option flag becomes is
told by the last entry whose key begins with its name; an extension entry takes
effect as soon as its key begins with the name of an extension.
-/

namespace NitrokeyFido2.Ctap

/-! ### Maps of options -/

/-- The entries of an options map. -/
def optionItems (opts : List (List UInt8 × Bool)) : List (Item × Item) :=
  opts.map fun e => (.text e.1, .bool e.2)

/-- The keys of the options that the authenticator knows. -/
def isOption (key : List UInt8) : Bool :=
  key = Bytes.ascii "rk" || key = Bytes.ascii "uv" || key = Bytes.ascii "up"

/-- The value that an entry with such a key gives to a flag. -/
def flagOf (p : List UInt8 → Bool) (e : List UInt8 × Bool) : Option UInt8 :=
  if p e.1 then some (ofBool e.2) else none

/-- What a flag becomes. -/
def flagAfter (p : List UInt8 → Bool) (opts : List (List UInt8 × Bool)) (flag : UInt8) : UInt8 :=
  (lastSome (flagOf p) opts).getD flag

/-- An entry on the flags. -/
def setOption (o : Options) (e : List UInt8 × Bool) : Options :=
  if begins "rk" e.1 then { o with rk := ofBool e.2 }
  else if begins "uv" e.1 then { o with uv := ofBool e.2 }
  else if begins "up" e.1 then { o with up := ofBool e.2 }
  else o

section Options

variable {rd : Reading} {opts : List (List UInt8 × Bool)}

/-- A key begins with at most one of two names of the same length. -/
theorem begins_unique {s t : String} (hlen : (Bytes.ascii s).length = (Bytes.ascii t).length)
    (hne : Bytes.ascii s ≠ Bytes.ascii t) {key : List UInt8} (h : begins s key = true) :
    begins t key = false := by
  rw [Bool.eq_false_iff]
  intro ht
  have hs := List.isPrefixOf_iff_prefix.mp h
  have ht := List.isPrefixOf_iff_prefix.mp ht
  exact hne ((List.prefix_of_prefix_length_le hs ht hlen.le).eq_of_length hlen)

theorem flagAfter_append_singleton (p : List UInt8 → Bool) (e : List UInt8 × Bool) (flag : UInt8) :
    flagAfter p (opts ++ [e]) flag = if p e.1 then ofBool e.2 else flagAfter p opts flag := by
  rw [flagAfter, flagAfter, lastSome_append_singleton, flagOf]
  cases p e.1 <;> rfl

/-- A flag becomes what the last entry says whose key begins with its name. -/
theorem foldl_setOption (opts : List (List UInt8 × Bool)) (o : Options) :
    opts.foldl setOption o = ⟨flagAfter (begins "rk") opts o.rk, flagAfter (begins "uv") opts o.uv,
      flagAfter (begins "up") opts o.up⟩ := by
  induction opts using List.reverseRecOn with
  | nil => rfl
  | append_singleton opts e ih =>
      rw [List.foldl_append, List.foldl_cons, List.foldl_nil, ih, flagAfter_append_singleton,
        flagAfter_append_singleton, flagAfter_append_singleton, setOption]
      by_cases hrk : begins "rk" e.1 = true
      · have huv := @begins_unique "rk" "uv" (by decide) (by decide) _ hrk
        have hup := @begins_unique "rk" "up" (by decide) (by decide) _ hrk
        simp [hrk, huv, hup]
      by_cases huv : begins "uv" e.1 = true
      · have hup := @begins_unique "uv" "up" (by decide) (by decide) _ huv
        simp [hrk, huv, hup]
      by_cases hup : begins "up" e.1 = true
      · simp [hrk, huv, hup]
      simp [hrk, huv, hup]

variable (hrd : rd.Faithful)

include hrd

theorem optionEffect_eq (e : List UInt8 × Bool) :
    optionEffect rd (.text e.1, .bool e.2) =
      if 8 < e.1.length then Proc.stop ctap2ErrLimitExceeded else Proc.modify fun o => setOption o e := by
  rw [optionEffect_text]
  congr 1
  have htype : ¬ (Item.bool e.2).type ≠ .boolean := not_not.mpr rfl
  rw [stopIf_false htype, pure_bind, optionValueEffect, hrd.boolean, checkRet_of_ok]
  simp only [pure_bind, setOption]
  by_cases hrk : begins "rk" e.1 = true
  · simp [hrk]
  by_cases huv : begins "uv" e.1 = true
  · simp [hrk, huv]
  by_cases hup : begins "up" e.1 = true
  · simp [hrk, huv, hup]
  simp [hrk, huv, hup]
  rfl

/-- A map whose keys all fit sets the flags. -/
theorem forM_options_of_short (h : ∀ e ∈ opts, e.1.length ≤ 8) (o : Options) :
    forM (optionItems opts) (optionEffect rd) o = (.ok (), opts.foldl setOption o) := by
  induction opts generalizing o with
  | nil => rfl
  | cons e opts ih =>
      have hrest := ih (fun e' he' => h e' (List.mem_cons_of_mem _ he')) (setOption o e)
      have hfits : ¬ 8 < e.1.length := not_lt.mpr (h e List.mem_cons_self)
      rw [optionItems, List.map_cons, List.forM_cons, optionEffect_eq hrd, if_neg hfits,
        Proc.bind_of_ok (show Proc.modify _ o = (.ok (), setOption o e) from rfl)]
      exact hrest

/-- A map with a key that does not fit is refused. -/
theorem forM_options_of_long (h : ∃ e ∈ opts, 8 < e.1.length) (o : Options) :
    (forM (optionItems opts) (optionEffect rd) o).1 = .error ctap2ErrLimitExceeded := by
  induction opts generalizing o with
  | nil =>
      obtain ⟨e, he, -⟩ := h
      cases he
  | cons e opts ih =>
      rw [optionItems, List.map_cons, List.forM_cons, optionEffect_eq hrd]
      by_cases hlong : 8 < e.1.length
      · rw [if_pos hlong]
        rfl
      · have hrest : ∃ e' ∈ opts, 8 < e'.1.length := by
          obtain ⟨e', he', hlong'⟩ := h
          rcases List.mem_cons.mp he' with rfl | he'
          · exact absurd hlong' hlong
          · exact ⟨e', he', hlong'⟩
        rw [if_neg hlong, Proc.bind_of_ok (show Proc.modify _ o = (.ok (), setOption o e) from rfl)]
        exact ih hrest (setOption o e)

omit hrd

/-- An option that the authenticator knows begins with the name of no other. -/
theorem isOption_and_begins {f : String} (hf : f = "rk" ∨ f = "uv" ∨ f = "up") (key : List UInt8) :
    (isOption key && begins f key) = decide (key = Bytes.ascii f) := by
  rw [Bool.eq_iff_iff, Bool.and_eq_true, decide_eq_true_eq]
  constructor
  · rintro ⟨hknown, hbegins⟩
    simp only [isOption, Bool.or_eq_true, decide_eq_true_eq] at hknown
    rcases hf with rfl | rfl | rfl <;> rcases hknown with (rfl | rfl) | rfl <;>
      first | rfl | exact absurd hbegins (by decide)
  · rintro rfl
    rcases hf with rfl | rfl | rfl <;> decide

theorem flagAfter_filter {f : String} (hf : f = "rk" ∨ f = "uv" ∨ f = "up") (flag : UInt8) :
    flagAfter (begins f) (opts.filter fun e => isOption e.1) flag =
      flagAfter (fun key => key = Bytes.ascii f) opts flag := by
  rw [flagAfter, flagAfter, lastSome_filter]
  congr 2
  funext e
  simp only [flagOf, ← isOption_and_begins hf]
  cases isOption e.1 <;> rfl

theorem length_le_of_isOption {key : List UInt8} (h : isOption key = true) : key.length ≤ 8 := by
  simp only [isOption, Bool.or_eq_true, decide_eq_true_eq] at h
  rcases h with (rfl | rfl) | rfl <;> decide

include hrd

/-- The unknown options have no effect if and only if every key fits and, of the
entries whose keys begin with the name of an option, the last one and the last one
with just that name say the same. -/
theorem forM_options_filter_iff (o : Options) :
    forM (optionItems opts) (optionEffect rd) o =
        forM (optionItems (opts.filter fun e => isOption e.1)) (optionEffect rd) o ↔
      (∀ e ∈ opts, e.1.length ≤ 8) ∧
      flagAfter (begins "rk") opts o.rk = flagAfter (fun key => key = Bytes.ascii "rk") opts o.rk ∧
      flagAfter (begins "uv") opts o.uv = flagAfter (fun key => key = Bytes.ascii "uv") opts o.uv ∧
      flagAfter (begins "up") opts o.up = flagAfter (fun key => key = Bytes.ascii "up") opts o.up := by
  have hknown : ∀ e ∈ opts.filter (fun e => isOption e.1), e.1.length ≤ 8 := fun e he =>
    length_le_of_isOption (List.mem_filter.mp he).2
  rw [forM_options_of_short hrd hknown, foldl_setOption, flagAfter_filter (.inl rfl),
    flagAfter_filter (.inr (.inl rfl)), flagAfter_filter (.inr (.inr rfl))]
  by_cases hfit : ∀ e ∈ opts, e.1.length ≤ 8
  · rw [forM_options_of_short hrd hfit, foldl_setOption, Prod.mk.injEq, Options.mk.injEq]
    exact ⟨fun h => ⟨hfit, h.2⟩, fun h => ⟨rfl, h.2⟩⟩
  · -- a key that does not fit makes the whole map fail
    constructor
    · intro h
      have hlong : ∃ e ∈ opts, 8 < e.1.length := by
        push Not at hfit
        exact hfit
      have hfails := forM_options_of_long hrd hlong o
      rw [h] at hfails
      cases hfails
    · exact fun h => absurd h.1 hfit

end Options

/-! ### Maps of extensions -/

/-- The entries of an extensions map. -/
def extensionItems (es : List (List UInt8 × Item)) : List (Item × Item) :=
  es.map fun e => (.text e.1, e.2)

/-- The keys of the extensions that the authenticator knows. -/
def isExtension (key : List UInt8) : Bool :=
  key = Bytes.ascii "hmac-secret" || key = Bytes.ascii "credProtect"

/-- The key is taken for the name of an extension. -/
def countsAs (s : String) (key : List UInt8) : Bool := key.length ≤ 16 && begins s key

/-- The entry asks for hmac-secret, without a request of its own. -/
def asksHmacSecret (p : List UInt8 → Bool) (e : List UInt8 × Item) : Bool :=
  p e.1 && match e.2 with
    | .bool b => b
    | _ => false

/-- The entry brings an hmac-secret request. -/
def bringsHmacSecret (p : List UInt8 → Bool) (e : List UInt8 × Item) : Bool :=
  p e.1 && match e.2 with
    | .map _ => true
    | _ => false

/-- The level that an entry asks for. -/
def credProtectOf (rd : Reading) (p : List UInt8 → Bool) (e : List UInt8 × Item) : Option UInt32 :=
  match e.2 with
  | .int z => if p e.1 then some (UInt32.ofInt (rd.getInt (.int z))) else none
  | _ => none

/-- The entry changes what is known of the extensions. -/
def takesEffect (e : List UInt8 × Item) : Bool :=
  asksHmacSecret (countsAs "hmac-secret") e || bringsHmacSecret (countsAs "hmac-secret") e ||
    (countsAs "credProtect" e.1 && e.2.type = .integer)

/-- An entry that brings no request, on what is known of the extensions. -/
def setExtension (rd : Reading) (ext : Extensions) (e : List UInt8 × Item) : Extensions :=
  if asksHmacSecret (countsAs "hmac-secret") e then
    { ext with hmacSecretPresent := extHmacSecretRequested }
  else
    { ext with credProtect := (credProtectOf rd (countsAs "credProtect") e).getD ext.credProtect }

section Extensions

variable (rd : Reading) {es : List (List UInt8 × Item)}

theorem countsAs_unique {key : List UInt8} (h : countsAs "hmac-secret" key = true) :
    countsAs "credProtect" key = false := by
  simp only [countsAs, Bool.and_eq_true] at h
  rw [countsAs, @begins_unique "hmac-secret" "credProtect" (by decide) (by decide) _ h.2,
    Bool.and_false]

theorem extensionEffect_of_counts {key : List UInt8} {x : Item}
    (h : countsAs "hmac-secret" key = true) :
    extensionEffect rd (.text key, x) = (if x.type = .boolean then do
        let b ← checkRet (rd.getBoolean x)
        if b then
          Proc.modify fun ext => { ext with hmacSecretPresent := extHmacSecretRequested }
        else
          pure ()
      else if x.type = .map then do
        Proc.zoom Extensions.hmacSecret (fun ext v => { ext with hmacSecret := v }) (hmacSecretOf rd x)
        Proc.modify fun ext => { ext with hmacSecretPresent := extHmacSecretParsed }
      else
        pure ()) := by
  simp only [countsAs, Bool.and_eq_true, decide_eq_true_eq] at h
  rw [extensionEffect_text, if_neg (not_lt.mpr h.1), extensionValueEffect, if_pos h.2]

theorem extensionEffect_bool (hrd : rd.Faithful) {key : List UInt8}
    (h : countsAs "hmac-secret" key = true) (b : Bool) :
    extensionEffect rd (.text key, .bool b) =
      if b then Proc.modify fun ext => { ext with hmacSecretPresent := extHmacSecretRequested }
      else pure () := by
  have htype : (Item.bool b).type = .boolean := rfl
  rw [extensionEffect_of_counts rd h, if_pos htype, hrd.boolean]
  rfl

theorem extensionEffect_of_other {key : List UInt8} {x : Item}
    (h : countsAs "hmac-secret" key = false) :
    extensionEffect rd (.text key, x) =
      (if countsAs "credProtect" key ∧ x.type = .integer then
        Proc.modify fun ext => { ext with credProtect := UInt32.ofInt (rd.getInt x) }
      else pure ()) := by
  rw [extensionEffect_text, extensionValueEffect]
  by_cases hlong : 16 < key.length
  · simp [countsAs, not_le.mpr hlong, hlong]
  · have hfits : key.length ≤ 16 := not_lt.mp hlong
    have hbegins : begins "hmac-secret" key = false := by
      simpa [countsAs, hfits] using h
    simp only [hlong, if_false, hbegins, Bool.false_eq_true, countsAs, hfits, decide_true, Bool.true_and]
    by_cases hcred : begins "credProtect" key = true
    · by_cases htype : x.type = .integer
      · simp [hcred, htype]
      · simp [hcred, htype]
    · simp [hcred]

/-- An entry that takes no effect is passed over. -/
theorem extensionEffect_of_idle {e : List UInt8 × Item} (hrd : rd.Faithful)
    (h : takesEffect e = false) : extensionEffect rd (.text e.1, e.2) = pure () := by
  obtain ⟨key, x⟩ := e
  simp only [takesEffect, Bool.or_eq_false_iff] at h
  obtain ⟨⟨hasks, hbrings⟩, hlevel⟩ := h
  cases hcounts : countsAs "hmac-secret" key with
  | true =>
      cases x with
      | bool b =>
          have hb : b = false := by simpa [asksHmacSecret, hcounts] using hasks
          rw [extensionEffect_bool rd hrd hcounts, hb]
          rfl
      | map es => simp [bringsHmacSecret, hcounts] at hbrings
      | other t =>
          rw [extensionEffect_of_counts rd hcounts]
          cases t <;> rfl
      | _ =>
          rw [extensionEffect_of_counts rd hcounts]
          rfl
  | false =>
      rw [extensionEffect_of_other rd hcounts, if_neg]
      simpa using hlevel

/-- Entries that take no effect can be left out. -/
theorem forM_extensions_filter (hrd : rd.Faithful) {p : List UInt8 → Bool}
    (h : ∀ e ∈ es, takesEffect e = true → p e.1 = true) :
    forM (extensionItems es) (extensionEffect rd) =
      forM (extensionItems (es.filter fun e => p e.1)) (extensionEffect rd) := by
  have hfilter := @forM_filter Extensions _ (fun e : List UInt8 × Item => extensionEffect rd (.text e.1, e.2))
    (fun e => p e.1) es fun e he hp => extensionEffect_of_idle rd hrd (by
      rw [Bool.eq_false_iff]
      intro heffect
      rw [h e he heffect] at hp
      cases hp)
  simpa only [extensionItems, List.forM_map] using hfilter

/-- What an entry does that brings no request. -/
theorem extensionEffect_eq (hrd : rd.Faithful) {e : List UInt8 × Item}
    (h : bringsHmacSecret (countsAs "hmac-secret") e = false) :
    extensionEffect rd (.text e.1, e.2) = Proc.modify fun ext => setExtension rd ext e := by
  obtain ⟨key, x⟩ := e
  cases hcounts : countsAs "hmac-secret" key with
  | true =>
      have hother := countsAs_unique hcounts
      cases x with
      | bool b =>
          rw [extensionEffect_bool rd hrd hcounts]
          cases b with
          | true => simp [setExtension, asksHmacSecret, hcounts]
          | false =>
              simp [setExtension, asksHmacSecret, credProtectOf]
              rfl
      | map es => simp [bringsHmacSecret, hcounts] at h
      | int z =>
          rw [extensionEffect_of_counts rd hcounts]
          simp [setExtension, asksHmacSecret, credProtectOf, hother, Item.type]
          rfl
      | other t =>
          rw [extensionEffect_of_counts rd hcounts]
          cases t <;> simp [setExtension, asksHmacSecret, credProtectOf, Item.type, OtherType.type] <;> rfl
      | _ =>
          rw [extensionEffect_of_counts rd hcounts]
          simp [setExtension, asksHmacSecret, credProtectOf, Item.type]
          rfl
  | false =>
      rw [extensionEffect_of_other rd hcounts]
      cases x with
      | int z =>
          cases hlevel : countsAs "credProtect" key with
          | true => simp [setExtension, asksHmacSecret, credProtectOf, hlevel, Item.type]
          | false => simp [setExtension, asksHmacSecret, credProtectOf, hlevel, Item.type]; rfl
      | other t => cases t <;> simp [setExtension, asksHmacSecret, hcounts, credProtectOf, Item.type, OtherType.type] <;> rfl
      | _ => simp [setExtension, asksHmacSecret, hcounts, credProtectOf, Item.type]; rfl

/-- What a map does that brings no request. -/
theorem forM_extensions_of_plain (hrd : rd.Faithful)
    (h : ∀ e ∈ es, bringsHmacSecret (countsAs "hmac-secret") e = false) (ext : Extensions) :
    forM (extensionItems es) (extensionEffect rd) ext = (.ok (), es.foldl (setExtension rd) ext) := by
  induction es generalizing ext with
  | nil => rfl
  | cons e es ih =>
      have hrest := ih (fun e' he' => h e' (List.mem_cons_of_mem _ he')) (setExtension rd ext e)
      have hfirst := extensionEffect_eq rd hrd (h e List.mem_cons_self)
      rw [extensionItems, List.map_cons, List.forM_cons, hfirst,
        Proc.bind_of_ok (show Proc.modify _ ext = (.ok (), setExtension rd ext e) from rfl)]
      exact hrest

/-- The level is what the last entry asks for, and hmac-secret is requested as soon
as an entry asks for it. -/
theorem foldl_setExtension (es : List (List UInt8 × Item)) (ext : Extensions) :
    es.foldl (setExtension rd) ext = { ext with
      hmacSecretPresent := if es.any (asksHmacSecret (countsAs "hmac-secret")) then
        extHmacSecretRequested else ext.hmacSecretPresent
      credProtect := (lastSome (credProtectOf rd (countsAs "credProtect")) es).getD
        ext.credProtect } := by
  induction es using List.reverseRecOn with
  | nil => rfl
  | append_singleton es e ih =>
      rw [List.foldl_append, List.foldl_cons, List.foldl_nil, ih, lastSome_append_singleton,
        List.any_append, List.any_cons, List.any_nil, Bool.or_false, setExtension]
      cases hasks : asksHmacSecret (countsAs "hmac-secret") e with
      | true =>
          -- an entry for hmac-secret asks for no level
          have hlevel : credProtectOf rd (countsAs "credProtect") e = none := by
            simp only [asksHmacSecret, Bool.and_eq_true] at hasks
            have hother := countsAs_unique hasks.1
            unfold credProtectOf
            split
            case h_1 => rw [if_neg (by rw [hother]; decide)]
            case h_2 => rfl
          simp [hlevel]
      | false =>
          rw [Bool.or_false]
          cases credProtectOf rd (countsAs "credProtect") e <;> rfl

/-- After a request or a plain demand for hmac-secret, its state is not zero. -/
theorem extensionEffect_present (hrd : rd.Faithful) {e : List UInt8 × Item} {ext ext' : Extensions}
    (h : extensionEffect rd (.text e.1, e.2) ext = (.ok (), ext')) :
    (ext.hmacSecretPresent ≠ 0 → ext'.hmacSecretPresent ≠ 0) ∧
      (asksHmacSecret (countsAs "hmac-secret") e = true ∨
        bringsHmacSecret (countsAs "hmac-secret") e = true → ext'.hmacSecretPresent ≠ 0) := by
  obtain ⟨key, x⟩ := e
  cases hbrings : bringsHmacSecret (countsAs "hmac-secret") (key, x) with
  | false =>
      rw [extensionEffect_eq rd hrd hbrings] at h
      cases h
      cases hasks : asksHmacSecret (countsAs "hmac-secret") (key, x) with
      | true => simp [setExtension, hasks, extHmacSecretRequested]
      | false => simp [setExtension, hasks]
  | true =>
      have hpresent : ext'.hmacSecretPresent = extHmacSecretParsed := by
        cases x with
        | map es =>
            have hcounts : countsAs "hmac-secret" key = true := by
              simpa [bringsHmacSecret] using hbrings
            have hnotBool : (Item.map es).type ≠ .boolean := fun h => CborType.noConfusion h
            have hmap : (Item.map es).type = .map := rfl
            rw [extensionEffect_of_counts rd hcounts, if_neg hnotBool, if_pos hmap] at h
            obtain ⟨_, ext₁, -, h⟩ := Proc.bind_ok.mp h
            cases h
            rfl
        | _ => simp [bringsHmacSecret] at hbrings
      rw [hpresent]
      exact ⟨fun _ => by decide, fun _ => by decide⟩

theorem forM_extensions_present (hrd : rd.Faithful) {ext ext' : Extensions}
    (h : forM (extensionItems es) (extensionEffect rd) ext = (.ok (), ext'))
    (hhmac : ext.hmacSecretPresent ≠ 0 ∨ ∃ e ∈ es,
      asksHmacSecret (countsAs "hmac-secret") e = true ∨
        bringsHmacSecret (countsAs "hmac-secret") e = true) :
    ext'.hmacSecretPresent ≠ 0 := by
  induction es generalizing ext with
  | nil =>
      cases h
      rcases hhmac with hhmac | ⟨e, he, -⟩
      · exact hhmac
      · cases he
  | cons e es ih =>
      rw [extensionItems, List.map_cons, List.forM_cons] at h
      obtain ⟨_, ext₁, hfirst, hrest⟩ := Proc.bind_ok.mp h
      have hstep := extensionEffect_present rd hrd hfirst
      refine ih hrest ?_
      rcases hhmac with hhmac | ⟨e', he', hhmac⟩
      · exact .inl (hstep.1 hhmac)
      rcases List.mem_cons.mp he' with rfl | he'
      · exact .inl (hstep.2 hhmac)
      · exact .inr ⟨e', he', hhmac⟩

/-- An extension that the authenticator knows is taken for no other. -/
theorem isExtension_and_countsAs {f : String} (hf : f = "hmac-secret" ∨ f = "credProtect")
    (key : List UInt8) : (isExtension key && countsAs f key) = decide (key = Bytes.ascii f) := by
  rw [Bool.eq_iff_iff, Bool.and_eq_true, decide_eq_true_eq]
  constructor
  · rintro ⟨hknown, hcounts⟩
    simp only [isExtension, Bool.or_eq_true, decide_eq_true_eq] at hknown
    have hhmac : countsAs "hmac-secret" (Bytes.ascii "credProtect") = false := by decide +kernel
    have hcred : countsAs "credProtect" (Bytes.ascii "hmac-secret") = false := by decide +kernel
    rcases hf with rfl | rfl
    · refine hknown.resolve_right fun h => ?_
      rw [h, hhmac] at hcounts
      cases hcounts
    · refine hknown.resolve_left fun h => ?_
      rw [h, hcred] at hcounts
      cases hcounts
  · rintro rfl
    rcases hf with rfl | rfl <;> decide +kernel

theorem any_asks_filter (es : List (List UInt8 × Item)) :
    (es.filter fun e => isExtension e.1).any (asksHmacSecret (countsAs "hmac-secret")) =
      es.any (asksHmacSecret fun key => key = Bytes.ascii "hmac-secret") := by
  rw [List.any_filter]
  congr 1
  funext e
  rw [asksHmacSecret, asksHmacSecret, ← Bool.and_assoc, isExtension_and_countsAs (.inl rfl)]

theorem lastSome_level_filter (es : List (List UInt8 × Item)) :
    lastSome (credProtectOf rd (countsAs "credProtect")) (es.filter fun e => isExtension e.1) =
      lastSome (credProtectOf rd fun key => key = Bytes.ascii "credProtect") es := by
  rw [lastSome_filter]
  congr 1
  funext e
  obtain ⟨key, x⟩ := e
  cases x with
  | int z =>
      simp only [credProtectOf, ← isExtension_and_countsAs (.inr rfl)]
      cases isExtension key <;> rfl
  | _ => simp [credProtectOf]

/-- The unknown entries of a map without requests have no effect if and only if
hmac-secret is asked for under its own name whenever it is asked for, and the level
last asked for is the one last asked for under the name of credProtect. -/
theorem forM_extensions_filter_iff (hrd : rd.Faithful)
    (h : ∀ e ∈ es, bringsHmacSecret (countsAs "hmac-secret") e = false) :
    (∀ ext, forM (extensionItems es) (extensionEffect rd) ext =
        forM (extensionItems (es.filter fun e => isExtension e.1)) (extensionEffect rd) ext) ↔
      es.any (asksHmacSecret (countsAs "hmac-secret")) =
          es.any (asksHmacSecret fun key => key = Bytes.ascii "hmac-secret") ∧
        lastSome (credProtectOf rd (countsAs "credProtect")) es =
          lastSome (credProtectOf rd fun key => key = Bytes.ascii "credProtect") es := by
  have hfiltered : ∀ e ∈ es.filter (fun e => isExtension e.1),
      bringsHmacSecret (countsAs "hmac-secret") e = false := fun e he =>
    h e (List.mem_of_mem_filter he)
  simp only [forM_extensions_of_plain rd hrd h, forM_extensions_of_plain rd hrd hfiltered,
    foldl_setExtension, any_asks_filter, lastSome_level_filter, Prod.mk.injEq, Extensions.mk.injEq,
    true_and]
  constructor
  · intro hsame
    constructor
    · have hpresent := (hsame { (default : Extensions) with hmacSecretPresent := 0 }).1
      cases hcode : es.any (asksHmacSecret (countsAs "hmac-secret")) <;>
        cases hname : es.any (asksHmacSecret fun key => key = Bytes.ascii "hmac-secret") <;>
        simp [hcode, hname, extHmacSecretRequested] at hpresent ⊢
    · -- a level before the map that is not the one the map asks for
      cases hcode : lastSome (credProtectOf rd (countsAs "credProtect")) es with
      | none =>
          cases hname : lastSome (credProtectOf rd fun key => key = Bytes.ascii "credProtect") es with
          | none => rfl
          | some v =>
              have hlevel := (hsame { (default : Extensions) with credProtect := v + 1 }).2
              simp [hcode, hname] at hlevel
      | some u =>
          cases hname : lastSome (credProtectOf rd fun key => key = Bytes.ascii "credProtect") es with
          | none =>
              have hlevel := (hsame { (default : Extensions) with credProtect := u + 1 }).2
              simp [hcode, hname] at hlevel
          | some v =>
              have hlevel := (hsame default).2
              simpa [hcode, hname] using hlevel
  · rintro ⟨hasks, hlevel⟩ ext
    rw [hasks, hlevel]
    exact ⟨rfl, rfl⟩

theorem forM_extensions_of_idle (hrd : rd.Faithful) (h : ∀ e ∈ es, takesEffect e = false) :
    forM (extensionItems es) (extensionEffect rd) = pure () := by
  rw [@forM_extensions_filter rd es hrd (fun _ => false) (fun e he heffect => by
    rw [h e he] at heffect
    cases heffect)]
  simp [extensionItems]

/-- Where no known entry takes effect, an unknown one that does is felt. -/
theorem forM_extensions_filter_of_idle (hrd : rd.Faithful)
    (hknown : ∀ e ∈ es, isExtension e.1 = true → takesEffect e = false)
    (hsame : ∀ ext, forM (extensionItems es) (extensionEffect rd) ext =
      forM (extensionItems (es.filter fun e => isExtension e.1)) (extensionEffect rd) ext) :
    ∀ e ∈ es, takesEffect e = false := by
  have hnothing : ∀ ext, forM (extensionItems es) (extensionEffect rd) ext = (.ok (), ext) := by
    intro ext
    rw [hsame ext, forM_extensions_of_idle rd hrd fun e he => hknown e (List.mem_filter.mp he).1
      (List.mem_filter.mp he).2]
    rfl
  have hhmac : ∀ e ∈ es, ¬ (asksHmacSecret (countsAs "hmac-secret") e = true ∨
      bringsHmacSecret (countsAs "hmac-secret") e = true) := by
    intro e he heffect
    exact forM_extensions_present rd hrd
      (hnothing { (default : Extensions) with hmacSecretPresent := 0 }) (.inr ⟨e, he, heffect⟩) rfl
  -- no entry is for hmac-secret, so the level tells
  have hplain : ∀ e ∈ es, bringsHmacSecret (countsAs "hmac-secret") e = false := fun e he =>
    Bool.eq_false_iff.mpr fun h => hhmac e he (.inr h)
  intro e he
  rw [takesEffect, Bool.or_eq_false_iff, Bool.or_eq_false_iff]
  refine ⟨⟨Bool.eq_false_iff.mpr fun h => hhmac e he (.inl h), hplain e he⟩, ?_⟩
  rw [Bool.eq_false_iff]
  intro hlevel
  rw [Bool.and_eq_true, decide_eq_true_eq] at hlevel
  obtain ⟨u, hu⟩ : ∃ u, lastSome (credProtectOf rd (countsAs "credProtect")) es = some u := by
    rw [← Option.isSome_iff_exists, lastSome_isSome]
    refine ⟨e, he, ?_⟩
    obtain ⟨key, x⟩ := e
    cases x with
    | int z =>
        have hcounts : countsAs "credProtect" key = true := hlevel.1
        simp [credProtectOf, hcounts]
    | other t => cases t <;> cases hlevel.2
    | _ => cases hlevel.2
  have hset := hnothing { (default : Extensions) with credProtect := u + 1 }
  rw [forM_extensions_of_plain rd hrd hplain, foldl_setExtension, hu, Prod.mk.injEq,
    Extensions.mk.injEq] at hset
  simp at hset

end Extensions

/-! ### Both parsers -/

variable {env : Env} {rd : Reading}

/-- The entries of an extensions map whose keys the authenticator does not know have
no effect. -/
def extensionsUnaffected (env : Env) (val val' : env.reader.Cursor) : Prop :=
  ∀ ext, ctapParseExtensions env val ext = ctapParseExtensions env val' ext

/-- Unknown options have no effect if and only if every key fits into eight bytes and
the last entry that begins with the name of a flag says what the last entry says that
is the name of the flag. Unknown extensions have none if none of them takes effect;
this is also needed where no known one does, and in a map without requests they
have none if and only if the entries that count as hmac-secret or credProtect say what
those say that are just that. -/
theorem unknown_entries_iff (env : Env) (rd : Reading) (hrd : rd.Faithful) :
    (∀ opts val val' o, Shows env.reader rd val (.map (optionItems opts)) →
      Shows env.reader rd val' (.map (optionItems (opts.filter fun e => isOption e.1))) →
      (parseOptions env val o = parseOptions env val' o ↔
        (∀ e ∈ opts, e.1.length ≤ 8) ∧
        flagAfter (begins "rk") opts o.rk = flagAfter (fun key => key = Bytes.ascii "rk") opts o.rk ∧
        flagAfter (begins "uv") opts o.uv = flagAfter (fun key => key = Bytes.ascii "uv") opts o.uv ∧
        flagAfter (begins "up") opts o.up =
          flagAfter (fun key => key = Bytes.ascii "up") opts o.up)) ∧
    (∀ es val val', Shows env.reader rd val (.map (extensionItems es)) →
      Shows env.reader rd val' (.map (extensionItems (es.filter fun e => isExtension e.1))) →
      ((∀ e ∈ es, takesEffect e = true → isExtension e.1 = true) → extensionsUnaffected env val val') ∧
      ((∀ e ∈ es, isExtension e.1 = true → takesEffect e = false) →
        (extensionsUnaffected env val val' ↔ ∀ e ∈ es, takesEffect e = false)) ∧
      ((∀ e ∈ es, bringsHmacSecret (countsAs "hmac-secret") e = false) →
        (extensionsUnaffected env val val' ↔
          es.any (asksHmacSecret (countsAs "hmac-secret")) =
              es.any (asksHmacSecret fun key => key = Bytes.ascii "hmac-secret") ∧
            lastSome (credProtectOf rd (countsAs "credProtect")) es =
              lastSome (credProtectOf rd fun key => key = Bytes.ascii "credProtect") es))) := by
  constructor
  · intro opts val val' o hval hval'
    rw [parseOptions_shown hrd hval, parseOptions_shown hrd hval']
    exact forM_options_filter_iff hrd o
  · intro es val val' hval hval'
    unfold extensionsUnaffected
    rw [ctapParseExtensions_shown hrd hval, ctapParseExtensions_shown hrd hval']
    refine ⟨fun h ext => ?_, fun hknown => ⟨forM_extensions_filter_of_idle rd hrd hknown, ?_⟩,
      forM_extensions_filter_iff rd hrd⟩
    · rw [@forM_extensions_filter rd es hrd _ h]
    · intro hidle ext
      rw [forM_extensions_of_idle rd hrd hidle,
        forM_extensions_of_idle rd hrd fun e he => hidle e (List.mem_of_mem_filter he)]

section Sample

theorem Sample.shows_options {opts : List (List UInt8 × Bool)} (hlen : opts.length < 65536)
    (hkeys : ∀ e ∈ opts, e.1.length < 65536) :
    Shows Sample.env.reader Sample.reading (Sample.mapCursor (optionItems opts))
      (.map (optionItems opts)) := by
  refine Sample.shows_map (by simpa [optionItems] using hlen) fun e he => ?_
  obtain ⟨o, ho, rfl⟩ := List.mem_map.mp he
  exact ⟨Sample.leaf_text (hkeys o ho), Sample.leaf_bool o.2⟩

/-- `{"rk": true, "plat": false}` and `{"rk": true}`. -/
theorem unknown_entries_iff_plat :
    Sample.reading.Faithful ∧
      parseOptions Sample.env
          (Sample.mapCursor (optionItems [(Bytes.ascii "rk", true), (Bytes.ascii "plat", false)])) ⟨0, 0, 1⟩ =
        parseOptions Sample.env (Sample.mapCursor (optionItems [(Bytes.ascii "rk", true)])) ⟨0, 0, 1⟩ :=
  ⟨Sample.reading_faithful,
    ((unknown_entries_iff Sample.env Sample.reading Sample.reading_faithful).1
      [(Bytes.ascii "rk", true), (Bytes.ascii "plat", false)] _ _ ⟨0, 0, 1⟩
      (Sample.shows_options (by decide) (by decide +kernel))
      (Sample.shows_options (by decide) (by decide +kernel))).mpr
      ⟨by decide +kernel, by decide +kernel, by decide +kernel, by decide +kernel⟩⟩

/-- `{"rkx": true}` asks for a resident key, and the empty map does not. -/
theorem unknown_option_rkx :
    Shows Sample.env.reader Sample.reading
        (Sample.mapCursor (optionItems [(Bytes.ascii "rkx", true)]))
        (.map (optionItems [(Bytes.ascii "rkx", true)])) ∧
      Shows Sample.env.reader Sample.reading (Sample.mapCursor (optionItems []))
        (.map (optionItems ([(Bytes.ascii "rkx", true)].filter fun e => isOption e.1))) ∧
      parseOptions Sample.env (Sample.mapCursor (optionItems [(Bytes.ascii "rkx", true)])) ⟨0, 0, 1⟩ ≠
        parseOptions Sample.env (Sample.mapCursor (optionItems [])) ⟨0, 0, 1⟩ := by
  have hval := @Sample.shows_options [(Bytes.ascii "rkx", true)] (by decide) (by decide +kernel)
  have hval' := @Sample.shows_options [] (by decide) (by decide)
  have hnone : [(Bytes.ascii "rkx", true)].filter (fun e => isOption e.1) = [] := by decide +kernel
  refine ⟨hval, by rw [hnone]; exact hval', ?_⟩
  rw [parseOptions_shown Sample.reading_faithful hval, parseOptions_shown Sample.reading_faithful hval']
  intro hsame
  rw [← hnone] at hsame
  have hflags := ((forM_options_filter_iff Sample.reading_faithful ⟨0, 0, 1⟩).mp hsame).2.1
  exact absurd hflags (by decide +kernel)

end Sample

end NitrokeyFido2.Ctap
