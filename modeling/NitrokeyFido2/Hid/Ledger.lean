import NitrokeyFido2.Hid.ChannelTable

/-!
Which messages were answered, and which may still be.

A message may be answered by whoever put it together or processes it, its
owner, and by the timeout scan when a slot that bears it is busy. So that this
happens once, the end of a message must free its slot: `Ledger` says of the
slots, of the replies and of the owners that an answered message has no owner
and no busy slot, and that the slot which bears the message of an owner is the
one that `cid_del` finds on the owner's channel.
-/

namespace NitrokeyFido2.Hid

open FirstMatch

/-- A message and the channel it is answered on. -/
abbrev Owner := ℕ × UInt32

/-- A busy slot is the first one of its channel. -/
def Foremost (cids : List Cid) : Prop :=
  cids.Pairwise fun a b => b.busy = true → a.cid ≠ b.cid

/-- No two busy slots bear the same message. -/
def Distinct (cids : List Cid) : Prop :=
  cids.Pairwise fun a b => a.busy = true → b.busy = true → a.message ≠ b.message

structure Ledger (cids : List Cid) (answered : List ℕ) (messages : ℕ) (owners : List Owner) :
    Prop where
  nodup : answered.Nodup
  counted : ∀ m ∈ answered, m ≤ messages
  spared : Spared cids
  foremost : Foremost cids
  distinct : Distinct cids
  slot : ∀ c ∈ cids, c.busy = true → c.message ≤ messages ∧ c.message ∉ answered
  owners_nodup : (owners.map Prod.fst).Nodup
  owner : ∀ o ∈ owners, o.1 ≤ messages ∧ o.1 ∉ answered
  owned : ∀ o ∈ owners, ∀ c ∈ cids, c.busy = true → c.message = o.1 → c.cid = o.2

/-! ### Slots that are freed -/

section Freed

variable {cid : UInt32} {cids : List Cid}

/-- What `cid_del` does to the slot it finds. -/
theorem cidDel_cons_cases (cid : UInt32) (cids : List Cid) :
    (cidDel cid cids = cids ∧ ∀ c ∈ cids.take usedSlots, c.cid ≠ cid) ∨
      ∃ pre c post, cids = pre ++ c :: post ∧ (∀ y ∈ pre, y.cid ≠ cid) ∧ c.cid = cid ∧
        cidDel cid cids = pre ++ { c with busy := false } :: post := by
  unfold cidDel
  cases h : changeFirst (fun c => c.cid = cid) (fun c => { c with busy := false }) usedSlots cids with
  | none =>
      refine .inl ⟨rfl, fun c hc => ?_⟩
      simpa using changeFirst_eq_none.mp h c hc
  | some cids' =>
      obtain ⟨pre, c, post, rfl, -, hpre, hc, rfl⟩ := changeFirst_eq_some.mp h
      exact .inr ⟨pre, c, post, rfl, by simpa using hpre, by simpa using hc, rfl⟩

/-- A slot that is busy behind `cid_del` was so before, on another channel. -/
theorem busy_cidDel (hforemost : Foremost cids) (hspared : Spared cids) {c : Cid}
    (hc : c ∈ cidDel cid cids) (hbusy : c.busy = true) : c ∈ cids ∧ c.cid ≠ cid := by
  rcases cidDel_cons_cases cid cids with ⟨heq, hnone⟩ | ⟨pre, y, post, rfl, hpre, rfl, heq⟩
  · rw [heq, ← List.take_append_drop usedSlots cids] at hc
    rcases List.mem_append.mp hc with htake | hdrop
    · exact ⟨List.mem_of_mem_take htake, hnone c htake⟩
    · rw [(hspared c hdrop).2] at hbusy
      exact absurd hbusy Bool.false_ne_true
  · rw [heq] at hc
    rcases List.mem_append.mp hc with hc | hc
    · exact ⟨List.mem_append_left _ hc, hpre c hc⟩
    · rcases List.mem_cons.mp hc with rfl | hc
      · exact absurd hbusy Bool.false_ne_true
      · have hlater := (List.pairwise_append.mp hforemost).2.1
        refine ⟨List.mem_append_right _ (List.mem_cons_of_mem _ hc), ?_⟩
        exact ((List.pairwise_cons.mp hlater).1 c hc hbusy).symm

/-- A slot that keeps its channel and its message, and was busy before if it
is. -/
def Calmer (c' c : Cid) : Prop :=
  c'.cid = c.cid ∧ c'.message = c.message ∧ (c'.busy = true → c.busy = true)

theorem Calmer.refl (c : Cid) : Calmer c c := ⟨rfl, rfl, id⟩

theorem calmer_free (c : Cid) : Calmer { c with busy := false } c :=
  ⟨rfl, rfl, fun h => absurd h Bool.false_ne_true⟩

theorem calmer_cidDel (cid : UInt32) (cids : List Cid) :
    List.Forall₂ Calmer (cidDel cid cids) cids := by
  have hsame (l : List Cid) : List.Forall₂ Calmer l l := List.forall₂_same.mpr fun c _ => Calmer.refl c
  rcases cidDel_cons_cases cid cids with ⟨heq, -⟩ | ⟨pre, y, post, rfl, -, -, heq⟩
  · rw [heq]
    exact hsame cids
  · rw [heq]
    exact List.rel_append (hsame pre) (.cons (calmer_free y) (hsame post))

theorem calmer_scanned (now : UInt32) (cids : List Cid) :
    List.Forall₂ Calmer (cids.map (·.scanned now)) cids := by
  refine List.forall₂_map_left_iff.mpr (List.forall₂_same.mpr fun c _ => ?_)
  rw [Cid.scanned]
  split
  · exact calmer_free c
  · exact Calmer.refl c

section Calm

variable {cids' : List Cid} (h : List.Forall₂ Calmer cids' cids)
include h

theorem exists_calmer {c' : Cid} (hc : c' ∈ cids') : ∃ c ∈ cids, Calmer c' c := by
  induction h with
  | nil => exact absurd hc List.not_mem_nil
  | cons hcalmer _ ih =>
      rcases List.mem_cons.mp hc with rfl | hc
      · exact ⟨_, List.mem_cons_self, hcalmer⟩
      · obtain ⟨c, hc, hcalmer⟩ := ih hc
        exact ⟨c, List.mem_cons_of_mem _ hc, hcalmer⟩

theorem Spared.calm (hspared : Spared cids) : Spared cids' := by
  intro c' hc'
  obtain ⟨c, hc, hcid, -, hbusy⟩ := exists_calmer (List.forall₂_drop usedSlots h) hc'
  obtain ⟨hzero, hfree⟩ := hspared c hc
  rw [hfree] at hbusy
  exact ⟨hcid.trans hzero, Bool.eq_false_iff.mpr fun hb => Bool.false_ne_true (hbusy hb)⟩

theorem Foremost.calm (hforemost : Foremost cids) : Foremost cids' := by
  induction h with
  | nil => exact .nil
  | cons hcalmer hrest ih =>
      obtain ⟨hhead, htail⟩ := List.pairwise_cons.mp hforemost
      refine List.pairwise_cons.mpr ⟨fun b' hb' hbusy => ?_, ih htail⟩
      obtain ⟨b, hb, hcid, -, hbusy'⟩ := exists_calmer hrest hb'
      rw [hcalmer.1, hcid]
      exact hhead b hb (hbusy' hbusy)

theorem Distinct.calm (hdistinct : Distinct cids) : Distinct cids' := by
  induction h with
  | nil => exact .nil
  | cons hcalmer hrest ih =>
      obtain ⟨hhead, htail⟩ := List.pairwise_cons.mp hdistinct
      refine List.pairwise_cons.mpr ⟨fun b' hb' hbusy hbusy' => ?_, ih htail⟩
      obtain ⟨b, hb, -, hmessage, hcalm⟩ := exists_calmer hrest hb'
      rw [hcalmer.2.1, hmessage]
      exact hhead b hb (hcalmer.2.2 hbusy) (hcalm hbusy')

end Calm

end Freed

/-! ### What keeps the ledger -/

namespace Ledger

variable {cids cids' : List Cid} {answered : List ℕ} {messages : ℕ} {owners owners' : List Owner}
  {now : UInt32} {m : ℕ} {cid : UInt32}

/-- Slots are freed. -/
theorem calm (h : Ledger cids answered messages owners) (hcalm : List.Forall₂ Calmer cids' cids) :
    Ledger cids' answered messages owners where
  nodup := h.nodup
  counted := h.counted
  spared := h.spared.calm hcalm
  foremost := h.foremost.calm hcalm
  distinct := h.distinct.calm hcalm
  slot c' hc' hbusy := by
    obtain ⟨c, hc, -, hmessage, hcalmer⟩ := exists_calmer hcalm hc'
    rw [hmessage]
    exact h.slot c hc (hcalmer hbusy)
  owners_nodup := h.owners_nodup
  owner := h.owner
  owned o ho c' hc' hbusy hmessage := by
    obtain ⟨c, hc, hcid, heq, hcalmer⟩ := exists_calmer hcalm hc'
    rw [hcid]
    exact h.owned o ho c hc (hcalmer hbusy) (heq ▸ hmessage)

/-- Owners give up. -/
theorem drop (h : Ledger cids answered messages owners) (hsub : owners'.Sublist owners) :
    Ledger cids answered messages owners' :=
  { h with
    owners_nodup := h.owners_nodup.sublist (hsub.map _)
    owner := fun o ho => h.owner o (hsub.subset ho)
    owned := fun o ho => h.owned o (hsub.subset ho) }

theorem perm (h : Ledger cids answered messages owners) (hperm : owners'.Perm owners) :
    Ledger cids answered messages owners' :=
  { h with
    owners_nodup := (hperm.map _).nodup_iff.mpr h.owners_nodup
    owner := fun o ho => h.owner o (hperm.subset ho)
    owned := fun o ho => h.owned o (hperm.subset ho) }

/-- A message begins. -/
theorem number (h : Ledger cids answered messages owners) (cid : UInt32) :
    Ledger cids answered (messages + 1) ((messages + 1, cid) :: owners) where
  nodup := h.nodup
  counted m hm := Nat.le_succ_of_le (h.counted m hm)
  spared := h.spared
  foremost := h.foremost
  distinct := h.distinct
  slot c hc hbusy := ⟨Nat.le_succ_of_le (h.slot c hc hbusy).1, (h.slot c hc hbusy).2⟩
  owners_nodup := by
    refine List.nodup_cons.mpr ⟨fun hmem => ?_, h.owners_nodup⟩
    obtain ⟨o, ho, heq⟩ := List.mem_map.mp hmem
    have hle := (h.owner o ho).1
    omega
  owner o ho := by
    rcases List.mem_cons.mp ho with rfl | ho
    · refine ⟨le_refl _, fun hmem => ?_⟩
      have hle := h.counted _ hmem
      omega
    · exact ⟨Nat.le_succ_of_le (h.owner o ho).1, (h.owner o ho).2⟩
  owned o ho c hc hbusy hmessage := by
    rcases List.mem_cons.mp ho with rfl | ho
    · have hle := (h.slot c hc hbusy).1
      omega
    · exact h.owned o ho c hc hbusy hmessage

/-- An owner answers its message and frees the slot of its channel. -/
theorem settle (h : Ledger cids answered messages ((m, cid) :: owners)) :
    Ledger (cidDel cid cids) (answered ++ [m]) messages owners := by
  obtain ⟨hfresh, hnodup⟩ := List.nodup_cons.mp h.owners_nodup
  have hm := h.owner _ List.mem_cons_self
  have hfree := h.calm (calmer_cidDel cid cids)
  -- no busy slot bears the message any more
  have hgone : ∀ c ∈ cidDel cid cids, c.busy = true → c.message ≠ m := by
    intro c hc hbusy hmessage
    obtain ⟨hold, hcid⟩ := busy_cidDel h.foremost h.spared hc hbusy
    exact hcid (h.owned _ List.mem_cons_self c hold hbusy hmessage)
  have hother {n : ℕ} (hn : n ∉ answered) (hne : n ≠ m) : n ∉ answered ++ [m] := by
    simp [hn, hne]
  exact {
    nodup := by
      refine h.nodup.append (List.nodup_singleton m) ?_
      exact List.disjoint_singleton.mpr hm.2
    counted := by
      intro n hn
      rcases List.mem_append.mp hn with hn | hn
      · exact h.counted n hn
      · rw [List.mem_singleton.mp hn]
        exact hm.1
    spared := hfree.spared
    foremost := hfree.foremost
    distinct := hfree.distinct
    slot := fun c hc hbusy =>
      ⟨(hfree.slot c hc hbusy).1, hother (hfree.slot c hc hbusy).2 (hgone c hc hbusy)⟩
    owners_nodup := hnodup
    owner := by
      intro o ho
      obtain ⟨hle, hopen⟩ := h.owner o (List.mem_cons_of_mem _ ho)
      exact ⟨hle, hother hopen fun heq => hfresh (List.mem_map.mpr ⟨o, ho, heq⟩)⟩
    owned := fun o ho => hfree.owned o (List.mem_cons_of_mem _ ho) }

/-- A slot is given to the message of an owner, and no busy slot has its
channel but this one. -/
theorem mark {pre post : List Cid} {c c' : Cid} (h : Ledger (pre ++ c :: post) answered messages owners)
    (hspared : Spared (pre ++ c' :: post)) (howner : (c'.message, c'.cid) ∈ owners)
    (hpre : ∀ a ∈ pre, a.cid ≠ c'.cid) (hpost : ∀ b ∈ post, b.busy = true → b.cid ≠ c'.cid) :
    Ledger (pre ++ c' :: post) answered messages owners := by
  have hmem {y : Cid} (hy : y ∈ pre ∨ y ∈ post) : y ∈ pre ++ c :: post := by
    rcases hy with hy | hy
    · exact List.mem_append_left _ hy
    · exact List.mem_append_right _ (List.mem_cons_of_mem _ hy)
  -- a busy slot that bore the message had the channel
  have hother {y : Cid} (hy : y ∈ pre ∨ y ∈ post) (hbusy : y.busy = true) :
      y.message ≠ c'.message := by
    intro hmessage
    have hcid := h.owned _ howner y (hmem hy) hbusy hmessage
    rcases hy with hy | hy
    · exact hpre y hy hcid
    · exact hpost y hy hbusy hcid
  have hcases {y : Cid} (hy : y ∈ pre ++ c' :: post) : y = c' ∨ y ∈ pre ∨ y ∈ post := by
    simp only [List.mem_append, List.mem_cons] at hy
    tauto
  obtain ⟨hpre₁, htail₁, hcross₁⟩ := List.pairwise_append.mp h.foremost
  obtain ⟨hpre₂, htail₂, hcross₂⟩ := List.pairwise_append.mp h.distinct
  exact { h with
    spared := hspared
    foremost := by
      refine List.pairwise_append.mpr ⟨hpre₁, List.pairwise_cons.mpr ⟨?_, ?_⟩, ?_⟩
      · exact fun b hb hbusy => (hpost b hb hbusy).symm
      · exact (List.pairwise_cons.mp htail₁).2
      · intro a ha b hb hbusy
        rcases List.mem_cons.mp hb with rfl | hb
        · exact hpre a ha
        · exact hcross₁ a ha b (List.mem_cons_of_mem _ hb) hbusy
    distinct := by
      refine List.pairwise_append.mpr ⟨hpre₂, List.pairwise_cons.mpr ⟨?_, ?_⟩, ?_⟩
      · exact fun b hb _ hbusy => (hother (.inr hb) hbusy).symm
      · exact (List.pairwise_cons.mp htail₂).2
      · intro a ha b hb hbusya hbusyb
        rcases List.mem_cons.mp hb with rfl | hb
        · exact hother (.inl ha) hbusya
        · exact hcross₂ a ha b (List.mem_cons_of_mem _ hb) hbusya hbusyb
    slot := by
      intro y hy hbusy
      rcases hcases hy with rfl | hy
      · exact h.owner _ howner
      · exact h.slot y (hmem hy) hbusy
    owned := by
      intro o ho y hy hbusy hmessage
      rcases hcases hy with rfl | hy
      · exact (congrArg Prod.snd (List.inj_on_of_nodup_map h.owners_nodup howner ho hmessage) :)
      · exact h.owned o ho y (hmem hy) hbusy hmessage }

theorem refresh (h : Ledger cids answered messages owners) (howner : (m, cid) ∈ owners)
    (hcids : cidRefresh now m cid cids = some cids') : Ledger cids' answered messages owners := by
  have hspared := h.spared.of_drop (drop_changeFirst hcids)
  obtain ⟨pre, c, post, rfl, -, hpre, hc, rfl⟩ := changeFirst_eq_some.mp hcids
  have hcid : c.cid = cid := by simpa using hc
  subst hcid
  refine h.mark hspared howner (by simpa using hpre) fun b hb hbusy => ?_
  have htail := (List.pairwise_append.mp h.foremost).2.1
  exact ((List.pairwise_cons.mp htail).1 b hb hbusy).symm

theorem add (h : Ledger cids answered messages owners) (howner : (m, cid) ∈ owners)
    (hcids : addCid now m cid cids = some cids')
    (hfree : ∀ c ∈ cids, c.busy = true → c.cid ≠ cid) : Ledger cids' answered messages owners := by
  have hspared := h.spared.of_drop (drop_changeFirst hcids)
  obtain ⟨pre, c, post, rfl, -, hpre, -, rfl⟩ := changeFirst_eq_some.mp hcids
  refine h.mark hspared howner (fun a ha => ?_) fun b hb hbusy => ?_
  · exact hfree a (List.mem_append_left _ ha) (by simpa using hpre a ha)
  · exact hfree b (List.mem_append_right _ (List.mem_cons_of_mem _ hb)) hbusy

/-- The timeout scan answers the messages of the slots that are due; the owners
that are left have none of their channels. -/
theorem scan (h : Ledger cids answered messages owners)
    (howners : ∀ o ∈ owners, ∀ c ∈ cids, c.expired now = true → c.cid ≠ o.2) :
    Ledger (cids.map (·.scanned now))
      (answered ++ (cids.filter (·.expired now)).map (·.message)) messages owners := by
  have hcalm := h.calm (calmer_scanned now cids)
  have hbusy {c : Cid} (hexp : c.expired now = true) : c.busy = true := by
    rw [Cid.expired, Bool.and_eq_true] at hexp
    exact hexp.1
  have hdue {n : ℕ} (hn : n ∈ (cids.filter (·.expired now)).map (·.message)) :
      ∃ c ∈ cids, c.expired now = true ∧ c.message = n := by
    obtain ⟨c, hc, rfl⟩ := List.mem_map.mp hn
    obtain ⟨hc, hexp⟩ := List.mem_filter.mp hc
    exact ⟨c, hc, hexp, rfl⟩
  have hother {n : ℕ} (hn : n ∉ answered)
      (hnone : ∀ c ∈ cids, c.expired now = true → c.message ≠ n) :
      n ∉ answered ++ (cids.filter (·.expired now)).map (·.message) := by
    intro hmem
    rcases List.mem_append.mp hmem with hmem | hmem
    · exact hn hmem
    · obtain ⟨c, hc, hexp, heq⟩ := hdue hmem
      exact hnone c hc hexp heq
  exact { hcalm with
    nodup := by
      refine h.nodup.append ?_ ?_
      · refine List.pairwise_map.mpr ((h.distinct.filter _).imp_of_mem fun {a b} ha hb hne => ?_)
        exact hne (hbusy (List.mem_filter.mp ha).2) (hbusy (List.mem_filter.mp hb).2)
      · intro n hn hmem
        obtain ⟨c, hc, hexp, rfl⟩ := hdue hmem
        exact (h.slot c hc (hbusy hexp)).2 hn
    counted := by
      intro n hn
      rcases List.mem_append.mp hn with hn | hn
      · exact h.counted n hn
      · obtain ⟨c, hc, hexp, rfl⟩ := hdue hn
        exact (h.slot c hc (hbusy hexp)).1
    slot := by
      intro c' hc' hbusy'
      obtain ⟨c, hc, rfl⟩ := List.mem_map.mp hc'
      rw [Cid.scanned] at hbusy' ⊢
      split at hbusy'
      case isTrue => exact absurd hbusy' Bool.false_ne_true
      case isFalse hexp =>
        rw [if_neg hexp]
        refine ⟨(h.slot c hc hbusy').1, hother (h.slot c hc hbusy').2 fun d hd hdue' => ?_⟩
        have : Std.Symm fun a b : Cid =>
            a.busy = true → b.busy = true → a.message ≠ b.message :=
          ⟨fun a b hab hb ha => (hab ha hb).symm⟩
        have hne : d ≠ c := by
          rintro rfl
          exact hexp hdue'
        exact h.distinct.forall hd hc hne (hbusy hdue') hbusy'
    owner := by
      intro o ho
      obtain ⟨hle, hopen⟩ := h.owner o ho
      refine ⟨hle, hother hopen fun c hc hexp heq => ?_⟩
      exact howners o ho c hc hexp (h.owned o ho c hc (hbusy hexp) heq) }

end Ledger

end NitrokeyFido2.Hid
