import NitrokeyFido2.Storage.CountPages

/-!
The signature counter over runs with power cuts.

What keeps the counter going up is that the mark is ahead of every value
returned whenever the first page is empty (`Ahead`). A call keeps that at
each of its steps, so a power cut finds it too. The count is 32 bits wide, and
nothing keeps it from wrapping around in the end.
-/

namespace NitrokeyFido2.Storage

open NorFlash Bootloader Ctap

variable (chip : Chip) (b : Board)

/-! ### The mark stays ahead -/

open Transition

section Ahead

variable {p : CounterPages} {returned : List UInt32} {amount : UInt32}

/-- Every count that was returned is behind the last one in the first page,
and where that page is empty, behind the one a restore begins with. -/
structure Ahead (returned : List UInt32) (p : CounterPages) : Prop where
  last : p.counts ≠ [] → lastCount p ≠ 0 ∧ ∀ r ∈ returned, r.toNat ≤ (lastCount p).toNat
  mark : p.counts = [] → 0 < (markOf p).toNat ∧ (markOf p).toNat * 256 + 1 < 2 ^ 32 ∧
    ∀ r ∈ returned, r.toNat < (markOf p).toNat * 256 + 1

@[simp] theorem markOf_mk {counts : List UInt32} {erases : UInt32} (h : erases ≠ 0xffffffff) :
    markOf ⟨counts, erases⟩ = erases := if_neg h

theorem markOf_ne (p : CounterPages) : markOf p ≠ 0xffffffff := by
  unfold markOf
  split
  · decide
  · assumption

theorem lastCount_eq_zero_of_nil (h : p.counts = []) : lastCount p = 0 := by
  rw [lastCount, h]
  rfl

theorem Ahead.lastCount_eq_zero_iff (h : Ahead returned p) : lastCount p = 0 ↔ p.counts = [] := by
  constructor
  · intro hzero
    by_contra hne
    exact (h.last hne).1 hzero
  · exact lastCount_eq_zero_of_nil

/-- While the first page has a count the mark is free to change. -/
theorem Ahead.setErases (p : CounterPages) (erases : UInt32) (hne : p.counts ≠ [])
    (h : Ahead returned p) : Ahead returned { p with erases := erases } :=
  ⟨h.last, fun hnil => absurd hnil hne⟩

/-- The rule a call keeps at each of its steps. -/
def StepSafe (Q : CounterPages → Prop) (p : CounterPages) (op : PageOp) : Prop :=
  op.Allowed p ∧ Q p

theorem setMark_safe {Q : CounterPages → Prop}
    (hQ : ∀ p erases, p.counts ≠ [] → Q p → Q { p with erases := erases }) (h : Q p)
    (hne : p.counts ≠ []) {erases : UInt32} (herases : erases ≠ 0xffffffff) :
    Along PageOp.apply (StepSafe Q) p (setMark erases) ∧
      run PageOp.apply p (setMark erases) = { p with erases := erases } :=
  ⟨⟨⟨trivial, h⟩, ⟨⟨rfl, herases⟩, hQ p _ hne h⟩, trivial⟩, rfl⟩

theorem initMark_safe {Q : CounterPages → Prop} (h : Q p) :
    Along PageOp.apply (StepSafe Q) p (initMark p) ∧
      run PageOp.apply p (initMark p) = { p with erases := markOf p } := by
  unfold initMark markOf
  split
  case isTrue hones =>
    have hsame : PageOp.eraseMark.apply p = p := by
      rw [PageOp.apply, ← hones]
    refine ⟨⟨⟨trivial, h⟩, ⟨⟨rfl, by decide⟩, ?_⟩, trivial⟩, rfl⟩
    rw [hsame]
    exact h
  case isFalse => exact ⟨trivial, rfl⟩

theorem Ahead.withMark (h : Ahead returned p) : Ahead returned { p with erases := markOf p } := by
  refine ⟨h.last, fun hnil => ?_⟩
  rw [markOf_mk (markOf_ne p)]
  exact h.mark hnil

theorem div_256_ne (v : UInt32) : v / 256 ≠ 0xffffffff ∧ v / 256 + 1 ≠ 0xffffffff := by
  have hdiv : (v / 256).toNat = v.toNat / 256 := UInt32.toNat_div ..
  have hv := v.toNat_lt
  constructor
  · intro h
    rw [h] at hdiv
    change 4294967295 = _ at hdiv
    omega
  · intro h
    have hsum : (v / 256 + 1).toNat = ((v / 256).toNat + 1) % 2 ^ 32 := UInt32.toNat_add ..
    rw [h, hdiv] at hsum
    change 4294967295 = _ at hsum
    omega

/-- One count in the first page, above all that were returned. -/
theorem ahead_singleton {v : UInt32} (hv : v ≠ 0) (h : ∀ r ∈ returned, r.toNat < v.toNat)
    (erases : UInt32) : Ahead returned ⟨[v], erases⟩ :=
  ⟨fun _ => ⟨hv, fun r hr => (h r hr).le⟩, fun hnil => absurd hnil (List.cons_ne_nil _ _)⟩

theorem Ahead.toNat_restore (h : Ahead returned p) (hnil : p.counts = []) (amount : UInt32) :
    (nextCount p amount).toNat = (markOf p).toNat * 256 + 1 := by
  obtain ⟨-, hlt, -⟩ := h.mark hnil
  rw [nextCount, if_pos (lastCount_eq_zero_of_nil hnil), UInt32.toNat_add, UInt32.toNat_mul]
  change ((markOf p).toNat * 256 % 2 ^ 32 + 1) % 2 ^ 32 = _
  omega

/-- A call that found no count goes on above everything returned. -/
theorem restoreSteps_safe (h : Ahead returned p) (hnil : p.counts = []) :
    Along PageOp.apply (StepSafe (Ahead returned)) { p with erases := markOf p } (restoreSteps p amount) ∧
      run PageOp.apply { p with erases := markOf p } (restoreSteps p amount) =
        ⟨[nextCount p amount], markOf p + 1⟩ ∧
      nextCount p amount ≠ 0 ∧ ∀ r ∈ returned, r.toNat < (nextCount p amount).toNat := by
  obtain ⟨hpos, hlt, hall⟩ := h.mark hnil
  have hnext := h.toNat_restore hnil amount
  have hsum : (markOf p + 1).toNat = (markOf p).toNat + 1 := by
    rw [UInt32.toNat_add]
    change (_ + 1) % 2 ^ 32 = _
    omega
  have hnonzero : nextCount p amount ≠ 0 := by
    intro hzero
    rw [hzero] at hnext
    change 0 = _ at hnext
    omega
  have hones : nextCount p amount ≠ 0xffffffff := by
    intro heq
    rw [heq] at hnext
    change 4294967295 = _ at hnext
    omega
  have hmark : markOf p + 1 ≠ 0xffffffff := by
    intro heq
    rw [heq] at hsum
    change 4294967295 = _ at hsum
    omega
  have habove : ∀ r ∈ returned, r.toNat < (nextCount p amount).toNat := fun r hr =>
    (hall r hr).trans_eq hnext.symm
  have hempty : Ahead returned ⟨[], markOf p⟩ := by
    have hmarked := h.withMark
    rwa [hnil] at hmarked
  have hwritten : PageOp.apply ⟨[], markOf p⟩ (.writeCount 0 (nextCount p amount)) =
      ⟨[nextCount p amount], markOf p⟩ := by
    rw [PageOp.apply, if_neg hones, List.nil_append]
  obtain ⟨hsafe, hrun⟩ := setMark_safe Ahead.setErases
    (ahead_singleton hnonzero habove (markOf p)) (List.cons_ne_nil _ _) hmark
  refine ⟨⟨⟨trivial, h.withMark⟩, ⟨⟨rfl, by decide⟩, hempty⟩, ?_⟩, ?_, hnonzero, habove⟩
  · show Along PageOp.apply _ (PageOp.apply ⟨[], markOf p⟩ _) (setMark _)
    rw [hwritten]
    exact hsafe
  · show run PageOp.apply (PageOp.apply ⟨[], markOf p⟩ _) (setMark _) = _
    rw [hwritten]
    exact hrun

/-- A call that goes on from the last count: what the mark does not matter
for while there is a count has to hold once more behind a full page. -/
theorem appendSteps_safe {Q : CounterPages → Prop}
    (hQ : ∀ p erases, p.counts ≠ [] → Q p → Q { p with erases := erases }) (h : Q p)
    (hne : p.counts ≠ []) (hlen : p.counts.length ≤ countsPerPage)
    (hroll : Q ⟨[], nextCount p amount / 256 + 1⟩) :
    Along PageOp.apply (StepSafe Q) { p with erases := markOf p } (appendSteps p amount) ∧
      run PageOp.apply { p with erases := markOf p } (appendSteps p amount) =
        CounterPages.push { p with erases := markOf p } (nextCount p amount) := by
  let lastc := nextCount p amount
  have hfirst : Q { p with erases := markOf p } := hQ p _ hne h
  -- the mark is brought up to date first
  let erases := if lastc / 256 > markOf p then lastc / 256 else markOf p
  have hbehind : Along PageOp.apply (StepSafe Q) { p with erases := markOf p }
        (if lastc / 256 > markOf p then setMark (lastc / 256) else []) ∧
      run PageOp.apply { p with erases := markOf p }
        (if lastc / 256 > markOf p then setMark (lastc / 256) else []) =
        { p with erases := erases } := by
    by_cases hgt : lastc / 256 > markOf p
    · rw [if_pos hgt, show erases = lastc / 256 from if_pos hgt]
      exact setMark_safe hQ hfirst hne (div_256_ne _).1
    · rw [if_neg hgt, show erases = markOf p from if_neg hgt]
      exact ⟨trivial, rfl⟩
  have hmarked : Q { p with erases := erases } := hQ p erases hne h
  change Along _ _ _ ((if lastc / 256 > markOf p then _ else _) ++ _) ∧
    run _ _ ((if lastc / 256 > markOf p then _ else _) ++ _) = _
  rw [along_append, run_append, hbehind.2, CounterPages.push]
  by_cases hfull : p.counts.length = countsPerPage
  · obtain ⟨hsafe, hrun⟩ := setMark_safe hQ hmarked hne (div_256_ne lastc).2
    rw [if_pos hfull, if_pos hfull, along_append, run_append, hrun]
    exact ⟨⟨hbehind.1, hsafe, ⟨trivial, hQ _ _ hne hmarked⟩, ⟨⟨rfl, by decide⟩, hroll⟩, trivial⟩, rfl⟩
  · rw [if_neg hfull, if_neg hfull]
    exact ⟨⟨hbehind.1, ⟨⟨rfl, lt_of_le_of_ne hlen hfull⟩, hmarked⟩, trivial⟩, rfl⟩

theorem toNat_append (hne : lastCount p ≠ 0) (hlt : (lastCount p).toNat + amount.toNat < 2 ^ 32) :
    (nextCount p amount).toNat = (lastCount p).toNat + amount.toNat := by
  rw [nextCount, if_neg hne, UInt32.toNat_add, Nat.mod_eq_of_lt hlt]

/-- The mark in front of which a full page is erased. -/
theorem Ahead.rollOver {lastc : UInt32} (hlast : ∀ r ∈ returned, r.toNat < lastc.toNat)
    (hlt : lastc.toNat < 2 ^ 32 - 496) : Ahead returned ⟨[], lastc / 256 + 1⟩ := by
  have hdiv : (lastc / 256 + 1).toNat = lastc.toNat / 256 + 1 := by
    rw [UInt32.toNat_add, UInt32.toNat_div]
    change (lastc.toNat / 256 + 1) % 2 ^ 32 = _
    omega
  refine ⟨fun hnil => absurd rfl hnil, fun _ => ?_⟩
  rw [markOf_mk (div_256_ne lastc).2, hdiv]
  refine ⟨by omega, by omega, fun r hr => ?_⟩
  have hr := hlast r hr
  omega

theorem lastCount_push (hones : amount ≠ 0xffffffff) (q : CounterPages) :
    lastCount (q.push amount) = amount ∧ (q.push amount).counts ≠ [] := by
  unfold CounterPages.push lastCount
  rw [if_neg hones]
  split
  · exact ⟨rfl, List.cons_ne_nil _ _⟩
  · exact ⟨List.getLastD_concat .., List.append_ne_nil_of_right_ne_nil _ (List.cons_ne_nil _ _)⟩

/-- What the pages hold after a call. -/
def afterCount (p : CounterPages) (amount : UInt32) : CounterPages :=
  if lastCount p = 0 then ⟨[nextCount p amount], markOf p + 1⟩
  else CounterPages.push { p with erases := markOf p } (nextCount p amount)

/-- Wherever a call is broken off the mark is ahead of what was returned, and
after the whole call also of what it returns. -/
theorem countSteps_safe (h : Ahead returned p) (hlen : p.counts.length ≤ countsPerPage)
    (hlt : (lastCount p).toNat < 2 ^ 32 - 512) (hamount : 1 ≤ amount.toNat ∧ amount.toNat ≤ 16) :
    Along PageOp.apply (StepSafe (Ahead returned)) p (countSteps p amount) ∧
      run PageOp.apply p (countSteps p amount) = afterCount p amount ∧
      Ahead (nextCount p amount :: returned) (afterCount p amount) ∧
      ∀ r ∈ returned, r.toNat < (nextCount p amount).toNat := by
  obtain ⟨hinit, hmarked⟩ := initMark_safe h
  unfold countSteps afterCount
  rw [along_append, run_append, hmarked]
  by_cases hzero : lastCount p = 0
  · obtain ⟨hsafe, hrun, hnonzero, habove⟩ :=
      restoreSteps_safe h (h.lastCount_eq_zero_iff.mp hzero)
    rw [if_pos hzero, if_pos hzero]
    refine ⟨⟨hinit, hsafe⟩, hrun, ⟨fun _ => ⟨hnonzero, ?_⟩, fun hnil =>
      absurd hnil (List.cons_ne_nil _ _)⟩, habove⟩
    exact List.forall_mem_cons.mpr ⟨le_refl _, fun r hr => (habove r hr).le⟩
  · have hne : p.counts ≠ [] := fun hnil => hzero (lastCount_eq_zero_of_nil hnil)
    have hnext := toNat_append hzero (show _ + amount.toNat < _ by omega)
    have habove : ∀ r ∈ returned, r.toNat < (nextCount p amount).toNat := fun r hr => by
      have hr := (h.last hne).2 r hr
      omega
    have hbounds : nextCount p amount ≠ 0 ∧ nextCount p amount ≠ 0xffffffff := by
      constructor <;> intro heq <;> rw [heq] at hnext
      · change 0 = _ at hnext
        omega
      · change 4294967295 = _ at hnext
        omega
    obtain ⟨hsafe, hrun⟩ := appendSteps_safe Ahead.setErases h hne hlen
      (Ahead.rollOver habove (by omega))
    obtain ⟨hlast, hcounts⟩ := lastCount_push hbounds.2 { p with erases := markOf p }
    rw [if_neg hzero, if_neg hzero]
    refine ⟨⟨hinit, hsafe⟩, hrun, ⟨fun _ => ?_, fun hnil => absurd hnil hcounts⟩, habove⟩
    rw [hlast]
    exact ⟨hbounds.1, List.forall_mem_cons.mpr ⟨le_refl _, fun r hr => (habove r hr).le⟩⟩

end Ahead

/-- The counter of the authenticator's model is the view after a call that
was not cut, and it loops when the code does. -/
theorem ctapAtomicCount_pages (env : Env) (a : Authenticator) :
    let amount := randomAmount ((a.drawn env 1).byte 0)
    (Ctap.ctapAtomicCount env a).2.counter = afterCount a.counter amount ∧
      (Ctap.ctapAtomicCount env a).1 =
        if lastCount a.counter ≠ 0 ∧ nextCount a.counter amount = a.sc then .error .halted
        else .ok (nextCount a.counter amount) := by
  intro amount
  -- the mark is put in place first
  let a' : Authenticator := { a with counter := { a.counter with erases := markOf a.counter } }
  have hmark : (if a.counter.erases = 0xffffffff then
      { a with counter := { a.counter with erases := 1 } } else a) = a' := by
    show _ = { a with counter := { a.counter with erases := if _ then _ else _ } }
    split <;> rfl
  unfold Ctap.ctapAtomicCount
  rw [Proc.bind_of_ok (show Proc.modify _ a = (.ok (), a') by rw [← hmark]; rfl),
    Proc.bind_of_ok rfl, Proc.get_bind]
  dsimp only
  split
  case isTrue hzero =>
    have hlast : lastCount a.counter = 0 := hzero
    rw [afterCount, nextCount, if_neg (not_and_of_not_left _ (not_not_intro hlast)), if_pos hlast,
      if_pos hlast]
    exact ⟨rfl, rfl⟩
  case isFalse hpos =>
    have hlast : lastCount a.counter ≠ 0 := hpos
    rw [afterCount, nextCount, if_neg hlast, if_neg hlast, Proc.bind_of_ok rfl]
    unfold Proc.stopIf
    split
    case isTrue hsc =>
      have hloop : lastCount a.counter + amount = a.sc := hsc
      rw [if_pos ⟨hlast, hloop⟩]
      exact ⟨rfl, rfl⟩
    case isFalse hsc =>
      have hloop : lastCount a.counter + amount ≠ a.sc := hsc
      rw [if_neg (not_and_of_not_right _ hloop)]
      exact ⟨rfl, rfl⟩

/-! ### Runs -/

/-- The counter between two calls. -/
structure CounterRun where
  flash : Memory
  /-- The static variable of the function. -/
  sc : UInt32
  /-- The values returned so far, the last one first. -/
  returned : List UInt32
  /-- A call is in its endless loop. -/
  looping : Bool

inductive CounterEvent
  /-- `ctap_atomic_count(0)`, with the random byte it draws. -/
  | count (rng : UInt8)
  /-- The same, but power is lost after `k` flash operations. -/
  | cut (rng : UInt8) (k : ℕ)
  /-- Power is lost between two calls. -/
  | restart

def counterStep (r : CounterRun) : CounterEvent → CounterRun
  | .count rng =>
      let call := ctapAtomicCount b r.flash r.sc 0 rng
      if r.looping then r
      else ⟨applyAll chip r.flash call.ops, call.sc, call.returned.toList ++ r.returned,
        call.returned.isNone⟩
  | .cut rng k =>
      let call := ctapAtomicCount b r.flash r.sc 0 rng
      ⟨if r.looping then r.flash else applyAll chip r.flash (call.ops.take k), 0, r.returned, false⟩
  | .restart => ⟨r.flash, 0, r.returned, false⟩

/-- Both pages are erased and nothing was returned. -/
structure Untouched (r : CounterRun) : Prop where
  counts : r.flash.Erased (flashAddr (counter1Page b)) pageSize
  mark : r.flash.Erased (flashAddr (counter2Page b)) pageSize
  sc : r.sc = 0
  returned : r.returned = []
  looping : r.looping = false

/-- The last count in the first page is below `2 ^ 32 - 512`. -/
def BelowLimit (r : CounterRun) (_ : CounterEvent) : Prop :=
  (scanCounts b r.flash (pageSize / 4 / 2) 0 0).2.toNat < 2 ^ 32 - 512

/-- The invariant of a run. -/
structure CounterInv (r : CounterRun) : Prop where
  pages : ∃ p, Represents b r.flash p ∧ Ahead r.returned p
  sc : r.sc = 0 ∨ r.sc ∈ r.returned
  increasing : r.returned.Pairwise (· > ·)
  running : r.looping = false

section Runs

variable {b} {r : CounterRun}

theorem Untouched.inv (h : Untouched b r) : CounterInv b r where
  pages := by
    refine ⟨⟨[], 0xffffffff⟩, ⟨Filled.of_erased fun a ha ha' => ?_,
      fun _ hv => absurd hv List.not_mem_nil, ?_⟩, ⟨fun hnil => absurd rfl hnil, fun _ => ?_⟩⟩
    · have hbyte := h.counts (a - flashAddr (counter1Page b)) (by omega)
      rwa [show flashAddr (counter1Page b) + (a - flashAddr (counter1Page b)) = a by omega] at hbyte
    · exact fun i hi => h.mark i (lt_trans hi (by decide))
    · rw [h.returned]
      exact ⟨by decide, by decide, fun r hr => absurd hr List.not_mem_nil⟩
  sc := .inl h.sc
  increasing := by
    rw [h.returned]
    exact List.Pairwise.nil
  running := h.looping

theorem BelowLimit.lastCount {p : CounterPages} {e : CounterEvent} (h : BelowLimit b r e)
    (hp : Represents b r.flash p) : (lastCount p).toNat < 2 ^ 32 - 512 := by
  rw [BelowLimit, hp.scanCounts_eq] at h
  exact h

theorem counterStep_inv (r : CounterRun) (e : CounterEvent) (h : CounterInv b r)
    (hlimit : BelowLimit b r e) : CounterInv b (counterStep chip b r e) := by
  obtain ⟨p, hp, hahead⟩ := h.pages
  cases e with
  | restart => exact ⟨⟨p, hp, hahead⟩, .inl rfl, h.increasing, rfl⟩
  | cut rng k =>
      obtain ⟨hsafe, hrun, hafter, -⟩ :=
        countSteps_safe hahead hp.length_le (hlimit.lastCount hp) (toNat_randomAmount rng)
      have hend : Ahead r.returned (run PageOp.apply p (countSteps p (randomAmount rng))) := by
        rw [hrun]
        exact ⟨fun hne => ⟨(hafter.last hne).1, fun v hv => (hafter.last hne).2 v (List.mem_cons_of_mem _ hv)⟩,
          fun hnil => ⟨(hafter.mark hnil).1, (hafter.mark hnil).2.1,
            fun v hv => (hafter.mark hnil).2.2 v (List.mem_cons_of_mem _ hv)⟩⟩
      refine ⟨⟨_, ?_, hsafe.run_take (fun _ _ hs => hs.2) hend k⟩, .inl rfl, h.increasing, rfl⟩
      rw [counterStep, h.running, hp.ctapAtomicCount_eq]
      exact hp.steps chip (hsafe.mono fun _ _ hs => hs.1) k
  | count rng =>
      obtain ⟨hsafe, hrun, hafter, habove⟩ :=
        countSteps_safe hahead hp.length_le (hlimit.lastCount hp) (toNat_randomAmount rng)
      have hnotloop : ¬ (lastCount p ≠ 0 ∧ nextCount p (randomAmount rng) = r.sc) := by
        rintro ⟨hne, hsc⟩
        -- the static variable is behind the last count
        obtain hzero | hmem := h.sc
        · have hlt := hlimit.lastCount hp
          have hle := (toNat_randomAmount rng).2
          have hnext := toNat_append hne (show _ + (randomAmount rng).toNat < _ by omega)
          rw [hsc, hzero] at hnext
          have hone := (toNat_randomAmount rng).1
          change 0 = _ at hnext
          omega
        · have hlt := habove _ hmem
          rw [hsc] at hlt
          exact lt_irrefl _ hlt
      have hsteps := hp.steps chip (hsafe.mono fun _ _ hs => hs.1)
        (countSteps p (randomAmount rng)).length
      rw [List.take_of_length_le (by rw [List.length_map]), List.take_length, hrun] at hsteps
      rw [counterStep, h.running, hp.ctapAtomicCount_eq]
      simp only [if_neg hnotloop, Bool.false_eq_true, if_false]
      refine ⟨⟨_, hsteps, hafter⟩, ?_, ?_, rfl⟩
      · show (if lastCount p = 0 then r.sc else nextCount p (randomAmount rng)) = 0 ∨ _
        split
        · exact h.sc.imp_right (List.mem_cons_of_mem _)
        · exact .inr List.mem_cons_self
      · exact List.pairwise_cons.mpr ⟨fun v hv => UInt32.lt_iff_toNat_lt.mpr (habove v hv), h.increasing⟩

end Runs

section Exhausted

variable {b} {p : CounterPages} {r : CounterRun} {m n : ℕ}

/-- Calls go on from the last count wherever that has got to. -/
theorem countSteps_allowed (hne : lastCount p ≠ 0) (hlen : p.counts.length ≤ countsPerPage)
    (amount : UInt32) :
    Along PageOp.apply PageOp.Allowed p (countSteps p amount) ∧
      run PageOp.apply p (countSteps p amount) = afterCount p amount := by
  have hcounts : p.counts ≠ [] := fun hnil => hne (lastCount_eq_zero_of_nil hnil)
  obtain ⟨hinit, hmarked⟩ := initMark_safe (Q := fun _ => True) (p := p) trivial
  obtain ⟨hsafe, hrun⟩ : Along PageOp.apply (StepSafe fun _ => True) _ (appendSteps p amount) ∧ _ :=
    appendSteps_safe (fun _ _ _ _ => trivial) trivial hcounts hlen trivial
  rw [countSteps, afterCount, if_neg hne, if_neg hne, along_append, run_append, hmarked]
  exact ⟨⟨hinit.mono fun _ _ h => h.1, hsafe.mono fun _ _ h => h.1⟩, hrun⟩

theorem length_countSteps_le (p : CounterPages) (amount : UInt32) :
    (countSteps p amount).length ≤ 8 := by
  unfold countSteps initMark restoreSteps appendSteps setMark
  split <;> split <;> simp <;> split <;> split <;> simp

/-- The state after `n` calls that lost power just before they returned. -/
structure Advanced (b : Board) (n : ℕ) (r : CounterRun) : Prop where
  pages : ∃ p, Represents b r.flash p ∧ (lastCount p).toNat = 257 + 16 * n
  sc : r.sc = 0
  returned : r.returned = [257]
  running : r.looping = false

theorem Advanced.step (h : Advanced b n r) (hlt : 257 + 16 * (n + 1) < 2 ^ 32 - 1) :
    Advanced b (n + 1) (counterStep chip b r (.cut 15 8)) := by
  obtain ⟨p, hp, hlast⟩ := h.pages
  have hamount : (randomAmount 15).toNat = 16 := rfl
  have hne : lastCount p ≠ 0 := by
    intro hzero
    rw [hzero] at hlast
    change 0 = _ at hlast
    omega
  have hnext := toNat_append hne (show _ + (randomAmount 15).toNat < _ by omega)
  have hones : nextCount p (randomAmount 15) ≠ 0xffffffff := by
    intro heq
    rw [heq] at hnext
    change 4294967295 = _ at hnext
    omega
  obtain ⟨hallowed, hrun⟩ := countSteps_allowed hne hp.length_le (randomAmount 15)
  have hsteps := hp.steps chip hallowed 8
  rw [List.take_of_length_le (length_countSteps_le p _), hrun] at hsteps
  refine ⟨⟨afterCount p (randomAmount 15), ?_, ?_⟩, rfl, h.returned, rfl⟩
  · rw [counterStep, h.running, hp.ctapAtomicCount_eq]
    exact hsteps
  · rw [afterCount, if_neg hne, (lastCount_push hones _).1, hnext]
    omega

theorem Advanced.run (h : Advanced b m r) (n : ℕ) (hlt : 257 + 16 * (m + n) < 2 ^ 32 - 1) :
    Advanced b (m + n) (Transition.run (counterStep chip b) r (List.replicate n (.cut 15 8))) := by
  induction n generalizing m r with
  | zero => exact h
  | succ n ih =>
      rw [List.replicate_succ, run_cons, show m + (n + 1) = m + 1 + n by omega]
      exact ih (h.step chip (by omega)) (by omega)

end Exhausted

def demoCounter : CounterRun := ⟨fun _ => 0xFF, 0, [], false⟩

/-- One count, calls that lose power until the last count is `2 ^ 32 - 15`,
and one more call. -/
def exhaustingEvents : List CounterEvent :=
  .count 15 :: (List.replicate 268435439 (.cut 15 8) ++ [.count 14])

theorem demoCounter_untouched (b : Board) : Untouched b demoCounter :=
  ⟨fun _ _ => rfl, fun _ _ => rfl, rfl, rfl, rfl⟩

theorem demoCounter_first (b : Board) : Advanced b 0 (counterStep chip b demoCounter (.count 15)) := by
  let p : CounterPages := ⟨[], 0xffffffff⟩
  have hp : Represents b demoCounter.flash p :=
    ⟨Filled.of_erased fun _ _ _ => rfl, fun _ hv => absurd hv List.not_mem_nil, fun _ _ => rfl⟩
  have hahead : Ahead [] p :=
    ⟨fun hnil => absurd rfl hnil, fun _ => ⟨by decide, by decide, fun _ hr => absurd hr List.not_mem_nil⟩⟩
  obtain ⟨hsafe, hrun, -, -⟩ := countSteps_safe hahead (Nat.zero_le _) (show 0 < 2 ^ 32 - 512 by omega)
    (toNat_randomAmount 15)
  have hsteps := hp.steps chip (hsafe.mono fun _ _ hs => hs.1) 8
  rw [List.take_of_length_le (length_countSteps_le p _), hrun] at hsteps
  have hcall := hp.ctapAtomicCount_eq 0 15
  have hzero : lastCount p = 0 := rfl
  have hnext : nextCount p (randomAmount 15) = 257 := by decide +kernel
  have hfirst : lastCount (afterCount p (randomAmount 15)) = 257 := by
    rw [afterCount, if_pos hzero, hnext]
    rfl
  rw [hnext, if_pos hzero, if_neg (fun h => h.1 hzero)] at hcall
  refine ⟨⟨afterCount p (randomAmount 15), ?_, by rw [hfirst]; decide⟩, ?_, ?_, ?_⟩ <;>
    rw [counterStep, show demoCounter.sc = 0 from rfl, hcall]
  · rwa [List.take_of_length_le] at hsteps
    rw [List.length_map]
    exact length_countSteps_le p _
  all_goals rfl

/-- The last call of the run: zero is where the static variable starts. -/
theorem Advanced.wraps {b : Board} {r : CounterRun} (h : Advanced b 268435439 r) :
    (counterStep chip b r (.count 14)).returned = [257] ∧
      (counterStep chip b r (.count 14)).looping = true := by
  obtain ⟨p, hp, hlast⟩ := h.pages
  have hne : lastCount p ≠ 0 := by
    intro hzero
    rw [hzero] at hlast
    exact absurd hlast (by decide)
  have hnext : nextCount p (randomAmount 14) = 0 := by
    rw [nextCount, if_neg hne]
    apply UInt32.toNat_inj.mp
    rw [UInt32.toNat_add, hlast]
    rfl
  rw [counterStep, h.running, hp.ctapAtomicCount_eq, hnext, h.sc]
  simp only [hne, ne_eq, not_false_eq_true, and_self, if_true, Bool.false_eq_true, if_false,
    Option.toList_none, List.nil_append, Option.isNone_none, and_true]
  exact h.returned

end NitrokeyFido2.Storage
