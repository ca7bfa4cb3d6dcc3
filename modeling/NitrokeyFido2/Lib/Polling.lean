import NitrokeyFido2.Lib.Proc

/-!
Loops of a program that polls its environment.

Such a loop has no bound of its own: it goes round until what it reads lets it
go on. `untilSome` gives it a number of rounds. With a measure of what is left to
be read, the number is no restriction as long as every round reads something:
a loop that is given more rounds than there are readings never runs out of them.
-/

namespace Proc

variable {σ ε α β : Type}

/-- Rounds until one of them gives a result, and `out` when there are no more. -/
def untilSome (out : ε) (round : Proc σ ε (Option α)) : ℕ → Proc σ ε α
  | 0 => stop out
  | n + 1 => round >>= fun r =>
      match r with
      | some a => pure a
      | none => untilSome out round n

section Rounds

variable {out : ε} {round : Proc σ ε (Option α)}

theorem untilSome_succ (n : ℕ) (s : σ) :
    untilSome out round (n + 1) s =
      match round s with
      | (.ok (some a), t) => (.ok a, t)
      | (.ok none, t) => untilSome out round n t
      | (.error e, t) => (.error e, t) := by
  rw [untilSome, bind_apply]
  rcases round s with ⟨e | _ | a, t⟩ <;> rfl

instance Keeps.untilSome {R : σ → σ → Prop} [IsPreorder σ R] [hround : Keeps R round] (n : ℕ) :
    Keeps R (Proc.untilSome out round n) := by
  induction n with
  | zero => exact Keeps.stop out
  | succ n ih =>
      refine Keeps.seq hround fun r => ?_
      cases r with
      | none => exact ih
      | some a => exact Keeps.pure a

/-- The result of a loop is that of its last round. -/
theorem untilSome_ok {R : σ → σ → Prop} [IsPreorder σ R] [hround : Keeps R round] {n : ℕ} {s t : σ}
    {a : α} (h : untilSome out round n s = (.ok a, t)) :
    ∃ u, R s u ∧ round u = (.ok (some a), t) := by
  induction n generalizing s with
  | zero => cases h
  | succ n ih =>
      rw [untilSome_succ] at h
      have hs := hround.state s
      rcases hr : round s with ⟨e | _ | b, u⟩ <;> rw [hr] at h hs
      · cases h
      · obtain ⟨v, hv, hlast⟩ := ih h
        exact ⟨v, trans_of R hs hv, hlast⟩
      · cases h
        exact ⟨s, refl_of R s, hr⟩

end Rounds

/-! ### Invariants -/

/-- Whatever the outcome, the invariant holds behind the procedure if it holds
before it. -/
abbrev Preserves (I : σ → Prop) (m : Proc σ ε α) : Prop := Keeps (fun s t => I s → I t) m

instance (I : σ → Prop) : IsPreorder σ fun s t => I s → I t where
  refl _ h := h
  trans _ _ _ h₁ h₂ h := h₂ (h₁ h)

theorem Preserves.apply {I : σ → Prop} {m : Proc σ ε α} (hm : Preserves I m) {r : Except ε α}
    {s t : σ} (h : m s = (r, t)) (hs : I s) : I t := Keeps.apply hm h hs

/-! ### Enough rounds -/

section Measure

variable (left : σ → ℕ)

/-- Nothing is put back. -/
abbrev NoMore (m : Proc σ ε α) : Prop := Keeps (fun s t => left t ≤ left s) m

instance : IsPreorder σ fun s t => left t ≤ left s where
  refl _ := le_refl _
  trans _ _ _ h₁ h₂ := h₂.trans h₁

/-- A procedure that goes on has taken something. -/
class Takes (m : Proc σ ε α) : Prop where
  lt : ∀ s a t, m s = (.ok a, t) → left t < left s

/-- With less than `n` left, the procedure does not stop for want of rounds. -/
class Within (out : ε) (n : ℕ) (m : Proc σ ε α) : Prop where
  ne : ∀ s, left s < n → (m s).1 ≠ .error out

variable {left} {out : ε} {n : ℕ}

theorem Takes.bind_left {m : Proc σ ε α} {f : α → Proc σ ε β} (hm : Takes left m)
    (hf : ∀ a, NoMore left (f a)) : Takes left (m >>= f) := by
  refine ⟨fun s b t h => ?_⟩
  obtain ⟨a, u, hma, hfa⟩ := bind_ok.mp h
  exact ((hf a).apply hfa).trans_lt (hm.lt s a u hma)

theorem Takes.bind_right {m : Proc σ ε α} {f : α → Proc σ ε β} (hm : NoMore left m)
    (hf : ∀ a, Takes left (f a)) : Takes left (m >>= f) := by
  refine ⟨fun s b t h => ?_⟩
  obtain ⟨a, u, hma, hfa⟩ := bind_ok.mp h
  exact ((hf a).lt u b t hfa).trans_le (hm.apply hma)

theorem Within.mono {m : Proc σ ε α} (hm : Within left out n m) {k : ℕ} (hk : k ≤ n) :
    Within left out k m := ⟨fun s hs => hm.ne s (hs.trans_le hk)⟩

instance Within.of_never {m : Proc σ ε α} [hm : Never out m] : Within left out n m :=
  ⟨fun s _ => hm.ne s⟩

theorem Within.bind {m : Proc σ ε α} {f : α → Proc σ ε β} (hm : Within left out n m)
    (hle : NoMore left m) (hf : ∀ a, Within left out n (f a)) : Within left out n (m >>= f) := by
  refine ⟨fun s hs => ?_⟩
  have hms := hm.ne s hs
  have hles := hle.state s
  rw [bind_apply]
  rcases h : m s with ⟨e | a, t⟩ <;> rw [h] at hms hles
  · exact fun he => hms (congrArg Except.error (Except.error.inj he))
  · exact (hf a).ne t (hles.trans_lt hs)

/-- What comes behind a procedure that has taken something needs one round
less. -/
theorem Within.bind_takes {m : Proc σ ε α} {f : α → Proc σ ε β} (hm : Within left out (n + 1) m)
    (htakes : Takes left m) (hf : ∀ a, Within left out n (f a)) :
    Within left out (n + 1) (m >>= f) := by
  refine ⟨fun s hs => ?_⟩
  have hms := hm.ne s hs
  rw [bind_apply]
  rcases h : m s with ⟨e | a, t⟩ <;> rw [h] at hms
  · exact fun he => hms (congrArg Except.error (Except.error.inj he))
  · exact (hf a).ne t (by have := htakes.lt s a t h; omega)

theorem Within.untilSome {round : Proc σ ε (Option α)} (hround : Within left out n round)
    (htakes : ∀ s t, round s = (.ok none, t) → left t < left s) :
    Within left out n (Proc.untilSome out round n) := by
  induction n with
  | zero => exact ⟨fun s hs => absurd hs (Nat.not_lt_zero _)⟩
  | succ n ih =>
      refine ⟨fun s hs => ?_⟩
      have hms := hround.ne s hs
      rw [untilSome_succ]
      rcases h : round s with ⟨e | _ | a, t⟩ <;> rw [h] at hms
      · exact fun he => hms (congrArg Except.error (Except.error.inj he))
      · have hlt := htakes s t h
        exact (ih (hround.mono n.le_succ)).ne t (by omega)
      · exact fun he => nomatch he

end Measure

end Proc
