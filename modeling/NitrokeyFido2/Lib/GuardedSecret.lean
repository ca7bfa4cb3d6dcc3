import Mathlib.Tactic

/-!
A secret that may be guessed only so often.

Two counters bound the wrong guesses: `total` over the whole life of the
secret, `boot` within one power-up. A right guess restores both, a power-up
restores `boot`. The machine is a partial function on labels, so a label
sequence is a run exactly when every guess was evaluated in a state that
allows it and had the outcome that the secret gives it.
-/

namespace GuardedSecret

/-- The secret, if one is set, and the guesses left. -/
structure State (S : Type) (maxTotal maxBoot : ℕ) where
  secret : Option S
  total : ℕ
  boot : ℕ
  total_le : total ≤ maxTotal
  boot_le : boot ≤ maxBoot

inductive Label (S G : Type)
  | silent
  | hit (g : G)
  | miss (g : G)
  | set (s : S)
  | change (g : G) (s : S)
  | reboot

variable {S G : Type} {maxTotal maxBoot : ℕ}

namespace State

@[ext] theorem ext {s t : State S maxTotal maxBoot} (h₁ : s.secret = t.secret)
    (h₂ : s.total = t.total) (h₃ : s.boot = t.boot) : s = t := by
  cases s
  cases t
  simp_all

def initial : State S maxTotal maxBoot := ⟨none, maxTotal, maxBoot, le_refl _, le_refl _⟩

/-- Guesses are still evaluated. -/
def Open (s : State S maxTotal maxBoot) : Prop := 0 < s.total ∧ 0 < s.boot

instance (s : State S maxTotal maxBoot) : Decidable s.Open :=
  inferInstanceAs (Decidable (0 < s.total ∧ 0 < s.boot))

def restored (s : State S maxTotal maxBoot) (secret : Option S) : State S maxTotal maxBoot :=
  { s with secret := secret, total := maxTotal, boot := maxBoot, total_le := le_refl _,
           boot_le := le_refl _ }

def missed (s : State S maxTotal maxBoot) : State S maxTotal maxBoot :=
  { s with
    total := s.total - 1
    boot := s.boot - 1
    total_le := le_trans (Nat.sub_le _ _) s.total_le
    boot_le := le_trans (Nat.sub_le _ _) s.boot_le }

variable (agree : S → G → Bool)

/-- The set secret agrees with the guess. -/
def Accepts (s : State S maxTotal maxBoot) (g : G) : Prop := s.secret.any (agree · g) = true

/-- There is a secret, and it does not agree with the guess. -/
def Rejects (s : State S maxTotal maxBoot) (g : G) : Prop :=
  s.secret.any (fun p => !agree p g) = true

instance (s : State S maxTotal maxBoot) (g : G) : Decidable (s.Accepts agree g) :=
  inferInstanceAs (Decidable (_ = true))

instance (s : State S maxTotal maxBoot) (g : G) : Decidable (s.Rejects agree g) :=
  inferInstanceAs (Decidable (_ = true))

/-- One step; `none` when the label is not possible. -/
def step (s : State S maxTotal maxBoot) : Label S G → Option (State S maxTotal maxBoot)
  | .silent => some s
  | .hit g => if s.Open ∧ s.Accepts agree g then some (s.restored s.secret) else none
  | .miss g => if s.Open ∧ s.Rejects agree g then some s.missed else none
  | .set p => if s.Open ∧ s.secret = none then some { s with secret := some p } else none
  | .change g p => if s.Open ∧ s.Accepts agree g then some (s.restored (some p)) else none
  | .reboot => some { s with boot := maxBoot, boot_le := le_refl _ }

/-- Several steps. -/
def run (s : State S maxTotal maxBoot) : List (Label S G) → Option (State S maxTotal maxBoot)
  | [] => some s
  | l :: ls => (s.step agree l).bind fun t => run t ls

@[simp] theorem run_nil (s : State S maxTotal maxBoot) : s.run agree [] = some s := rfl

theorem run_cons {s t : State S maxTotal maxBoot} {l : Label S G} {ls : List (Label S G)} :
    s.run agree (l :: ls) = some t ↔ ∃ u, s.step agree l = some u ∧ u.run agree ls = some t := by
  rw [run, Option.bind_eq_some_iff]

theorem run_append {s t : State S maxTotal maxBoot} {ls ms : List (Label S G)} :
    s.run agree (ls ++ ms) = some t ↔
      ∃ u, s.run agree ls = some u ∧ u.run agree ms = some t := by
  induction ls generalizing s with
  | nil => simp
  | cons l ls ih =>
      rw [List.cons_append, run_cons]
      constructor
      · rintro ⟨u, hu, hrest⟩
        obtain ⟨v, hv, hms⟩ := ih.mp hrest
        exact ⟨v, (run_cons agree).mpr ⟨u, hu, hv⟩, hms⟩
      · rintro ⟨v, hv, hms⟩
        obtain ⟨u, hu, hrest⟩ := (run_cons agree).mp hv
        exact ⟨u, hu, ih.mpr ⟨v, hrest, hms⟩⟩

end State

/-! ### Counting wrong guesses -/

def Label.isMiss : Label S G → Bool
  | .miss _ => true
  | _ => false

/-- The label evaluates a guess that agrees. -/
def Label.isMatch : Label S G → Bool
  | .hit _ => true
  | .change _ _ => true
  | _ => false

def Label.isReboot : Label S G → Bool
  | .reboot => true
  | _ => false

variable {agree : S → G → Bool}

/-- Without a match, every wrong guess is paid for from `total`. -/
theorem total_add_misses {s t : State S maxTotal maxBoot} {ls : List (Label S G)}
    (h : s.run agree ls = some t) (hno : ∀ l ∈ ls, l.isMatch = false) :
    t.total + ls.countP Label.isMiss = s.total := by
  induction ls generalizing s with
  | nil =>
      rw [State.run_nil, Option.some_inj] at h
      simp [h]
  | cons l ls ih =>
      obtain ⟨u, hu, hrest⟩ := (State.run_cons agree).mp h
      have htail := ih hrest fun x hx => hno x (List.mem_cons_of_mem l hx)
      have hhead := hno l List.mem_cons_self
      rw [List.countP_cons]
      cases l with
      | hit g => exact absurd hhead (by simp [Label.isMatch])
      | change g p => exact absurd hhead (by simp [Label.isMatch])
      | silent =>
          rw [State.step, Option.some_inj] at hu
          simpa [Label.isMiss, ← hu] using htail
      | reboot =>
          rw [State.step, Option.some_inj] at hu
          simpa [Label.isMiss, ← hu] using htail
      | set p =>
          rw [State.step, Option.ite_none_right_eq_some, Option.some_inj] at hu
          simpa [Label.isMiss, ← hu.2] using htail
      | miss g =>
          rw [State.step, Option.ite_none_right_eq_some, Option.some_inj] at hu
          obtain ⟨⟨⟨htotal, -⟩, -⟩, rfl⟩ := hu
          simp only [State.missed] at htail
          simp only [Label.isMiss, if_true]
          omega

/-- Without a match and a power-up, every wrong guess is paid for from
`boot`. -/
theorem boot_add_misses {s t : State S maxTotal maxBoot} {ls : List (Label S G)}
    (h : s.run agree ls = some t)
    (hno : ∀ l ∈ ls, l.isMatch = false ∧ l.isReboot = false) :
    t.boot + ls.countP Label.isMiss = s.boot := by
  induction ls generalizing s with
  | nil =>
      rw [State.run_nil, Option.some_inj] at h
      simp [h]
  | cons l ls ih =>
      obtain ⟨u, hu, hrest⟩ := (State.run_cons agree).mp h
      have htail := ih hrest fun x hx => hno x (List.mem_cons_of_mem l hx)
      have hhead := hno l List.mem_cons_self
      rw [List.countP_cons]
      cases l with
      | hit g => exact absurd hhead.1 (by simp [Label.isMatch])
      | change g p => exact absurd hhead.1 (by simp [Label.isMatch])
      | reboot => exact absurd hhead.2 (by simp [Label.isReboot])
      | silent =>
          rw [State.step, Option.some_inj] at hu
          simpa [Label.isMiss, ← hu] using htail
      | set p =>
          rw [State.step, Option.ite_none_right_eq_some, Option.some_inj] at hu
          simpa [Label.isMiss, ← hu.2] using htail
      | miss g =>
          rw [State.step, Option.ite_none_right_eq_some, Option.some_inj] at hu
          obtain ⟨⟨⟨-, hboot⟩, -⟩, rfl⟩ := hu
          simp only [State.missed] at htail
          simp only [Label.isMiss, if_true]
          omega

/-- In any stretch of a run without a match, at most `maxTotal` guesses are
wrong. -/
theorem misses_le_maxTotal {s t : State S maxTotal maxBoot} {pre seg post : List (Label S G)}
    (h : s.run agree (pre ++ seg ++ post) = some t) (hno : ∀ l ∈ seg, l.isMatch = false) :
    seg.countP Label.isMiss ≤ maxTotal := by
  obtain ⟨v, hv, -⟩ := (State.run_append agree).mp h
  obtain ⟨u, -, hseg⟩ := (State.run_append agree).mp hv
  have hpaid := total_add_misses hseg hno
  have hbound := u.total_le
  omega

/-- In any stretch of a run without a match and a power-up, at most `maxBoot`
guesses are wrong. -/
theorem misses_le_maxBoot {s t : State S maxTotal maxBoot} {pre seg post : List (Label S G)}
    (h : s.run agree (pre ++ seg ++ post) = some t)
    (hno : ∀ l ∈ seg, l.isMatch = false ∧ l.isReboot = false) :
    seg.countP Label.isMiss ≤ maxBoot := by
  obtain ⟨v, hv, -⟩ := (State.run_append agree).mp h
  obtain ⟨u, -, hseg⟩ := (State.run_append agree).mp hv
  have hpaid := boot_add_misses hseg hno
  have hbound := u.boot_le
  omega

/-- Once no guess is left, nothing happens but power-ups. -/
theorem run_of_not_open {s t : State S maxTotal maxBoot} {l : Label S G}
    (hs : ¬ s.Open) (h : s.step agree l = some t) :
    (∃ b hb, t = { s with boot := b, boot_le := hb }) ∧
      (l.isReboot = false → t = s) := by
  cases l with
  | silent =>
      rw [State.step, Option.some_inj] at h
      subst h
      exact ⟨⟨s.boot, s.boot_le, rfl⟩, fun _ => rfl⟩
  | reboot =>
      rw [State.step, Option.some_inj] at h
      subst h
      exact ⟨⟨maxBoot, le_refl _, rfl⟩, fun hr => absurd hr (by simp [Label.isReboot])⟩
  | hit g =>
      rw [State.step, Option.ite_none_right_eq_some] at h
      exact absurd h.1.1 hs
  | miss g =>
      rw [State.step, Option.ite_none_right_eq_some] at h
      exact absurd h.1.1 hs
  | set p =>
      rw [State.step, Option.ite_none_right_eq_some] at h
      exact absurd h.1.1 hs
  | change g p =>
      rw [State.step, Option.ite_none_right_eq_some] at h
      exact absurd h.1.1 hs

end GuardedSecret
