import Mathlib.Tactic

/-!
Stateful computations that may stop early.

`Proc σ ε α` reads and writes a state `σ` and ends with a value or with a
stop `ε`; the state it reached is kept either way, as in a C function that
has written to globals before it returns an error code.

Three ways of reasoning are provided. A procedure that is known to have
succeeded is taken apart with `bind_ok` and its companions, one equation per
step. A frame condition, a reflexive and transitive relation between the
states before and after, is put together with `Keeps`, which does not look at
the outcome at all. What lies between, a condition on the outcome of a procedure
that may have succeeded or not, is `Ends`.
-/

universe u v w

/-- A computation over a state `σ` that ends with a value or stops with an
`ε`. -/
@[ext] structure Proc (σ : Type u) (ε : Type v) (α : Type w) : Type (max u v w) where
  run : σ → Except ε α × σ

namespace Proc

instance {σ : Type u} {ε : Type v} {α : Type w} :
    CoeFun (Proc σ ε α) fun _ => σ → Except ε α × σ := ⟨run⟩

variable {σ ε α β : Type}

instance : Monad (Proc σ ε : Type → Type) where
  pure a := ⟨fun s => (.ok a, s)⟩
  bind m f := ⟨fun s =>
    match m s with
    | (.ok a, s') => f a s'
    | (.error e, s') => (.error e, s')⟩

/-- Stop. -/
def stop (e : ε) : Proc σ ε α := ⟨fun s => (.error e, s)⟩

/-- The current state. -/
def get : Proc σ ε σ := ⟨fun s => (.ok s, s)⟩

/-- Update the state. -/
def modify (f : σ → σ) : Proc σ ε Unit := ⟨fun s => (.ok (), f s)⟩

/-- Read something off the state. -/
def gets (f : σ → α) : Proc σ ε α := ⟨fun s => (.ok (f s), s)⟩

/-- Stop if the condition holds. -/
def stopIf (c : Prop) [Decidable c] (e : ε) : Proc σ ε Unit :=
  if c then stop e else pure ()

/-- The outcome of a pure computation. -/
def ofExcept (r : Except ε α) : Proc σ ε α := ⟨fun s => (r, s)⟩

/-- Stop differently. -/
def mapStop (f : ε → ε) (m : Proc σ ε α) : Proc σ ε α := ⟨fun s =>
  match m s with
  | (.ok a, s') => (.ok a, s')
  | (.error e, s') => (.error (f e), s')⟩

/-- Run a procedure on a part of the state. -/
def zoom {τ : Type} (part : σ → τ) (put : σ → τ → σ) (m : Proc τ ε α) : Proc σ ε α :=
  ⟨fun s => ((m (part s)).1, put s (m (part s)).2)⟩

/-! ### What a successful procedure did -/

theorem pure_apply (a : α) (s : σ) : (pure a : Proc σ ε α) s = (.ok a, s) := rfl

@[simp] theorem pure_ok {a b : α} {s s' : σ} :
    (pure a : Proc σ ε α) s = (.ok b, s') ↔ a = b ∧ s = s' := by
  rw [pure_apply, Prod.mk.injEq, Except.ok.injEq]

theorem bind_apply (m : Proc σ ε α) (f : α → Proc σ ε β) (s : σ) :
    (m >>= f) s =
      match m s with
      | (.ok a, s') => f a s'
      | (.error e, s') => (.error e, s') := rfl

theorem bind_of_ok {m : Proc σ ε α} {f : α → Proc σ ε β} {s t : σ} {a : α}
    (h : m s = (.ok a, t)) : (m >>= f) s = f a t := by
  rw [bind_apply, h]

/-- What comes after a step matters in the states that the step ends in. -/
theorem bind_congr_of_ok {m : Proc σ ε α} {f g : α → Proc σ ε β} {s : σ}
    (h : ∀ a t, m s = (.ok a, t) → f a t = g a t) : (m >>= f) s = (m >>= g) s := by
  rw [bind_apply, bind_apply]
  rcases hm : m s with ⟨e | a, t⟩
  · rfl
  · exact h a t hm

theorem bind_of_error {m : Proc σ ε α} {f : α → Proc σ ε β} {s t : σ} {e : ε}
    (h : m s = (.error e, t)) : (m >>= f) s = (.error e, t) := by
  rw [bind_apply, h]

instance : LawfulMonad (Proc σ ε : Type → Type) :=
  LawfulMonad.mk' _
    (by
      intro α m
      ext1
      funext s
      show (m >>= pure) s = m s
      rw [bind_apply]
      rcases m s with ⟨_ | _, _⟩ <;> rfl)
    (fun _ _ => rfl)
    (by
      intro α β γ m f g
      ext1
      funext s
      show (m >>= f >>= g) s = (m >>= fun a => f a >>= g) s
      rw [bind_apply, bind_apply, bind_apply]
      rcases m s with ⟨_ | _, _⟩ <;> rfl)

@[simp] theorem get_bind (f : σ → Proc σ ε β) (s : σ) :
    ((get : Proc σ ε σ) >>= f) s = f s s := rfl

theorem bind_ok {m : Proc σ ε α} {f : α → Proc σ ε β} {b : β} {s s' : σ} :
    (m >>= f) s = (.ok b, s') ↔ ∃ a t, m s = (.ok a, t) ∧ f a t = (.ok b, s') := by
  rw [bind_apply]
  cases h : m s with
  | mk r t =>
      cases r with
      | ok a =>
          constructor
          · intro hf
            exact ⟨a, t, rfl, hf⟩
          · rintro ⟨a', t', h', hf⟩
            rw [Prod.mk.injEq, Except.ok.injEq] at h'
            obtain ⟨rfl, rfl⟩ := h'
            exact hf
      | error e => simp

@[simp] theorem stop_ok {e : ε} {a : α} {s s' : σ} :
    (stop e : Proc σ ε α) s = (.ok a, s') ↔ False := by
  simp [stop]

@[simp] theorem get_ok {s t s' : σ} :
    (get : Proc σ ε σ) s = (.ok t, s') ↔ s = t ∧ s = s' := by
  simp [get]

@[simp] theorem modify_ok {f : σ → σ} {u : Unit} {s s' : σ} :
    (modify f : Proc σ ε Unit) s = (.ok u, s') ↔ f s = s' := by
  simp [modify]

@[simp] theorem gets_ok {f : σ → α} {a : α} {s s' : σ} :
    (gets f : Proc σ ε α) s = (.ok a, s') ↔ f s = a ∧ s = s' := by
  simp [gets]

@[simp] theorem stopIf_ok {c : Prop} [Decidable c] {e : ε} {u : Unit} {s s' : σ} :
    (stopIf c e : Proc σ ε Unit) s = (.ok u, s') ↔ ¬ c ∧ s = s' := by
  unfold stopIf
  by_cases h : c
  · simp [h]
  · simp [h]

@[simp] theorem ofExcept_ok {r : Except ε α} {a : α} {s s' : σ} :
    (ofExcept r : Proc σ ε α) s = (.ok a, s') ↔ r = .ok a ∧ s = s' := by
  simp [ofExcept]

@[simp] theorem mapStop_ok {f : ε → ε} {m : Proc σ ε α} {a : α} {s s' : σ} :
    (mapStop f m) s = (.ok a, s') ↔ m s = (.ok a, s') := by
  show (match m s with
    | (.ok a, s') => (Except.ok a, s')
    | (.error e, s') => (.error (f e), s')) = _ ↔ _
  rcases m s with ⟨_ | _, _⟩ <;> simp

theorem zoom_ok {τ : Type} {part : σ → τ} {put : σ → τ → σ} {m : Proc τ ε α} {a : α}
    {s s' : σ} :
    (zoom part put m) s = (.ok a, s') ↔ ∃ t, m (part s) = (.ok a, t) ∧ put s t = s' := by
  simp only [zoom, Prod.mk.injEq]
  constructor
  · rintro ⟨h₁, h₂⟩
    exact ⟨(m (part s)).2, by rw [← h₁], h₂⟩
  · rintro ⟨t, h₁, h₂⟩
    rw [h₁]
    exact ⟨rfl, h₂⟩

/-! ### What a procedure cannot have changed -/

/-- Whatever the outcome, the state after is related to the state before. The
frame of a composite procedure is found from the frames of its parts. -/
class Keeps (R : σ → σ → Prop) (m : Proc σ ε α) : Prop where
  state : ∀ s, R s (m s).2

section Frame

variable {R : σ → σ → Prop}

theorem Keeps.apply {m : Proc σ ε α} (hm : Keeps R m) {r : Except ε α} {s s' : σ}
    (h : m s = (r, s')) : R s s' := by
  have hs := hm.state s
  rw [h] at hs
  exact hs

theorem Keeps.mono {S : σ → σ → Prop} {m : Proc σ ε α} (h : ∀ s t, R s t → S s t)
    (hm : Keeps R m) : Keeps S m :=
  ⟨fun s => h s _ (hm.state s)⟩

theorem Keeps.modify {f : σ → σ} (h : ∀ s, R s (f s)) :
    Keeps R (Proc.modify f : Proc σ ε Unit) := ⟨h⟩

theorem Keeps.zoom {τ : Type} {part : σ → τ} {put : σ → τ → σ} {m : Proc τ ε α}
    (h : ∀ s t, R s (put s t)) : Keeps R (Proc.zoom part put m) :=
  ⟨fun s => h s _⟩

/-- What a part keeps, the whole keeps. -/
theorem Keeps.zoom_of {τ : Type} {S : τ → τ → Prop} {part : σ → τ} {put : σ → τ → σ}
    {m : Proc τ ε α} (hm : Keeps S m) (h : ∀ s t, S (part s) t → R s (put s t)) :
    Keeps R (Proc.zoom part put m) :=
  ⟨fun s => h s _ (hm.state (part s))⟩

instance Keeps.mapStop {f : ε → ε} {m : Proc σ ε α} [hm : Keeps R m] :
    Keeps R (Proc.mapStop f m) := by
  constructor
  intro s
  have hms := hm.state s
  show R s (match m s with
    | (.ok a, s') => (Except.ok a, s')
    | (.error e, s') => (.error (f e), s')).2
  rcases h : m s with ⟨_ | _, _⟩ <;> rw [h] at hms <;> exact hms

instance Keeps.ite (c : Prop) [Decidable c] {m n : Proc σ ε α} [Keeps R m] [Keeps R n] :
    Keeps R (if c then m else n) := by
  split <;> infer_instance

variable [IsPreorder σ R]

instance Keeps.pure (a : α) : Keeps R (Pure.pure a : Proc σ ε α) := ⟨refl_of R⟩

instance Keeps.stop (e : ε) : Keeps R (Proc.stop e : Proc σ ε α) := ⟨refl_of R⟩

instance Keeps.get : Keeps R (Proc.get : Proc σ ε σ) := ⟨refl_of R⟩

instance Keeps.gets (f : σ → α) : Keeps R (Proc.gets f : Proc σ ε α) := ⟨refl_of R⟩

instance Keeps.ofExcept (r : Except ε α) : Keeps R (Proc.ofExcept r : Proc σ ε α) :=
  ⟨refl_of R⟩

instance Keeps.stopIf (c : Prop) [Decidable c] (e : ε) :
    Keeps R (Proc.stopIf c e : Proc σ ε Unit) := by
  unfold Proc.stopIf
  infer_instance

instance Keeps.bind {m : Proc σ ε α} {f : α → Proc σ ε β} [hm : Keeps R m]
    [hf : ∀ a, Keeps R (f a)] : Keeps R (m >>= f) := by
  constructor
  intro s
  have hms := hm.state s
  rw [bind_apply]
  rcases h : m s with ⟨e | a, t⟩ <;> rw [h] at hms
  · exact hms
  · exact trans_of R hms ((hf a).state t)

theorem Keeps.seq {m : Proc σ ε α} {f : α → Proc σ ε β} (hm : Keeps R m)
    (hf : ∀ a, Keeps R (f a)) : Keeps R (m >>= f) := Keeps.bind

/-- Only the values count that the first procedure can return. -/
theorem Keeps.bind_of {P : α → Prop} {m : Proc σ ε α} {f : α → Proc σ ε β} (hm : Keeps R m)
    (hP : ∀ s a t, m s = (.ok a, t) → P a) (hf : ∀ a, P a → Keeps R (f a)) : Keeps R (m >>= f) := by
  refine ⟨fun s => ?_⟩
  have hms := hm.state s
  rw [bind_apply]
  rcases h : m s with ⟨e | a, t⟩ <;> rw [h] at hms
  · exact hms
  · exact trans_of R hms ((hf a (hP s a t h)).state t)

end Frame

/-! ### Aspects of the state

A state is compared aspect by aspect, and a frame lists the aspects that a
procedure may change. -/

section Aspects

variable {ι : Type} (same : ι → σ → σ → Prop)

/-- Every aspect that is not listed is the same before and after. -/
def Unchanged (may : List ι) (s t : σ) : Prop := ∀ i, i ∉ may → same i s t

instance [h : ∀ i, IsPreorder σ (same i)] (may : List ι) : IsPreorder σ (Unchanged same may) where
  refl s i _ := (h i).refl s
  trans _ _ _ h₁ h₂ i hi := (h i).trans _ _ _ (h₁ i hi) (h₂ i hi)

theorem Unchanged.mono {may may' : List ι} {s t : σ} (h : Unchanged same may s t)
    (hsub : may ⊆ may') : Unchanged same may' s t :=
  fun i hi => h i fun hmem => hi (hsub hmem)

/-- The aspect is listed. -/
class May (may : List ι) (i : ι) : Prop where
  mem : i ∈ may

instance May.head (may : List ι) (i : ι) : May (i :: may) i := ⟨List.mem_cons_self⟩

instance May.tail (may : List ι) (i j : ι) [h : May may i] : May (j :: may) i :=
  ⟨List.mem_cons_of_mem j h.mem⟩

end Aspects

/-! ### Stops that do not occur -/

/-- The procedure never stops like this. Composite procedures are looked at part by
part, and a stop that is written out must be another one. -/
class Never (code : ε) (m : Proc σ ε α) : Prop where
  ne : ∀ s, (m s).1 ≠ .error code

section Never

variable {code : ε}

instance Never.pure (a : α) : Never code (Pure.pure a : Proc σ ε α) := ⟨fun _ h => nomatch h⟩

instance Never.get : Never code (Proc.get : Proc σ ε σ) := ⟨fun _ h => nomatch h⟩

instance Never.modify (f : σ → σ) : Never code (Proc.modify f : Proc σ ε Unit) :=
  ⟨fun _ h => nomatch h⟩

instance Never.stop (e : ε) [h : Fact (e ≠ code)] : Never code (Proc.stop e : Proc σ ε α) :=
  ⟨fun _ he => h.out (Except.error.inj he)⟩

instance Never.ite (c : Prop) [Decidable c] {m n : Proc σ ε α} [Never code m] [Never code n] :
    Never code (if c then m else n) := by
  split <;> infer_instance

theorem Never.cond {c : Prop} [Decidable c] {m n : Proc σ ε α} (hm : Never code m)
    (hn : Never code n) : Never code (if c then m else n) := Never.ite c

instance Never.stopIf (c : Prop) [Decidable c] (e : ε) [Fact (e ≠ code)] :
    Never code (Proc.stopIf c e : Proc σ ε Unit) := by
  unfold Proc.stopIf
  infer_instance

/-- Only the values count that the first procedure can return. -/
theorem Never.bind_of {P : α → Prop} {m : Proc σ ε α} {f : α → Proc σ ε β} (hm : Never code m)
    (hP : ∀ s a t, m s = (.ok a, t) → P a) (hf : ∀ a, P a → Never code (f a)) :
    Never code (m >>= f) := by
  refine ⟨fun s h => ?_⟩
  rw [bind_apply] at h
  rcases hr : m s with ⟨e | a, t⟩ <;> simp only [hr] at h
  · exact hm.ne s (by rw [hr, Except.error.inj h])
  · exact (hf a (hP s a t hr)).ne t h

instance Never.bind {m : Proc σ ε α} {f : α → Proc σ ε β} [hm : Never code m]
    [hf : ∀ a, Never code (f a)] : Never code (m >>= f) :=
  Never.bind_of (P := fun _ => True) hm (fun _ _ _ _ => trivial) fun a _ => hf a

theorem Never.seq {m : Proc σ ε α} {f : α → Proc σ ε β} (hm : Never code m)
    (hf : ∀ a, Never code (f a)) : Never code (m >>= f) := Never.bind

theorem Never.ofExcept {r : Except ε α} (h : r ≠ .error code) :
    Never code (Proc.ofExcept r : Proc σ ε α) := ⟨fun _ => h⟩

instance Never.zoom {τ : Type} {part : σ → τ} {put : σ → τ → σ} {m : Proc τ ε α}
    [hm : Never code m] : Never code (Proc.zoom part put m) := ⟨fun s => hm.ne (part s)⟩

instance Never.mapStop {f : ε → ε} {m : Proc σ ε α} [h : ∀ e, Fact (f e ≠ code)] :
    Never code (Proc.mapStop f m) := by
  refine ⟨fun s he => ?_⟩
  simp only [Proc.mapStop] at he
  rcases hr : m s with ⟨e | a, t⟩ <;> simp only [hr] at he
  · exact (h e).out (Except.error.inj he)
  · exact nomatch he

end Never

/-! ### Reading -/

/-- Whatever the outcome, the state is left as it was. -/
abbrev Reads (m : Proc σ ε α) : Prop := Keeps (· = ·) m

theorem Reads.eq {m : Proc σ ε α} (hm : Reads m) (s : σ) : (m s).2 = s := (hm.state s).symm

theorem Reads.keeps {m : Proc σ ε α} (hm : Reads m) {R : σ → σ → Prop} [IsPreorder σ R] :
    Keeps R m :=
  Keeps.mono (fun s t (h : s = t) => h ▸ refl_of R s) hm

/-- Behind a procedure that only reads, either nothing has happened yet or the
rest runs in the same state. -/
theorem Reads.bind_state {P : σ → Prop} {m : Proc σ ε α} {f : α → Proc σ ε β} {s : σ}
    (hm : Reads m) (hs : P s) (hf : ∀ a, m s = (.ok a, s) → P (f a s).2) : P ((m >>= f) s).2 := by
  have hms := hm.eq s
  rw [bind_apply]
  rcases h : m s with ⟨e | a, t⟩ <;> rw [h] at hms <;> subst hms
  · exact hs
  · exact hf a h

/-- What only reads behind a procedure does not change what the procedure did. -/
theorem bind_state_of_reads {m : Proc σ ε α} {f : α → Proc σ ε β} (s : σ)
    [hf : ∀ a, Reads (f a)] : ((m >>= f) s).2 = (m s).2 := by
  rw [bind_apply]
  rcases m s with ⟨e | a, t⟩
  · rfl
  · exact (hf a).eq t

/-! ### Outcomes -/

/-- How the procedure ends, started in this state. Unlike an equation about the
outcome, such a statement is taken apart along the procedure without anything
being computed. -/
def Ends (m : Proc σ ε α) (s : σ) (Q : Except ε α → σ → Prop) : Prop := Q (m s).1 (m s).2

section Ends

variable {m : Proc σ ε α} {f : α → Proc σ ε β} {s : σ} {P Q : Except ε α → σ → Prop}
  {Q' : Except ε β → σ → Prop}

theorem Ends.of_eq {r : Except ε α} {t : σ} (h : m s = (r, t)) (hQ : Q r t) : Ends m s Q := by
  unfold Ends
  rw [h]
  exact hQ

theorem Ends.elim {r : Except ε α} {t : σ} (hm : Ends m s Q) (h : m s = (r, t)) : Q r t := by
  unfold Ends at hm
  rwa [h] at hm

theorem Ends.mono (hm : Ends m s P) (h : ∀ r t, P r t → Q r t) : Ends m s Q := h _ _ hm

theorem Ends.and (hm : Ends m s P) (hm' : Ends m s Q) : Ends m s fun r t => P r t ∧ Q r t :=
  ⟨hm, hm'⟩

theorem Ends.seq (hm : Ends m s P) (hok : ∀ a t, P (.ok a) t → Ends (f a) t Q')
    (herr : ∀ e t, P (.error e) t → Q' (.error e) t) : Ends (m >>= f) s Q' := by
  unfold Ends at *
  rw [bind_apply]
  rcases hr : m s with ⟨e | a, t⟩ <;> rw [hr] at hm
  · exact herr e t hm
  · exact hok a t hm

/-- A step whose outcome is known. -/
theorem Ends.bind_ok {f : α → Proc σ ε β} {a : α} {t : σ} (hm : m s = (.ok a, t))
    (hf : Ends (f a) t Q') : Ends (m >>= f) s Q' := by
  unfold Ends
  rwa [bind_of_ok hm]

theorem Ends.get_bind {f : σ → Proc σ ε β} (h : Ends (f s) s Q') :
    Ends ((get : Proc σ ε σ) >>= f) s Q' := h

theorem Ends.pure {a : α} (h : Q (.ok a) s) : Ends (Pure.pure a) s Q := h

theorem Ends.stop {e : ε} (h : Q (.error e) s) : Ends (Proc.stop e) s Q := h

theorem Ends.modify {f : σ → σ} {Q : Except ε Unit → σ → Prop} (h : Q (.ok ()) (f s)) :
    Ends (Proc.modify f) s Q := h

theorem Ends.ite {c : Prop} [Decidable c] {n : Proc σ ε α} (hm : c → Ends m s Q)
    (hn : ¬ c → Ends n s Q) : Ends (if c then m else n) s Q := by
  split
  · exact hm ‹c›
  · exact hn ‹¬ c›

theorem Ends.stopIf {c : Prop} [Decidable c] {e : ε} {Q : Except ε Unit → σ → Prop}
    (hstop : c → Q (.error e) s) (hgo : ¬ c → Q (.ok ()) s) : Ends (Proc.stopIf c e) s Q :=
  Ends.ite (fun h => .stop (hstop h)) fun h => .pure (hgo h)

theorem Ends.keeps {R : σ → σ → Prop} [IsPreorder σ R] (hm : Keeps R m) :
    Ends m s fun _ t => R s t := hm.state s

theorem Ends.never {code : ε} (hm : Never code m) : Ends m s fun r _ => r ≠ .error code := hm.ne s

end Ends

/-! ### Two runs -/

section Alike

variable {R : σ → σ → Prop} {s s' : σ}

/-- From these two states, the procedures end with the same result, in states
that are related. -/
def Alike (R : σ → σ → Prop) (s s' : σ) (m m' : Proc σ ε α) : Prop :=
  (m s).1 = (m' s').1 ∧ R (m s).2 (m' s').2

theorem Alike.pure (h : R s s') (a : α) : Alike R s s' (Pure.pure a : Proc σ ε α) (Pure.pure a) :=
  ⟨rfl, h⟩

theorem Alike.get_bind {f f' : σ → Proc σ ε β} (h : Alike R s s' (f s) (f' s')) :
    Alike R s s' (get >>= f) (get >>= f') := h

theorem Alike.modify {f f' : σ → σ} (h : R (f s) (f' s')) :
    Alike R s s' (Proc.modify f : Proc σ ε Unit) (Proc.modify f') := ⟨rfl, h⟩

theorem Alike.bind {m m' : Proc σ ε α} {f f' : α → Proc σ ε β} (hm : Alike R s s' m m')
    (hf : ∀ a t t', m s = (.ok a, t) → R t t' → Alike R t t' (f a) (f' a)) :
    Alike R s s' (m >>= f) (m' >>= f') := by
  obtain ⟨hr, ht⟩ := hm
  unfold Alike
  rw [bind_apply, bind_apply]
  rcases hms : m s with ⟨e | a, t⟩ <;> rcases hms' : m' s' with ⟨e' | a', t'⟩ <;>
    rw [hms, hms'] at hr ht
  · exact ⟨congrArg Except.error (Except.error.inj hr), ht⟩
  · exact nomatch hr
  · exact nomatch hr
  · obtain rfl := Except.ok.inj hr
    exact hf a t t' hms ht

/-- A part of the state that is the same tells nothing of the rest. -/
theorem Alike.zoom {τ : Type} {part : σ → τ} {put : σ → τ → σ} (hpart : part s = part s')
    (hput : ∀ t, R (put s t) (put s' t)) (m : Proc τ ε α) :
    Alike R s s' (Proc.zoom part put m) (Proc.zoom part put m) := by
  unfold Alike Proc.zoom
  dsimp only
  rw [hpart]
  exact ⟨rfl, hput _⟩

end Alike

end Proc
