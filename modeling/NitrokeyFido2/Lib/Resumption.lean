import NitrokeyFido2.Lib.Proc

/-!
Programs that are suspended while they wait for their environment.

A program over a state `σ` either returns or hands its state to the
environment together with a call, and goes on with the answer and with the
state the environment gives back. That state may have changed: this is how a
program is modelled whose caller runs other work while it waits. `Prog` is
the tree of such suspensions.

When nothing happens in between, a program under fixed answers is an ordinary
procedure on the state; `Routine.answered` is that procedure, and it commutes with
all the ways a routine is put together.
-/

namespace Resumption

/-- A program making calls `c : C` answered in `R c`, over a state `σ`. -/
inductive Prog (C : Type) (R : C → Type) (σ : Type) (α : Type) : Type
  | ret (a : α)
  | call (c : C) (s : σ) (k : R c → σ → Prog C R σ α)

variable {C : Type} {R : C → Type} {σ ε α β γ : Type}

/-- Sequencing of programs. -/
def Prog.bind : Prog C R σ α → (α → Prog C R σ β) → Prog C R σ β
  | .ret a, f => f a
  | .call c s k, f => .call c s fun r t => (k r t).bind f

/-- The result under an environment that answers by `h` and leaves the state
alone. -/
def Prog.answer (h : (c : C) → R c) : Prog C R σ α → α
  | .ret a => a
  | .call c s k => (k (h c) s).answer h

theorem Prog.answer_bind (h : (c : C) → R c) (p : Prog C R σ α) (f : α → Prog C R σ β) :
    (p.bind f).answer h = (f (p.answer h)).answer h := by
  induction p with
  | ret a => rfl
  | call c s k ih => exact ih (h c) s

/-- A computation over `σ` that may wait and may stop early. -/
def Routine (C : Type) (R : C → Type) (σ ε α : Type) : Type :=
  σ → Prog C R σ (Except ε α × σ)

namespace Routine

instance : Monad (Routine C R σ ε) where
  pure a := fun s => .ret (.ok a, s)
  bind m f := fun s => (m s).bind fun
    | (.ok a, t) => f a t
    | (.error e, t) => .ret (.error e, t)

/-- A procedure that does not wait. -/
def lift (m : Proc σ ε α) : Routine C R σ ε α := fun s => .ret (m s)

instance : MonadLift (Proc σ ε) (Routine C R σ ε) := ⟨lift⟩

/-- Make a call. -/
def perform (c : C) : Routine C R σ ε (R c) := fun s => .call c s fun r t => .ret (.ok r, t)

theorem get_bind (f : σ → Routine C R σ ε α) (s : σ) :
    ((liftM (Proc.get : Proc σ ε σ) : Routine C R σ ε σ) >>= f) s = f s s := rfl

/-- The routine as a procedure, under fixed answers and nothing happening while
it waits. -/
def answered (h : (c : C) → R c) (m : Routine C R σ ε α) : Proc σ ε α :=
  ⟨fun s => (m s).answer h⟩

section Answered

variable (h : (c : C) → R c)

@[simp] theorem answered_pure (a : α) :
    answered h (pure a : Routine C R σ ε α) = pure a := rfl

@[simp] theorem answered_lift (m : Proc σ ε α) :
    answered h (lift m : Routine C R σ ε α) = m := rfl

@[simp] theorem answered_liftM (m : Proc σ ε α) :
    answered h (liftM m : Routine C R σ ε α) = m := rfl

@[simp] theorem answered_perform (c : C) :
    answered h (perform c : Routine C R σ ε (R c)) = pure (h c) := rfl

@[simp] theorem answered_bind (m : Routine C R σ ε α) (f : α → Routine C R σ ε β) :
    answered h (m >>= f) = answered h m >>= fun a => answered h (f a) := by
  ext1
  funext s
  show ((m s).bind _).answer h = _
  rw [Prog.answer_bind, Proc.bind_apply]
  show _ = match (m s).answer h with
    | (.ok a, t) => answered h (f a) t
    | (.error e, t) => (.error e, t)
  rcases (m s).answer h with ⟨_ | _, _⟩ <;> rfl

@[simp] theorem answered_ite (c : Prop) [Decidable c] (m n : Routine C R σ ε α) :
    answered h (if c then m else n) = if c then answered h m else answered h n := by
  split <;> rfl

end Answered

end Routine

/-! ### A part of a larger state -/

section Zoom

variable {τ : Type} (part : τ → σ) (put : τ → σ → τ)

/-- A program on a part of a larger state. While it waits, the environment has
all of that state. -/
def Prog.zoom : τ → Prog C R σ (α × σ) → Prog C R τ (α × τ)
  | t, .ret (a, s) => .ret (a, put t s)
  | t, .call c s k => .call c (put t s) fun r t' => (k r (part t')).zoom t'

/-- A routine on a part of a larger state. -/
def Routine.zoom (m : Routine C R σ ε α) : Routine C R τ ε α := fun t => (m (part t)).zoom part put t

variable {part put}

theorem Prog.answer_zoom (hpart : ∀ t s, part (put t s) = s)
    (hput : ∀ t s s', put (put t s) s' = put t s') (h : (c : C) → R c) (t : τ)
    (p : Prog C R σ (α × σ)) :
    (p.zoom part put t).answer h = ((p.answer h).1, put t (p.answer h).2) := by
  induction p generalizing t with
  | ret a => rfl
  | call c s k ih =>
      show ((k (h c) (part (put t s))).zoom part put (put t s)).answer h = _
      rw [hpart, ih, hput]
      rfl

theorem Routine.answered_zoom (hpart : ∀ t s, part (put t s) = s)
    (hput : ∀ t s s', put (put t s) s' = put t s') (h : (c : C) → R c)
    (m : Routine C R σ ε α) :
    (m.zoom part put).answered h = Proc.zoom part put (m.answered h) := by
  ext1
  funext t
  exact Prog.answer_zoom hpart hput h t (m (part t))

end Zoom

namespace Routine

/-! ### Frames -/

/-- Whatever the answers and the outcome, the state after is related to the
state before when nothing happens while the routine waits. -/
class Keeps (S : σ → σ → Prop) (m : Routine C R σ ε α) : Prop where
  answered : ∀ h, Proc.Keeps S (Routine.answered h m)

section Frame

variable {S : σ → σ → Prop}

instance Keeps.ite (c : Prop) [Decidable c] {m n : Routine C R σ ε α} [Keeps S m] [Keeps S n] :
    Keeps S (if c then m else n) := by
  split <;> infer_instance

instance Keeps.lift {m : Proc σ ε α} [hm : Proc.Keeps S m] :
    Keeps S (lift m : Routine C R σ ε α) := ⟨fun _ => hm⟩

instance Keeps.liftM {m : Proc σ ε α} [hm : Proc.Keeps S m] :
    Keeps S (liftM m : Routine C R σ ε α) := ⟨fun _ => hm⟩

variable [IsPreorder σ S]

instance Keeps.pure (a : α) : Keeps S (Pure.pure a : Routine C R σ ε α) :=
  ⟨fun _ => Proc.Keeps.pure a⟩

instance Keeps.perform (c : C) : Keeps S (perform c : Routine C R σ ε (R c)) :=
  ⟨fun h => Proc.Keeps.pure (h c)⟩

instance Keeps.bind {m : Routine C R σ ε α} {f : α → Routine C R σ ε β} [hm : Keeps S m]
    [hf : ∀ a, Keeps S (f a)] : Keeps S (m >>= f) := by
  constructor
  intro h
  rw [answered_bind]
  have hmh := hm.answered h
  have hfh := fun a => (hf a).answered h
  infer_instance

theorem Keeps.seq {m : Routine C R σ ε α} {f : α → Routine C R σ ε β} (hm : Keeps S m)
    (hf : ∀ a, Keeps S (f a)) : Keeps S (m >>= f) := Keeps.bind

end Frame

/-! ### Stops that do not occur -/

/-- Under no answers the routine stops like this. -/
class Never (code : ε) (m : Routine C R σ ε α) : Prop where
  answered : ∀ h, Proc.Never code (Routine.answered h m)

section Never

variable {code : ε}

instance Never.ite (c : Prop) [Decidable c] {m n : Routine C R σ ε α} [Never code m]
    [Never code n] : Never code (if c then m else n) := by
  split <;> infer_instance

instance Never.liftM {m : Proc σ ε α} [hm : Proc.Never code m] :
    Never code (liftM m : Routine C R σ ε α) := ⟨fun _ => hm⟩

instance Never.pure (a : α) : Never code (Pure.pure a : Routine C R σ ε α) :=
  ⟨fun _ => Proc.Never.pure a⟩

instance Never.perform (c : C) : Never code (perform c : Routine C R σ ε (R c)) :=
  ⟨fun h => Proc.Never.pure (h c)⟩

instance Never.bind {m : Routine C R σ ε α} {f : α → Routine C R σ ε β} [hm : Never code m]
    [hf : ∀ a, Never code (f a)] : Never code (m >>= f) := by
  constructor
  intro h
  rw [answered_bind]
  have hmh := hm.answered h
  have hfh := fun a => (hf a).answered h
  infer_instance

theorem Never.seq {m : Routine C R σ ε α} {f : α → Routine C R σ ε β} (hm : Never code m)
    (hf : ∀ a, Never code (f a)) : Never code (m >>= f) := Never.bind

/-- Only the values count that the first routine can return. -/
theorem Never.bind_of {P : α → Prop} {m : Routine C R σ ε α} {f : α → Routine C R σ ε β}
    (hm : Never code m) (hP : ∀ h s a t, Routine.answered h m s = (.ok a, t) → P a)
    (hf : ∀ a, P a → Never code (f a)) : Never code (m >>= f) := by
  constructor
  intro h
  rw [answered_bind]
  exact Proc.Never.bind_of (hm.answered h) (hP h) fun a ha => (hf a ha).answered h

end Never

/-! ### Outcomes -/

section Ends

open Proc (Ends)

variable {h : (c : C) → R c} {s : σ} {Q : Except ε β → σ → Prop}

theorem ends_seq {m : Routine C R σ ε α} {f : α → Routine C R σ ε β} {P : Except ε α → σ → Prop}
    (hm : Ends (answered h m) s P) (hok : ∀ a t, P (.ok a) t → Ends (answered h (f a)) t Q)
    (herr : ∀ e t, P (.error e) t → Q (.error e) t) : Ends (answered h (m >>= f)) s Q := by
  rw [answered_bind]
  exact hm.seq hok herr

/-- A step that keeps the relation, before one that does so when it stops. -/
theorem ends_error_seq {S : σ → σ → Prop} [IsPreorder σ S] {m : Routine C R σ ε α}
    {f : α → Routine C R σ ε β} (hm : Keeps S m)
    (hf : ∀ a t, Ends (answered h (f a)) t fun r u => ∀ e, r = .error e → S t u) :
    Ends (answered h (m >>= f)) s fun r t => ∀ e, r = .error e → S s t := by
  refine ends_seq (Ends.keeps (hm.answered h)) (fun a t ht => ?_) fun e t ht _ _ => ht
  exact (hf a t).mono fun r u hu e he => trans_of S ht (hu e he)

theorem ends_liftM {m : Proc σ ε β} (hm : Ends m s Q) :
    Ends (answered h (liftM m : Routine C R σ ε β)) s Q := hm

theorem ends_get_bind {f : σ → Routine C R σ ε β} (hf : Ends (answered h (f s)) s Q) :
    Ends (answered h (liftM (Proc.get : Proc σ ε σ) >>= f)) s Q := by
  rw [answered_bind, answered_liftM]
  exact .get_bind hf

end Ends

end Routine

end Resumption
