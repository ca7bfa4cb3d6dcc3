import NitrokeyFido2.Lib.Resumption

/-!
Handlers that are entered again while an earlier call of them waits.

A handler is a program that makes calls. Some calls are answered at once; the
others suspend the handler, and whoever waits for the answer may enter the
handler again, so that the suspended programs form a stack. When a nested
program returns, what it returned may end the wait of the program below it.

The rule is one of rely and guarantee. `Prog.Ensures I G A post p` says that
`p` hands over a state with `I` whenever it is suspended and ends with `post`,
provided that it gets back a state with `I` that is related by `G` to the one
it handed over, and an answer that `A` allows. When every entered program
keeps `I` and brings `G` about from its start to its end, then so does the
machine (`Nested.Ok`).
-/

namespace Resumption

variable {C : Type} {R : C → Type} {σ τ ε α β : Type}

/-! ### What a program ensures -/

section Ensures

variable (I : σ → Prop) (G : σ → σ → Prop) (A : σ → (c : C) → R c → Prop)

/-- The program hands over states with `I`, relies on `G` and on answers in
`A`, and ends with `post`. -/
def Prog.Ensures (post : α → Prop) : Prog C R σ α → Prop
  | .ret a => post a
  | .call c s k => I s ∧ ∀ r t, I t → G s t → A t c r → (k r t).Ensures post

variable {I G A}

theorem Prog.Ensures.mono {post post' : α → Prop} {p : Prog C R σ α} (hp : p.Ensures I G A post)
    (h : ∀ a, post a → post' a) : p.Ensures I G A post' := by
  induction p with
  | ret a => exact h a hp
  | call c s k ih => exact ⟨hp.1, fun r t ht hG hA => ih r t (hp.2 r t ht hG hA)⟩

theorem Prog.Ensures.bind {post : β → Prop} {p : Prog C R σ α} {f : α → Prog C R σ β}
    (hp : p.Ensures I G A fun a => (f a).Ensures I G A post) : (p.bind f).Ensures I G A post := by
  induction p with
  | ret a => exact hp
  | call c s k ih => exact ⟨hp.1, fun r t ht hG hA => ih r t (hp.2 r t ht hG hA)⟩

/-! ### Steps that keep a rule -/

/-- A step that keeps `I` and brings `G` about. -/
def Step (I : σ → Prop) (G : σ → σ → Prop) (s t : σ) : Prop := I s → I t ∧ G s t

instance [IsPreorder σ G] : IsPreorder σ (Step I G) where
  refl s hs := ⟨hs, refl_of G s⟩
  trans _ _ _ h₁ h₂ hs := ⟨(h₂ (h₁ hs).1).1, trans_of G (h₁ hs).2 (h₂ (h₁ hs).1).2⟩

/-- A program on a part of the state, when changing that part is a step. -/
theorem Prog.ensures_zoom [IsPreorder σ G] {part : σ → τ} {put : σ → τ → σ}
    (h : ∀ s t, Step I G s (put s t)) (p : Prog C R τ (α × τ)) (s : σ) (hs : I s) :
    (p.zoom part put s).Ensures I G A fun r => I r.2 ∧ G s r.2 := by
  induction p generalizing s with
  | ret a => exact h s a.2 hs
  | call c t k ih =>
      obtain ⟨ht, hG⟩ := h s t hs
      refine ⟨ht, fun r s' hs' hG' _ => ?_⟩
      refine (ih r (part s') s' hs').mono fun a ha => ⟨ha.1, ?_⟩
      exact trans_of G (trans_of G hG hG') ha.2

namespace Routine

variable {post : Except ε β × σ → Prop}

theorem ensures_bind {m : Routine C R σ ε α} {f : α → Routine C R σ ε β} {s : σ}
    (h : (m s).Ensures I G A fun r =>
      match r with
      | (.ok a, t) => (f a t).Ensures I G A post
      | (.error e, t) => post (.error e, t)) :
    ((m >>= f) s).Ensures I G A post := by
  refine Prog.Ensures.bind (h.mono fun r hr => ?_)
  rcases r with ⟨_ | _, _⟩ <;> exact hr

variable (I G A)

/-- Whatever happens while it waits, the routine keeps `I` and brings `G`
about. -/
class Respects (m : Routine C R σ ε α) : Prop where
  ensures : ∀ s, I s → (m s).Ensures I G A fun r => I r.2 ∧ G s r.2

variable {I G A}

instance Respects.ite (c : Prop) [Decidable c] {m n : Routine C R σ ε α} [Respects I G A m]
    [Respects I G A n] : Respects I G A (if c then m else n) := by
  split <;> infer_instance

theorem Respects.cond {c : Prop} [Decidable c] {m n : Routine C R σ ε α}
    (hm : Respects I G A m) (hn : Respects I G A n) : Respects I G A (if c then m else n) :=
  Respects.ite c

instance Respects.liftM {m : Proc σ ε α} [hm : Proc.Keeps (Step I G) m] :
    Respects I G A (liftM m : Routine C R σ ε α) := ⟨fun s hs => hm.state s hs⟩

/-- Behind a routine that respects the rule, another one may use it. -/
theorem ensures_seq {m : Routine C R σ ε α} {f : α → Routine C R σ ε β} {s : σ}
    [hm : Respects I G A m] (hs : I s)
    (herror : ∀ e t, I t → G s t → post (.error e, t))
    (hf : ∀ a t, I t → G s t → (f a t).Ensures I G A post) :
    ((m >>= f) s).Ensures I G A post := by
  refine ensures_bind ((hm.ensures s hs).mono fun r hr => ?_)
  rcases r with ⟨e | a, t⟩
  · exact herror e t hr.1 hr.2
  · exact hf a t hr.1 hr.2

variable [IsPreorder σ G]

instance Respects.pure (a : α) : Respects I G A (Pure.pure a : Routine C R σ ε α) :=
  ⟨fun s hs => ⟨hs, refl_of G s⟩⟩

instance Respects.bind {m : Routine C R σ ε α} {f : α → Routine C R σ ε β} [Respects I G A m]
    [hf : ∀ a, Respects I G A (f a)] : Respects I G A (m >>= f) := by
  refine ⟨fun s hs => ensures_seq hs (fun e t ht hG => ⟨ht, hG⟩) fun a t ht hG => ?_⟩
  exact ((hf a).ensures t ht).mono fun r hr => ⟨hr.1, trans_of G hG hr.2⟩

theorem Respects.seq {m : Routine C R σ ε α} {f : α → Routine C R σ ε β} (hm : Respects I G A m)
    (hf : ∀ a, Respects I G A (f a)) : Respects I G A (m >>= f) := Respects.bind

end Routine

end Ensures

/-! ### The machine -/

/-- A program that waits for the answer to a call. -/
structure Suspended (C : Type) (R : C → Type) (σ ε β : Type) where
  call : C
  resume : R call → σ → Prog C R σ (Except ε β × σ)

/-- Which calls are answered at once, and which wait ends by what a nested
program returned. -/
structure Scheduler (C : Type) (R : C → Type) (σ β : Type) where
  instant : (c : C) → σ → Option (R c × σ)
  interrupt : (c : C) → β → Option (R c)

/-- The state and the suspended programs, the innermost first. -/
structure Nested (C : Type) (R : C → Type) (σ ε β : Type) where
  state : σ
  stack : List (Suspended C R σ ε β)
  running : Bool

variable (S : Scheduler C R σ β)

/-- Go on until a call has to wait. -/
def Scheduler.advance : Prog C R σ α → Prog C R σ α
  | .ret a => .ret a
  | .call c s k =>
      match S.instant c s with
      | some (r, t) => advance (k r t)
      | none => .call c s k

/-- Run a program on top of the stack. -/
def Scheduler.run : List (Suspended C R σ ε β) → Prog C R σ (Except ε β × σ) → Nested C R σ ε β
  | [], p =>
      match S.advance p with
      | .call c s k => ⟨s, [⟨c, k⟩], true⟩
      | .ret (.ok _, s) => ⟨s, [], true⟩
      | .ret (.error _, s) => ⟨s, [], false⟩
  | f :: rest, p =>
      match S.advance p with
      | .call c s k => ⟨s, ⟨c, k⟩ :: f :: rest, true⟩
      | .ret (.error _, s) => ⟨s, [], false⟩
      | .ret (.ok b, s) =>
          match S.interrupt f.call b with
          | none => ⟨s, f :: rest, true⟩
          | some r => Scheduler.run rest (f.resume r s)

/-- Enter a program. -/
def Scheduler.enter (m : Nested C R σ ε β) (p : σ → Prog C R σ (Except ε β × σ)) :
    Nested C R σ ε β :=
  if m.running then S.run m.stack (p m.state) else m

/-- Answer the call that the innermost program waits for. -/
def Scheduler.answer (m : Nested C R σ ε β) (answer : (c : C) → Option (R c)) :
    Nested C R σ ε β :=
  match m.stack with
  | [] => m
  | f :: rest =>
      match answer f.call with
      | none => m
      | some r => if m.running then S.run rest (f.resume r m.state) else m

/-! ### The machine keeps what its programs ensure -/

section Ok

variable (I : σ → Prop) (G : σ → σ → Prop) (A : σ → (c : C) → R c → Prop) (D E : σ → Prop)

/-- A program that starts here keeps `I`, brings about `G` and returns a value
with `B`, or stops with `E`. -/
def Prog.Guards (B : β → Prop) (base : σ) (p : Prog C R σ (Except ε β × σ)) : Prop :=
  p.Ensures I G A fun r =>
    match r.1 with
    | .ok b => I r.2 ∧ G base r.2 ∧ B b
    | .error _ => E r.2

/-- The innermost program, interrupted by a value with `B` that was returned
behind this state, gets an answer that is allowed. -/
def Listens (B : β → Prop) (s : σ) : List (Suspended C R σ ε β) → Prop
  | [] => True
  | f :: _ => ∀ b r t, I t → G s t → B b → S.interrupt f.call b = some r → A t f.call r

variable {S I G A} in
theorem Listens.of_forall {B : β → Prop} (hA : ∀ t c r, A t c r) (s : σ)
    (stack : List (Suspended C R σ ε β)) : Listens S I G A B s stack := by
  cases stack with
  | nil => trivial
  | cons f rest => exact fun _ r t _ _ _ _ => hA t f.call r

/-- The suspended programs can go on from this state, and below them `D`
holds. -/
def StackOk : σ → List (Suspended C R σ ε β) → Prop
  | s, [] => D s
  | s, f :: rest => ∃ base at_ B, G at_ s ∧ StackOk base rest ∧ Listens S I G A B base rest ∧
      ∀ r t, I t → G at_ t → A t f.call r → (f.resume r t).Guards I G A E B base

/-- A running machine is in a state with `I`, and its programs can go on; one
that stopped is in a state with `E`. -/
def Nested.Ok (m : Nested C R σ ε β) : Prop :=
  if m.running then I m.state ∧ StackOk S I G A D E m.state m.stack else E m.state

variable {I G A S D E}

theorem StackOk.trans [IsPreorder σ G] {s t : σ} {stack : List (Suspended C R σ ε β)}
    (h : StackOk S I G A D E s stack) (hst : G s t) (hD : ∀ s t, D s → G s t → D t) :
    StackOk S I G A D E t stack := by
  cases stack with
  | nil => exact hD s t h hst
  | cons f rest =>
      obtain ⟨base, at_, B, hs, hrest⟩ := h
      exact ⟨base, at_, B, trans_of G hs hst, hrest⟩

/-- Calls that are answered at once are not noticed. -/
theorem Prog.Ensures.advance {post : α → Prop} {p : Prog C R σ α} (hp : p.Ensures I G A post)
    (hinstant : ∀ c s r t, I s → S.instant c s = some (r, t) → I t ∧ G s t ∧ A t c r) :
    (S.advance p).Ensures I G A post := by
  induction p with
  | ret a => exact hp
  | call c s k ih =>
      rw [Scheduler.advance]
      split
      case h_1 r t heq =>
        obtain ⟨ht, hG, hA⟩ := hinstant c s r t hp.1 heq
        exact ih r t (hp.2 r t ht hG hA)
      case h_2 => exact hp

variable [IsPreorder σ G]

section Machine

variable (hD : ∀ s t, D s → G s t → D t)
  (hinstant : ∀ c s r t, I s → S.instant c s = some (r, t) → I t ∧ G s t ∧ A t c r)
include hD hinstant

theorem Scheduler.run_ok {base : σ} {B : β → Prop} {stack : List (Suspended C R σ ε β)}
    {p : Prog C R σ (Except ε β × σ)} (hstack : StackOk S I G A D E base stack)
    (hlistens : Listens S I G A B base stack) (hp : p.Guards I G A E B base) :
    (S.run stack p).Ok S I G A D E := by
  induction stack generalizing base B p with
  | nil =>
      have hadvance := Prog.Ensures.advance hp hinstant
      rw [Scheduler.run]
      cases heq : S.advance p with
      | call c s k =>
          rw [heq] at hadvance
          exact ⟨hadvance.1, base, s, B, refl_of G s, hstack, trivial, hadvance.2⟩
      | ret a =>
          rw [heq] at hadvance
          obtain ⟨_ | b, s⟩ := a
          · exact hadvance
          · obtain ⟨hs, hbase, -⟩ := hadvance
            exact ⟨hs, hD base s hstack hbase⟩
  | cons f rest ih =>
      have hadvance := Prog.Ensures.advance hp hinstant
      rw [Scheduler.run]
      cases heq : S.advance p with
      | call c s k =>
          rw [heq] at hadvance
          exact ⟨hadvance.1, base, s, B, refl_of G s, hstack, hlistens, hadvance.2⟩
      | ret a =>
          rw [heq] at hadvance
          obtain ⟨_ | b, s⟩ := a
          · exact hadvance
          · obtain ⟨hs, hbase, hb⟩ := hadvance
            obtain ⟨base', at_, B', hat, hrest, hlistens', hgo⟩ := hstack.trans hbase hD
            dsimp only
            cases hi : S.interrupt f.call b with
            | none => exact ⟨hs, base', at_, B', hat, hrest, hlistens', hgo⟩
            | some r => exact ih hrest hlistens' (hgo r s hs hat (hlistens b r s hs hbase hb hi))

/-- A program may be entered whose return values the innermost program may be
interrupted by. -/
theorem Scheduler.enter_ok {m : Nested C R σ ε β} (hm : m.Ok S I G A D E) {B : β → Prop}
    {p : σ → Prog C R σ (Except ε β × σ)}
    (hlistens : m.running = true → I m.state → Listens S I G A B m.state m.stack)
    (hp : m.running = true → I m.state → (p m.state).Guards I G A E B m.state) :
    (S.enter m p).Ok S I G A D E := by
  rw [Scheduler.enter]
  split
  case isTrue hrun =>
    rw [Nested.Ok, if_pos hrun] at hm
    exact Scheduler.run_ok hD hinstant hm.2 (hlistens hrun hm.1) (hp hrun hm.1)
  case isFalse => exact hm

theorem Scheduler.answer_ok {m : Nested C R σ ε β} (hm : m.Ok S I G A D E)
    {answer : (c : C) → Option (R c)} (hanswer : ∀ c r, answer c = some r → A m.state c r) :
    (S.answer m answer).Ok S I G A D E := by
  rw [Scheduler.answer]
  split
  case h_1 => exact hm
  case h_2 f rest hstack =>
    split
    case h_1 => exact hm
    case h_2 r hr =>
      split
      case isFalse => exact hm
      case isTrue hrun =>
        rw [Nested.Ok, if_pos hrun, hstack] at hm
        obtain ⟨hs, base, at_, B, hat, hrest, hlistens, hgo⟩ := hm
        exact Scheduler.run_ok hD hinstant hrest hlistens (hgo r _ hs hat (hanswer _ r hr))

end Machine

end Ok

end Resumption
