import Mathlib.Data.List.Basic
import Mathlib.Data.List.Induction

/-!
Runs of a deterministic transition system, and invariants carried along
them.

A system is a step function `σ → ε → σ` over states `σ` and events `ε`; a
run is the fold of its events. Most guarantees about real devices hold
only while the environment keeps some rule at every step, so the
induction is packaged for that case: `Along step P s es` says the rule `P`
holds of every state the run passes through together with the event
consumed there, and `invariant_run` carries an invariant through such a
run. An unconditional invariant is the case where `P` is always true.
-/

namespace Transition

universe u v

variable {σ : Type u} {ε : Type v}

/-- The state reached by feeding a list of events to the step function. -/
def run (step : σ → ε → σ) (s : σ) (es : List ε) : σ := es.foldl step s

@[simp] theorem run_nil (step : σ → ε → σ) (s : σ) : run step s [] = s := rfl

@[simp] theorem run_cons (step : σ → ε → σ) (s : σ) (e : ε) (es : List ε) :
    run step s (e :: es) = run step (step s e) es := rfl

@[simp] theorem run_append (step : σ → ε → σ) (s : σ) (es fs : List ε) :
    run step s (es ++ fs) = run step (run step s es) fs := by
  simp [run]

/-- Every event of the run meets the rule `P` in the state that consumes
it. -/
def Along (step : σ → ε → σ) (P : σ → ε → Prop) : σ → List ε → Prop
  | _, [] => True
  | s, e :: es => P s e ∧ Along step P (step s e) es

@[simp] theorem along_nil (step : σ → ε → σ) (P : σ → ε → Prop) (s : σ) :
    Along step P s [] := trivial

@[simp] theorem along_cons (step : σ → ε → σ) (P : σ → ε → Prop) (s : σ) (e : ε)
    (es : List ε) :
    Along step P s (e :: es) ↔ P s e ∧ Along step P (step s e) es := Iff.rfl

theorem along_append (step : σ → ε → σ) (P : σ → ε → Prop) (s : σ) (es fs : List ε) :
    Along step P s (es ++ fs) ↔ Along step P s es ∧ Along step P (run step s es) fs := by
  induction es generalizing s with
  | nil => simp
  | cons e es ih => simp [ih, and_assoc]

theorem Along.mono {step : σ → ε → σ} {P Q : σ → ε → Prop} (h : ∀ s e, P s e → Q s e)
    {s : σ} {es : List ε} (hp : Along step P s es) : Along step Q s es := by
  induction es generalizing s with
  | nil => trivial
  | cons e es ih => exact ⟨h s e hp.1, ih hp.2⟩

instance Along.decidable (step : σ → ε → σ) (P : σ → ε → Prop)
    [∀ s e, Decidable (P s e)] : (s : σ) → (es : List ε) → Decidable (Along step P s es)
  | _, [] => isTrue trivial
  | s, e :: es =>
      have := Along.decidable step P (step s e) es
      inferInstanceAs (Decidable (P s e ∧ Along step P (step s e) es))

/-- An invariant kept by every step that obeys the rule holds at the end
of every run that obeys it. -/
theorem invariant_run {step : σ → ε → σ} {P : σ → ε → Prop} {Inv : σ → Prop}
    (hstep : ∀ s e, Inv s → P s e → Inv (step s e)) {s : σ} {es : List ε}
    (hs : Inv s) (hes : Along step P s es) : Inv (run step s es) := by
  induction es generalizing s with
  | nil => exact hs
  | cons e es ih => exact ih (hstep s e hs hes.1) hes.2

/-- What the invariant and the rule imply holds all along the run. -/
theorem Along.of_invariant {step : σ → ε → σ} {P Q : σ → ε → Prop} {Inv : σ → Prop}
    (hstep : ∀ s e, Inv s → P s e → Inv (step s e)) (h : ∀ s e, Inv s → P s e → Q s e) {s : σ}
    {es : List ε} (hs : Inv s) (hes : Along step P s es) : Along step Q s es := by
  induction es generalizing s with
  | nil => trivial
  | cons e es ih => exact ⟨h s e hs hes.1, ih (hstep s e hs hes.1) hes.2⟩

/-- What the rule implies of the states it is met in holds wherever the run
is broken off. -/
theorem Along.run_take {step : σ → ε → σ} {P : σ → ε → Prop} {Q : σ → Prop}
    (h : ∀ s e, P s e → Q s) {s : σ} {es : List ε} (hes : Along step P s es)
    (hend : Q (run step s es)) (k : ℕ) : Q (run step s (es.take k)) := by
  induction es generalizing s k with
  | nil =>
      rw [List.take_nil]
      exact hend
  | cons e es ih =>
      cases k with
      | zero => exact h s e hes.1
      | succ k => exact ih hes.2 hend k

theorem along_of_forall {step : σ → ε → σ} {P : σ → ε → Prop} (h : ∀ s e, P s e) (s : σ)
    (es : List ε) : Along step P s es := by
  induction es generalizing s with
  | nil => trivial
  | cons e es ih => exact ⟨h s e, ih (step s e)⟩

/-- An invariant that every step keeps needs no rule. -/
theorem invariant_run_always {step : σ → ε → σ} {Inv : σ → Prop}
    (hstep : ∀ s e, Inv s → Inv (step s e)) {s : σ} (es : List ε)
    (hs : Inv s) : Inv (run step s es) := by
  induction es generalizing s with
  | nil => exact hs
  | cons e es ih => exact ih (hstep s e hs)

/-- Somewhere along the run a step gave something, and every step behind it
kept it. -/
def Since (step : σ → ε → σ) (Gives Keeps : σ → ε → Prop) (s : σ) (es : List ε) : Prop :=
  ∃ pre e post, es = pre ++ e :: post ∧ Gives (run step s pre) e ∧
    Along step Keeps (step (run step s pre) e) post

/-- What is only there after a step that gave it, or after a step that kept
it, was given at some step and kept ever since. -/
theorem since_run {step : σ → ε → σ} {Held : σ → Prop} {Gives Keeps : σ → ε → Prop}
    (hstep : ∀ s e, Held (step s e) → Gives s e ∨ (Held s ∧ Keeps s e)) {s : σ} {es : List ε}
    (hs : ¬ Held s) (hes : Held (run step s es)) : Since step Gives Keeps s es := by
  induction es using List.reverseRecOn with
  | nil => exact absurd hes hs
  | append_singleton es e ih =>
      rw [run_append] at hes
      rcases hstep _ e hes with hgives | ⟨hheld, hkeeps⟩
      · exact ⟨es, e, [], rfl, hgives, trivial⟩
      · obtain ⟨pre, e', post, rfl, hgives, hpost⟩ := ih hheld
        rw [run_append] at hkeeps
        refine ⟨pre, e', post ++ [e], by simp, hgives, ?_⟩
        exact (along_append ..).mpr ⟨hpost, hkeeps, trivial⟩

/-- What the steps of a run give, in order. -/
def outputs {ω : Type*} (step : σ → ε → σ) (out : σ → ε → ω) : σ → List ε → List ω
  | _, [] => []
  | s, e :: es => out s e :: outputs step out (step s e) es

/-- A system that has a list to give, and gives it entry by entry. -/
theorem outputs_of_listing {α ω : Type*} {step : σ → ε → σ} {out : σ → ε → ω} {P : σ → ε → Prop}
    {Lists : List α → σ → Prop} {f : Option α → ω}
    (hstep : ∀ l s e, Lists l s → P s e → out s e = f l.head? ∧ Lists l.tail (step s e))
    {l : List α} {s : σ} {es : List ε} (hs : Lists l s) (hes : Along step P s es) :
    outputs step out s es = (List.range es.length).map fun i => f l[i]? := by
  induction es generalizing l s with
  | nil => rfl
  | cons e es ih =>
      obtain ⟨hout, hnext⟩ := hstep l s e hs hes.1
      rw [outputs, hout, ih hnext hes.2, List.length_cons, List.range_succ_eq_map, List.map_cons,
        List.map_map, List.head?_eq_getElem?]
      congr 1
      refine List.map_congr_left fun i _ => ?_
      simp

/-- A relation between the states of two systems that every pair of steps
keeps relates the ends of their runs over the same events. -/
theorem simulation_run {τ : Type*} {step : σ → ε → σ} {step' : τ → ε → τ}
    {R : σ → τ → Prop} (hstep : ∀ s t e, R s t → R (step s e) (step' t e))
    {s : σ} {t : τ} (es : List ε) (h : R s t) : R (run step s es) (run step' t es) := by
  induction es generalizing s t with
  | nil => exact h
  | cons e es ih => exact ih (hstep s t e h)

end Transition
