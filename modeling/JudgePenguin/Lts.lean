/-
  JudgePenguin/Lts.lean
  =====================
  **Labelled transition systems and forward simulations.**

  A system is a set of start states and a labelled step relation; what an observer
  sees of it is the list of its labels.  Nothing is said about the labels, so that a
  label may carry a call with its answer.

    * `Run.keeps` is the induction over runs: what holds at the start and is kept by
      every step holds in every reachable state (`Inductive.reachable`);
    * `Run.history` is the same with the labels so far;
    * a forward simulation carries runs over (`Simulation.run`), hence every
      observation of the concrete system is one of the abstract system
      (`Simulation.trace`), and simulations compose.
-/
import Mathlib.Tactic.TypeStar

universe u v w

/-- Start states and labelled steps. -/
structure Lts (σ : Type u) (ℓ : Type v) where
  start : σ → Prop
  step : σ → ℓ → σ → Prop

namespace Lts

variable {σ : Type u} {τ : Type w} {ℓ : Type v}

/-! ### Runs -/

/-- The steps from one state to another, with their labels in order. -/
inductive Run (M : Lts σ ℓ) : σ → List ℓ → σ → Prop
  | nil (s : σ) : Run M s [] s
  | cons {s s' s'' : σ} {l : ℓ} {ls : List ℓ} (hstep : M.step s l s') (hrest : Run M s' ls s'') :
    Run M s (l :: ls) s''

/-- The state `s` is reached from a start state. -/
def Reachable (M : Lts σ ℓ) (s : σ) : Prop := ∃ s0 ls, M.start s0 ∧ M.Run s0 ls s

/-- The labels of a run from a start state. -/
def Trace (M : Lts σ ℓ) (ls : List ℓ) : Prop := ∃ s0 s, M.start s0 ∧ M.Run s0 ls s

variable {M : Lts σ ℓ}

theorem Run.append {s s' s'' : σ} {ls ls' : List ℓ} (h : M.Run s ls s') (h' : M.Run s' ls' s'') :
    M.Run s (ls ++ ls') s'' := by
  induction h with
  | nil s => exact h'
  | cons hstep hrest ih => exact .cons hstep (ih h')

/-- What every step keeps, a run keeps. -/
theorem Run.keeps {I : σ → Prop} (hstep : ∀ s l s', I s → M.step s l s' → I s') {s s' : σ}
    {ls : List ℓ} (h : M.Run s ls s') (hs : I s) : I s' := by
  induction h with
  | nil s => exact hs
  | cons hfirst hrest ih => exact ih (hstep _ _ _ hs hfirst)

/-- What every step keeps of the labels so far and the state, a run keeps. -/
theorem Run.history {H : List ℓ → σ → Prop}
    (hstep : ∀ done s l s', H done s → M.step s l s' → H (done ++ [l]) s') {s s' : σ} {ls : List ℓ}
    (h : M.Run s ls s') {done : List ℓ} (hs : H done s) : H (done ++ ls) s' := by
  induction h generalizing done with
  | nil s =>
    rw [List.append_nil]
    exact hs
  | cons hfirst hrest ih =>
    rw [← List.singleton_append, ← List.append_assoc]
    exact ih (hstep _ _ _ _ hs hfirst)

/-! ### Invariants -/

/-- `I` holds at the start and is kept by every step. -/
structure Inductive (M : Lts σ ℓ) (I : σ → Prop) : Prop where
  start : ∀ s, M.start s → I s
  step : ∀ s l s', I s → M.step s l s' → I s'

theorem Inductive.reachable {I : σ → Prop} (h : M.Inductive I) {s : σ} (hs : M.Reachable s) :
    I s := by
  obtain ⟨s0, ls, hstart, hrun⟩ := hs
  exact hrun.keeps h.step (h.start s0 hstart)

/-! ### Simulations -/

/-- `A` can follow every step of `C`, with the same label, so that the states stay
    related by `R`. -/
structure Simulation (C : Lts σ ℓ) (A : Lts τ ℓ) (R : σ → τ → Prop) : Prop where
  start : ∀ s, C.start s → ∃ a, A.start a ∧ R s a
  step : ∀ s a l s', R s a → C.step s l s' → ∃ a', A.step a l a' ∧ R s' a'

section Simulation

variable {υ : Type*} {C : Lts σ ℓ} {A : Lts τ ℓ} {B : Lts υ ℓ} {R : σ → τ → Prop}
  {Q : τ → υ → Prop}

theorem Simulation.run (h : Simulation C A R) {s s' : σ} {ls : List ℓ} (hrun : C.Run s ls s')
    {a : τ} (ha : R s a) : ∃ a', A.Run a ls a' ∧ R s' a' := by
  induction hrun generalizing a with
  | nil s => exact ⟨a, .nil a, ha⟩
  | cons hstep hrest ih =>
    obtain ⟨a1, hstep', h1⟩ := h.step _ _ _ _ ha hstep
    obtain ⟨a2, hrest', h2⟩ := ih h1
    exact ⟨a2, .cons hstep' hrest', h2⟩

/-- **Refinement of observations.** -/
theorem Simulation.trace (h : Simulation C A R) {ls : List ℓ} (hls : C.Trace ls) : A.Trace ls := by
  obtain ⟨s0, s, hstart, hrun⟩ := hls
  obtain ⟨a0, hstart', ha⟩ := h.start s0 hstart
  obtain ⟨a, hrun', -⟩ := h.run hrun ha
  exact ⟨a0, a, hstart', hrun'⟩

theorem Simulation.comp (h : Simulation C A R) (h' : Simulation A B Q) :
    Simulation C B fun s b => ∃ a, R s a ∧ Q a b where
  start s hs := by
    obtain ⟨a, ha, hR⟩ := h.start s hs
    obtain ⟨b, hb, hQ⟩ := h'.start a ha
    exact ⟨b, hb, a, hR, hQ⟩
  step s b l s' := by
    rintro ⟨a, hR, hQ⟩ hstep
    obtain ⟨a', hstep', hR'⟩ := h.step s a l s' hR hstep
    obtain ⟨b', hstep'', hQ'⟩ := h'.step a b l a' hQ hstep'
    exact ⟨b', hstep'', a', hR', hQ'⟩

end Simulation

end Lts
