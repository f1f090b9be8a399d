import Mathlib.Tactic.Common

/-!
# Labelled systems, their runs, and what is proved of every run

A `System` is a set of initial states and a partial step function. The label of a step
resolves everything the step leaves open (which party moves, what the environment answers),
so a run is a list of labels and can be evaluated.

Three rules carry every result of this development that is about runs:

* `ReachUnder.invariant` — what holds initially and is kept by each step holds in every
  reachable state. `C` restricts the steps, so the same rule serves a property of all runs
  (`Reach`) and a property of the runs whose steps all meet a condition.
* `observed` — a history variable: a value folded along the run from the states before and
  after each step. It reads the system and never constrains it (`reach_observed`).
* `Simulation` — each step of a concrete system is matched by steps of an abstract one.
-/

namespace SteamInputLease
namespace Lib

/-- Initial states and a partial, label-driven step. -/
structure System (σ ε : Type) where
  init : σ → Prop
  step : σ → ε → Option σ

namespace System

/-- The states reached along steps that all meet `C`, a condition on the state before the
    step and on its label. -/
inductive ReachUnder {σ ε : Type} (T : System σ ε) (C : σ → ε → Prop) : σ → Prop
  | init {s : σ} (h : T.init s) : ReachUnder T C s
  | step {s s' : σ} {e : ε} (hr : ReachUnder T C s) (hc : C s e)
      (hs : T.step s e = some s') : ReachUnder T C s'

/-- The states reached along any steps. -/
abbrev Reach {σ ε : Type} (T : System σ ε) : σ → Prop := T.ReachUnder fun _ _ => True

/-- Run a list of labels, in order. -/
def exec {σ ε : Type} (T : System σ ε) : σ → List ε → Option σ
  | s, [] => some s
  | s, e :: es => (T.step s e).bind fun s' => exec T s' es

/-! ## Reachability -/

theorem Reach.next {σ ε : Type} {T : System σ ε} {s s' : σ} {e : ε} (hr : T.Reach s)
    (hs : T.step s e = some s') : T.Reach s' :=
  .step hr trivial hs

/-- A restricted run is a run. -/
theorem ReachUnder.reach {σ ε : Type} {T : System σ ε} {C : σ → ε → Prop} {s : σ}
    (hr : T.ReachUnder C s) : T.Reach s := by
  induction hr with
  | init h => exact .init h
  | step _ _ hs ih => exact ih.next hs

/-- What each step preserves, a run preserves, from wherever it starts. -/
theorem exec_preserves {σ ε : Type} {T : System σ ε} {I : σ → Prop}
    (hstep : ∀ s e s', I s → T.step s e = some s' → I s') :
    ∀ {es : List ε} {s s' : σ}, I s → T.exec s es = some s' → I s'
  | [], s, s', hi, h => by
    simp only [System.exec, Option.some.injEq] at h
    exact h ▸ hi
  | e :: es, s, s', hi, h => by
    simp only [System.exec, Option.bind_eq_some_iff] at h
    obtain ⟨t, ht, h⟩ := h
    exact exec_preserves hstep (hstep s e t hi ht) h

theorem Reach.exec {σ ε : Type} {T : System σ ε} {es : List ε} {s s' : σ} (hr : T.Reach s)
    (h : T.exec s es = some s') : T.Reach s' :=
  exec_preserves (fun _ _ _ hr hs => hr.next hs) hr h

/-- A run of labels that ends in a state the test accepts: how a concrete trace is
    turned into a reachable state. -/
theorem exists_reach_of_exec {σ ε : Type} {T : System σ ε} {s : σ} (es : List ε)
    (p : σ → Bool) (h₀ : T.init s) (h : (T.exec s es).any p = true) :
    ∃ s', T.Reach s' ∧ p s' = true := by
  cases hx : T.exec s es with
  | none => simp [hx] at h
  | some s' =>
    rw [hx] at h
    exact ⟨s', Reach.exec (.init h₀) hx, by simpa using h⟩

/-- Run a list of labels while a test admits each step. -/
def execIf {σ ε : Type} (T : System σ ε) (c : σ → ε → Bool) : σ → List ε → Option σ
  | s, [] => some s
  | s, e :: es => if c s e then (T.step s e).bind fun s' => execIf T c s' es else none

theorem ReachUnder.execIf {σ ε : Type} {T : System σ ε} {c : σ → ε → Bool} :
    ∀ {es : List ε} {s s' : σ}, T.ReachUnder (fun s e => c s e = true) s →
      T.execIf c s es = some s' → T.ReachUnder (fun s e => c s e = true) s'
  | [], s, s', hr, h => by
    simp only [System.execIf, Option.some.injEq] at h
    exact h ▸ hr
  | e :: es, s, s', hr, h => by
    rw [System.execIf] at h
    split at h
    · next hc =>
      obtain ⟨t, ht, h⟩ := Option.bind_eq_some_iff.mp h
      exact (ReachUnder.step hr hc ht).execIf h
    · cases h

/-- `exists_reach_of_exec` for the runs whose steps all pass a test. -/
theorem exists_reachUnder_of_exec {σ ε : Type} {T : System σ ε} {s : σ} (c : σ → ε → Bool)
    (es : List ε) (p : σ → Bool) (h₀ : T.init s) (h : (T.execIf c s es).any p = true) :
    ∃ s', T.ReachUnder (fun s e => c s e = true) s' ∧ p s' = true := by
  cases hx : T.execIf c s es with
  | none => simp [hx] at h
  | some s' =>
    rw [hx] at h
    exact ⟨s', ReachUnder.execIf (.init h₀) hx, by simpa using h⟩

/-- **The invariant rule.** The step obligation may use that the state before it was
    reached by a restricted run, hence every invariant proved before this one. -/
theorem ReachUnder.invariant {σ ε : Type} {T : System σ ε} {C : σ → ε → Prop} {I : σ → Prop}
    (h₀ : ∀ s, T.init s → I s)
    (hstep : ∀ s e s', T.ReachUnder C s → I s → C s e → T.step s e = some s' → I s')
    {s : σ} (hr : T.ReachUnder C s) : I s := by
  induction hr with
  | init h => exact h₀ _ h
  | step hr hc hs ih => exact hstep _ _ _ hr ih hc hs

/-! ## History variables -/

/-- The system with a history beside its state: `obs` folds the step it saw into it. -/
def observed {σ ε η : Type} (T : System σ ε) (h₀ : η) (obs : η → σ → ε → σ → η) :
    System (σ × η) ε where
  init p := T.init p.1 ∧ p.2 = h₀
  step p e := (T.step p.1 e).map fun s' => (s', obs p.2 p.1 e s')

theorem observed_step {σ ε η : Type} {T : System σ ε} {h₀ : η} {obs : η → σ → ε → σ → η}
    {p p' : σ × η} {e : ε} :
    (T.observed h₀ obs).step p e = some p' ↔
      T.step p.1 e = some p'.1 ∧ p'.2 = obs p.2 p.1 e p'.1 := by
  simp only [observed, Option.map_eq_some_iff]
  constructor
  · intro h
    obtain ⟨s', hs, rfl⟩ := h
    exact ⟨hs, rfl⟩
  · intro h
    obtain ⟨hs, hh⟩ := h
    exact ⟨p'.1, hs, by rw [← hh]⟩

/-- The history constrains nothing: every run of the system is observed. -/
theorem reach_observed {σ ε η : Type} {T : System σ ε} (h₀ : η) (obs : η → σ → ε → σ → η)
    {s : σ} (hr : T.Reach s) : ∃ h, (T.observed h₀ obs).Reach (s, h) := by
  induction hr with
  | init h => exact ⟨h₀, .init ⟨h, rfl⟩⟩
  | @step s s' e _ _ hs ih =>
    obtain ⟨h, ih⟩ := ih
    exact ⟨obs h s e s', ih.next (observed_step.mpr ⟨hs, rfl⟩)⟩

/-- … and an observed run is a run, of the same labels under the same condition. -/
theorem ReachUnder.of_observed {σ ε η : Type} {T : System σ ε} {h₀ : η}
    {obs : η → σ → ε → σ → η} {C : σ → ε → Prop} {p : σ × η}
    (hr : (T.observed h₀ obs).ReachUnder (fun q e => C q.1 e) p) : T.ReachUnder C p.1 := by
  induction hr with
  | init h => exact .init h.1
  | step _ hc hs ih => exact .step ih hc (observed_step.mp hs).1

/-- The invariant rule for an observed system, with the history's step already unfolded. -/
theorem observed_invariant {σ ε η : Type} {T : System σ ε} {h₀ : η}
    {obs : η → σ → ε → σ → η} {C : σ → ε → Prop} {I : σ → η → Prop}
    (hinit : ∀ s, T.init s → I s h₀)
    (hstep : ∀ s h e s', T.ReachUnder C s → I s h → C s e → T.step s e = some s' →
      I s' (obs h s e s'))
    {s : σ} {h : η} (hr : (T.observed h₀ obs).ReachUnder (fun q e => C q.1 e) (s, h)) :
    I s h := by
  refine ReachUnder.invariant (I := fun p : σ × η => I p.1 p.2) ?_ ?_ hr
  · rintro ⟨s, _⟩ ⟨hi, rfl⟩
    exact hinit s hi
  · rintro ⟨s, h⟩ e ⟨s', h'⟩ hr hI hc ho
    obtain ⟨hs, hh⟩ := observed_step.mp ho
    rw [show h' = obs h s e s' from hh]
    exact hstep s h e s' hr.of_observed hI hc hs

/-! ## Simulation -/

/-- `R` relates every concrete initial state to an abstract one, and every concrete step
    from a reachable related state to a run of abstract steps. -/
structure Simulation {σ ε τ δ : Type} (T : System σ ε) (A : System τ δ)
    (R : σ → τ → Prop) : Prop where
  init : ∀ s, T.init s → ∃ a, A.init a ∧ R s a
  step : ∀ s e s' a, T.Reach s → R s a → T.step s e = some s' →
    ∃ ds a', A.exec a ds = some a' ∧ R s' a'

/-- A reachable concrete state is related to a reachable abstract one. -/
theorem Simulation.reach {σ ε τ δ : Type} {T : System σ ε} {A : System τ δ}
    {R : σ → τ → Prop} (h : Simulation T A R) {s : σ} (hr : T.Reach s) :
    ∃ a, A.Reach a ∧ R s a := by
  induction hr with
  | init hi =>
    obtain ⟨a, ha, hR⟩ := h.init _ hi
    exact ⟨a, .init ha, hR⟩
  | step hr _ hs ih =>
    obtain ⟨a, ha, hR⟩ := ih
    obtain ⟨ds, a', hx, hR'⟩ := h.step _ _ _ _ hr hR hs
    exact ⟨a', ha.exec hx, hR'⟩

end System
end Lib
end SteamInputLease
