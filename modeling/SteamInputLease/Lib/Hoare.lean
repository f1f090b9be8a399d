import Mathlib.Tactic.Common

/-!
# Triples for stateful computations

`Triple P x Q`: from a state in which `P` holds, `x` ends with a result and in a state that
satisfy `Q`. The rules follow the monad. An environment that answers as it likes is part of the
state.
-/

namespace SteamInputLease
namespace Lib

/-- `{P} x {Q}`. -/
def Triple {σ α : Type} (P : σ → Prop) (x : StateM σ α) (Q : α → σ → Prop) : Prop :=
  ∀ s, P s → Q (x.run s).1 (x.run s).2

section

variable {σ α β : Type} {x : StateM σ α} {f : α → StateM σ β} {P P' : σ → Prop}
  {Q Q' : α → σ → Prop} {R : β → σ → Prop}

theorem Triple.pure {a : α} (h : ∀ s, P s → Q a s) : Triple P (pure a) Q := by
  intro s hs
  exact h s hs

theorem Triple.bind (h : Triple P x Q) (hf : ∀ a, Triple (Q a) (f a) R) :
    Triple P (x >>= f) R := by
  intro s hs
  exact hf _ _ (h s hs)

theorem Triple.weaken (h : Triple P x Q) (hQ : ∀ a s, Q a s → Q' a s) : Triple P x Q' := by
  intro s hs
  exact hQ _ _ (h s hs)

theorem Triple.strengthen (h : Triple P x Q) (hP : ∀ s, P' s → P s) : Triple P' x Q := by
  intro s hs
  exact h s (hP s hs)

/-- A precondition that does not look at the state is a hypothesis. -/
theorem Triple.of_fact {p : Prop} (h : p → Triple (fun _ => True) x Q) :
    Triple (fun _ => p) x Q := by
  intro s hp
  exact h hp s trivial

end

/-- The second computation starts where the first one ended. -/
theorem run_bind {σ α β : Type} (x : StateM σ α) (f : α → StateM σ β) (s : σ) :
    (x >>= f).run s = (f (x.run s).1).run (x.run s).2 := rfl

/-- Whatever a computation does, it returns something. -/
theorem Triple.any {σ α : Type} {x : StateM σ α} {P : σ → Prop} :
    Triple P x fun _ _ => True := by
  intro s _
  trivial

end Lib
end SteamInputLease
