import Mathlib.Algebra.BigOperators.Group.List.Basic
import Mathlib.Algebra.Order.Group.Multiset
import Mathlib.Algebra.Order.Sub.Basic
import SteamInputLease.Lib.Program

/-!
# What a program has in its hands

A program that opens and closes things (handles, memory, pipes) holds some of them between two
calls. A `Custody` says what a call names, what the answered call takes out of the program's hands
and what it puts in. `Guards` is the discipline: a program names only what it holds, and gives away
only what it holds, however its calls are answered. What is held is a multiset, so two things the
environment calls by one name are still two.

The rules follow the monad; `Guards.along` is what they say about every run, and `Along.balance`
that each thing that came in went out once or is still there.
-/

namespace SteamInputLease
namespace Lib

/-- What the calls in `κ` with answers in `ρ` do to what is held. -/
structure Custody (κ ρ H : Type) where
  /-- What a call names without giving it away. -/
  uses : κ → Multiset H
  takes : κ → ρ → Multiset H
  gives : κ → ρ → Multiset H

namespace Custody

variable {κ ρ H α β : Type} [DecidableEq H] {K : Custody κ ρ H}

/-- In hand behind an answered call. -/
def next (K : Custody κ ρ H) (held : Multiset H) (c : κ) (a : ρ) : Multiset H :=
  held - K.takes c a + K.gives c a

/-- Along the calls of `log`, from `held` to `rest`, only what is held is named or given away. -/
inductive Along (K : Custody κ ρ H) : Multiset H → List (κ × ρ) → Multiset H → Prop
  | nil {held : Multiset H} : Along K held [] held
  | cons {held rest : Multiset H} {c : κ} {a : ρ} {log : List (κ × ρ)}
      (huses : ∀ h ∈ K.uses c, h ∈ held) (htakes : K.takes c a ≤ held)
      (hlog : Along K (K.next held c a) log rest) : Along K held ((c, a) :: log) rest

/-- What came in is what went out and what is left. -/
theorem Along.balance {held rest : Multiset H} {log : List (κ × ρ)} (h : K.Along held log rest) :
    held + (log.map fun e => K.gives e.1 e.2).sum =
      (log.map fun e => K.takes e.1 e.2).sum + rest := by
  induction h with
  | nil => simp
  | @cons held rest c a log _ htakes _ ih =>
    simp only [List.map_cons, List.sum_cons]
    rw [next] at ih
    calc held + (K.gives c a + (log.map fun e => K.gives e.1 e.2).sum)
        = K.takes c a + (held - K.takes c a) +
            (K.gives c a + (log.map fun e => K.gives e.1 e.2).sum) := by
          rw [add_tsub_cancel_of_le htakes]
      _ = K.takes c a + (held - K.takes c a + K.gives c a +
            (log.map fun e => K.gives e.1 e.2).sum) := by
          simp only [add_assoc]
      _ = K.takes c a + (log.map fun e => K.takes e.1 e.2).sum + rest := by
          rw [ih, add_assoc]

/-- From `held`, the program keeps the discipline, and at its end `post` says what it called, what
    it returns and what is in its hands. -/
def Guards (K : Custody κ ρ H) (post : List (κ × ρ) → α → Multiset H → Prop) :
    Program κ ρ α → Multiset H → Prop
  | .ret a, held => post [] a held
  | .call c next, held => (∀ h ∈ K.uses c, h ∈ held) ∧
    ∀ a, K.takes c a ≤ held ∧
      Guards K (fun log => post ((c, a) :: log)) (next a) (K.next held c a)

variable {post post' : List (κ × ρ) → α → Multiset H → Prop}
  {fin : List (κ × ρ) → β → Multiset H → Prop} {x : Program κ ρ α} {f : α → Program κ ρ β}
  {held : Multiset H}

theorem Guards.pure {a : α} (h : post [] a held) : K.Guards post (pure a) held := h

/-- A call, and what comes behind it. -/
theorem Guards.ask {c : κ} {f : ρ → Program κ ρ β} (huses : ∀ h ∈ K.uses c, h ∈ held)
    (h : ∀ a, K.takes c a ≤ held ∧
      K.Guards (fun log => fin ((c, a) :: log)) (f a) (K.next held c a)) :
    K.Guards fin (Program.ask c >>= f) held := ⟨huses, h⟩

/-- A call that neither gives nor takes. -/
theorem Guards.look {c : κ} {f : ρ → Program κ ρ β} (huses : ∀ h ∈ K.uses c, h ∈ held)
    (htakes : ∀ a, K.takes c a = 0) (hgives : ∀ a, K.gives c a = 0)
    (h : ∀ a, K.Guards (fun log => fin ((c, a) :: log)) (f a) held) :
    K.Guards fin (Program.ask c >>= f) held := by
  refine .ask huses fun a => ⟨by rw [htakes]; exact Multiset.zero_le _, ?_⟩
  rw [next, htakes, hgives, tsub_zero, add_zero]
  exact h a

/-- A call that gives, and takes nothing. -/
theorem Guards.receive {c : κ} {f : ρ → Program κ ρ β} (huses : ∀ h ∈ K.uses c, h ∈ held)
    (htakes : ∀ a, K.takes c a = 0)
    (h : ∀ a, K.Guards (fun log => fin ((c, a) :: log)) (f a) (held + K.gives c a)) :
    K.Guards fin (Program.ask c >>= f) held := by
  refine .ask huses fun a => ⟨by rw [htakes]; exact Multiset.zero_le _, ?_⟩
  rw [next, htakes, tsub_zero]
  exact h a

/-- A call that gives `gone` away. -/
theorem Guards.spend {c : κ} {f : ρ → Program κ ρ β} {gone : Multiset H}
    (huses : ∀ h ∈ K.uses c, h ∈ held + gone) (htakes : ∀ a, K.takes c a = gone)
    (hgives : ∀ a, K.gives c a = 0)
    (h : ∀ a, K.Guards (fun log => fin ((c, a) :: log)) (f a) held) :
    K.Guards fin (Program.ask c >>= f) (held + gone) := by
  refine .ask huses fun a => ⟨by rw [htakes]; exact Multiset.le_add_left _ _, ?_⟩
  rw [next, htakes, hgives, add_zero, add_tsub_cancel_right]
  exact h a

/-- The second program starts with what the first one ended with. -/
theorem Guards.bind (hx : K.Guards post x held)
    (hf : ∀ log a rest, post log a rest → K.Guards (fun more => fin (log ++ more)) (f a) rest) :
    K.Guards fin (x >>= f) held := by
  show K.Guards fin (x.andThen f) held
  induction x generalizing post fin held with
  | ret a => exact hf [] a held hx
  | call c next ih =>
    exact ⟨hx.1, fun a => ⟨(hx.2 a).1, ih a (hx.2 a).2 fun log => hf ((c, a) :: log)⟩⟩

theorem Guards.imp (hx : K.Guards post x held)
    (h : ∀ log a rest, post log a rest → post' log a rest) : K.Guards post' x held := by
  induction x generalizing post post' held with
  | ret a => exact h [] a held hx
  | call c next ih =>
    exact ⟨hx.1, fun a => ⟨(hx.2 a).1, ih a (hx.2 a).2 fun log => h ((c, a) :: log)⟩⟩

/-- What the program yields anyway, said beside it. -/
theorem Guards.and {P : List (κ × ρ) → α → Prop} (hx : K.Guards post x held) (hy : x.Yields P) :
    K.Guards (fun log a rest => post log a rest ∧ P log a) x held := by
  induction x generalizing post P held with
  | ret a => exact ⟨hx, hy⟩
  | call c next ih =>
    refine ⟨hx.1, fun a => ⟨(hx.2 a).1, ?_⟩⟩
    exact ih a (hx.2 a).2 (hy a)

/-- **Every run keeps the discipline.** -/
theorem Guards.along (hx : K.Guards post x held) :
    x.Yields fun log a => ∃ rest, K.Along held log rest ∧ post log a rest := by
  induction x generalizing post held with
  | ret a => exact ⟨held, .nil, hx⟩
  | call c next ih =>
    intro a
    obtain ⟨htakes, hnext⟩ := hx.2 a
    refine Program.Yields.imp (ih a hnext) fun log b h => ?_
    obtain ⟨rest, hlog, hpost⟩ := h
    exact ⟨rest, .cons hx.1 htakes hlog, hpost⟩

end Custody

end Lib
end SteamInputLease
