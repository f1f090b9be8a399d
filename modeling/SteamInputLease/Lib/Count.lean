import Mathlib.Algebra.BigOperators.Group.List.Basic
import Mathlib.Algebra.GroupWithZero.Nat
import Mathlib.Logic.Function.Basic
import Mathlib.Tactic.Common

/-!
# Counting list entries while one entry changes

A system of many parties keeps them in a list and moves one at a time. These are the ways the
number of parties with a property can change when the entry at one index is replaced.
-/

namespace SteamInputLease
namespace Lib

theorem countP_set {α : Type} {p : α → Bool} {l : List α} {i : Nat} {a b : α}
    (h : l[i]? = some a) :
    (l.set i b).countP p + (if p a then 1 else 0) = l.countP p + (if p b then 1 else 0) := by
  obtain ⟨hi, rfl⟩ := List.getElem?_eq_some_iff.mp h
  rw [List.countP_set hi]
  by_cases hp : p l[i]
  · have : 0 < l.countP p := List.countP_pos_iff.mpr ⟨l[i], List.getElem_mem hi, hp⟩
    simp only [hp, if_true]
    omega
  · simp [hp]

/-- The entry's property did not change. -/
theorem countP_set_same {α : Type} {p : α → Bool} {l : List α} {i : Nat} {a b : α}
    (h : l[i]? = some a) (hp : p b = p a) : (l.set i b).countP p = l.countP p := by
  have := countP_set (p := p) (b := b) h
  rw [hp] at this
  omega

/-- The entry gained the property. -/
theorem countP_set_gain {α : Type} {p : α → Bool} {l : List α} {i : Nat} {a b : α}
    (h : l[i]? = some a) (ha : p a = false) (hb : p b = true) :
    (l.set i b).countP p = l.countP p + 1 := by
  have := countP_set (p := p) (b := b) h
  simpa [ha, hb] using this

/-- The entry lost the property. -/
theorem countP_set_lose {α : Type} {p : α → Bool} {l : List α} {i : Nat} {a b : α}
    (h : l[i]? = some a) (ha : p a = true) (hb : p b = false) :
    (l.set i b).countP p + 1 = l.countP p := by
  have := countP_set (p := p) (b := b) h
  simpa [ha, hb] using this

/-- The entry did not gain the property. -/
theorem countP_set_le {α : Type} {p : α → Bool} {l : List α} {i : Nat} {a b : α}
    (h : l[i]? = some a) (hp : p b = true → p a = true) :
    (l.set i b).countP p ≤ l.countP p := by
  have := countP_set (p := p) (b := b) h
  split at this <;> split at this <;> first | omega | (rename_i hb; simp_all)

/-- A sum over a list, when one entry changes. -/
theorem sum_map_set {α : Type} {f : α → Nat} {l : List α} {i : Nat} {a b : α}
    (h : l[i]? = some a) : ((l.set i b).map f).sum + f a = (l.map f).sum + f b := by
  induction l generalizing i with
  | nil => cases h
  | cons x xs ih =>
    cases i with
    | zero =>
      simp only [List.getElem?_cons_zero, Option.some.injEq] at h
      subst h
      simp only [List.set_cons_zero, List.map_cons, List.sum_cons]
      omega
    | succ i =>
      have := ih (i := i) h
      simp only [List.set_cons_succ, List.map_cons, List.sum_cons]
      omega

/-- A list that tabulates a function, when the function changes at one place. -/
theorem map_range_update {α : Type} {f : Nat → α} {n i : Nat} {a : α} :
    (List.range n).map (Function.update f i a) = ((List.range n).map f).set i a := by
  refine List.ext_getElem (by simp) fun j h₁ h₂ => ?_
  by_cases hj : i = j
  · simp [hj]
  · simp [List.getElem_set_ne hj, Function.update_of_ne (Ne.symm hj)]

/-- What is true of every entry but the new one, and of the new one. -/
theorem forall_set {α : Type} {P : Nat → α → Prop} {l : List α} {i : Nat} {a b : α}
    (h : l[i]? = some a) (hall : ∀ j c, j ≠ i → l[j]? = some c → P j c) (hb : P i b) :
    ∀ j c, (l.set i b)[j]? = some c → P j c := by
  intro j c hj
  have hi : i < l.length := (List.getElem?_eq_some_iff.mp h).1
  by_cases hji : j = i
  · subst hji
    rw [List.getElem?_set_self hi, Option.some.injEq] at hj
    exact hj ▸ hb
  · rw [List.getElem?_set_ne (Ne.symm hji)] at hj
    exact hall j c hji hj

/-- A new last entry. -/
theorem forall_concat {α : Type} {P : Nat → α → Prop} {l : List α} {b : α}
    (hall : ∀ j c, l[j]? = some c → P j c) (hb : P l.length b) :
    ∀ j c, (l ++ [b])[j]? = some c → P j c := by
  intro j c hj
  rcases Nat.lt_trichotomy j l.length with hlt | rfl | hgt
  · rw [List.getElem?_append_left hlt] at hj
    exact hall j c hj
  · rw [List.getElem?_concat_length, Option.some.injEq] at hj
    exact hj ▸ hb
  · rw [List.getElem?_eq_none (by simp; omega)] at hj
    exact absurd hj (by simp)

end Lib
end SteamInputLease
