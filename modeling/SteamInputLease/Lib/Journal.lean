import Mathlib.Tactic.Common

/-!
# Programs that consult an environment and keep a journal

A program asks its environment, which answers by the instant at which it is asked, and enters
what it does into a journal. Nothing relates two answers, so a fact proved for every environment
holds for every sequence of answers. `Writes x P` is the specification of one computation: it
adds to the journal, and its result and its entries satisfy `P`.
-/

namespace SteamInputLease
namespace Lib

/-- The next instant, and the entries so far. -/
structure Journal (ν : Type) where
  instant : Nat
  entries : List ν
  deriving DecidableEq, Repr

def Journal.start (ν : Type) : Journal ν := ⟨0, []⟩

section

variable {ν α β : Type}

/-- The environment's answer now; the next question comes an instant later. -/
def consult (answer : Nat → α) : StateM (Journal ν) α := fun j =>
  (answer j.instant, { j with instant := j.instant + 1 })

def record (n : ν) : StateM (Journal ν) Unit := fun j =>
  ((), { j with entries := j.entries ++ [n] })

/-- From any journal, `x` ends with a result and new entries that satisfy `P`. -/
def Writes (x : StateM (Journal ν) α) (P : α → List ν → Prop) : Prop :=
  ∀ j, ∃ new, (x.run j).2.entries = j.entries ++ new ∧ P (x.run j).1 new

variable {x : StateM (Journal ν) α} {f : α → StateM (Journal ν) β}
  {P P' : α → List ν → Prop} {Q : β → List ν → Prop}

@[simp] theorem run_consult {answer : Nat → α} (j : Journal ν) :
    (Lib.consult answer : StateM (Journal ν) α).run j =
      (answer j.instant, { j with instant := j.instant + 1 }) := rfl

@[simp] theorem run_record {n : ν} (j : Journal ν) :
    (Lib.record n).run j = ((), { j with entries := j.entries ++ [n] }) := rfl

theorem Writes.pure {a : α} (h : P a []) : Writes (pure a : StateM (Journal ν) α) P := by
  intro j
  exact ⟨[], (List.append_nil _).symm, h⟩

theorem Writes.consult {answer : Nat → α} (h : ∀ a, P a []) :
    Writes (Lib.consult answer : StateM (Journal ν) α) P := by
  intro j
  exact ⟨[], (List.append_nil _).symm, h _⟩

theorem Writes.record {n : ν} {P : Unit → List ν → Prop} (h : P () [n]) :
    Writes (Lib.record n) P := by
  intro j
  exact ⟨[n], rfl, h⟩

/-- The entries of the second computation come behind those of the first. -/
theorem Writes.bind (hx : Writes x P)
    (hf : ∀ a new, P a new → Writes (f a) fun b more => Q b (new ++ more)) :
    Writes (x >>= f) Q := by
  intro j
  obtain ⟨new, hnew, hP⟩ := hx j
  obtain ⟨more, hmore, hQ⟩ := hf _ new hP (x.run j).2
  refine ⟨new ++ more, ?_, hQ⟩
  show ((f (x.run j).1).run (x.run j).2).2.entries = _
  rw [hmore, hnew, List.append_assoc]

theorem Writes.imp (hx : Writes x P) (h : ∀ a new, P a new → P' a new) : Writes x P' := by
  intro j
  obtain ⟨new, hnew, hP⟩ := hx j
  exact ⟨new, hnew, h _ _ hP⟩

/-- A computation that enters nothing, and what comes behind it. -/
theorem Writes.skip (hx : Writes x fun _ new => new = []) (hf : ∀ a, Writes (f a) Q) :
    Writes (x >>= f) Q :=
  hx.bind fun a new hnew => by
    subst hnew
    exact hf a

/-- A question and what depends on its answer. -/
theorem Writes.ask {answer : Nat → α} (h : ∀ a, Writes (f a) Q) :
    Writes (Lib.consult answer >>= f) Q :=
  Writes.skip (Writes.consult fun _ => rfl) h

/-- The same, where it matters that the answer was given. -/
theorem Writes.askAt {answer : Nat → α} (h : ∀ i, Writes (f (answer i)) Q) :
    Writes (Lib.consult answer >>= f) Q := fun j => h j.instant { j with instant := j.instant + 1 }

/-- Two specifications of one computation. -/
theorem Writes.and (h : Writes x P) (h' : Writes x P') :
    Writes x fun a new => P a new ∧ P' a new := by
  intro j
  obtain ⟨new, hnew, hP⟩ := h j
  obtain ⟨new', hnew', hP'⟩ := h' j
  rw [hnew, List.append_cancel_left_eq] at hnew'
  subst hnew'
  exact ⟨new, hnew, hP, hP'⟩

/-- An entry and what comes behind it. -/
theorem Writes.tell {n : ν} {f : Unit → StateM (Journal ν) β}
    (h : Writes (f ()) fun b more => Q b (n :: more)) :
    Writes (Lib.record n >>= f) Q :=
  Writes.bind (P := fun _ new => new = [n]) (Writes.record rfl) fun _ new hnew => by
    subst hnew
    exact h

/-- What a computation has written from an empty journal. -/
theorem Writes.start (hx : Writes x P) :
    P (x.run (Journal.start ν)).1 (x.run (Journal.start ν)).2.entries := by
  obtain ⟨new, hnew, hP⟩ := hx (Journal.start ν)
  rw [hnew]
  exact hP

end

/-- An entry that is nowhere else stands where its only place is. -/
theorem split_unique {ν : Type} {a b c d : List ν} {x y : ν} (h : a ++ x :: b = c ++ y :: d)
    (ha : y ∉ a) (hb : y ∉ b) : c = a ∧ y = x ∧ d = b := by
  rcases List.append_eq_append_iff.mp h with ⟨more, rfl, hcons⟩ | ⟨more, rfl, hcons⟩
  · cases more with
    | nil =>
      obtain ⟨rfl, rfl⟩ := List.cons.inj hcons
      exact ⟨List.append_nil a, rfl, rfl⟩
    | cons z more =>
      rw [(List.cons.inj hcons).2] at hb
      exact absurd (List.mem_append_right _ List.mem_cons_self) hb
  · cases more with
    | nil =>
      obtain ⟨rfl, rfl⟩ := List.cons.inj hcons
      exact ⟨(List.append_nil c).symm, rfl, rfl⟩
    | cons z more =>
      rw [(List.cons.inj hcons).1] at ha
      exact absurd (List.mem_append_right _ List.mem_cons_self) ha

end Lib
end SteamInputLease
