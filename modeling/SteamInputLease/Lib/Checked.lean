import SteamInputLease.Lib.Collect
import SteamInputLease.Lib.Hoare

/-!
# Computations that can crash

Arithmetic that has to stay in the range of its type, slices and indices that have to lie in what
they are taken from, and loops that have to end within the rounds they are given. Each operation
has a rule for the case in which it does what it is meant to, and `Agrees` carries such rules
through a computation that also returns early.
-/

namespace SteamInputLease
namespace Lib

/-- What a computation crashes with. -/
inductive Panic
  /-- Arithmetic left the range of its type. -/
  | overflow
  /-- A slice or an index was out of range. -/
  | outOfRange
  /-- A loop did not end within its rounds. -/
  | endless
  deriving DecidableEq, Repr

/-- A computation that gives a value or crashes. -/
abbrev MayPanic (α : Type) := Except Panic α

namespace MayPanic

/-! ## Arithmetic -/

/-- `a + b`, at the type whose largest value is given. -/
def add (largest a b : Nat) : MayPanic Nat :=
  if a + b ≤ largest then .ok (a + b) else .error .overflow

/-- `a * b`. -/
def mul (largest a b : Nat) : MayPanic Nat :=
  if a * b ≤ largest then .ok (a * b) else .error .overflow

/-- `a - b`. -/
def sub (a b : Nat) : MayPanic Nat := if b ≤ a then .ok (a - b) else .error .overflow

theorem add_ok {largest a b : Nat} (h : a + b ≤ largest) : add largest a b = .ok (a + b) := if_pos h

theorem mul_ok {largest a b : Nat} (h : a * b ≤ largest) : mul largest a b = .ok (a * b) := if_pos h

theorem sub_ok {a b : Nat} (h : b ≤ a) : sub a b = .ok (a - b) := if_pos h

/-! ## Slices -/

section

variable {α : Type}

/-- `l[start..stop]`. -/
def slice (l : List α) (start stop : Nat) : MayPanic (List α) :=
  if start ≤ stop ∧ stop ≤ l.length then .ok ((l.drop start).take (stop - start))
  else .error .outOfRange

/-- `l[i]`. -/
def index (l : List α) (i : Nat) : MayPanic α :=
  match l[i]? with
  | some a => .ok a
  | none => .error .outOfRange

/-- `l[i] = a`. -/
def set (l : List α) (i : Nat) (a : α) : MayPanic (List α) :=
  if i < l.length then .ok (l.set i a) else .error .outOfRange

theorem slice_ok {l : List α} {start stop : Nat} (h : start ≤ stop) (hl : stop ≤ l.length) :
    slice l start stop = .ok ((l.drop start).take (stop - start)) := if_pos ⟨h, hl⟩

theorem slice_zero_ok {l : List α} {stop : Nat} (hl : stop ≤ l.length) :
    slice l 0 stop = .ok (l.take stop) := slice_ok (Nat.zero_le _) hl

theorem set_ok {l : List α} {i : Nat} {a : α} (h : i < l.length) : set l i a = .ok (l.set i a) :=
  if_pos h

theorem index_ok {l : List α} {i : Nat} {a : α} (h : l[i]? = some a) : index l i = .ok a := by
  rw [index, h]

end

/-! ## Loops -/

section

variable {α β : Type}

/-- The elements that pass a check. -/
def filter (p : α → MayPanic Bool) : List α → MayPanic (List α)
  | [] => pure []
  | a :: rest => do
    let kept ← p a
    let others ← filter p rest
    pure (if kept then a :: others else others)

/-- `collect`, with a body that can crash. -/
def collect [DecidableEq β] (f : α → MayPanic (Option β)) : List α → List β → MayPanic (List β)
  | [], acc => pure acc
  | a :: rest, acc => do
    match ← f a with
    | none => collect f rest acc
    | some b => collect f rest (pushNew acc b)

theorem filter_ok {p : α → MayPanic Bool} {q : α → Bool} : ∀ l : List α,
    (∀ a ∈ l, p a = .ok (q a)) → filter p l = .ok (l.filter q) := by
  intro l
  induction l with
  | nil =>
    intro _
    rfl
  | cons a l ih =>
    intro h
    rw [filter, h a List.mem_cons_self, ih fun b hb => h b (List.mem_cons_of_mem a hb),
      List.filter_cons]
    rfl

theorem collect_ok [DecidableEq β] {f : α → MayPanic (Option β)} {g : α → Option β} :
    ∀ (l : List α) (acc : List β), (∀ a ∈ l, f a = .ok (g a)) →
      collect f l acc = .ok (Lib.collect g l acc) := by
  intro l
  induction l with
  | nil =>
    intro acc _
    rfl
  | cons a l ih =>
    intro acc h
    have hrest : ∀ b ∈ l, f b = .ok (g b) := fun b hb => h b (List.mem_cons_of_mem a hb)
    rw [collect, Lib.collect, h a List.mem_cons_self]
    cases hga : g a with
    | none => exact ih acc hrest
    | some b => exact ih (pushNew acc b) hrest

theorem mapM_ok {f : α → MayPanic β} {g : α → β} : ∀ l : List α,
    (∀ a ∈ l, f a = .ok (g a)) → l.mapM f = .ok (l.map g) := by
  intro l
  induction l with
  | nil =>
    intro _
    rfl
  | cons a l ih =>
    intro h
    rw [List.mapM_cons, h a List.mem_cons_self, ih fun b hb => h b (List.mem_cons_of_mem a hb)]
    rfl

/-- A loop over a slice, seen as a loop over the indices of the slice. -/
theorem collect_slice_ok [DecidableEq β] {f : α → MayPanic (Option β)} {g : Nat → Option β}
    {l : List α} (h : ∀ (i : Nat) (a : α), l[i]? = some a → f a = .ok (g i)) :
    ∀ (k start : Nat) (acc : List β), start + k ≤ l.length →
      collect f ((l.drop start).take k) acc = .ok (Lib.collect g (List.range' start k) acc) := by
  intro k
  induction k with
  | zero =>
    intro start acc _
    rw [List.take_zero]
    rfl
  | succ k ih =>
    intro start acc hin
    have hlt : start < l.length := by omega
    rw [List.drop_eq_getElem_cons hlt, List.take_succ_cons, collect, List.range'_succ, Lib.collect,
      h start _ (List.getElem?_eq_getElem hlt)]
    cases hg : g start with
    | none => exact ih (start + 1) acc (by omega)
    | some b => exact ih (start + 1) _ (by omega)

/-- A fold goes through when each step does on what the steps before it leave. -/
theorem foldlM_ok {σ : Type} {f : σ → α → MayPanic σ} {g : σ → α → σ} : ∀ (l : List α) (s : σ),
    (∀ a ∈ l, ∀ s, f s a = .ok (g s a)) → l.foldlM f s = .ok (l.foldl g s) := by
  intro l
  induction l with
  | nil =>
    intro s _
    rfl
  | cons a l ih =>
    intro s h
    rw [List.foldlM_cons, h a List.mem_cons_self, List.foldl_cons]
    exact ih (g s a) fun b hb => h b (List.mem_cons_of_mem a hb)

end

end MayPanic

/-! ## Early returns -/

section

variable {ε α β : Type}

/-- An `Except` that is there already. -/
def given (r : Except ε α) : ExceptT ε MayPanic α := ExceptT.mk (.ok r)

/-- An `Option` that is there already. -/
def givenSome (o : Option α) : OptionT MayPanic α := OptionT.mk (.ok o)

/-- `x` does not crash, and returns what `y` does. -/
def Agrees (x : ExceptT ε MayPanic α) (y : Except ε α) : Prop := x.run = .ok y

/-- `x` does not crash, and returns what `y` does. -/
def AgreesSome (x : OptionT MayPanic α) (y : Option α) : Prop := x.run = .ok y

namespace Agrees

variable {x : ExceptT ε MayPanic α} {y : Except ε α}

theorem of (r : Except ε α) : Agrees (given r) r := rfl

theorem pure (a : α) : Agrees (Pure.pure a : ExceptT ε MayPanic α) (.ok a) := rfl

theorem bind {f : α → ExceptT ε MayPanic β} {g : α → Except ε β} (h : Agrees x y)
    (hf : ∀ a, y = .ok a → Agrees (f a) (g a)) : Agrees (x >>= f) (y >>= g) := by
  have hrun : (x >>= f).run = x.run >>= ExceptT.bindCont f := rfl
  rw [Agrees, hrun, h]
  cases y with
  | error e => rfl
  | ok a => exact hf a rfl

/-- A step that may crash and does not. -/
theorem step {c : MayPanic α} {a : α} {f : α → ExceptT ε MayPanic β} {z : Except ε β}
    (hc : c = .ok a) (hf : Agrees (f a) z) : Agrees (liftM c >>= f) z := by
  subst hc
  exact hf

end Agrees

namespace AgreesSome

variable {x : OptionT MayPanic α} {y : Option α}

theorem of (o : Option α) : AgreesSome (givenSome o) o := rfl

theorem pure (a : α) : AgreesSome (Pure.pure a : OptionT MayPanic α) (some a) := rfl

theorem bind {f : α → OptionT MayPanic β} {g : α → Option β} (h : AgreesSome x y)
    (hf : ∀ a, y = some a → AgreesSome (f a) (g a)) : AgreesSome (x >>= f) (y >>= g) := by
  rw [AgreesSome, OptionT.run_bind, h]
  cases y with
  | none => rfl
  | some a => exact hf a rfl

/-- A step that may crash and does not. -/
theorem step {c : MayPanic α} {a : α} {f : α → OptionT MayPanic β} {z : Option β}
    (hc : c = .ok a) (hf : AgreesSome (f a) z) : AgreesSome (liftM c >>= f) z := by
  subst hc
  exact hf

end AgreesSome

end

/-! ## Computations with a state -/

section

variable {σ α β : Type}

/-- A step that may crash, in a computation that does other things too. -/
def checked {m : Type → Type} [Monad m] (c : MayPanic α) : ExceptT Panic m α := ExceptT.mk (pure c)

/-- From every state `x` does not crash and does what `y` does, with a result for which `P`
    holds. -/
def AgreesWith (P : α → Prop) (x : ExceptT Panic (StateM σ) α) (y : StateM σ α) : Prop :=
  ∀ s, (x.run).run s = (.ok (y.run s).1, (y.run s).2) ∧ P (y.run s).1

namespace AgreesWith

variable {P : α → Prop} {Q : β → Prop} {x : ExceptT Panic (StateM σ) α} {y : StateM σ α}

theorem pure {a : α} (h : P a) : AgreesWith P (Pure.pure a) (Pure.pure a : StateM σ α) := by
  intro s
  exact ⟨rfl, h⟩

/-- A step that cannot crash. -/
theorem of (h : ∀ s, P (y.run s).1) : AgreesWith P (liftM y) y := by
  intro s
  exact ⟨rfl, h s⟩

theorem bind {f : α → ExceptT Panic (StateM σ) β} {g : α → StateM σ β} (h : AgreesWith P x y)
    (hf : ∀ a, P a → AgreesWith Q (f a) (g a)) : AgreesWith Q (x >>= f) (y >>= g) := by
  intro s
  obtain ⟨hrun, hp⟩ := h s
  have hbind : ((x >>= f).run).run s = ((ExceptT.bindCont f ((x.run).run s).1).run
      ((x.run).run s).2) := rfl
  rw [hbind, hrun]
  exact hf _ hp (y.run s).2

/-- A step that may crash and does not. -/
theorem step {c : MayPanic β} {b : β} {f : β → ExceptT Panic (StateM σ) α} (hc : c = .ok b)
    (hf : AgreesWith P (f b) y) : AgreesWith P (checked c >>= f) y := by
  subst hc
  exact hf

/-- What `x` does by itself. -/
theorem triple (h : AgreesWith P x y) :
    Triple (fun _ => True) x.run fun result _ => ∃ a, result = .ok a ∧ P a := by
  intro s _
  rw [(h s).1]
  exact ⟨_, rfl, (h s).2⟩

end AgreesWith

end

end Lib
end SteamInputLease
