import SteamInputLease.Lib.Checked
import Mathlib.Tactic.Common

/-!
# Programs that call out

A program is the sequence of its calls: each waits for an answer, and between two calls anything
else may happen. `act` says what a call does to the state when it is answered. `Ensures` is what a
program guarantees to the others at each of its calls, and what holds when it returns; the rules
follow the monad.

A program is run on a stream of answers. `Yields` is what holds of the calls of every run and of
its result, and `Mirrors` compares two programs that are answered alike.
-/

namespace SteamInputLease
namespace Lib

/-- A program with calls in `κ`, answers in `ρ` and a result in `α`. -/
inductive Program (κ ρ α : Type)
  | ret (a : α)
  | call (c : κ) (next : ρ → Program κ ρ α)

namespace Program

section

variable {κ ρ α β : Type}

/-- A call, as a program that returns the answer. -/
def ask (c : κ) : Program κ ρ ρ := .call c .ret

def andThen : Program κ ρ α → (α → Program κ ρ β) → Program κ ρ β
  | .ret a, f => f a
  | .call c next, f => .call c fun answer => (next answer).andThen f

instance : Monad (Program κ ρ) where
  pure := .ret
  bind := andThen

end

section

variable {σ κ ρ α β : Type} {act : σ → κ → ρ → Option σ} {G : σ → σ → Prop}
  {Q Q' : α → σ → Prop} {R : β → σ → Prop} {x : Program κ ρ α} {f : α → Program κ ρ β} {s : σ}

/-- From `s`, each call of the program changes the state as `G` allows, and `Q` holds at its
    end. -/
def Ensures (act : σ → κ → ρ → Option σ) (G : σ → σ → Prop) (Q : α → σ → Prop) :
    Program κ ρ α → σ → Prop
  | .ret a, s => Q a s
  | .call c next, s => ∀ answer s', act s c answer = some s' →
      G s s' ∧ Ensures act G Q (next answer) s'

theorem Ensures.pure {a : α} (h : Q a s) : Ensures act G Q (pure a) s := h

/-- A call, and what comes behind it. -/
theorem Ensures.ask {c : κ} {f : ρ → Program κ ρ β}
    (h : ∀ answer s', act s c answer = some s' → G s s' ∧ Ensures act G R (f answer) s') :
    Ensures act G R (Program.ask c >>= f) s := h

/-- The second program starts where the first one ended. -/
theorem Ensures.bind (hx : Ensures act G Q x s)
    (hf : ∀ a s', Q a s' → Ensures act G R (f a) s') : Ensures act G R (x >>= f) s := by
  show Ensures act G R (x.andThen f) s
  induction x generalizing s with
  | ret a => exact hf a s hx
  | call c next ih =>
    intro answer s' hact
    obtain ⟨hG, hnext⟩ := hx answer s' hact
    exact ⟨hG, ih answer hnext⟩

theorem Ensures.imp (hx : Ensures act G Q x s) (h : ∀ a s', Q a s' → Q' a s') :
    Ensures act G Q' x s := by
  induction x generalizing s with
  | ret a => exact h a s hx
  | call c next ih =>
    intro answer s' hact
    obtain ⟨hG, hnext⟩ := hx answer s' hact
    exact ⟨hG, ih answer hnext⟩

end

/-! ## Runs -/

section

variable {κ κ' ρ α β : Type}

/-- The calls with their answers, and the result, when the calls are answered in turn. -/
def run : Program κ ρ α → (Nat → ρ) → List (κ × ρ) × α
  | .ret a, _ => ([], a)
  | .call c next, answers =>
    let rest := (next (answers 0)).run fun i => answers (i + 1)
    ((c, answers 0) :: rest.1, rest.2)

/-- The result, and the part of the log that is left, where the calls are answered from a log; `none`
    where it does not last. -/
def replay : Program κ ρ α → List (κ × ρ) → Option (α × List (κ × ρ))
  | .ret a, log => some (a, log)
  | .call _ _, [] => none
  | .call _ next, e :: log => (next e.2).replay log

/-- However the calls are answered, `P` holds of the calls with their answers and of the
    result. -/
def Yields (P : List (κ × ρ) → α → Prop) : Program κ ρ α → Prop
  | .ret a => P [] a
  | .call c next => ∀ answer, Yields (fun log => P ((c, answer) :: log)) (next answer)

variable {P P' : List (κ × ρ) → α → Prop} {R : List (κ × ρ) → β → Prop} {x : Program κ ρ α}
  {f : α → Program κ ρ β}

theorem Yields.pure {a : α} (h : P [] a) : Yields P (pure a) := h

theorem Yields.ask {c : κ} {f : ρ → Program κ ρ β}
    (h : ∀ answer, Yields (fun log => R ((c, answer) :: log)) (f answer)) :
    Yields R (Program.ask c >>= f) := h

theorem Yields.imp (hx : Yields P x) (h : ∀ log a, P log a → P' log a) : Yields P' x := by
  induction x generalizing P P' with
  | ret a => exact h [] a hx
  | call c next ih =>
    intro answer
    exact ih answer (hx answer) fun log a => h ((c, answer) :: log) a

theorem Yields.of_forall (h : ∀ log a, P log a) : Yields P x := by
  induction x generalizing P with
  | ret a => exact h [] a
  | call c next ih =>
    intro answer
    exact ih answer fun log a => h ((c, answer) :: log) a

/-- Two specifications of one program. -/
theorem Yields.and (hx : Yields P x) (hx' : Yields P' x) :
    Yields (fun log a => P log a ∧ P' log a) x := by
  induction x generalizing P P' with
  | ret a => exact ⟨hx, hx'⟩
  | call c next ih =>
    intro answer
    exact ih answer (hx answer) (hx' answer)

/-- The calls of the second program come behind those of the first. -/
theorem Yields.bind (hx : Yields P x)
    (hf : ∀ log a, P log a → Yields (fun rest => R (log ++ rest)) (f a)) : Yields R (x >>= f) := by
  show Yields R (x.andThen f)
  induction x generalizing P R with
  | ret a => exact hf [] a hx
  | call c next ih =>
    intro answer
    exact ih answer (hx answer) fun log a => hf ((c, answer) :: log) a

theorem Yields.run (hx : Yields P x) (answers : Nat → ρ) :
    P (x.run answers).1 (x.run answers).2 := by
  induction x generalizing P answers with
  | ret a => exact hx
  | call c next ih => exact ih (answers 0) (hx (answers 0)) fun i => answers (i + 1)

/-- A run is replayed from its own log, whatever comes behind it. -/
theorem yields_replay (x : Program κ ρ α) :
    x.Yields fun log a => ∀ more, x.replay (log ++ more) = some (a, more) := by
  induction x with
  | ret a => exact fun _ => rfl
  | call c next ih => exact fun answer => ih answer

/-- The first part of a log, cut off where the calls stop to satisfy `p`. -/
theorem log_cut {ε : Type} {p : ε → Bool} {first log : List ε} (hfirst : ∀ e ∈ first, p e = true)
    (hhead : ∀ e, log.head? = some e → p e = false) :
    (first ++ log).takeWhile p = first ∧ (first ++ log).dropWhile p = log := by
  rw [List.takeWhile_append_of_pos hfirst, List.dropWhile_append_of_pos hfirst]
  cases log with
  | nil => exact ⟨List.append_nil _, rfl⟩
  | cons e log =>
    have he := hhead e rfl
    rw [List.takeWhile_cons_of_neg (by simp [he]), List.dropWhile_cons_of_neg (by simp [he])]
    exact ⟨List.append_nil _, rfl⟩

/-- Every call of every run satisfies `p`. -/
def Only (p : κ → Prop) (x : Program κ ρ α) : Prop := x.Yields fun log _ => ∀ e ∈ log, p e.1

theorem Only.pure {p : κ → Prop} (a : α) : Only p (Pure.pure a : Program κ ρ α) := by
  intro e he
  cases he

theorem Only.ask {p : κ → Prop} {c : κ} {f : ρ → Program κ ρ β} (hc : p c)
    (h : ∀ answer, Only p (f answer)) : Only p (Program.ask c >>= f) := by
  refine Yields.ask fun answer => (h answer).imp fun log b hlog e he => ?_
  rcases List.mem_cons.mp he with rfl | he
  · exact hc
  · exact hlog e he

theorem Only.bind {p : κ → Prop} (hx : Only p x) (hf : ∀ a, Only p (f a)) :
    Only p (x >>= f) := by
  refine Yields.bind hx fun log a hlog => (hf a).imp fun rest b hrest e he => ?_
  exact (List.mem_append.mp he).elim (hlog e) (hrest e)

/-- What is done to the result behind the calls. -/
theorem run_bind_pure (x : Program κ ρ α) (h : α → β) (answers : Nat → ρ) :
    (x >>= fun a => Pure.pure (h a)).run answers = ((x.run answers).1, h (x.run answers).2) := by
  show (x.andThen fun a => Pure.pure (h a)).run answers = _
  induction x generalizing answers with
  | ret a => rfl
  | call c next ih =>
    have hrest := ih (answers 0) fun i => answers (i + 1)
    exact congrArg (fun r : List (κ × ρ) × β => ((c, answers 0) :: r.1, r.2)) hrest

/-- Answered alike, `y` makes the calls of `x` under other names and has the same result. -/
def Mirrors (g : κ → κ') (x : Program κ ρ α) (y : Program κ' ρ α) : Prop :=
  ∀ answers, y.run answers = ((x.run answers).1.map (Prod.map g id), (x.run answers).2)

variable {g : κ → κ'}

theorem Mirrors.pure (a : α) : Mirrors g (Pure.pure a : Program κ ρ α) (Pure.pure a) :=
  fun _ => rfl

theorem Mirrors.ask {c : κ} {f : ρ → Program κ ρ β} {f' : ρ → Program κ' ρ β}
    (h : ∀ answer, Mirrors g (f answer) (f' answer)) :
    Mirrors g (Program.ask c >>= f) (Program.ask (g c) >>= f') := by
  intro answers
  have hrest := h (answers 0) fun i => answers (i + 1)
  exact congrArg (fun r : List (κ' × ρ) × β => ((g c, answers 0) :: r.1, r.2)) hrest

end

/-! ## Programs that can crash -/

section

variable {ε κ κ' ρ α β : Type}

/-- A call of a program that can fail. -/
def calling (c : κ) : ExceptT ε (Program κ ρ) ρ := liftM (ask c : Program κ ρ ρ)

variable {R : List (κ × ρ) → Except ε β → Prop} {P : List (κ × ρ) → α → Prop}

theorem Yields.calling {c : κ} {f : ρ → ExceptT ε (Program κ ρ) β}
    (h : ∀ answer, Yields (fun log => R ((c, answer) :: log)) (f answer).run) :
    Yields R (Program.calling c >>= f).run := h

/-- A part that cannot fail, at the end. -/
theorem Yields.last {x : Program κ ρ α} (hx : Yields P x) :
    Yields (fun log (r : Except ε α) => ∃ a, r = .ok a ∧ P log a)
      (liftM x : ExceptT ε (Program κ ρ) α).run := by
  refine hx.bind fun log a ha => .pure ⟨a, rfl, ?_⟩
  rwa [List.append_nil]

/-- A part that did not fail, and what comes behind it. -/
theorem Yields.through {x : ExceptT ε (Program κ ρ) α} {f : α → ExceptT ε (Program κ ρ) β}
    (hx : Yields (fun log r => ∃ a, r = .ok a ∧ P log a) x.run)
    (hf : ∀ log a, P log a → Yields (fun rest => R (log ++ rest)) (f a).run) :
    Yields R (x >>= f).run := by
  refine Yields.bind hx fun log r hr => ?_
  obtain ⟨a, rfl, ha⟩ := hr
  exact hf log a ha

/-- A part that cannot fail, and what comes behind it. -/
theorem Yields.lift {x : Program κ ρ α} {f : α → ExceptT ε (Program κ ρ) β} (hx : Yields P x)
    (hf : ∀ log a, P log a → Yields (fun rest => R (log ++ rest)) (f a).run) :
    Yields R ((liftM x : ExceptT ε (Program κ ρ) α) >>= f).run := hx.last.through hf

/-- A step that may crash and does not. -/
theorem Yields.step {R : List (κ × ρ) → Except Panic β → Prop} {c : MayPanic α} {a : α}
    {f : α → ExceptT Panic (Program κ ρ) β} (hc : c = .ok a) (hf : Yields R (f a).run) :
    Yields R (checked c >>= f).run := by
  subst hc
  exact hf

theorem Mirrors.calling {g : κ → κ'} {c : κ} {f : ρ → ExceptT ε (Program κ ρ) β}
    {f' : ρ → ExceptT ε (Program κ' ρ) β} (h : ∀ answer, Mirrors g (f answer).run (f' answer).run) :
    Mirrors g (Program.calling c >>= f).run (Program.calling (g c) >>= f').run := Mirrors.ask h

/-- A step that both programs make, and that may crash in both. -/
theorem Mirrors.step {g : κ → κ'} {c : MayPanic α} {f : α → ExceptT Panic (Program κ ρ) β}
    {f' : α → ExceptT Panic (Program κ' ρ) β} (h : ∀ a, Mirrors g (f a).run (f' a).run) :
    Mirrors g (checked c >>= f).run (checked c >>= f').run := by
  cases c with
  | error e => exact .pure _
  | ok a => exact h a

end

end Program

end Lib
end SteamInputLease
