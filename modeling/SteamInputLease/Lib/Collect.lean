import Mathlib.Data.List.Nodup

/-!
# Loops that collect without repeats

A loop that computes something for each element, skips the elements for which there is nothing,
and pushes the rest unless it has them; and `Except` computations taken apart.
-/

namespace SteamInputLease
namespace Lib

/-- `if !acc.contains(&b) { acc.push(b) }`. -/
def pushNew {β : Type} [DecidableEq β] (acc : List β) (b : β) : List β :=
  if b ∈ acc then acc else acc ++ [b]

/-- The loop over a list, where `none` is a `continue`. -/
def collect {α β : Type} [DecidableEq β] (f : α → Option β) : List α → List β → List β
  | [], acc => acc
  | a :: rest, acc =>
    match f a with
    | none => collect f rest acc
    | some b => collect f rest (pushNew acc b)

section

variable {α β : Type} [DecidableEq β] {f : α → Option β}

theorem mem_pushNew {acc : List β} {b c : β} : c ∈ pushNew acc b ↔ c ∈ acc ∨ c = b := by
  rw [pushNew]
  split
  · next hb =>
    constructor
    · exact .inl
    · rintro (h | rfl)
      · exact h
      · exact hb
  · rw [List.mem_append, List.mem_singleton]

theorem nodup_pushNew {acc : List β} {b : β} (h : acc.Nodup) : (pushNew acc b).Nodup := by
  rw [pushNew]
  split
  · exact h
  · next hb => exact List.nodup_append.mpr ⟨h, List.nodup_singleton b, fun c hc d hd hcd =>
      hb (List.mem_singleton.mp hd ▸ hcd ▸ hc)⟩

theorem mem_collect {b : β} : ∀ (l : List α) (acc : List β),
    b ∈ collect f l acc ↔ b ∈ acc ∨ ∃ a ∈ l, f a = some b := by
  intro l
  induction l with
  | nil =>
    intro acc
    simp [collect]
  | cons a l ih =>
    intro acc
    rw [collect]
    split
    · next hf => simp [ih, hf]
    · next b' hf =>
      rw [ih, mem_pushNew, or_assoc]
      simp [hf, eq_comm]

theorem nodup_collect : ∀ (l : List α) (acc : List β), acc.Nodup → (collect f l acc).Nodup := by
  intro l
  induction l with
  | nil =>
    intro acc h
    exact h
  | cons a l ih =>
    intro acc h
    rw [collect]
    split
    · exact ih acc h
    · exact ih _ (nodup_pushNew h)

theorem collect_append : ∀ (l l' : List α) (acc : List β),
    collect f (l ++ l') acc = collect f l' (collect f l acc) := by
  intro l
  induction l with
  | nil =>
    intro l' acc
    rfl
  | cons a l ih =>
    intro l' acc
    rw [List.cons_append, collect, collect]
    split
    · exact ih l' acc
    · exact ih l' _

theorem collect_flatMap {γ : Type} {g : γ → List α} : ∀ (l : List γ) (acc : List β),
    collect f (l.flatMap g) acc = l.foldl (fun acc c => collect f (g c) acc) acc := by
  intro l
  induction l with
  | nil =>
    intro acc
    rfl
  | cons c l ih =>
    intro acc
    rw [List.flatMap_cons, collect_append, List.foldl_cons, ih]

theorem collect_map {γ : Type} {g : γ → α} : ∀ (l : List γ) (acc : List β),
    collect f (l.map g) acc = collect (f ∘ g) l acc := by
  intro l
  induction l with
  | nil =>
    intro acc
    rfl
  | cons c l ih =>
    intro acc
    rw [List.map_cons, collect, collect, Function.comp_apply]
    split
    · exact ih acc
    · exact ih _

/-- A loop that skips every element. -/
theorem collect_skip : ∀ (l : List α) (acc : List β), (∀ a ∈ l, f a = none) →
    collect f l acc = acc := by
  intro l
  induction l with
  | nil =>
    intro acc _
    rfl
  | cons a l ih =>
    intro acc h
    rw [collect, h a List.mem_cons_self]
    exact ih acc fun b hb => h b (List.mem_cons_of_mem a hb)

end

/-- A list without repeats has length one just when it has one member. -/
theorem length_eq_one_iff_of_nodup {β : Type} {l : List β} (h : l.Nodup) :
    l.length = 1 ↔ ∃ b, ∀ c, c ∈ l ↔ c = b := by
  rw [List.length_eq_one_iff]
  constructor
  · intro hm
    obtain ⟨b, rfl⟩ := hm
    exact ⟨b, fun c => List.mem_singleton⟩
  · intro hm
    obtain ⟨b, hb⟩ := hm
    cases l with
    | nil => exact absurd ((hb b).mpr rfl) List.not_mem_nil
    | cons a rest =>
      have ha : a = b := (hb a).mp List.mem_cons_self
      cases rest with
      | nil => exact ⟨a, rfl⟩
      | cons c rest =>
        have hc : c = b := (hb c).mp (List.mem_cons_of_mem _ List.mem_cons_self)
        exact absurd (ha.trans hc.symm) (List.ne_of_not_mem_cons (List.nodup_cons.mp h).1)

/-! ## `Except` -/

/-- `ok_or`. -/
def okOr {ε α : Type} (e : ε) : Option α → Except ε α
  | none => .error e
  | some a => .ok a

/-- `if !p { return Err(e) }`. -/
def require {ε : Type} (p : Prop) [Decidable p] (e : ε) : Except ε Unit :=
  if p then .ok () else .error e

section

variable {ε α β : Type} {e : ε}

theorem okOr_eq_ok {o : Option α} {a : α} : okOr e o = .ok a ↔ o = some a := by
  cases o <;> simp [okOr]

theorem require_eq_ok {p : Prop} [Decidable p] {u : Unit} : require p e = .ok u ↔ p := by
  rw [require]
  split
  · next hp => exact iff_of_true rfl hp
  · next hp => exact iff_of_false (by rintro ⟨⟩) hp

theorem pure_eq_ok {a b : α} : (pure a : Except ε α) = .ok b ↔ a = b := Except.ok.injEq a b ▸ Iff.rfl

theorem bind_eq_ok {x : Except ε α} {f : α → Except ε β} {b : β} :
    (x >>= f) = .ok b ↔ ∃ a, x = .ok a ∧ f a = .ok b := by
  cases x with
  | error e =>
    constructor
    · rintro ⟨⟩
    · intro hm
      obtain ⟨a, h, _⟩ := hm
      cases h
  | ok a =>
    constructor
    · intro h
      exact ⟨a, rfl, h⟩
    · intro hm
      obtain ⟨a', h, hb⟩ := hm
      cases h
      exact hb

end

end Lib
end SteamInputLease
