import Mathlib.Logic.Function.Basic
import Mathlib.Tactic.Common

/-!
# Open addressing with tombstones and a bounded probe window

A table is a function from indices to slots, and a key probes the indices `at_ k 0`, `at_ k 1`, …
up to a limit. A search stops at the first empty slot, and an insertion takes the first slot that
is not live, so what makes a table `Sound` is that no slot becomes empty again: then every live
key is where a search for it looks, and a sound table is a finite map (`get`).
-/

namespace SteamInputLease
namespace Lib

/-- A slot of an open-addressing table. -/
inductive Slot (K V : Type)
  | empty
  | tomb
  | live (k : K) (v : V)
  deriving DecidableEq, Repr

namespace ProbeTable

variable {K V ι : Type}

/-! ## Probing -/

/-- The index with key `k` among `n` probes from offset `o`, before the first empty slot. -/
def find [DecidableEq K] (at_ : Nat → ι) (slots : ι → Slot K V) (k : K) : Nat → Nat → Option ι
  | 0, _ => none
  | n + 1, o =>
    match slots (at_ o) with
    | .empty => none
    | .tomb => find at_ slots k n (o + 1)
    | .live k' _ => if k' = k then some (at_ o) else find at_ slots k n (o + 1)

/-- The first index that is not live among `n` probes from offset `o`. -/
def firstFree (at_ : Nat → ι) (slots : ι → Slot K V) : Nat → Nat → Option ι
  | 0, _ => none
  | n + 1, o =>
    match slots (at_ o) with
    | .live _ _ => firstFree at_ slots n (o + 1)
    | _ => some (at_ o)

section

variable {at_ : Nat → ι} {slots : ι → Slot K V} {n o : Nat}

theorem find_empty [DecidableEq K] {k : K} (h : slots (at_ o) = .empty) :
    find at_ slots k (n + 1) o = none := by
  simp only [find, h]

theorem find_tomb [DecidableEq K] {k : K} (h : slots (at_ o) = .tomb) :
    find at_ slots k (n + 1) o = find at_ slots k n (o + 1) := by
  simp only [find, h]

theorem find_self [DecidableEq K] {k : K} {v : V} (h : slots (at_ o) = .live k v) :
    find at_ slots k (n + 1) o = some (at_ o) := by
  simp only [find, h, if_true]

theorem find_other [DecidableEq K] {k k' : K} {v : V} (h : slots (at_ o) = .live k' v)
    (hk : k' ≠ k) : find at_ slots k (n + 1) o = find at_ slots k n (o + 1) := by
  simp only [find, h, if_neg hk]

theorem firstFree_free (h : ∀ k v, slots (at_ o) ≠ .live k v) :
    firstFree at_ slots (n + 1) o = some (at_ o) := by
  rw [firstFree]
  split
  · next k v hl => exact absurd hl (h k v)
  · rfl

theorem firstFree_live {k : K} {v : V} (h : slots (at_ o) = .live k v) :
    firstFree at_ slots (n + 1) o = firstFree at_ slots n (o + 1) := by
  simp only [firstFree, h]

end

theorem find_live [DecidableEq K] {at_ : Nat → ι} {slots : ι → Slot K V} {k : K} {i : ι} :
    ∀ {n o : Nat}, find at_ slots k n o = some i → ∃ v, slots i = .live k v := by
  intro n
  induction n with
  | zero => intro o h; simp [find] at h
  | succ n ih =>
    intro o h
    rw [find] at h
    split at h
    · cases h
    · exact ih h
    · next k' v hk =>
      split at h
      · next heq =>
        cases h
        exact ⟨v, heq ▸ hk⟩
      · exact ih h

/-- A search finds a key that no empty slot hides. -/
theorem find_isSome [DecidableEq K] {at_ : Nat → ι} {slots : ι → Slot K V} {k : K} {v : V} :
    ∀ {n o a : Nat}, a < n → slots (at_ (o + a)) = .live k v →
      (∀ b, b < a → slots (at_ (o + b)) ≠ .empty) → (find at_ slots k n o).isSome := by
  intro n
  induction n with
  | zero => intro o a ha; exact absurd ha (Nat.not_lt_zero a)
  | succ n ih =>
    intro o a ha hlive hpath
    rw [find]
    cases a with
    | zero =>
      rw [Nat.add_zero] at hlive
      simp [hlive]
    | succ a =>
      have hne : slots (at_ o) ≠ .empty := by simpa using hpath 0 (Nat.succ_pos a)
      have hrest : (find at_ slots k n (o + 1)).isSome := by
        have hshift : ∀ b, o + (b + 1) = o + 1 + b := fun b => (Nat.add_right_comm o b 1)
        refine ih (Nat.lt_of_succ_lt_succ ha) (hshift a ▸ hlive) ?_
        intro b hb
        exact hshift b ▸ hpath (b + 1) (Nat.succ_lt_succ hb)
      split
      · next hemp => exact absurd hemp hne
      · exact hrest
      · split
        · rfl
        · exact hrest

theorem firstFree_some {at_ : Nat → ι} {slots : ι → Slot K V} {i : ι} :
    ∀ {n o : Nat}, firstFree at_ slots n o = some i →
      (∀ k v, slots i ≠ .live k v) ∧
      ∃ a, a < n ∧ at_ (o + a) = i ∧ ∀ b, b < a → ∃ k v, slots (at_ (o + b)) = .live k v := by
  intro n
  induction n with
  | zero => intro o h; simp [firstFree] at h
  | succ n ih =>
    intro o h
    rw [firstFree] at h
    split at h
    · next k v hlive =>
      obtain ⟨hfree, a, ha, hat, hbefore⟩ := ih h
      refine ⟨hfree, a + 1, Nat.succ_lt_succ ha, by rw [← hat, Nat.add_right_comm]; rfl, ?_⟩
      intro b hb
      cases b with
      | zero => exact ⟨k, v, hlive⟩
      | succ b =>
        have := hbefore b (Nat.lt_of_succ_lt_succ hb)
        rwa [Nat.add_right_comm] at this
    · next hfree =>
      cases h
      exact ⟨hfree, 0, Nat.succ_pos n, rfl, fun b hb => absurd hb (Nat.not_lt_zero b)⟩

/-- There is no free slot exactly when the window is full of live ones. -/
theorem firstFree_none {at_ : Nat → ι} {slots : ι → Slot K V} :
    ∀ {n o : Nat}, firstFree at_ slots n o = none ↔
      ∀ a, a < n → ∃ k v, slots (at_ (o + a)) = .live k v := by
  intro n
  induction n with
  | zero => intro o; simp [firstFree]
  | succ n ih =>
    intro o
    rw [firstFree]
    split
    · next k v hlive =>
      rw [ih]
      constructor
      · intro h a ha
        cases a with
        | zero => exact ⟨k, v, hlive⟩
        | succ a =>
          have := h a (Nat.lt_of_succ_lt_succ ha)
          rwa [Nat.add_right_comm] at this
      · intro h a ha
        have := h (a + 1) (Nat.succ_lt_succ ha)
        rwa [Nat.add_right_comm]
    · next hfree =>
      refine ⟨fun h => (by cases h), fun h => ?_⟩
      obtain ⟨k, v, hlive⟩ := h 0 (Nat.succ_pos n)
      exact absurd hlive (hfree k v)

/-! ## Sound tables -/

/-- No key is live twice, and every live key is reached before an empty slot. -/
structure Sound (at_ : K → Nat → ι) (limit : Nat) (slots : ι → Slot K V) : Prop where
  unique : ∀ i j k v w, slots i = .live k v → slots j = .live k w → i = j
  reach : ∀ i k v, slots i = .live k v →
    ∃ o, o < limit ∧ at_ k o = i ∧ ∀ b, b < o → slots (at_ k b) ≠ .empty

section

variable [DecidableEq K] {at_ : K → Nat → ι} {limit : Nat} {slots : ι → Slot K V}

/-- The finite map a table stands for. -/
def get (at_ : K → Nat → ι) (limit : Nat) (slots : ι → Slot K V) (k : K) : Option V :=
  (find (at_ k) slots k limit 0).bind fun i =>
    match slots i with
    | .live _ v => some v
    | _ => none

theorem Sound.find_eq (h : Sound at_ limit slots) {i : ι} {k : K} {v : V}
    (hi : slots i = .live k v) : find (at_ k) slots k limit 0 = some i := by
  obtain ⟨o, ho, hat, hpath⟩ := h.reach i k v hi
  have hsome : (find (at_ k) slots k limit 0).isSome :=
    find_isSome ho (by rw [Nat.zero_add, hat]; exact hi)
      (by intro b hb; rw [Nat.zero_add]; exact hpath b hb)
  obtain ⟨j, hj⟩ := Option.isSome_iff_exists.mp hsome
  obtain ⟨w, hw⟩ := find_live hj
  rw [hj, h.unique j i k w v hw hi]

theorem Sound.get_eq_some (h : Sound at_ limit slots) {k : K} {v : V} :
    get at_ limit slots k = some v ↔ ∃ i, slots i = .live k v := by
  constructor
  · intro hg
    obtain ⟨i, hi, hv⟩ := Option.bind_eq_some_iff.mp hg
    obtain ⟨w, hw⟩ := find_live hi
    rw [hw] at hv
    cases hv
    exact ⟨i, hw⟩
  · intro hm
    obtain ⟨i, hi⟩ := hm
    rw [get, h.find_eq hi, Option.bind_some, hi]

theorem Sound.get_eq_none (h : Sound at_ limit slots) {k : K} :
    get at_ limit slots k = none ↔ ∀ i v, slots i ≠ .live k v := by
  rw [Option.eq_none_iff_forall_ne_some]
  constructor
  · intro hg i v hi
    exact hg v (h.get_eq_some.mpr ⟨i, hi⟩)
  · intro hno v hg
    obtain ⟨i, hi⟩ := h.get_eq_some.mp hg
    exact hno i v hi

theorem Sound.find_none (h : Sound at_ limit slots) {k : K} :
    find (at_ k) slots k limit 0 = none ↔ ∀ i v, slots i ≠ .live k v := by
  constructor
  · intro hf i v hi
    rw [h.find_eq hi] at hf
    cases hf
  · intro hno
    cases hf : find (at_ k) slots k limit 0 with
    | none => rfl
    | some i =>
      obtain ⟨v, hv⟩ := find_live hf
      exact absurd hv (hno i v)

end

/-! ## Updates -/

section

variable [DecidableEq ι] {at_ : K → Nat → ι} {limit : Nat} {slots : ι → Slot K V} {i : ι} {k : K}
  {v w : V}

/-- A slot that does not become empty hides nothing. -/
theorem path_update {s : Slot K V} (hs : s ≠ .empty) {k' : K} {o : Nat}
    (h : ∀ b, b < o → slots (at_ k' b) ≠ .empty) :
    ∀ b, b < o → Function.update slots i s (at_ k' b) ≠ .empty := by
  intro b hb
  by_cases hi : at_ k' b = i
  · rw [hi, Function.update_self]
    exact hs
  · rw [Function.update_of_ne hi]
    exact h b hb

/-- Inserting an absent key at its first free slot. -/
theorem Sound.insert (h : Sound at_ limit slots) (hfree : firstFree (at_ k) slots limit 0 = some i)
    (habsent : ∀ j w, slots j ≠ .live k w) : Sound at_ limit (Function.update slots i (.live k v)) := by
  obtain ⟨hno, o, ho, hat, hbefore⟩ := firstFree_some hfree
  have hold : ∀ j k' w', j ≠ i → Function.update slots i (.live k v) j = .live k' w' →
      slots j = .live k' w' := by
    intro j k' w' hj hl
    rwa [Function.update_of_ne hj] at hl
  refine ⟨?_, ?_⟩
  · intro j₁ j₂ k' v₁ v₂ h₁ h₂
    by_cases hj₁ : j₁ = i <;> by_cases hj₂ : j₂ = i
    · rw [hj₁, hj₂]
    · rw [hj₁, Function.update_self, Slot.live.injEq] at h₁
      exact absurd (hold j₂ _ _ hj₂ h₂) (h₁.1 ▸ habsent j₂ v₂)
    · rw [hj₂, Function.update_self, Slot.live.injEq] at h₂
      exact absurd (hold j₁ _ _ hj₁ h₁) (h₂.1 ▸ habsent j₁ v₁)
    · exact h.unique _ _ _ _ _ (hold _ _ _ hj₁ h₁) (hold _ _ _ hj₂ h₂)
  · intro j k' w' hl
    by_cases hj : j = i
    · subst hj
      rw [Function.update_self, Slot.live.injEq] at hl
      obtain ⟨rfl, _⟩ := hl
      refine ⟨o, ho, by rw [← hat, Nat.zero_add], path_update (by simp) ?_⟩
      intro b hb
      obtain ⟨k', w', hlive⟩ := hbefore b hb
      rw [Nat.zero_add] at hlive
      simp [hlive]
    · obtain ⟨o', ho', hat', hpath⟩ := h.reach j k' w' (hold j k' w' hj hl)
      exact ⟨o', ho', hat', path_update (by simp) hpath⟩

/-- Giving a live key another value. -/
theorem Sound.set (h : Sound at_ limit slots) (hi : slots i = .live k w) :
    Sound at_ limit (Function.update slots i (.live k v)) := by
  have hold : ∀ j k' w', Function.update slots i (.live k v) j = .live k' w' →
      ∃ w₀, slots j = .live k' w₀ := by
    intro j k' w' hl
    by_cases hj : j = i
    · subst hj
      rw [Function.update_self, Slot.live.injEq] at hl
      exact ⟨w, hl.1 ▸ hi⟩
    · exact ⟨w', by rwa [Function.update_of_ne hj] at hl⟩
  refine ⟨?_, ?_⟩
  · intro j₁ j₂ k' v₁ v₂ h₁ h₂
    obtain ⟨w₁, h₁⟩ := hold _ _ _ h₁
    obtain ⟨w₂, h₂⟩ := hold _ _ _ h₂
    exact h.unique _ _ _ _ _ h₁ h₂
  · intro j k' w' hl
    obtain ⟨w₀, hl⟩ := hold _ _ _ hl
    obtain ⟨o, ho, hat, hpath⟩ := h.reach j k' w₀ hl
    exact ⟨o, ho, hat, path_update (by simp) hpath⟩

/-- Burying a live key. -/
theorem Sound.erase (h : Sound at_ limit slots) : Sound at_ limit (Function.update slots i .tomb) := by
  have hold : ∀ j k' w', Function.update slots i .tomb j = .live k' w' → slots j = .live k' w' := by
    intro j k' w' hl
    by_cases hj : j = i
    · subst hj
      rw [Function.update_self] at hl
      cases hl
    · rwa [Function.update_of_ne hj] at hl
  refine ⟨fun j₁ j₂ k' v₁ v₂ h₁ h₂ => h.unique _ _ _ _ _ (hold _ _ _ h₁) (hold _ _ _ h₂), ?_⟩
  intro j k' w' hl
  obtain ⟨o, ho, hat, hpath⟩ := h.reach j k' w' (hold _ _ _ hl)
  exact ⟨o, ho, hat, path_update (by simp) hpath⟩

variable [DecidableEq K]

/-- The map after a slot of key `k` became `live k v`. -/
theorem get_live (h : Sound at_ limit slots)
    (h' : Sound at_ limit (Function.update slots i (.live k v)))
    (hi : ∀ k' w, slots i = .live k' w → k' = k) (k' : K) :
    get at_ limit (Function.update slots i (.live k v)) k' =
      if k' = k then some v else get at_ limit slots k' := by
  split
  · next hk =>
    subst hk
    exact h'.get_eq_some.mpr ⟨i, Function.update_self ..⟩
  · next hk =>
    refine Option.ext fun u => ?_
    rw [h.get_eq_some, h'.get_eq_some]
    constructor
    · intro hm
      obtain ⟨j, hj⟩ := hm
      by_cases hji : j = i
      · subst hji
        rw [Function.update_self, Slot.live.injEq] at hj
        exact absurd hj.1.symm hk
      · exact ⟨j, by rwa [Function.update_of_ne hji] at hj⟩
    · intro hm
      obtain ⟨j, hj⟩ := hm
      have hji : j ≠ i := by
        rintro rfl
        exact hk (hi k' u hj)
      exact ⟨j, by rwa [Function.update_of_ne hji]⟩

/-- The map after a slot of key `k` was buried. -/
theorem get_tomb (h : Sound at_ limit slots) (hi : slots i = .live k w) (k' : K) :
    get at_ limit (Function.update slots i .tomb) k' =
      if k' = k then none else get at_ limit slots k' := by
  have h' : Sound at_ limit (Function.update slots i .tomb) := h.erase
  split
  · next hk =>
    subst hk
    rw [h'.get_eq_none]
    intro j u hj
    by_cases hji : j = i
    · subst hji
      rw [Function.update_self] at hj
      cases hj
    · rw [Function.update_of_ne hji] at hj
      exact hji (h.unique _ _ _ _ _ hj hi)
  · next hk =>
    refine Option.ext fun u => ?_
    rw [h.get_eq_some, h'.get_eq_some]
    constructor
    · intro hm
      obtain ⟨j, hj⟩ := hm
      by_cases hji : j = i
      · subst hji
        rw [Function.update_self] at hj
        cases hj
      · exact ⟨j, by rwa [Function.update_of_ne hji] at hj⟩
    · intro hm
      obtain ⟨j, hj⟩ := hm
      have hji : j ≠ i := by
        rintro rfl
        rw [hi, Slot.live.injEq] at hj
        exact hk hj.1.symm
      exact ⟨j, by rwa [Function.update_of_ne hji]⟩

end

end ProbeTable
end Lib
end SteamInputLease
