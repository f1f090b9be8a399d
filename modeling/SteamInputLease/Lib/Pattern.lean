import Mathlib.Data.List.Forall2

/-!
# Prefixes, place by place

A pattern lists what is allowed at each place of a prefix; a recogniser tests one place after the
other. When the tests decide what is allowed, the recogniser decides the pattern.
-/

namespace SteamInputLease
namespace Lib

section

variable {α β : Type} [DecidableEq α]

/-- The codes begin with one of those allowed at each place. -/
def StartsWith : List (List α) → List α → Prop
  | [], _ => True
  | _ :: _, [] => False
  | allowed :: pattern, code :: codes => code ∈ allowed ∧ StartsWith pattern codes

/-- One test for each place. -/
def passes : List (β → Bool) → List β → Bool
  | [], _ => true
  | _ :: _, [] => false
  | test :: tests, b :: bs => test b && passes tests bs

/-- The test of a place, on units that stand for codes. -/
def allows (code : β → α) (allowed : List α) (b : β) : Bool := decide (code b ∈ allowed)

theorem passes_congr {bs : List β} {ss ts : List (β → Bool)}
    (h : List.Forall₂ (fun s t => ∀ b, s b = t b) ss ts) : passes ss bs = passes ts bs := by
  induction h generalizing bs with
  | nil => rfl
  | cons hst _ ih =>
    cases bs with
    | nil => rfl
    | cons b bs => rw [passes, passes, hst b, ih]

theorem passes_iff_startsWith (code : β → α) : ∀ (pattern : List (List α)) (bs : List β),
    passes (pattern.map (allows code)) bs = true ↔ StartsWith pattern (bs.map code) := by
  intro pattern
  induction pattern with
  | nil =>
    intro bs
    exact iff_of_true rfl trivial
  | cons allowed pattern ih =>
    intro bs
    cases bs with
    | nil => exact iff_of_false Bool.false_ne_true id
    | cons b bs =>
      rw [List.map_cons, passes, Bool.and_eq_true, ih, List.map_cons, StartsWith, allows,
        decide_eq_true_eq]

instance decidableStartsWith : ∀ (pattern : List (List α)) (codes : List α),
    Decidable (StartsWith pattern codes)
  | [], _ => .isTrue trivial
  | _ :: _, [] => .isFalse id
  | allowed :: pattern, code :: codes =>
    have := decidableStartsWith pattern codes
    inferInstanceAs (Decidable (code ∈ allowed ∧ StartsWith pattern codes))

end

end Lib
end SteamInputLease
