import SteamInputLease.Lib.Custody

/-!
# A program among others

A program that calls one environment, as part of one that calls more: its calls go by other names,
and of a larger answer it reads its own part. What it does with what it holds stays the same, and
what is in other hands is not touched.
-/

namespace SteamInputLease
namespace Lib

/-- The program, with its calls under the names `g` and its answers read by `h`. -/
def Program.embed {κ κ' ρ ρ' α : Type} (g : κ → κ') (h : ρ' → ρ) :
    Program κ ρ α → Program κ' ρ' α
  | .ret a => .ret a
  | .call c next => .call (g c) fun a => (next (h a)).embed g h

/-- The calls of its run, under other names. -/
theorem Program.Yields.embed {κ κ' ρ ρ' α : Type} {g : κ → κ'} {h : ρ' → ρ} {x : Program κ ρ α}
    {P : List (κ × ρ) → α → Prop} (hx : x.Yields P) :
    (x.embed g h).Yields fun log a => ∃ own : List (κ × ρ'),
      log = own.map (Prod.map g id) ∧ P (own.map (Prod.map id h)) a := by
  induction x generalizing P with
  | ret a => exact ⟨[], rfl, hx⟩
  | call c next ih =>
    intro a
    refine (ih (h a) (hx (h a))).imp fun log r hrest => ?_
    obtain ⟨own, rfl, hP⟩ := hrest
    exact ⟨(c, a) :: own, rfl, hP⟩

namespace Custody

variable {κ κ' ρ ρ' H H' α : Type} [DecidableEq H] [DecidableEq H'] {K : Custody κ ρ H}
  {K' : Custody κ' ρ' H'} {g : κ → κ'} {h : ρ' → ρ} {name : H → H'}

/-- The calls of `K` are calls of `K'`, and what they name, take and give are the same things. -/
structure Within (K : Custody κ ρ H) (K' : Custody κ' ρ' H') (g : κ → κ') (h : ρ' → ρ)
    (name : H → H') : Prop where
  uses : ∀ c, K'.uses (g c) = (K.uses c).map name
  takes : ∀ c a, K'.takes (g c) a = (K.takes c (h a)).map name
  gives : ∀ c a, K'.gives (g c) a = (K.gives c (h a)).map name

theorem Within.next (hw : Within K K' g h name) {base : Multiset H'} {held : Multiset H} {c : κ}
    {a : ρ'} (ht : K.takes c (h a) ≤ held) :
    K'.next (base + held.map name) (g c) a = base + (K.next held c (h a)).map name := by
  rw [Custody.next, Custody.next, hw.takes, hw.gives, Multiset.map_add,
    add_tsub_assoc_of_le (Multiset.map_le_map ht), add_assoc]
  congr 2
  rw [tsub_eq_iff_eq_add_of_le (Multiset.map_le_map ht), ← Multiset.map_add,
    tsub_add_cancel_of_le ht]

/-- The discipline is kept among others, and their things stay where they are. -/
theorem Guards.embed (hw : Within K K' g h name) {x : Program κ ρ α} {held : Multiset H}
    {post : List (κ × ρ) → α → Multiset H → Prop} (hx : K.Guards post x held)
    (base : Multiset H') :
    K'.Guards (fun log r rest => ∃ own : List (κ × ρ'), log = own.map (Prod.map g id) ∧
        ∃ left, rest = base + left.map name ∧ post (own.map (Prod.map id h)) r left)
      (x.embed g h) (base + held.map name) := by
  induction x generalizing post held with
  | ret a => exact ⟨[], rfl, held, rfl, hx⟩
  | call c next ih =>
    refine ⟨fun k hk => ?_, fun a => ⟨?_, ?_⟩⟩
    · rw [hw.uses] at hk
      obtain ⟨u, hu, rfl⟩ := Multiset.mem_map.mp hk
      exact Multiset.mem_add.mpr (.inr (Multiset.mem_map_of_mem name (hx.1 u hu)))
    · rw [hw.takes]
      exact (Multiset.map_le_map (hx.2 (h a)).1).trans (Multiset.le_add_left _ _)
    · rw [hw.next (hx.2 (h a)).1]
      refine (ih (h a) (hx.2 (h a)).2).imp fun log r rest hrest => ?_
      obtain ⟨own, rfl, left, rfl, hpost⟩ := hrest
      exact ⟨(c, a) :: own, rfl, left, rfl, hpost⟩

end Custody

end Lib
end SteamInputLease
