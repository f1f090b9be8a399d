import Mathlib.Tactic.Ring

/-!
# `LEASE_COUNT`, `PASS_THROUGH_COUNT` and `blocking`

Both counters are `AtomicI32`, so an update wraps at 32 bits; `i32` is that wrap and
`i32_of_range` is the only fact about it the proofs use.
-/

namespace SteamInputLease
namespace Gate

/-- Two's-complement wrap of a 32-bit atomic. -/
def i32 (x : Int) : Int := x.bmod (2 ^ 32)

theorem i32_of_range {x : Int} (h₁ : -2 ^ 31 ≤ x) (h₂ : x < 2 ^ 31) : i32 x = x :=
  Int.bmod_eq_of_le_mul_two (by omega) (by omega)

/-- What one pipe connection can own: a block lease or a pass-through claim. -/
inductive Owner
  | lease
  | passThrough
  deriving DecidableEq, Repr

/-- The two process-global counters. -/
structure Counters where
  leaseCount : Int
  passThroughCount : Int
  deriving DecidableEq, Repr

/-- `blocking()`: leases exist and no pass-through claim overrides them. -/
def Counters.blocking (k : Counters) : Bool :=
  decide (0 < k.leaseCount) && decide (k.passThroughCount = 0)

/-- The counter an owner's unit is in. -/
def Counters.count (k : Counters) : Owner → Int
  | .lease => k.leaseCount
  | .passThrough => k.passThroughCount

/-- `fetch_add(d)` on an owner's counter. -/
def Counters.add (k : Counters) (d : Int) : Owner → Counters
  | .lease => { k with leaseCount := i32 (k.leaseCount + d) }
  | .passThrough => { k with passThroughCount := i32 (k.passThroughCount + d) }

@[simp] theorem Counters.add_count_self (k : Counters) (d : Int) (o : Owner) :
    (k.add d o).count o = i32 (k.count o + d) := by
  cases o <;> rfl

theorem Counters.add_count_ne (k : Counters) (d : Int) {o p : Owner} (h : p ≠ o) :
    (k.add d o).count p = k.count p := by
  cases o <;> cases p <;> first | rfl | exact absurd rfl h

theorem Counters.blocking_iff {k : Counters} :
    k.blocking = true ↔ 0 < k.leaseCount ∧ k.passThroughCount = 0 := by
  simp [Counters.blocking]

end Gate
end SteamInputLease
