import Mathlib.Tactic.Common

/-!
# The resolved recovery layout

Module-relative values that name Steam's HID-thread object and its scheduler fields
(`RecoveryLayout` of `steam-input-recovery`), and the pair of a module base and a layout that
the payload caches (`RuntimeRecoveryLayout`). Addresses and offsets are `Nat`: `usize` sums of a
mapped base and a 32-bit offset, which stay below `usize::MAX`.
-/

namespace SteamInputLease
namespace Recovery

/-- `RecoveryLayout`. -/
structure RecoveryLayout where
  primaryVtableRva : Nat
  secondaryVtableRva : Nat
  secondaryObjectOffset : Nat
  workerMethodRva : Nat
  discoveryDeadlineOffset : Nat
  discoveryCounterOffset : Nat
  deriving DecidableEq, Repr

/-- `RuntimeRecoveryLayout`: the layout and the base it was resolved for. -/
structure RuntimeRecoveryLayout where
  moduleBase : Nat
  layout : RecoveryLayout
  deriving DecidableEq, Repr

/-- `SECOND_DISCOVERY_DELAY`, in milliseconds. -/
def secondDiscoveryDelay : Nat := 2200

/-- `HID_THREAD_MAX_ATTEMPTS`. -/
def hidThreadMaxAttempts : UInt32 := 3

end Recovery
end SteamInputLease
