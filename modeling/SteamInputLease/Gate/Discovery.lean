import SteamInputLease.Recovery.Layout

/-!
# Resolving the HID thread and requesting a discovery

The caches behind `resolve_discovery_deadline` and the steps of one attempt, as any payload
thread takes them: the layout `OnceLock`, the cached HID-thread address, the sweep with its
election, and for `request_internal_discovery` the `-1.0` store at the end. A sweep or a module
snapshot takes long, so it begins in one step and ends in another; what it finds is the choice
the ending step is labelled with.
-/

namespace SteamInputLease
namespace Gate

open Recovery

/-- What the environment answers at one step of a payload thread. -/
inductive Choice
  | go
  /-- A yes/no answer: a cached object still validates, a thread was spawned, a write succeeded. -/
  | flag (b : Bool)
  /-- What `resolve_runtime_recovery_layout` returned. -/
  | layout (l : Option RuntimeRecoveryLayout)
  /-- The address the sweep and the election ended with. -/
  | elected (a : Option Nat)
  /-- Whether `install_hooks` succeeded, and whether the warm-up thread was spawned. -/
  | install (installed spawned : Bool)
  /-- `HID_HANDLE_COUNT` and `LAST_REVOKED_HANDLE_COUNT` as a response reads them. -/
  | counts (hid revoked : Int)
  deriving DecidableEq, Repr

/-- `RECOVERY_LAYOUT`, `HID_THREAD_ADDRESS` and the attempt counters of both. -/
structure Caches where
  recoveryLayout : Option RuntimeRecoveryLayout
  recoveryLayoutAttempts : UInt32
  hidThreadAddress : Nat
  hidThreadAttempts : UInt32
  deriving DecidableEq, Repr

/-- `RECOVERY_LAYOUT_MAX_ATTEMPTS`. -/
def recoveryLayoutMaxAttempts : UInt32 := 4

/-- The two stores with which a fresh acquire resets the bounded caches. -/
def Caches.resetAttempts (c : Caches) : Caches :=
  { c with hidThreadAttempts := 0, recoveryLayoutAttempts := 0 }

/-- Where one `resolve_discovery_deadline` call is. -/
inductive ResolvePc
  /-- About to look at `RECOVERY_LAYOUT`. -/
  | layout
  /-- `resolve_runtime_recovery_layout` runs. -/
  | resolving
  /-- `find_hid_thread`, about to validate the cached address. -/
  | cached (rt : RuntimeRecoveryLayout)
  /-- The address-space sweep, and the election if it needs one, runs. -/
  | scan (rt : RuntimeRecoveryLayout)
  deriving DecidableEq, Repr

/-- One step of `resolve_discovery_deadline(ignore_budget)`: on to another step, or its result,
    the address of the deadline field. -/
def resolveStep (ignoreBudget : Bool) (c : Caches) :
    ResolvePc → Choice → Option (Caches × (ResolvePc ⊕ Option Nat))
  | .layout, .go =>
    match c.recoveryLayout with
    | some rt => some (c, .inl (.cached rt))
    | none =>
      if !ignoreBudget && decide (recoveryLayoutMaxAttempts ≤ c.recoveryLayoutAttempts) then
        some (c, .inr none)
      else some (c, .inl .resolving)
  | .resolving, .layout (some rt) =>
    -- `OnceLock::set` ignores the loser of a race; `get` then reads the winner.
    let winner := c.recoveryLayout.getD rt
    some ({ c with recoveryLayout := some winner }, .inl (.cached winner))
  | .resolving, .layout none =>
    some ({ c with recoveryLayoutAttempts := c.recoveryLayoutAttempts + 1 }, .inr none)
  | .cached rt, .flag valid =>
    if c.hidThreadAddress != 0 && valid then
      some (c, .inr (some (c.hidThreadAddress + rt.layout.discoveryDeadlineOffset)))
    else
      let cleared := { c with hidThreadAddress := 0 }
      if !ignoreBudget && decide (hidThreadMaxAttempts ≤ c.hidThreadAttempts) then
        some (cleared, .inr none)
      else some (cleared, .inl (.scan rt))
  | .scan rt, .elected (some a) =>
    some ({ c with hidThreadAddress := a, hidThreadAttempts := 0 },
      .inr (some (a + rt.layout.discoveryDeadlineOffset)))
  | .scan _, .elected none =>
    some ({ c with hidThreadAttempts := c.hidThreadAttempts + 1 }, .inr none)
  | _, _ => none

/-- Where one `request_internal_discovery(true)` call is. -/
inductive RequestPc
  | resolve (r : ResolvePc)
  /-- About to store `-1.0` at the deadline. -/
  | store (deadline : Nat)
  deriving DecidableEq, Repr

/-- One step of `request_internal_discovery(true)`: on to another step, or its result. The
    alignment check is `is_multiple_of(align_of::<AtomicU64>())`. -/
def requestStep (c : Caches) : RequestPc → Choice → Option (Caches × (RequestPc ⊕ Bool))
  | .resolve r, ch =>
    match resolveStep true c r ch with
    | some (c', .inl r') => some (c', .inl (.resolve r'))
    | some (c', .inr (some d)) => some (c', if d % 8 = 0 then .inl (.store d) else .inr false)
    | some (c', .inr none) => some (c', .inr false)
    | none => none
  | .store _, .go => some (c, .inr true)
  | .store _, _ => none

/-- The start of a request. -/
def RequestPc.start : RequestPc := .resolve .layout

/-- `cached_hid_thread_is_valid`, with the validation's verdict as the environment's answer. -/
def Caches.cachedHidThreadIsValid (c : Caches) (valid : Bool) : Bool :=
  c.recoveryLayout.isSome && c.hidThreadAddress != 0 && valid

end Gate
end SteamInputLease
