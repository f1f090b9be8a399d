import SteamInputLease.Lib.Bytes
import SteamInputLease.Recovery.Layout

/-!
# Reading Steam's memory

`ProcessMemory`, over any monad, so that the same code runs on a memory that stands still and on
one that changes between two reads. `note` has no counterpart in the source: it tells an observer
of a run what the code just did, and the code never reads it.

`usize` is that of an x64 process.
-/

namespace SteamInputLease
namespace Recovery

open Lib

/-- `usize::MAX`. -/
def usizeMax : Nat := 2 ^ 64 - 1

/-- `saturating_add` and `saturating_mul`. -/
def satAdd (a b : Nat) : Nat := min (a + b) usizeMax
def satMul (a b : Nat) : Nat := min (a * b) usizeMax

def memCommit : UInt32 := 0x1000
def memPrivate : UInt32 := 0x20000
def pageNoaccess : UInt32 := 0x01
def pageGuard : UInt32 := 0x100

/-- `MemoryRegion`. -/
structure MemoryRegion where
  base : Nat
  size : Nat
  state : UInt32
  protect : UInt32
  kind : UInt32
  deriving DecidableEq, Repr

/-- `memory_is_readable`. -/
def memoryIsReadable (state protect : UInt32) : Bool :=
  state == memCommit && protect &&& pageGuard == 0 && protect &&& pageNoaccess == 0

/-- What an observer of a run is told. -/
inductive Note
  /-- A chunk of the scan was read and matched. -/
  | scanned
  /-- An observation of the election was taken. -/
  | sampled
  /-- `hid_thread_is_live` answered for an address. -/
  | verdict (rt : RuntimeRecoveryLayout) (address : Nat) (live : Bool)
  /-- `-1.0` was written. -/
  | stored (rt : RuntimeRecoveryLayout) (deadline : Nat)
  deriving DecidableEq, Repr

/-- `ProcessMemory`. A read is given the buffer, and returns the count and the buffer as it left
    it. -/
structure ProcessMemory (m : Type → Type) where
  query : Nat → m (Option MemoryRegion)
  read : Nat → List UInt8 → m (Nat × List UInt8)
  note : Note → m Unit

/-! ## `f64` -/

/-- `is_finite` of the `f64` with these bits. -/
def f64IsFinite (bits : Nat) : Bool := bits / 2 ^ 52 % 2048 != 2047

/-- The value of a finite `f64`, in units of 2^-1074. -/
def f64Scaled (bits : Nat) : Int :=
  let exponent := bits / 2 ^ 52 % 2048
  let fraction := bits % 2 ^ 52
  let magnitude : Nat := if exponent = 0 then fraction else (2 ^ 52 + fraction) * 2 ^ (exponent - 1)
  if bits / 2 ^ 63 % 2 = 0 then magnitude else -magnitude

/-- `value.is_finite() && (value == -1.0 || (0.0..1.0e12).contains(&value))`. -/
def deadlineIsPlausible (bits : Nat) : Bool :=
  f64IsFinite bits &&
    (f64Scaled bits == -2 ^ 1074 ||
      (decide (0 ≤ f64Scaled bits) && decide (f64Scaled bits < 10 ^ 12 * 2 ^ 1074)))

/-! ## Reads -/

section

variable {m : Type → Type} [Monad m] (memory : ProcessMemory m)

/-- `read_exact::<N>`. -/
def readExact (address n : Nat) : m (Option (List UInt8)) := do
  let (count, bytes) ← memory.read address (.replicate n 0)
  pure (if count = n then some bytes else none)

/-- `read_pointer`. -/
def readPointer (address : Nat) : m (Option Nat) := do
  let bytes ← readExact memory address 8
  pure (bytes.map leNat)

def RuntimeRecoveryLayout.primary (rt : RuntimeRecoveryLayout) : Nat :=
  rt.moduleBase + rt.layout.primaryVtableRva

def RuntimeRecoveryLayout.secondary (rt : RuntimeRecoveryLayout) : Nat :=
  rt.moduleBase + rt.layout.secondaryVtableRva

/-- The body of `hid_thread_is_live`. -/
def vtablesAndDeadline (rt : RuntimeRecoveryLayout) (address : Nat) : m Bool := do
  let first ← readPointer memory address
  if first = some rt.primary then
    let second ← readPointer memory (address + rt.layout.secondaryObjectOffset)
    if second = some rt.secondary then
      let value ← readExact memory (address + rt.layout.discoveryDeadlineOffset) 8
      pure (value.any fun bytes => deadlineIsPlausible (leNat bytes))
    else pure false
  else pure false

/-- `hid_thread_is_live`. -/
def hidThreadIsLive (rt : RuntimeRecoveryLayout) (address : Nat) : m Bool := do
  let live ← vtablesAndDeadline memory rt address
  memory.note (.verdict rt address live)
  pure live

end

/-- `-1.0`, `0.0`, `-0.0` and `2.5` are plausible; `1e12`,
    `-0.5`, infinity and NaN are not. -/
example : ([0xbff0000000000000, 0, 0x8000000000000000, 0x4004000000000000].all deadlineIsPlausible &&
    [0x426d1a94a2000000, 0xbfe0000000000000, 0x7ff0000000000000, 0x7ff8000000000000].all
      (!deadlineIsPlausible ·)) = true := by decide +kernel

end Recovery
end SteamInputLease
