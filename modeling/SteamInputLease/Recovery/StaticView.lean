import SteamInputLease.Recovery.Scan

/-!
# A memory that stands still

What the scan may rely on while nothing changes: a query answers the region around the address,
and a read delivers bytes up to the first unreadable page. What it leaves in the buffer behind
those bytes is anything.
-/

namespace SteamInputLease
namespace Recovery

/-- How many of the `n` bytes from `address` come before the first unreadable page. -/
def delivered (readable : Nat → Bool) : Nat → Nat → Nat
  | _, 0 => 0
  | address, n + 1 =>
    if readable (address / scanPageSize) then delivered readable (address + 1) n + 1 else 0

/-- `memory` shows the bytes `byteAt`, of which those on `readable` pages can be read. -/
structure StaticView (memory : ProcessMemory Id) (byteAt : Nat → UInt8) (readable : Nat → Bool) :
    Prop where
  /-- A region contains the address it was asked for, and its end is an address. -/
  region : ∀ a r, memory.query a = some r →
    r.base ≤ a ∧ a < r.base + r.size ∧ r.base + r.size ≤ usizeMax
  count : ∀ a buffer, (memory.read a buffer).1 = delivered readable a buffer.length
  length : ∀ a buffer, (memory.read a buffer).2.length = buffer.length
  bytes : ∀ a buffer i, i < delivered readable a buffer.length →
    (memory.read a buffer).2[i]? = some (byteAt (a + i))

/-- The regions the walk from `address` comes to, below half of the address space. -/
inductive Reached (memory : ProcessMemory Id) : Nat → MemoryRegion → Prop
  | here {address : Nat} {r : MemoryRegion} (hlt : address < usizeMax / 2)
      (hq : memory.query address = some r) : Reached memory address r
  | next {address : Nat} {r r' : MemoryRegion} (hlt : address < usizeMax / 2)
      (hq : memory.query address = some r) (hr : Reached memory (r.base + r.size) r') :
      Reached memory address r'

/-- The eight bytes from `a` lie inside the region. -/
def MemoryRegion.holdsWord (r : MemoryRegion) (a : Nat) : Prop := r.base ≤ a ∧ a + 8 ≤ r.base + r.size

/-- An aligned live object whose two vtable words lie in one region that is committed, readable,
    private and reached by the walk. -/
def LiveObject (memory : ProcessMemory Id) (rt : RuntimeRecoveryLayout) (a : Nat) : Prop :=
  8 ∣ a ∧
  (∃ r, Reached memory 0x10000 r ∧ memoryIsReadable r.state r.protect = true ∧
    r.kind = memPrivate ∧ r.holdsWord a ∧ r.holdsWord (a + rt.layout.secondaryObjectOffset)) ∧
  Id.run (hidThreadIsLive memory rt a) = true

end Recovery
end SteamInputLease
