import SteamInputLease.Recovery.Checked
import SteamInputLease.Recovery.Scan

/-!
# The live-object scan, with everything that can crash

The functions of `Scan` once more. What they add to the address of an object they have found is
left as it is in `Memory`. A `while` loop gets a number of rounds, and crashes as endless when it
has used them up.
-/

namespace SteamInputLease
namespace Recovery
namespace Checked

open Lib

/-! ## `find_vtable_pairs` -/

section

variable (bytes : List UInt8) (absoluteStart primary secondary secondaryOffset start last : Nat)

/-- `n` rounds of the loop over `chunks_exact(8)`, from the chunk with this index at the head of
    `tail`. -/
def pairLoop : Nat → List UInt8 → Nat → MayPanic (List Nat)
  | 0, _, _ => pure []
  | n + 1, tail, index => do
    let step ← usizeMul index 8
    let offset ← usizeAdd start step
    if last < offset then return []
    if leNat (tail.take 8) ≠ primary then pairLoop n (tail.drop 8) (index + 1)
    else do
      let second ← usizeAdd offset secondaryOffset
      let stop ← usizeAdd second 8
      let slot ← MayPanic.slice bytes second stop
      if leNat slot = secondary then do
        let address ← usizeAdd absoluteStart offset
        let rest ← pairLoop n (tail.drop 8) (index + 1)
        pure (address :: rest)
      else pairLoop n (tail.drop 8) (index + 1)

end

/-- `find_vtable_pairs`. -/
def findVtablePairs (bytes : List UInt8)
    (absoluteStart primary secondary secondaryOffset : Nat) : MayPanic (List Nat) :=
  let required := satAdd secondaryOffset 8
  if primary = 0 ∨ bytes.length < required then pure []
  else do
    -- `absolute_start.wrapping_neg() % 8`
    let start := (2 ^ 64 - absoluteStart) % 2 ^ 64 % 8
    let last ← MayPanic.sub bytes.length required
    let tail ← MayPanic.slice bytes start bytes.length
    pairLoop bytes absoluteStart primary secondary secondaryOffset start last (tail.length / 8)
      tail 0

/-! ## `next_scan_start` -/

def nextScanStart (chunkStart chunkEnd regionEnd transferred overlap : Nat) :
    MayPanic (Option Nat) := do
  let length ← MayPanic.sub chunkEnd chunkStart
  if transferred < length then do
    let failedAt ← usizeAdd chunkStart transferred
    let page ← usizeAdd (failedAt / scanPageSize) 1
    let next := satMul page scanPageSize
    pure (if next < regionEnd then some next else none)
  else if regionEnd ≤ chunkEnd then pure none
  else do
    let forward ← usizeAdd chunkStart 1
    let next := max (chunkEnd - overlap) forward
    pure (if next < regionEnd then some next else none)

/-! ## The scan -/

section

variable {m : Type → Type} [Monad m] (memory : ProcessMemory m) (rt : RuntimeRecoveryLayout)
  (primary secondary pairSize : Nat)

def scanChunk (regionEnd chunkStart : Nat) (buffer : List UInt8) (candidates : List Nat) :
    ExceptT Panic m (Option Nat × List UInt8 × List Nat) := do
  let chunkEnd := min (satAdd chunkStart processScanChunk) regionEnd
  let length ← checked (MayPanic.sub chunkEnd chunkStart)
  let window ← checked (MayPanic.slice buffer 0 length)
  let (count, window) ← memory.read chunkStart window
  memory.note .scanned
  let transferred := min count length
  let buffer := window ++ buffer.drop length
  let bytes ← checked (MayPanic.slice buffer 0 transferred)
  let found ← checked (findVtablePairs bytes chunkStart primary secondary
    rt.layout.secondaryObjectOffset)
  let next ← checked (nextScanStart chunkStart chunkEnd regionEnd transferred (pairSize - 1))
  pure (next, buffer, candidates ++ found)

/-- `while chunk_start < region_end`. -/
def scanChunks (regionEnd : Nat) :
    Nat → Nat → List UInt8 → List Nat → ExceptT Panic m (List UInt8 × List Nat)
  | 0, chunkStart, buffer, candidates =>
    if chunkStart < regionEnd then checked (.error .endless) else pure (buffer, candidates)
  | n + 1, chunkStart, buffer, candidates =>
    if chunkStart < regionEnd then do
      match ← scanChunk memory rt primary secondary pairSize regionEnd chunkStart buffer
          candidates with
      | (some next, buffer, candidates) => scanChunks regionEnd n next buffer candidates
      | (none, buffer, candidates) => pure (buffer, candidates)
    else pure (buffer, candidates)

def scanRegion (rounds : Nat) (region : MemoryRegion) (buffer : List UInt8)
    (candidates : List Nat) : ExceptT Panic m (List UInt8 × List Nat) :=
  if memoryIsReadable region.state region.protect && region.kind == memPrivate then
    scanChunks memory rt primary secondary pairSize region.limit rounds region.base buffer
      candidates
  else pure (buffer, candidates)

/-- One round of the outer loop: where it goes on, and the buffer and the candidates
    afterwards. -/
def scanRound (rounds address : Nat) (region : MemoryRegion) (buffer : List UInt8)
    (candidates : List Nat) : ExceptT Panic m (Option Nat × List UInt8 × List Nat) := do
  let (buffer, candidates) ← scanRegion memory rt primary secondary pairSize rounds region buffer
    candidates
  pure (if region.limit ≤ address then none else some region.limit, buffer, candidates)

/-- `while address < usize::MAX / 2`, with `rounds` rounds for each of the inner loops. -/
def walk (rounds : Nat) : Nat → Nat → List UInt8 → List Nat → ExceptT Panic m (List Nat)
  | 0, address, _, candidates =>
    if address < usizeMax / 2 then checked (.error .endless) else pure candidates
  | n + 1, address, buffer, candidates =>
    if address < usizeMax / 2 then do
      match ← memory.query address with
      | none => pure candidates
      | some region =>
        match ← scanRound memory rt primary secondary pairSize rounds address region buffer
            candidates with
        | (some next, buffer, candidates) => walk rounds n next buffer candidates
        | (none, _, candidates) => pure candidates
    else pure candidates

end

/-- `find_live_hid_threads`, with `rounds` rounds for each of its loops. -/
def findLiveHidThreads {m : Type → Type} [Monad m] (memory : ProcessMemory m)
    (rt : RuntimeRecoveryLayout) (rounds : Nat) : ExceptT Panic m (List Nat) := do
  let primary ← checked (usizeAdd rt.moduleBase rt.layout.primaryVtableRva)
  let secondary ← checked (usizeAdd rt.moduleBase rt.layout.secondaryVtableRva)
  let pairSize ← checked (usizeAdd rt.layout.secondaryObjectOffset 8)
  let candidates ← walk memory rt primary secondary pairSize rounds rounds 0x10000
    (.replicate processScanChunk 0) []
  let live ← (retainLive memory rt candidates : m (List Nat))
  pure (dedup (live.insertionSort (· ≤ ·)))

end Checked
end Recovery
end SteamInputLease
