import Mathlib.Data.List.Sort
import SteamInputLease.Recovery.Memory

/-!
# The live-object scan

`find_live_hid_threads`: the walk over the address space, the chunked reads of each private
region with one reused buffer, the vtable pairs in each chunk, and the re-validation of what was
found. Every loop gets the rounds it can take as its first argument.
-/

namespace SteamInputLease
namespace Recovery

open Lib

/-- `SCAN_PAGE_SIZE`. -/
def scanPageSize : Nat := 0x1000

/-- `PROCESS_SCAN_CHUNK`. -/
def processScanChunk : Nat := 1024 * 1024

/-- Eight bytes of a slice. -/
def wordAt (bytes : List UInt8) (offset : Nat) : Nat := leNat ((bytes.drop offset).take 8)

/-- `n` rounds of the loop over the aligned words, from `offset`. -/
def pairLoop (bytes : List UInt8) (absoluteStart primary secondary secondaryOffset last : Nat) :
    Nat → Nat → List Nat
  | 0, _ => []
  | n + 1, offset =>
    if last < offset then []
    else
      let rest := pairLoop bytes absoluteStart primary secondary secondaryOffset last n (offset + 8)
      if wordAt bytes offset = primary ∧ wordAt bytes (offset + secondaryOffset) = secondary then
        (absoluteStart + offset) :: rest
      else rest

/-- `find_vtable_pairs`. -/
def findVtablePairs (bytes : List UInt8)
    (absoluteStart primary secondary secondaryOffset : Nat) : List Nat :=
  let required := satAdd secondaryOffset 8
  if primary = 0 ∨ bytes.length < required then []
  else
    -- `absolute_start.wrapping_neg() % 8`
    let start := (2 ^ 64 - absoluteStart) % 8
    pairLoop bytes absoluteStart primary secondary secondaryOffset (bytes.length - required)
      ((bytes.length - start) / 8) start

/-- `next_scan_start`. -/
def nextScanStart (chunkStart chunkEnd regionEnd transferred overlap : Nat) : Option Nat :=
  if transferred < chunkEnd - chunkStart then
    let next := satMul ((chunkStart + transferred) / scanPageSize + 1) scanPageSize
    if next < regionEnd then some next else none
  else if regionEnd ≤ chunkEnd then none
  else
    let next := max (chunkEnd - overlap) (chunkStart + 1)
    if next < regionEnd then some next else none

/-- `Vec::dedup`. -/
def dedup : List Nat → List Nat
  | [] => []
  | [a] => [a]
  | a :: b :: l => if a = b then dedup (b :: l) else a :: dedup (b :: l)

/-- `MemoryRegion`'s end, as the scan computes it. -/
def MemoryRegion.limit (region : MemoryRegion) : Nat := satAdd region.base region.size

section

variable {m : Type → Type} [Monad m] (memory : ProcessMemory m) (rt : RuntimeRecoveryLayout)

/-- One chunk: where the scan goes on, and the buffer and the candidates afterwards. -/
def scanChunk (regionEnd chunkStart : Nat) (buffer : List UInt8) (candidates : List Nat) :
    m (Option Nat × List UInt8 × List Nat) := do
  let chunkEnd := min (satAdd chunkStart processScanChunk) regionEnd
  let length := chunkEnd - chunkStart
  let (count, slice) ← memory.read chunkStart (buffer.take length)
  memory.note .scanned
  let transferred := min count length
  let buffer := slice ++ buffer.drop length
  let found := findVtablePairs (buffer.take transferred) chunkStart rt.primary rt.secondary
    rt.layout.secondaryObjectOffset
  -- the overlap is `pair_size.saturating_sub(1)`
  let next := nextScanStart chunkStart chunkEnd regionEnd transferred
    (rt.layout.secondaryObjectOffset + 8 - 1)
  pure (next, buffer, candidates ++ found)

/-- The chunks of one region from `chunkStart`: the buffer and the candidates afterwards. -/
def scanChunks (regionEnd : Nat) :
    Nat → Nat → List UInt8 → List Nat → m (List UInt8 × List Nat)
  | 0, _, buffer, candidates => pure (buffer, candidates)
  | n + 1, chunkStart, buffer, candidates =>
    if chunkStart < regionEnd then do
      match ← scanChunk memory rt regionEnd chunkStart buffer candidates with
      | (some next, buffer, candidates) => scanChunks regionEnd n next buffer candidates
      | (none, buffer, candidates) => pure (buffer, candidates)
    else pure (buffer, candidates)

/-- One region: nothing is read of one that is not committed, readable and private. -/
def scanRegion (region : MemoryRegion) (buffer : List UInt8) (candidates : List Nat) :
    m (List UInt8 × List Nat) :=
  if memoryIsReadable region.state region.protect && region.kind == memPrivate then
    scanChunks memory rt region.limit (region.limit - region.base) region.base buffer candidates
  else pure (buffer, candidates)

/-- The walk over the regions from `address`: the candidates. -/
def walk : Nat → Nat → List UInt8 → List Nat → m (List Nat)
  | 0, _, _, candidates => pure candidates
  | n + 1, address, buffer, candidates =>
    if address < usizeMax / 2 then do
      match ← memory.query address with
      | none => pure candidates
      | some region =>
        let (buffer, candidates) ← scanRegion memory rt region buffer candidates
        if region.limit ≤ address then pure candidates
        else walk n region.limit buffer candidates
    else pure candidates

/-- `candidates.retain(hid_thread_is_live)`. -/
def retainLive : List Nat → m (List Nat)
  | [] => pure []
  | candidate :: rest => do
    let live ← hidThreadIsLive memory rt candidate
    let kept ← retainLive rest
    pure (if live then candidate :: kept else kept)

/-- `find_live_hid_threads`. -/
def findLiveHidThreads : m (List Nat) := do
  let candidates ←
    walk memory rt (usizeMax / 2 - 0x10000) 0x10000 (.replicate processScanChunk 0) []
  let live ← retainLive memory rt candidates
  pure (dedup (live.insertionSort (· ≤ ·)))

end

end Recovery
end SteamInputLease
