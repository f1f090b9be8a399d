import SteamInputLease.Proof.Recovery.Window

/-!
# The scan ends

Each round moves on, whatever the memory answers: `chunk_start` inside its region and `address` up
the address space. So the loops of `find_live_hid_threads` end, and its slices of the one buffer lie
inside that.

The loops of the model have fuel, and those of the source have none. What is proved is that the fuel
does not show: with as many rounds as there are addresses the checked functions return what the
functions without bounds return, so that running out is no way for the scan to end. Of a read only
`Fills` is asked, that it leaves a slice of the length it was given, which is what Rust promises of
a `&mut [u8]`; the count it reports may be anything, and so may what a query says of an address,
other regions included. The induction is on the rounds that are left, once for the chunks of a
region and once for the walk.
-/

namespace SteamInputLease
namespace Recovery
namespace Checked

open Lib

/-! ## One chunk -/

theorem nextScanStart_ok {chunkStart chunkEnd regionEnd transferred overlap : Nat}
    (hlo : chunkStart ≤ chunkEnd) (hlt : chunkStart < regionEnd) (hhi : chunkEnd ≤ regionEnd)
    (hend : regionEnd ≤ usizeMax) :
    nextScanStart chunkStart chunkEnd regionEnd transferred overlap =
      .ok (Recovery.nextScanStart chunkStart chunkEnd regionEnd transferred overlap) := by
  rw [nextScanStart, Recovery.nextScanStart, MayPanic.sub_ok hlo]
  show (if transferred < chunkEnd - chunkStart then _ else _) = _
  by_cases hshort : transferred < chunkEnd - chunkStart
  · rw [if_pos hshort, if_pos hshort, usizeAdd_ok (by omega)]
    show usizeAdd ((chunkStart + transferred) / scanPageSize) 1 >>= _ = _
    rw [usizeAdd_ok (by rw [scanPageSize]; omega)]
    rfl
  rw [if_neg hshort, if_neg hshort]
  by_cases hlast : regionEnd ≤ chunkEnd
  · rw [if_pos hlast, if_pos hlast]
    rfl
  · rw [if_neg hlast, if_neg hlast, usizeAdd_ok (by omega)]
    rfl

section

variable {σ : Type} {memory : ProcessMemory (StateM σ)} {rt : RuntimeRecoveryLayout}

/-- A read fills the slice it is given. -/
def Fills (memory : ProcessMemory (StateM σ)) : Prop :=
  ∀ address buffer s, ((memory.read address buffer).run s).1.2.length = buffer.length

/-- What is left of a region after a chunk, and the buffer with its length. -/
def ChunkDone (regionEnd chunkStart : Nat) (done : Option Nat × List UInt8 × List Nat) : Prop :=
  (∀ next ∈ done.1, chunkStart < next ∧ next < regionEnd) ∧ done.2.1.length = processScanChunk

variable (hfills : Fills memory)
include hfills

theorem scanChunk_ok {regionEnd chunkStart : Nat} {buffer : List UInt8} (candidates : List Nat)
    (hlt : chunkStart < regionEnd) (hend : regionEnd ≤ usizeMax)
    (hbuffer : buffer.length = processScanChunk) :
    AgreesWith (ChunkDone regionEnd chunkStart)
      (scanChunk memory rt rt.primary rt.secondary (rt.layout.secondaryObjectOffset + 8) regionEnd
        chunkStart buffer candidates)
      (Recovery.scanChunk memory rt regionEnd chunkStart buffer candidates) := by
  have hchunk : processScanChunk ≤ isizeMax := by decide
  rw [scanChunk, Recovery.scanChunk]
  dsimp only
  generalize hstop : min (satAdd chunkStart processScanChunk) regionEnd = chunkEnd
  have hlo : chunkStart ≤ chunkEnd := by
    rw [satAdd] at hstop
    omega
  have hhi : chunkEnd ≤ regionEnd := by omega
  have hlength : chunkEnd - chunkStart ≤ processScanChunk := by
    rw [satAdd] at hstop
    omega
  refine .step (MayPanic.sub_ok hlo) ?_
  refine .step (MayPanic.slice_zero_ok (by omega)) ?_
  refine .bind (.of (P := fun read => read.2.length = chunkEnd - chunkStart) ?_) ?_
  · intro s
    rw [hfills, List.length_take]
    omega
  intro read hread
  obtain ⟨count, window⟩ := read
  dsimp only at hread ⊢
  refine .bind (.of (P := fun _ => True) fun _ => trivial) ?_
  intro _ _
  have hfilled : (window ++ buffer.drop (chunkEnd - chunkStart)).length = processScanChunk := by
    rw [List.length_append, hread, List.length_drop]
    omega
  refine .step (MayPanic.slice_zero_ok (by omega)) ?_
  refine .step (findVtablePairs_ok ?_ ?_) ?_
  · exact (List.length_take_le _ _).trans (by omega)
  · rw [List.length_take]
    omega
  refine .step (nextScanStart_ok hlo hlt hhi hend) ?_
  refine .pure ⟨?_, hfilled⟩
  intro next hnext
  exact nextScanStart_lt hnext (by omega)

/-! ## One region -/

theorem scanChunks_ok {regionEnd : Nat} (hend : regionEnd ≤ usizeMax) : ∀ (n k chunkStart : Nat)
    (buffer : List UInt8) (candidates : List Nat), regionEnd - chunkStart ≤ n →
      regionEnd - chunkStart ≤ k → buffer.length = processScanChunk →
        AgreesWith (fun done => done.1.length = processScanChunk)
          (scanChunks memory rt rt.primary rt.secondary (rt.layout.secondaryObjectOffset + 8)
            regionEnd n chunkStart buffer candidates)
          (Recovery.scanChunks memory rt regionEnd k chunkStart buffer candidates) := by
  intro n
  induction n with
  | zero =>
    intro k chunkStart buffer candidates hn _ hbuffer
    have hdone : ¬chunkStart < regionEnd := by omega
    rw [scanChunks, if_neg hdone]
    cases k with
    | zero => exact .pure hbuffer
    | succ k =>
      rw [Recovery.scanChunks, if_neg hdone]
      exact .pure hbuffer
  | succ n ih =>
    intro k chunkStart buffer candidates hn hk hbuffer
    rw [scanChunks]
    by_cases hlt : chunkStart < regionEnd
    · obtain ⟨k, rfl⟩ : ∃ j, k = j + 1 := ⟨k - 1, by omega⟩
      rw [if_pos hlt, Recovery.scanChunks, if_pos hlt]
      refine .bind (scanChunk_ok hfills candidates hlt hend hbuffer) ?_
      intro done hdone
      obtain ⟨next, buffer', candidates'⟩ := done
      obtain ⟨hforward, hbuffer'⟩ := hdone
      cases next with
      | none => exact .pure hbuffer'
      | some next =>
        have hnext := hforward next rfl
        exact ih k next buffer' candidates' (by omega) (by omega) hbuffer'
    · rw [if_neg hlt]
      cases k with
      | zero => exact .pure hbuffer
      | succ k =>
        rw [Recovery.scanChunks, if_neg hlt]
        exact .pure hbuffer

omit hfills in
theorem limit_le (region : MemoryRegion) : region.limit ≤ usizeMax := Nat.min_le_right _ _

theorem scanRegion_ok {rounds : Nat} {region : MemoryRegion} {buffer : List UInt8}
    (candidates : List Nat) (hrounds : usizeMax ≤ rounds)
    (hbuffer : buffer.length = processScanChunk) :
    AgreesWith (fun done => done.1.length = processScanChunk)
      (scanRegion memory rt rt.primary rt.secondary (rt.layout.secondaryObjectOffset + 8) rounds
        region buffer candidates)
      (Recovery.scanRegion memory rt region buffer candidates) := by
  have hlimit := limit_le region
  rw [scanRegion, Recovery.scanRegion]
  split
  · exact scanChunks_ok hfills hlimit rounds _ region.base buffer candidates (by omega)
      (le_refl _) hbuffer
  · exact .pure hbuffer

/-! ## The walk -/

theorem walk_ok {rounds : Nat} (hrounds : usizeMax ≤ rounds) : ∀ (n k address : Nat)
    (buffer : List UInt8) (candidates : List Nat), usizeMax / 2 - address ≤ n →
      usizeMax / 2 - address ≤ k → buffer.length = processScanChunk →
        AgreesWith (fun _ => True)
          (walk memory rt rt.primary rt.secondary (rt.layout.secondaryObjectOffset + 8) rounds n
            address buffer candidates)
          (Recovery.walk memory rt k address buffer candidates) := by
  intro n
  induction n with
  | zero =>
    intro k address buffer candidates hn _ _
    have hdone : ¬address < usizeMax / 2 := by omega
    rw [walk, if_neg hdone]
    cases k with
    | zero => exact .pure trivial
    | succ k =>
      rw [Recovery.walk, if_neg hdone]
      exact .pure trivial
  | succ n ih =>
    intro k address buffer candidates hn hk hbuffer
    rw [walk]
    by_cases hlt : address < usizeMax / 2
    · obtain ⟨k, rfl⟩ : ∃ j, k = j + 1 := ⟨k - 1, by omega⟩
      rw [if_pos hlt, Recovery.walk, if_pos hlt]
      refine .bind (.of (P := fun _ => True) fun _ => trivial) ?_
      intro region _
      cases region with
      | none => exact .pure trivial
      | some region =>
        simp only [scanRound, bind_assoc]
        refine .bind (scanRegion_ok hfills candidates hrounds hbuffer) ?_
        intro done hdone
        obtain ⟨buffer', candidates'⟩ := done
        show AgreesWith _ (pure (if region.limit ≤ address then none else some region.limit,
          buffer', candidates') >>= _) (if region.limit ≤ address then _ else _)
        -- the source stops where the next region does not begin further on, so every round ascends
        by_cases hstop : region.limit ≤ address
        · rw [if_pos hstop, if_pos hstop]
          exact .pure trivial
        · rw [if_neg hstop, if_neg hstop]
          exact ih k region.limit buffer' candidates' (by omega) (by omega) hdone
    · rw [if_neg hlt]
      cases k with
      | zero => exact .pure trivial
      | succ k =>
        rw [Recovery.walk, if_neg hlt]
        exact .pure trivial

theorem findLiveHidThreads_ok {rounds : Nat} (hrounds : usizeMax ≤ rounds)
    (hprimary : rt.primary ≤ usizeMax) (hsecondary : rt.secondary ≤ usizeMax)
    (hpair : rt.layout.secondaryObjectOffset + 8 ≤ usizeMax) :
    AgreesWith (fun _ => True) (findLiveHidThreads memory rt rounds)
      (Recovery.findLiveHidThreads memory rt) := by
  refine .step (usizeAdd_ok hprimary) ?_
  refine .step (usizeAdd_ok hsecondary) ?_
  refine .step (usizeAdd_ok hpair) ?_
  refine .bind (walk_ok hfills hrounds _ _ 0x10000 _ [] ?_ ?_ List.length_replicate) ?_
  · omega
  · exact le_refl _
  intro candidates _
  refine .bind (.of (P := fun _ => True) fun _ => trivial) ?_
  intro live _
  exact .pure trivial

/-- A round of the outer loop goes on behind the address it came from, or not at all. -/
theorem scanRound_forward {rounds address : Nat} {region : MemoryRegion} {buffer : List UInt8}
    (candidates : List Nat) (hrounds : usizeMax ≤ rounds)
    (hbuffer : buffer.length = processScanChunk) :
    Triple (fun _ => True)
      (scanRound memory rt rt.primary rt.secondary (rt.layout.secondaryObjectOffset + 8) rounds
        address region buffer candidates).run
      fun result _ => ∃ done, result = .ok done ∧ ∀ next ∈ done.1, address < next := by
  have hround : AgreesWith (fun done => ∀ next ∈ done.1, address < next)
      (scanRound memory rt rt.primary rt.secondary (rt.layout.secondaryObjectOffset + 8) rounds
        address region buffer candidates)
      (Recovery.scanRegion memory rt region buffer candidates >>= fun done =>
        pure (if region.limit ≤ address then none else some region.limit, done.1, done.2)) := by
    refine .bind (scanRegion_ok hfills candidates hrounds hbuffer) ?_
    intro done _
    refine .pure ?_
    intro next hnext
    by_cases hstop : region.limit ≤ address
    · rw [if_pos hstop] at hnext
      cases hnext
    · rw [if_neg hstop] at hnext
      cases hnext
      exact Nat.lt_of_not_le hstop
  exact hround.triple

end

/-- **The scan ends** on every memory, with what it does over rounds without end; each chunk moves
    on inside its region, and each region up the address space. -/
theorem scanEnds {σ : Type} (memory : ProcessMemory (StateM σ)) (rt : RuntimeRecoveryLayout)
    (hfills : Fills memory) (hprimary : rt.primary ≤ usizeMax) (hsecondary : rt.secondary ≤ usizeMax)
    (hpair : rt.layout.secondaryObjectOffset + 8 ≤ usizeMax) (rounds : Nat)
    (hrounds : usizeMax ≤ rounds) :
    (∀ s, (findLiveHidThreads memory rt rounds).run.run s =
      (.ok ((Recovery.findLiveHidThreads memory rt).run s).1,
        ((Recovery.findLiveHidThreads memory rt).run s).2)) ∧
    (∀ regionEnd chunkStart buffer candidates, chunkStart < regionEnd → regionEnd ≤ usizeMax →
      buffer.length = processScanChunk → Triple (fun _ => True)
        (scanChunk memory rt rt.primary rt.secondary (rt.layout.secondaryObjectOffset + 8) regionEnd
          chunkStart buffer candidates).run
        fun result _ => ∃ done, result = .ok done ∧ ChunkDone regionEnd chunkStart done) ∧
    ∀ address region buffer candidates, buffer.length = processScanChunk →
      Triple (fun _ => True)
        (scanRound memory rt rt.primary rt.secondary (rt.layout.secondaryObjectOffset + 8) rounds
          address region buffer candidates).run
        fun result _ => ∃ done, result = .ok done ∧ ∀ next ∈ done.1, address < next := by
  refine ⟨?_, ?_, ?_⟩
  · intro s
    exact (findLiveHidThreads_ok hfills hrounds hprimary hsecondary hpair s).1
  · intro regionEnd chunkStart buffer candidates hlt hend hbuffer
    exact (scanChunk_ok hfills candidates hlt hend hbuffer).triple
  · intro address region buffer candidates hbuffer
    exact scanRound_forward hfills candidates hrounds hbuffer

/-- A memory that answers a query with the region of another address, a read with more than it was
    asked for, and after some time nothing any more. -/
def erraticMemory : ProcessMemory (StateM Nat) where
  query address := modifyGet fun n =>
    (if n < 3 then some ⟨address + 0x3000 * n, 0x1800, memCommit, 4, memPrivate⟩ else none, n + 1)
  read _ buffer := modifyGet fun n => ((buffer.length + n, buffer), n + 1)
  note _ := pure ()

theorem scanEnds_erratic :
    let rt : RuntimeRecoveryLayout := ⟨0x7000, ⟨0x10, 0x20, 0x28, 0, 0x30, 0x38⟩⟩
    (findLiveHidThreads erraticMemory rt usizeMax).run.run 0 =
      (.ok ((Recovery.findLiveHidThreads erraticMemory rt).run 0).1,
        ((Recovery.findLiveHidThreads erraticMemory rt).run 0).2) :=
  (scanEnds erraticMemory ⟨0x7000, ⟨0x10, 0x20, 0x28, 0, 0x30, 0x38⟩⟩ (fun _ _ _ => rfl) (by decide)
    (by decide) (by decide) usizeMax (le_refl _)).1 0

end Checked
end Recovery
end SteamInputLease
