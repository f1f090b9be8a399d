import SteamInputLease.Proof.Recovery.Scan

/-!
# What `find_live_hid_threads` returns

The live objects of the regions the walk comes to, in ascending order, each once; whatever a read
leaves in the buffer behind the bytes it delivered makes no difference.

`Scan` says what the walk gathers, which is more than the objects: every aligned pair that it has to
find and perhaps some that are not live, in the order of the regions. Here the rest of the function
follows. `retain` keeps those that validate, `sort` and `dedup` make the list ascending, and a live
object is such a pair, because its two vtable words can be read. That the result does not depend on
the reader is a consequence and not a second proof: membership is said by the view alone, and two
ascending lists with the same members are equal.
-/

namespace SteamInputLease
namespace Recovery

open Lib

section

variable {memory memory' : ProcessMemory Id} {byteAt : Nat → UInt8} {readable : Nat → Bool}
  {rt : RuntimeRecoveryLayout}

/-- Two readers of one view give one verdict. -/
theorem live_congr (hv : StaticView memory byteAt readable)
    (hv' : StaticView memory' byteAt readable) (a : Nat) :
    Id.run (hidThreadIsLive memory' rt a) = Id.run (hidThreadIsLive memory rt a) := by
  have hread : ∀ a n, Id.run (readExact memory' a n) = Id.run (readExact memory a n) := by
    intro a n
    rw [readExact_eq hv, readExact_eq hv']
  have hpointer : ∀ a, Id.run (readPointer memory' a) = Id.run (readPointer memory a) := by
    intro a
    rw [readPointer, readPointer, Id.run_bind, Id.run_bind, hread]
  simp only [hidThreadIsLive, vtablesAndDeadline, Id.run_bind, hpointer]
  split
  · simp only [Id.run_bind, hpointer]
    split
    · simp only [Id.run_bind, hread]
    · rfl
  · rfl

theorem Reached.congr (hq : memory'.query = memory.query) {a : Nat} {r : MemoryRegion}
    (h : Reached memory a r) : Reached memory' a r := by
  induction h with
  | here hlt hr => exact .here hlt (hq ▸ hr)
  | next hlt hr _ ih => exact .next hlt (hq ▸ hr) ih

theorem LiveObject.congr (hv : StaticView memory byteAt readable)
    (hv' : StaticView memory' byteAt readable) (hq : memory'.query = memory.query) {a : Nat}
    (h : LiveObject memory rt a) : LiveObject memory' rt a := by
  obtain ⟨hdvd, ⟨r, hr, hregion⟩, hlive⟩ := h
  exact ⟨hdvd, ⟨r, hr.congr hq, hregion⟩, (live_congr hv hv' a).trans hlive⟩

theorem ascending (memory : ProcessMemory Id) (rt : RuntimeRecoveryLayout) :
    (Id.run (findLiveHidThreads memory rt)).Pairwise (· < ·) :=
  dedup_ascending _ (List.pairwise_insertionSort (· ≤ ·) _)

theorem mem_findLiveHidThreads (hv : StaticView memory byteAt readable) (hbase : rt.moduleBase ≠ 0)
    (hso : rt.layout.secondaryObjectOffset ≤ 0x100) (a : Nat) :
    a ∈ Id.run (findLiveHidThreads memory rt) ↔ LiveObject memory rt a := by
  have hp : rt.primary ≠ 0 := by
    rw [RuntimeRecoveryLayout.primary]
    omega
  obtain ⟨found, hwalk, hfound⟩ := walk_spec hv hp hso (usizeMax / 2 - 0x10000) 0x10000
    (.replicate processScanChunk 0) [] (Nat.le_refl _) List.length_replicate
  rw [List.nil_append] at hwalk
  rw [findLiveHidThreads, Id.run_bind, Id.run_bind, Id.run_pure, mem_dedup,
    List.mem_insertionSort, mem_retainLive, hwalk]
  constructor
  · intro h
    obtain ⟨ha, hlive⟩ := h
    obtain ⟨hdvd, hregion⟩ := hfound.inside a ha
    exact ⟨hdvd, hregion, hlive⟩
  · intro h
    obtain ⟨hdvd, ⟨r, hr, hread, hkind, hfirst, hsecond⟩, hlive⟩ := h
    obtain ⟨hw, hw'⟩ := live_words hv hlive
    exact ⟨hfound.all a r ⟨hdvd, hw, hw'⟩ hr hread hkind hfirst hsecond, hlive⟩

/-- **The scan is sound and complete** on a memory that stands still, and the same for every
    reader of that memory. -/
theorem liveScan (hv : StaticView memory byteAt readable) (hbase : rt.moduleBase ≠ 0)
    (hso : rt.layout.secondaryObjectOffset ≤ 0x100) :
    (Id.run (findLiveHidThreads memory rt)).Pairwise (· < ·) ∧
    (∀ a, a ∈ Id.run (findLiveHidThreads memory rt) ↔ LiveObject memory rt a) ∧
    ∀ memory' : ProcessMemory Id, StaticView memory' byteAt readable →
      memory'.query = memory.query →
      Id.run (findLiveHidThreads memory' rt) = Id.run (findLiveHidThreads memory rt) := by
  have hmem := mem_findLiveHidThreads hv hbase hso
  refine ⟨ascending memory rt, hmem, fun memory' hv' hq => ?_⟩
  refine List.Pairwise.eq_of_mem_iff (ascending memory' rt) (ascending memory rt) fun {a} => ?_
  rw [hmem, mem_findLiveHidThreads hv' hbase hso]
  exact ⟨.congr hv' hv hq.symm, .congr hv hv' hq⟩

end

/-! ## A view -/

/-- The memory with these regions, bytes and readable pages. -/
def showing (regions : Nat → Option MemoryRegion) (byteAt : Nat → UInt8) (readable : Nat → Bool) :
    ProcessMemory Id where
  query := regions
  read a buffer :=
    let count := delivered readable a buffer.length
    (count, bytesFrom byteAt a count ++ buffer.drop count)
  note _ := ()

theorem staticView_showing {regions : Nat → Option MemoryRegion} {byteAt : Nat → UInt8}
    {readable : Nat → Bool}
    (h : ∀ a r, regions a = some r → r.base ≤ a ∧ a < r.base + r.size ∧ r.base + r.size ≤ usizeMax) :
    StaticView (showing regions byteAt readable) byteAt readable := by
  refine ⟨h, fun a buffer => rfl, fun a buffer => ?_, fun a buffer i hi => ?_⟩
  · have : delivered readable a buffer.length ≤ buffer.length := delivered_le _ a
    show (bytesFrom byteAt a _ ++ buffer.drop _).length = buffer.length
    rw [List.length_append, bytesFrom, List.length_map, List.length_range, List.length_drop]
    omega
  · have hlen : (bytesFrom byteAt a (delivered readable a buffer.length)).length =
        delivered readable a buffer.length := by
      rw [bytesFrom, List.length_map, List.length_range]
    show (bytesFrom byteAt a _ ++ buffer.drop _)[i]? = some (byteAt (a + i))
    rw [List.getElem?_append_left (hi.trans_eq hlen.symm), bytesFrom, List.getElem?_map,
      List.getElem?_range hi]
    rfl

/-- One object, on the second page of a region whose first page cannot be read. -/
def oneObject : ProcessMemory Id :=
  let bytes := toLe 8 0x7ff0100 ++ toLe 8 0 ++ toLe 8 0x7ff0200 ++ toLe 8 0xbff0000000000000
  showing
    (fun a => if 0x10000 ≤ a ∧ a < 0x11080 then
      some { base := 0x10000, size := 0x1080, state := memCommit, protect := 4, kind := memPrivate }
      else none)
    (fun a => bytes.getD (a - 0x11008) 0) (fun page => page == 0x11)

def oneObjectLayout : RuntimeRecoveryLayout where
  moduleBase := 0x7ff0000
  layout :=
    { primaryVtableRva := 0x100, secondaryVtableRva := 0x200, secondaryObjectOffset := 0x10
      workerMethodRva := 0x300, discoveryDeadlineOffset := 0x18, discoveryCounterOffset := 0x20 }

theorem liveScan_oneObject :
    Id.run (findLiveHidThreads oneObject oneObjectLayout) = [0x11008] ∧
      LiveObject oneObject oneObjectLayout 0x11008 := by
  have hv : StaticView oneObject _ _ := staticView_showing fun a r hr => by
    split at hr
    · next ha =>
      cases hr
      dsimp only
      unfold usizeMax
      omega
    · cases hr
  have hrun : Id.run (findLiveHidThreads oneObject oneObjectLayout) = [0x11008] := by
    decide +kernel
  have hbase : oneObjectLayout.moduleBase ≠ 0 := by decide
  obtain ⟨_, hmem, _⟩ := liveScan hv hbase (by decide)
  exact ⟨hrun, (hmem _).mp (hrun ▸ List.mem_cons_self)⟩

end Recovery
end SteamInputLease
