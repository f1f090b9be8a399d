import SteamInputLease.Lib.Hoare
import SteamInputLease.Proof.Recovery.Ambiguity
import SteamInputLease.Proof.Recovery.LiveScan

/-!
# The alignment of the deadline

Objects are found at multiples of eight and displacements are multiples of eight, but nothing checks
the object offset of the secondary vtable: the deadline is aligned when that is.

The address that is written is the sum of three numbers. The object is a candidate of the scan, and
`Aligned` goes through the scan from the matcher up as a triple of `Lib.Hoare`, so that it holds
over a memory that changes between any two reads. The displacement in the instruction is tested when
the fields are paired. Between them stands the object offset of the secondary vtable, which comes
from a locator, is held below a bound and is added as it is. `Ambiguity` says which matches a
resolved layout can come from, so the condition can be put on the vtables of the image instead of on
what the resolver answers.
-/

namespace SteamInputLease
namespace Recovery

open Lib

/-! ## Where objects are found -/

section

variable {σ : Type} {memory : ProcessMemory (StateM σ)} {rt : RuntimeRecoveryLayout}

/-- Every address is a multiple of eight. -/
def Aligned (candidates : List Nat) : Prop := ∀ a ∈ candidates, 8 ∣ a

theorem aligned_findVtablePairs {bytes : List UInt8} {s p q so : Nat} (hs : s < 2 ^ 64) :
    Aligned (findVtablePairs bytes s p q so) := by
  intro a ha
  rw [findVtablePairs] at ha
  dsimp only at ha
  split at ha
  · cases ha
  · obtain ⟨k, _, _, rfl, _⟩ := (mem_pairLoop _ _).mp ha
    omega

theorem aligned_scanChunk {regionEnd chunkStart : Nat} {buffer : List UInt8}
    {candidates : List Nat} (hs : chunkStart < 2 ^ 64) (h : Aligned candidates) :
    Triple (fun _ => True) (scanChunk memory rt regionEnd chunkStart buffer candidates)
      fun result _ => Aligned result.2.2 := by
  rw [scanChunk]
  refine .bind .any fun read => .bind .any fun _ => .pure fun _ _ => ?_
  intro a ha
  rcases List.mem_append.mp ha with ha | ha
  · exact h a ha
  · exact aligned_findVtablePairs hs a ha

theorem aligned_scanChunks {regionEnd : Nat} (hend : regionEnd ≤ usizeMax) :
    ∀ (n chunkStart : Nat) (buffer : List UInt8) (candidates : List Nat), Aligned candidates →
      Triple (fun _ => True) (scanChunks memory rt regionEnd n chunkStart buffer candidates)
        fun result _ => Aligned result.2 := by
  intro n
  induction n with
  | zero =>
    intro chunkStart buffer candidates h
    exact .pure fun _ _ => h
  | succ n ih =>
    intro chunkStart buffer candidates h
    rw [scanChunks]
    split
    · next hlt =>
      have hs : chunkStart < 2 ^ 64 := by
        rw [usizeMax] at hend
        omega
      refine .bind (aligned_scanChunk hs h) fun result => .of_fact fun h' => ?_
      obtain ⟨next, buffer', candidates'⟩ := result
      cases next with
      | none => exact .pure fun _ _ => h'
      | some next => exact ih next buffer' candidates' h'
    · exact .pure fun _ _ => h

theorem aligned_scanRegion {region : MemoryRegion} {buffer : List UInt8} {candidates : List Nat}
    (h : Aligned candidates) :
    Triple (fun _ => True) (scanRegion memory rt region buffer candidates)
      fun result _ => Aligned result.2 := by
  rw [scanRegion]
  split
  · exact aligned_scanChunks (Nat.min_le_right _ _) _ _ _ _ h
  · exact .pure fun _ _ => h

theorem aligned_walk : ∀ (n address : Nat) (buffer : List UInt8) (candidates : List Nat),
    Aligned candidates → Triple (fun _ => True) (walk memory rt n address buffer candidates)
      fun result _ => Aligned result := by
  intro n
  induction n with
  | zero =>
    intro address buffer candidates h
    exact .pure fun _ _ => h
  | succ n ih =>
    intro address buffer candidates h
    rw [walk]
    split
    · refine .bind .any fun region => ?_
      cases region with
      | none => exact .pure fun _ _ => h
      | some region =>
        refine .bind (aligned_scanRegion h) fun result => .of_fact fun h' => ?_
        dsimp only
        split
        · exact .pure fun _ _ => h'
        · exact ih _ _ _ h'
    · exact .pure fun _ _ => h

theorem aligned_retainLive : ∀ candidates : List Nat, Aligned candidates →
    Triple (fun _ => True) (retainLive memory rt candidates) fun result _ => Aligned result := by
  intro candidates
  induction candidates with
  | nil =>
    intro h
    exact .pure fun _ _ => h
  | cons c rest ih =>
    intro h
    rw [retainLive]
    have hrest := ih fun a ha => h a (List.mem_cons_of_mem _ ha)
    refine .bind .any fun live => .bind hrest fun kept => .of_fact fun hkept => .pure fun _ _ => ?_
    split
    · intro a ha
      rcases List.mem_cons.mp ha with rfl | ha
      · exact h a List.mem_cons_self
      · exact hkept a ha
    · exact hkept

/-- Whatever the memory does between two reads, objects are found at multiples of eight. -/
theorem aligned_findLiveHidThreads :
    Triple (fun _ => True) (findLiveHidThreads memory rt) fun result _ => Aligned result := by
  rw [findLiveHidThreads]
  have hnil : Aligned [] := by
    intro a ha
    cases ha
  refine .bind (aligned_walk _ _ _ [] hnil) fun candidates => .of_fact fun h => ?_
  refine .bind (aligned_retainLive candidates h) fun live => .of_fact fun hlive => ?_
  refine .pure fun _ _ a ha => ?_
  exact hlive a ((List.mem_insertionSort _).mp ((mem_dedup _).mp ha))

end

/-! ## What the object offset decides -/

/-- The vtables that an unambiguous scheduler method was found through lie at aligned offsets. -/
def OffsetsAligned (decode : Decoder) (moduleBase : Nat) (image : List UInt8) : Prop :=
  ∀ m, Matches decode moduleBase image m → ¬AmbiguousMethod decode moduleBase image m.methodRva →
    8 ∣ m.secondary.objectOffset

section

variable {decode : Decoder} {moduleBase : Nat} {image : List UInt8} {layout : RecoveryLayout}

/-- The resolved layout is that of the matches in unambiguous methods. -/
theorem resolved_match (h : resolveRecoveryLayout moduleBase image decode = .ok layout) :
    (∃ m, Matches decode moduleBase image m ∧ ¬AmbiguousMethod decode moduleBase image m.methodRva) ∧
    ∀ m, Matches decode moduleBase image m → ¬AmbiguousMethod decode moduleBase image m.methodRva →
      ∃ primary, layoutOf primary m.secondary m.methodRva m.fields = layout := by
  obtain ⟨sections, vtables, primary, hclass, hall⟩ := resolveRecoveryLayout_eq_ok.mp h
  obtain ⟨td, hc⟩ := classVtables_spec hclass
  constructor
  · obtain ⟨m, hm, hclear, _⟩ := (mem_layouts hc).mp ((hall layout).mpr rfl)
    exact ⟨m, hm, hclear⟩
  · intro m hm hclear
    exact ⟨primary, (hall _).mp ((mem_layouts hc).mpr ⟨m, hm, hclear, rfl⟩)⟩

/-- The deadline offset is aligned when the object offset is. -/
theorem deadlineOffset_aligned (h : resolveRecoveryLayout moduleBase image decode = .ok layout) :
    8 ∣ layout.discoveryDeadlineOffset ↔ OffsetsAligned decode moduleBase image := by
  obtain ⟨⟨m, hm, hclear⟩, hall⟩ := resolved_match h
  have hdeadline : ∀ m, Matches decode moduleBase image m →
      ¬AmbiguousMethod decode moduleBase image m.methodRva →
        (8 ∣ layout.discoveryDeadlineOffset ↔ 8 ∣ m.secondary.objectOffset) := by
    intro m hm hclear
    obtain ⟨primary, rfl⟩ := hall m hm hclear
    obtain ⟨_, _, hmatch⟩ := hm
    obtain ⟨_, _, hsched⟩ := hmatch.triple
    show 8 ∣ m.secondary.objectOffset + m.fields.deadlineFromSecondary ↔ _
    exact (Nat.dvd_add_iff_left hsched.bounds.2.2).symm
  constructor
  · intro hdvd m' hm' hclear'
    exact (hdeadline m' hm' hclear').mp hdvd
  · intro hoffsets
    exact (hdeadline m hm hclear).mpr (hoffsets m hm hclear)

/-- **Resolved deadlines are aligned** just when the secondary vtable with the scheduler lies at an
    aligned object offset, for every object that the scan returns, whatever the memory does. -/
theorem deadline_aligned (h : resolveRecoveryLayout moduleBase image decode = .ok layout)
    {σ : Type} (memory : ProcessMemory (StateM σ)) (s : σ) (a : Nat)
    (ha : a ∈ ((findLiveHidThreads memory ⟨moduleBase, layout⟩).run s).1) :
    8 ∣ a + layout.discoveryDeadlineOffset ↔ OffsetsAligned decode moduleBase image := by
  have hdvd : 8 ∣ a := aligned_findLiveHidThreads s trivial a ha
  rw [← deadlineOffset_aligned h]
  exact (Nat.dvd_add_iff_right hdvd).symm

end

/-- One object whose secondary base is at offset 12. -/
def offsetTwelve : ProcessMemory (StateM Unit) :=
  let bytes := toLe 8 (sampleBase + 0x130) ++ toLe 4 0 ++ toLe 8 (sampleBase + 0x140) ++ toLe 8 0 ++
    toLe 8 0xbff0000000000000
  let memory := showing
    (fun a => if 0x10000 ≤ a ∧ a < 0x10040 then
      some { base := 0x10000, size := 0x40, state := memCommit, protect := 4, kind := memPrivate }
      else none)
    (fun a => bytes.getD (a - 0x10008) 0) (fun _ => true)
  { query := fun a => pure (memory.query a)
    read := fun a buffer => pure (memory.read a buffer)
    note := fun _ => pure () }

def layoutTwelve : RecoveryLayout := ⟨0x130, 0x140, 12, 0x180, 0x1c, 0x24⟩

theorem resolved_twelve :
    resolveRecoveryLayout sampleBase (classImage 12 (schedulerCode [0x18]) []) sampleDecoder =
      .ok layoutTwelve := by decide +kernel

theorem found_twelve :
    0x10008 ∈ ((findLiveHidThreads offsetTwelve ⟨sampleBase, layoutTwelve⟩).run ()).1 := by
  have hfound : ((findLiveHidThreads offsetTwelve ⟨sampleBase, layoutTwelve⟩).run ()).1 =
      [0x10008] := by decide +kernel
  rw [hfound]
  exact List.mem_cons_self

/-- The host would write to an unaligned address. -/
theorem unaligned_deadline : ∃ layout,
    resolveRecoveryLayout sampleBase (classImage 12 (schedulerCode [0x18]) []) sampleDecoder =
      .ok layout ∧
    ∃ a ∈ ((findLiveHidThreads offsetTwelve ⟨sampleBase, layout⟩).run ()).1,
      ¬8 ∣ a + layout.discoveryDeadlineOffset :=
  ⟨layoutTwelve, resolved_twelve, 0x10008, found_twelve, by decide⟩

theorem deadline_aligned_twelve :
    ¬OffsetsAligned sampleDecoder sampleBase (classImage 12 (schedulerCode [0x18]) []) := by
  intro hoffsets
  have hdvd := (deadline_aligned resolved_twelve offsetTwelve () 0x10008 found_twelve).mpr hoffsets
  revert hdvd
  decide

end Recovery
end SteamInputLease
