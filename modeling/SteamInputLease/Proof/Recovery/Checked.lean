import SteamInputLease.Proof.Recovery.CheckedSearch

/-!
# Image analysis does not crash

Section by section of `Checked`, each function does not crash and agrees with the function it is a
copy of; and no section that is kept ends behind the image.

The copies have the sums, products and slices of the source written out, each of which panics when
it leaves `usize` or the slice. `Agrees x y` says that `x` does not panic and returns `y`, which may
be an error of the resolver; it composes along `bind`, so that a lemma here follows its function
line by line and each unchecked sum is one step with a bound to show. The bounds have two sources:
the fields of a header have 16 or 32 bits, and an index into the image is below `isize::MAX`, the
length that Rust allows a slice. What a stage may assume of the values that an earlier one returned
is taken from the lemmas about the functions without bounds, in `Locators` and `Image`.
-/

namespace SteamInputLease
namespace Recovery
namespace Checked

open Lib

/-! ## Sections -/

section

variable {image : List UInt8}

/-- A field of a header, at a sum that is not checked. -/
theorem fieldAt_ok {error : ResolveError} {width offset delta : Nat}
    (h : offset + delta + width ≤ usizeMax) :
    Agrees (fieldAt error (readLe width) image offset delta)
      (okOr error (Recovery.readLe width image (offset + delta))) := by
  refine .step (usizeAdd_ok (by omega)) ?_
  refine .step (readLe_ok h) ?_
  exact .of _

/-- One header of the section table; all its fields lie within 40 bytes. -/
theorem sectionHeader_ok {table declaredSize index : Nat} (h : table + index * 40 + 40 ≤ usizeMax) :
    Agrees (sectionHeader image table declaredSize index)
      (Recovery.sectionHeader image table declaredSize index) := by
  refine .step (usizeMul_ok (by omega)) ?_
  refine .bind (.of _) ?_
  intro offset hoffset
  obtain ⟨_, rfl⟩ := checkedAdd_eq_some.mp (okOr_eq_ok.mp hoffset)
  refine .bind (fieldAt_ok (by omega)) ?_
  intro virtualSize _
  refine .bind (fieldAt_ok (by omega)) ?_
  intro start _
  refine .bind (fieldAt_ok (by omega)) ?_
  intro rawSize _
  refine .bind (fieldAt_ok (by omega)) ?_
  intro characteristics _
  exact .pure _

theorem sectionLoop_ok {table declaredSize : Nat} : ∀ n index : Nat,
    table + (index + n) * 40 ≤ usizeMax →
      Agrees (sectionLoop image table declaredSize n index)
        (Recovery.sectionLoop image table declaredSize n index) := by
  intro n
  induction n with
  | zero =>
    intro index _
    exact .pure _
  | succ n ih =>
    intro index h
    refine .bind (sectionHeader_ok (by omega)) ?_
    intro header _
    refine .bind (ih (index + 1) (by omega)) ?_
    intro rest _
    exact .pure _

/-- Up to the section table every offset is a sum of fields of 16 and 32 bits. -/
theorem parsePeSections_ok : Agrees (parsePeSections image) (Recovery.parsePeSections image) := by
  -- the header fields have 16 and 32 bits, so that the unchecked sums stay far below `usize::MAX`
  have hmax : 2 ^ 32 + 2 ^ 16 * 64 ≤ usizeMax := by decide
  refine .step (readLe_ok (by decide)) ?_
  refine .bind (.of _) ?_
  intro _ _
  refine .step (readLe_ok (by decide)) ?_
  refine .bind (.of _) ?_
  intro nt hnt
  have hnt : nt < 2 ^ 32 := readU32_lt (okOr_eq_ok.mp hnt)
  refine .step (readLe_ok (by omega)) ?_
  refine .bind (.of _) ?_
  intro _ _
  refine .bind (fieldAt_ok (by omega)) ?_
  intro count hcount
  have hcount : count < 256 ^ 2 := readLe_lt (okOr_eq_ok.mp hcount)
  refine .bind (fieldAt_ok (by omega)) ?_
  intro optionalSize hsize
  have hsize : optionalSize < 256 ^ 2 := readLe_lt (okOr_eq_ok.mp hsize)
  refine .step (usizeAdd_ok (by omega)) ?_
  refine .step (readLe_ok (by omega)) ?_
  refine .bind (.of _) ?_
  intro _ _
  refine .bind (fieldAt_ok (by omega)) ?_
  intro declaredSize _
  refine .bind (.of _) ?_
  intro _ _
  refine .bind (.of _) ?_
  intro table htable
  obtain ⟨_, rfl⟩ := checkedAdd_eq_some.mp (okOr_eq_ok.mp htable)
  refine .bind (sectionLoop_ok count 0 (by omega)) ?_
  intro sections _
  refine .bind (.of _) ?_
  intro _ _
  exact .pure _

end

/-! ## Locators -/

section

variable {image : List UInt8} (himage : image.length ≤ isizeMax)
include himage

/-- One word of the image: below `limit` a whole locator can be read. -/
theorem locatorAt_ok {td index : Nat} (hindex : index < image.length / 4) :
    locatorAt image td index = .ok (Recovery.locatorAt image td index) := by
  have hmax : isizeMax + 32 ≤ usizeMax := by decide
  -- the fields end at most 24 bytes behind the offset, far below the bound of an address
  have hread : ∀ delta, delta ≤ 20 →
      (usizeAdd (index * 4 - 12) delta >>= readU32 image : MayPanic (Option Nat)) =
        .ok (Recovery.readU32 image (index * 4 - 12 + delta)) := by
    intro delta hdelta
    rw [usizeAdd_ok (by omega)]
    exact readLe_ok (by omega)
  have hfirst : readU32 image (index * 4 - 12) =
      .ok (Recovery.readU32 image (index * 4 - 12)) := readLe_ok (by omega)
  rw [locatorAt, Recovery.locatorAt]
  by_cases hword : leNat (slice image (index * 4) 4) ≠ td
  · rw [if_pos hword, if_pos hword]
    rfl
  rw [if_neg hword, if_neg hword, usizeMul_ok (by omega)]
  show (if index * 4 < 12 then _ else _) = _
  by_cases hfield : index * 4 < 12
  · rw [if_pos hfield, if_pos hfield]
    rfl
  rw [if_neg hfield, if_neg hfield, MayPanic.sub_ok (by omega)]
  show (if image.length - completeObjectLocatorSize ≤ index * 4 - 12 then _ else _) = _
  by_cases hlimit : image.length - completeObjectLocatorSize ≤ index * 4 - 12
  · rw [if_pos hlimit, if_pos hlimit]
    rfl
  rw [if_neg hlimit, if_neg hlimit]
  cases hrva : u32TryFrom (index * 4 - 12) with
  | none => rfl
  | some locatorRva =>
    dsimp only
    rw [hfirst, hread 8 (by omega), hread 20 (by omega), hread 4 (by omega), hread 16 (by omega)]
    -- the source's `||` reads a field only where those before it agree
    by_cases h0 : Recovery.readU32 image (index * 4 - 12) ≠ some 1
    · rw [if_pos (.inl h0)]
      exact if_pos h0
    refine (if_neg h0).trans ?_
    by_cases h8 : Recovery.readU32 image (index * 4 - 12 + 8) ≠ some 0
    · rw [if_pos (.inr (.inl h8))]
      exact if_pos h8
    refine (if_neg h8).trans ?_
    by_cases h20 : Recovery.readU32 image (index * 4 - 12 + 20) ≠ some locatorRva
    · rw [if_pos (.inr (.inr h20))]
      exact if_pos h20
    refine (if_neg h20).trans ?_
    rw [if_neg (not_or.mpr ⟨h0, not_or.mpr ⟨h8, h20⟩⟩)]
    cases Recovery.readU32 image (index * 4 - 12 + 4) with
    | none => rfl
    | some objectOffset =>
      cases Recovery.readU32 image (index * 4 - 12 + 16) with
      | none => rfl
      | some classDescriptor =>
        by_cases hin : objectOffset ≤ maxSecondaryOffset ∧ classDescriptor < image.length
        · exact (if_pos hin).trans (congrArg Except.ok (if_pos hin).symm)
        · exact (if_neg hin).trans (congrArg Except.ok (if_neg hin).symm)

theorem locatorLoop_ok {td : Nat} : ∀ (n index : Nat) (result : List (Nat × Nat)),
    index + n = image.length / 4 →
      locatorLoop image td n index result = .ok (Recovery.locatorLoop image td n index result) := by
  intro n
  induction n with
  | zero =>
    intro index result _
    rfl
  | succ n ih =>
    intro index result hn
    rw [locatorLoop, Recovery.locatorLoop, locatorAt_ok himage (by omega)]
    cases Recovery.locatorAt image td index with
    | skip => exact ih (index + 1) result (by omega)
    | stop => rfl
    | found locator => exact ih (index + 1) _ (by omega)

/-- The words of the image are fewer than its bytes, so no index is too large. -/
theorem findCompleteObjectLocators_ok (td : Nat) : findCompleteObjectLocators image td =
    .ok (Recovery.findCompleteObjectLocators image td) :=
  locatorLoop_ok himage _ 0 [] (Nat.zero_add _)

end

/-! ## Vtables -/

section

variable {moduleBase : Nat} {image : List UInt8} {sections : List PeSection}

theorem readU64_small {offset : Nat} (h : offset < 2 ^ 33) :
    readU64 image offset = .ok (Recovery.readU64 image offset) := by
  have hmax : 2 ^ 33 + 8 ≤ usizeMax := by decide
  exact readLe_ok (by omega)

theorem vtableHasExecutableEntry_ok {vtableRva : Nat} (h : vtableRva < 2 ^ 32) :
    vtableHasExecutableEntry moduleBase image sections vtableRva =
      .ok (Recovery.vtableHasExecutableEntry moduleBase image sections vtableRva) := by
  rw [vtableHasExecutableEntry, readU64_small (by omega)]
  rfl

/-- What is computed of an address from the image is checked in the source. -/
theorem vtableAt_ok (objectOffset reference : Nat) :
    AgreesSome (vtableAt moduleBase image sections objectOffset reference)
      (Recovery.vtableAt moduleBase image sections objectOffset reference) := by
  rw [Recovery.vtableAt, Option.bind_assoc]
  refine .bind (.of _) ?_
  intro sum _
  refine .bind (.of _) ?_
  intro vtableRva hrva
  obtain ⟨hlt, rfl⟩ := u32TryFrom_eq_some.mp hrva
  refine .step (vtableHasExecutableEntry_ok hlt) ?_
  exact .of _

/-- The stage of the vtables, for all locators that were found. -/
theorem vtableLoop_ok (himage : image.length ≤ isizeMax) : ∀ (locators : List (Nat × Nat))
    (vtables : List VtableCandidate),
    Agrees (vtableLoop moduleBase image sections locators vtables)
      (Recovery.vtableLoop moduleBase image sections locators vtables) := by
  intro locators
  induction locators with
  | nil =>
    intro vtables
    exact .pure _
  | cons locator rest ih =>
    intro vtables
    refine .bind (.of _) ?_
    intro absolute _
    refine .step (findU64_ok himage absolute) ?_
    refine .step (MayPanic.collect_ok _ _ fun reference _ => vtableAt_ok _ reference) ?_
    exact ih _

/-- The candidate is taken by its index only where there is one. -/
theorem uniqueVtable_ok (candidates : List VtableCandidate) (objectOffset : Nat) (kind : String) :
    Agrees (uniqueVtable candidates objectOffset kind)
      (Recovery.uniqueVtable candidates objectOffset kind) := by
  rw [uniqueVtable, Recovery.uniqueVtable]
  cases candidates.filter fun candidate => candidate.objectOffset == objectOffset with
  | nil => exact .of _
  | cons first rest =>
    cases rest with
    | nil => exact .of _
    | cons second rest =>
      rw [if_neg (by simp)]
      exact .of _

end

/-! ## One method -/

section

variable {instructions : List Instruction} {index : Nat} {base : Register} {counter : Nat}

/-- The instructions before an increment, as far as there are 48 of them. -/
theorem fieldsOf_ok (hincr : (instructions[index]?).bind incrementedMemory = some (base, counter))
    (hbase : ¬(base = .none ∨ maxFieldOffset < counter)) (hindex : index < instructions.length)
    {following : Nat} {store : Instruction} (hstore : instructions[following]? = some store) :
    AgreesSome (fieldsOf instructions index base counter store)
      (fieldsAt instructions (index, following)) := by
  have hslice : MayPanic.slice instructions (index - 48) index =
      .ok ((instructions.take index).drop (index - 48)) := by
    rw [MayPanic.slice_ok (Nat.sub_le _ _) hindex.le, List.drop_take]
  rw [fieldsAt, hincr, hstore]
  show AgreesSome _ (if base = .none ∨ maxFieldOffset < counter then none else _)
  rw [if_neg hbase]
  refine .bind (.of _) ?_
  intro found _
  obtain ⟨storeBase, deadline⟩ := found
  dsimp only
  split
  · exact .of _
  · refine .step hslice ?_
    split
    · refine .bind (.of _) ?_
      intro deadline _
      refine .bind (.of _) ?_
      intro counter _
      exact .pure _
    · exact .of _

/-- Where the instruction is no increment, no pair of its index gives anything. -/
theorem fieldsAt_none (h : ∀ base counter,
    (instructions[index]?).bind incrementedMemory = some (base, counter) →
      base = .none ∨ maxFieldOffset < counter) (following : Nat) :
    fieldsAt instructions (index, following) = none := by
  rw [fieldsAt]
  cases hincr : (instructions[index]?).bind incrementedMemory with
  | none => rfl
  | some found =>
    obtain ⟨base, counter⟩ := found
    exact if_pos (h base counter hincr)

/-- The stores behind one increment. -/
theorem fieldsFrom_ok (hlen : instructions.length ≤ isizeMax) (hindex : index < instructions.length)
    (found : List SchedulerFields) :
    fieldsFrom instructions found index = .ok (collect (fieldsAt instructions)
      ((List.range' (index + 1) (min (index + 9) instructions.length - (index + 1))).map (index, ·))
      found) := by
  have hmax : isizeMax + 9 ≤ usizeMax := by decide
  rw [fieldsFrom, collect_map]
  have hskip : (∀ base counter,
      (instructions[index]?).bind incrementedMemory = some (base, counter) →
        base = .none ∨ maxFieldOffset < counter) → ∀ l,
      collect (fieldsAt instructions ∘ (index, ·)) l found = found := by
    intro h l
    exact collect_skip l found fun following _ => fieldsAt_none h following
  cases hincr : (instructions[index]?).bind incrementedMemory with
  | none =>
    rw [hskip (by rw [hincr]; intro _ _ h; cases h)]
    rfl
  | some found' =>
    obtain ⟨base, counter⟩ := found'
    show (if base = .none ∨ maxFieldOffset < counter then _ else _) = _
    by_cases hbase : base = .none ∨ maxFieldOffset < counter
    · have hall : ∀ base' counter',
          (instructions[index]?).bind incrementedMemory = some (base', counter') →
            base' = .none ∨ maxFieldOffset < counter' := by
        intro base' counter' h
        cases hincr.symm.trans h
        exact hbase
      rw [if_pos hbase, hskip hall]
      rfl
    · rw [if_neg hbase, usizeAdd_ok (by omega), usizeAdd_ok (by omega)]
      show MayPanic.slice instructions _ _ >>= _ = _
      rw [MayPanic.slice_ok (by omega) (by omega)]
      refine MayPanic.collect_slice_ok ?_ _ _ _ (by omega)
      intro following store hstore
      exact fieldsOf_ok hincr hbase hindex hstore

/-- Both loops over the instructions of a method. -/
theorem schedulerFields_ok (hlen : instructions.length ≤ isizeMax) :
    schedulerFields instructions = .ok (Recovery.schedulerFields instructions) := by
  rw [schedulerFields, Recovery.schedulerFields, storePairs, collect_flatMap]
  apply MayPanic.foldlM_ok
  intro index hindex found
  exact fieldsFrom_ok hlen (List.mem_range.mp hindex) found

end

section

variable {decode : Decoder} {moduleBase : Nat} {image : List UInt8} {sections : List PeSection}

theorem methodInstructions_ok (methodRva : Nat) :
    AgreesSome (methodInstructions decode moduleBase image sections methodRva)
      (Recovery.methodInstructions decode moduleBase image sections methodRva) := by
  refine .bind (.of _) ?_
  intro sectionEnd _
  refine .bind (.of _) ?_
  intro limit _
  dsimp only
  split
  · exact .of _
  · refine .step (MayPanic.slice_ok (by omega) (Nat.min_le_right _ _)) ?_
    refine .bind (.of _) ?_
    intro ip _
    exact .pure _

theorem length_untilRet : ∀ instructions : List Instruction,
    (untilRet instructions).length ≤ instructions.length := by
  intro instructions
  induction instructions with
  | nil => exact le_refl _
  | cons i rest ih =>
    rw [untilRet]
    split
    · simp
    · exact Nat.succ_le_succ ih

variable (hdecode : ∀ code ip, (decode code ip).length ≤ isizeMax)
include hdecode

theorem length_methodInstructions {methodRva : Nat} {instructions : List Instruction}
    (h : Recovery.methodInstructions decode moduleBase image sections methodRva =
      some instructions) : instructions.length ≤ isizeMax := by
  rw [Recovery.methodInstructions] at h
  simp only [Option.bind_eq_bind, Option.bind_eq_some_iff] at h
  obtain ⟨sectionEnd, _, limit, _, h⟩ := h
  split at h
  · cases h
  · obtain ⟨ip, _, h⟩ := Option.bind_eq_some_iff.mp h
    cases h
    exact (length_untilRet _).trans (hdecode _ _)

/-- The decoder gives no more instructions than a slice can hold. -/
theorem analyzeSchedulerMethod_ok (methodRva : Nat) :
    AgreesSome (analyzeSchedulerMethod decode moduleBase image sections methodRva)
      (Recovery.analyzeSchedulerMethod decode moduleBase image sections methodRva) := by
  refine .bind (methodInstructions_ok methodRva) ?_
  intro instructions h
  refine .step (schedulerFields_ok (length_methodInstructions hdecode h)) ?_
  cases Recovery.schedulerFields instructions with
  | nil => exact .of _
  | cons first rest =>
    cases rest with
    | nil => exact .of _
    | cons second rest =>
      rw [if_neg (by simp)]
      exact .of _

omit hdecode in
/-- A slot of a vtable that was found lies less than `2^33` bytes into the image. -/
theorem slotMethod_ok {vtableRva index : Nat} (hrva : vtableRva < 2 ^ 32)
    (hindex : index < maxVtableMethods) :
    AgreesSome (slotMethod moduleBase image sections vtableRva index)
      (Recovery.slotMethod moduleBase image sections vtableRva index) := by
  have hmax : 2 ^ 33 ≤ usizeMax := by decide
  rw [maxVtableMethods] at hindex
  refine .step (usizeMul_ok (by omega)) ?_
  refine .bind (.of _) ?_
  intro pointerRva hpointer
  obtain ⟨_, rfl⟩ := checkedAdd_eq_some.mp hpointer
  have hsmall : vtableRva + index * 8 < 2 ^ 33 := by omega
  refine .bind (readU64_small hsmall) ?_
  intro method _
  refine .bind (.of _) ?_
  intro methodRva _
  refine .bind (.of _) ?_
  intro methodRva _
  exact .of _

theorem schedulerLayout_ok (primary : VtableCandidate) {secondary : VtableCandidate} {index : Nat}
    (hrva : secondary.vtableRva < 2 ^ 32) (hindex : index < maxVtableMethods) :
    AgreesSome (schedulerLayout decode moduleBase image sections primary (secondary, index))
      (Recovery.schedulerLayout decode moduleBase image sections primary (secondary, index)) := by
  refine .bind (slotMethod_ok hrva hindex) ?_
  intro methodRva _
  refine .bind (analyzeSchedulerMethod_ok hdecode methodRva) ?_
  intro fields _
  refine .bind (.of _) ?_
  intro deadline _
  refine .bind (.of _) ?_
  intro counter _
  exact .pure _

/-- The last stage, over the vtables that the stages before it have found. -/
theorem findSchedulerLayouts_ok {vtables : List VtableCandidate} (primary : VtableCandidate)
    (hrva : ∀ v ∈ vtables, v.vtableRva < 2 ^ 32) :
    findSchedulerLayouts decode moduleBase image sections vtables primary =
      .ok (Recovery.findSchedulerLayouts decode moduleBase image sections vtables primary) := by
  apply MayPanic.collect_ok
  intro pair hpair
  obtain ⟨secondary, index⟩ := pair
  obtain ⟨hsecondary, hindex⟩ := List.mem_product.mp hpair
  exact schedulerLayout_ok hdecode primary (hrva _ (List.mem_of_mem_filter hsecondary))
    (List.mem_range.mp hindex)

end

/-! ## The layout -/

section

variable {moduleBase : Nat} {image : List UInt8} (himage : image.length ≤ isizeMax)
include himage

theorem typeDescriptor_ok : Agrees (typeDescriptor image) (Recovery.typeDescriptor image) := by
  refine .step (findUnique_ok himage hidThreadRttiName) ?_
  refine .bind (.of _) ?_
  intro name _
  refine .bind (.of _) ?_
  intro rva _
  exact .of _

/-- The stages before the scheduler. -/
theorem classVtables_ok :
    Agrees (classVtables moduleBase image) (Recovery.classVtables moduleBase image) := by
  refine .bind parsePeSections_ok ?_
  intro sections _
  refine .bind (typeDescriptor_ok himage) ?_
  intro td _
  refine .step (findCompleteObjectLocators_ok himage td) ?_
  refine .bind (.of _) ?_
  intro _ _
  refine .bind (vtableLoop_ok himage _ []) ?_
  intro vtables _
  refine .bind (uniqueVtable_ok vtables 0 "primary") ?_
  intro primary _
  exact .pure _

/-- All stages. That the vtables are below `2^32` is known of the first ones. -/
theorem resolveRecoveryLayout_ok {decode : Decoder}
    (hdecode : ∀ code ip, (decode code ip).length ≤ isizeMax) :
    Agrees (resolveRecoveryLayout moduleBase image decode)
      (Recovery.resolveRecoveryLayout moduleBase image decode) := by
  refine .bind (classVtables_ok himage) ?_
  intro found hfound
  obtain ⟨sections, vtables, primary⟩ := found
  obtain ⟨td, hclass⟩ := classVtables_spec hfound
  have hrva : ∀ v ∈ vtables, v.vtableRva < 2 ^ 32 := by
    intro v hv
    obtain ⟨o, _, hvtable⟩ := (hclass.members v).mp hv
    exact hvtable.small
  refine .step (findSchedulerLayouts_ok hdecode primary hrva) ?_
  dsimp only
  cases Recovery.findSchedulerLayouts decode moduleBase image sections vtables primary with
  | nil => exact .of _
  | cons first rest =>
    cases rest with
    | nil => exact .of _
    | cons second rest =>
      rw [if_pos (by simp)]
      exact .of _

end

/-- Whatever the image, the base and the decoder, the analysis does not crash: it returns what
    `resolve_recovery_layout` returns over arithmetic without bounds. The sections it keeps are
    not empty and end inside the image. -/
theorem imageAnalysis_completes (moduleBase : Nat) (image : Slice UInt8)
    (decode : List UInt8 → Nat → Slice Instruction) :
    (resolveRecoveryLayout moduleBase image.1 fun code ip => (decode code ip).1).run =
      .ok (Recovery.resolveRecoveryLayout moduleBase image.1 fun code ip => (decode code ip).1) ∧
    ∀ sections, (parsePeSections image.1).run = .ok (.ok sections) →
      ∀ s ∈ sections, s.start < s.stop ∧ s.stop ≤ image.1.length := by
  refine ⟨resolveRecoveryLayout_ok image.2 fun code ip => (decode code ip).2, ?_⟩
  intro sections hsections s hs
  have hparsed := Except.ok.inj (parsePeSections_ok.symm.trans hsections)
  obtain ⟨table, count, declaredSize, hheader, hmem, _⟩ := parsePeSections_spec hparsed
  have hsection := (hmem s).mp hs
  exact ⟨hsection.nonempty, hsection.inside.trans hheader.size⟩

end Checked
end Recovery
end SteamInputLease
