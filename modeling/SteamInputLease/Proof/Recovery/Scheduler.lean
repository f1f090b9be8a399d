import SteamInputLease.Proof.Recovery.Image

/-!
# What the scheduler stage finds

`analyze_scheduler_method` answers a pair of fields just when it is the only one that the
instructions of the method schedule, and `find_scheduler_layouts` collects the answers of the
executable methods in the first eight slots of the secondary vtables.

The decoder stays a parameter: what an instruction is comes from a third-party crate, and every
statement here is about the instructions it returns. `Schedules` of `Evidence` says in plain words
what the two nested loops look for, an increment, a store within eight instructions and a load
before them, and `mem_schedulerFields` is the equivalence of the two. That the loops keep a list
without repetition is what makes "the only one" a statement about values and not about places: the
same pair of fields may be scheduled many times in one method.
-/

namespace SteamInputLease
namespace Recovery

open Lib

/-! ## Instructions -/

section

variable {i : Instruction} {base : Register} {d : Nat}

theorem simpleMemory_eq_some : simpleMemory i = some (base, d) ↔ Accesses i base d := by
  rw [simpleMemory, Option.ite_none_right_eq_some, Option.some.injEq, Prod.mk.injEq]
  constructor
  · intro h
    exact ⟨h.2.1, h.1.1, h.1.2, h.2.2⟩
  · intro h
    exact ⟨⟨h.noIndex, h.notIpRelative⟩, h.base, h.displacement⟩

theorem incrementedMemory_eq_some : incrementedMemory i = some (base, d) ↔ Increments i base d := by
  rw [incrementedMemory, Option.ite_none_left_eq_some, simpleMemory_eq_some, not_or, not_not,
    not_not, Increments, and_assoc]

theorem movsdLoad_eq_some : movsdLoad i = some (base, d) ↔ LoadsDouble i base d := by
  rw [movsdLoad, Option.ite_none_right_eq_some, simpleMemory_eq_some, LoadsDouble, and_assoc,
    and_assoc]

theorem movsdStore_eq_some : movsdStore i = some (base, d) ↔ StoresDouble i base d := by
  rw [movsdStore, Option.ite_none_right_eq_some, simpleMemory_eq_some, StoresDouble, and_assoc,
    and_assoc]

end

/-! ## One method -/

section

variable {instructions : List Instruction} {fields : SchedulerFields}

/-- The load is looked for among the 48 instructions before the increment. -/
theorem loadedBefore_iff {index : Nat} {base : Register} {d : Nat} :
    ((instructions.take index).drop (index - 48)).any
        (fun candidate => movsdLoad candidate = some (base, d)) = true ↔
      ∃ k, k < index ∧ index ≤ k + 48 ∧ ∃ i, instructions[k]? = some i ∧ LoadsDouble i base d := by
  rw [List.any_eq_true]
  constructor
  · intro h
    obtain ⟨i, hi, hload⟩ := h
    obtain ⟨j, hj⟩ := List.getElem?_of_mem hi
    rw [List.getElem?_drop] at hj
    have hlt : index - 48 + j < index := by
      by_contra hge
      rw [List.getElem?_take_eq_none (Nat.le_of_not_lt hge)] at hj
      cases hj
    rw [List.getElem?_take_of_lt hlt] at hj
    exact ⟨index - 48 + j, hlt, by omega, i, hj, movsdLoad_eq_some.mp (of_decide_eq_true hload)⟩
  · intro h
    obtain ⟨k, hk, hle, i, hi, hload⟩ := h
    refine ⟨i, ?_, decide_eq_true (movsdLoad_eq_some.mpr hload)⟩
    apply List.mem_of_getElem? (i := k - (index - 48))
    rw [List.getElem?_drop, show index - 48 + (k - (index - 48)) = k by omega,
      List.getElem?_take_of_lt hk, hi]

theorem fieldsAt_eq_some {index following : Nat} (h : index < following ∧ following ≤ index + 8) :
    fieldsAt instructions (index, following) = some fields ↔
      ∃ base load, TripleAt instructions fields base load index following := by
  simp only [fieldsAt, Option.bind_eq_bind, Option.bind_eq_some_iff, Prod.exists,
    incrementedMemory_eq_some, movsdStore_eq_some, Option.ite_none_left_eq_some,
    Option.ite_none_right_eq_some, loadedBefore_iff, u32TryFrom_eq_some, Option.pure_def,
    Option.some.injEq]
  constructor
  · rintro ⟨base, counter, hinc, hguard, base', deadline, hstore, hguard', ⟨load, hlt, hle, hload⟩,
      _, ⟨_, rfl⟩, _, ⟨_, rfl⟩, rfl⟩
    rw [not_or] at hguard
    rw [not_or, not_or, not_not, not_not] at hguard'
    obtain ⟨rfl, hmax, hmod⟩ := hguard'
    exact ⟨base', load,
      { named := hguard.1
        loadBefore := ⟨hlt, hle⟩
        storeAfter := h
        loads := hload
        increments := hinc
        stores := hstore
        deadline := ⟨Nat.le_of_not_lt hmax, Nat.dvd_of_mod_eq_zero hmod⟩
        counter := Nat.le_of_not_lt hguard.2 }⟩
  · intro hm
    obtain ⟨base, load, ht⟩ := hm
    have hsmall : ∀ n, n ≤ maxFieldOffset → n < 2 ^ 32 := by
      intro n hn
      rw [maxFieldOffset] at hn
      omega
    refine ⟨base, fields.counterFromSecondary, ht.increments, ?_, base,
      fields.deadlineFromSecondary, ht.stores, ?_, ⟨load, ht.loadBefore.1, ht.loadBefore.2, ht.loads⟩,
      _, ⟨hsmall _ ht.deadline.1, rfl⟩, _, ⟨hsmall _ ht.counter, rfl⟩, rfl⟩
    · rw [not_or]
      exact ⟨ht.named, Nat.not_lt.mpr ht.counter⟩
    · rw [not_or, not_or, not_not, not_not]
      exact ⟨rfl, Nat.not_lt.mpr ht.deadline.1, Nat.mod_eq_zero_of_dvd ht.deadline.2⟩

/-- The pairs the loops go through. -/
theorem mem_storePairs {count index following : Nat} : (index, following) ∈ storePairs count ↔
    (index < following ∧ following ≤ index + 8) ∧ following < count := by
  rw [storePairs, List.mem_flatMap]
  constructor
  · intro hm
    obtain ⟨k, _, hk⟩ := hm
    obtain ⟨j, hj, heq⟩ := List.mem_map.mp hk
    cases heq
    rw [List.mem_range'_1] at hj
    omega
  · intro hm
    obtain ⟨h, hlt⟩ := hm
    refine ⟨index, List.mem_range.mpr (by omega), List.mem_map.mpr ⟨following, ?_, rfl⟩⟩
    rw [List.mem_range'_1]
    omega

/-- The loops find the fields that the instructions schedule. -/
theorem mem_schedulerFields : fields ∈ schedulerFields instructions ↔ Schedules instructions fields := by
  rw [schedulerFields, mem_collect, or_iff_right List.not_mem_nil]
  constructor
  · intro hm
    obtain ⟨⟨index, following⟩, hmem, hat⟩ := hm
    have h := (mem_storePairs.mp hmem).1
    obtain ⟨base, load, ht⟩ := (fieldsAt_eq_some h).mp hat
    exact ⟨base, load, index, following, ht⟩
  · intro hm
    obtain ⟨base, load, index, following, ht⟩ := hm
    obtain ⟨i, hi, _⟩ := ht.stores
    have hlt := (List.getElem?_eq_some_iff.mp hi).1
    exact ⟨(index, following), mem_storePairs.mpr ⟨ht.storeAfter, hlt⟩,
      (fieldsAt_eq_some ht.storeAfter).mpr ⟨base, load, ht⟩⟩

theorem Schedules.bounds (h : Schedules instructions fields) :
    fields.deadlineFromSecondary ≤ maxFieldOffset ∧ fields.counterFromSecondary ≤ maxFieldOffset ∧
      8 ∣ fields.deadlineFromSecondary := by
  obtain ⟨_, _, _, _, ht⟩ := h
  exact ⟨ht.deadline.1, ht.counter, ht.deadline.2⟩

end

section

variable {decode : Decoder} {moduleBase : Nat} {image : List UInt8} {sections : List PeSection}

/-- A method is answered when its instructions schedule one pair of fields and no other. -/
theorem analyzeSchedulerMethod_eq_some {methodRva : Nat} {fields : SchedulerFields} :
    analyzeSchedulerMethod decode moduleBase image sections methodRva = some fields ↔
      ∃ instructions, methodInstructions decode moduleBase image sections methodRva =
        some instructions ∧ ∀ f, Schedules instructions f ↔ f = fields := by
  rw [analyzeSchedulerMethod, Option.bind_eq_bind, Option.bind_eq_some_iff]
  refine exists_congr fun instructions => and_congr_right fun _ => ?_
  have hnd : (schedulerFields instructions).Nodup := nodup_collect _ _ List.nodup_nil
  have hlist : (∀ f, Schedules instructions f ↔ f = fields) ↔
      schedulerFields instructions = [fields] := by
    constructor
    · intro h
      have hlen := (length_eq_one_iff_of_nodup hnd).mpr
        ⟨fields, fun f => mem_schedulerFields.trans (h f)⟩
      obtain ⟨a, ha⟩ := List.length_eq_one_iff.mp hlen
      have hin := mem_schedulerFields.mpr ((h fields).mpr rfl)
      rw [ha, List.mem_singleton] at hin
      rw [ha, hin]
    · intro h f
      rw [← mem_schedulerFields, h, List.mem_singleton]
  rw [hlist]
  split
  · next heq => rw [heq, Option.some.injEq, List.cons.injEq, and_iff_left rfl]
  · next hne =>
    constructor
    · rintro ⟨⟩
    · intro heq
      exact absurd heq (hne fields)

/-- The slot holds the address of an executable method. -/
theorem slotMethod_eq_some {vtableRva index methodRva : Nat} (hv : vtableRva < 2 ^ 32)
    (hi : index < maxVtableMethods) :
    slotMethod moduleBase image sections vtableRva index = some methodRva ↔
      readU64 image (vtableRva + index * 8) = some (moduleBase + methodRva) ∧
        methodRva < 2 ^ 32 ∧ Executable sections methodRva := by
  have hle : vtableRva + index * 8 ≤ usizeMax := by
    rw [maxVtableMethods] at hi
    rw [usizeMax]
    omega
  simp only [slotMethod, Option.bind_eq_bind, Option.bind_eq_some_iff, checkedAdd_eq_some,
    checkedSub_eq_some, u32TryFrom_eq_some, Option.ite_none_right_eq_some, rvaIsExecutable_iff,
    Option.some.injEq]
  constructor
  · intro h
    obtain ⟨_, ⟨_, rfl⟩, _, hread, rva, rfl, _, ⟨hlt, rfl⟩, hexec, rfl⟩ := h
    exact ⟨hread, hlt, hexec⟩
  · intro h
    obtain ⟨hread, hlt, hexec⟩ := h
    exact ⟨_, ⟨hle, rfl⟩, _, hread, methodRva, rfl, _, ⟨hlt, rfl⟩, hexec, rfl⟩

/-- The layout of a scheduler in a method of a secondary vtable. -/
def layoutOf (primary secondary : VtableCandidate) (methodRva : Nat) (fields : SchedulerFields) :
    RecoveryLayout where
  primaryVtableRva := primary.vtableRva
  secondaryVtableRva := secondary.vtableRva
  secondaryObjectOffset := secondary.objectOffset
  workerMethodRva := methodRva
  discoveryDeadlineOffset := secondary.objectOffset + fields.deadlineFromSecondary
  discoveryCounterOffset := secondary.objectOffset + fields.counterFromSecondary

theorem schedulerLayout_eq_some {primary secondary : VtableCandidate} {index : Nat}
    {layout : RecoveryLayout} (hoff : secondary.objectOffset ≤ maxSecondaryOffset) :
    schedulerLayout decode moduleBase image sections primary (secondary, index) = some layout ↔
      ∃ methodRva fields,
        slotMethod moduleBase image sections secondary.vtableRva index = some methodRva ∧
        analyzeSchedulerMethod decode moduleBase image sections methodRva = some fields ∧
        layoutOf primary secondary methodRva fields = layout := by
  simp only [schedulerLayout, Option.bind_eq_bind, Option.bind_eq_some_iff, checkedAdd_eq_some,
    Option.pure_def, Option.some.injEq]
  constructor
  · intro h
    obtain ⟨methodRva, hslot, fields, hfields, _, ⟨_, rfl⟩, _, ⟨_, rfl⟩, rfl⟩ := h
    exact ⟨methodRva, fields, hslot, hfields, rfl⟩
  · intro h
    obtain ⟨methodRva, fields, hslot, hfields, rfl⟩ := h
    obtain ⟨instructions, _, hall⟩ := analyzeSchedulerMethod_eq_some.mp hfields
    have hb := ((hall fields).mpr rfl).bounds
    have hsum : ∀ d, d ≤ maxFieldOffset → secondary.objectOffset + d ≤ u32Max := by
      intro d hd
      rw [maxFieldOffset] at hd
      rw [maxSecondaryOffset] at hoff
      rw [u32Max]
      omega
    exact ⟨methodRva, hslot, fields, hfields, _, ⟨hsum _ hb.1, rfl⟩, _, ⟨hsum _ hb.2.1, rfl⟩, rfl⟩

/-- What `find_scheduler_layouts` collects. -/
theorem mem_findSchedulerLayouts {vtables : List VtableCandidate} {primary : VtableCandidate}
    {layout : RecoveryLayout} (hoff : ∀ v ∈ vtables, v.objectOffset ≤ maxSecondaryOffset) :
    layout ∈ findSchedulerLayouts decode moduleBase image sections vtables primary ↔
      ∃ secondary ∈ vtables, secondary.objectOffset ≠ 0 ∧ ∃ index, index < maxVtableMethods ∧
        ∃ methodRva fields,
          slotMethod moduleBase image sections secondary.vtableRva index = some methodRva ∧
          analyzeSchedulerMethod decode moduleBase image sections methodRva = some fields ∧
          layoutOf primary secondary methodRva fields = layout := by
  rw [findSchedulerLayouts, mem_collect, or_iff_right List.not_mem_nil]
  constructor
  · intro hm
    obtain ⟨⟨secondary, index⟩, hmem, h⟩ := hm
    rw [List.mem_product, List.mem_filter, List.mem_range, decide_eq_true_eq] at hmem
    exact ⟨secondary, hmem.1.1, hmem.1.2, index, hmem.2,
      (schedulerLayout_eq_some (hoff _ hmem.1.1)).mp h⟩
  · intro hm
    obtain ⟨secondary, hmem, hne, index, hindex, h⟩ := hm
    refine ⟨(secondary, index), ?_, (schedulerLayout_eq_some (hoff _ hmem)).mpr h⟩
    rw [List.mem_product, List.mem_filter, List.mem_range, decide_eq_true_eq]
    exact ⟨⟨hmem, hne⟩, hindex⟩

/-- The layout is resolved when it is the only one the last stage finds. -/
theorem resolveRecoveryLayout_eq_ok {layout : RecoveryLayout} :
    resolveRecoveryLayout moduleBase image decode = .ok layout ↔
      ∃ sections vtables primary, classVtables moduleBase image = .ok (sections, vtables, primary) ∧
        ∀ l, l ∈ findSchedulerLayouts decode moduleBase image sections vtables primary ↔
          l = layout := by
  rw [resolveRecoveryLayout, bind_eq_ok]
  constructor
  · intro hm
    obtain ⟨⟨sections, vtables, primary⟩, hclass, h⟩ := hm
    refine ⟨sections, vtables, primary, hclass, fun l => ?_⟩
    dsimp only at h
    split at h
    · next heq =>
      cases h
      rw [heq, List.mem_singleton]
    · cases h
  · intro hm
    obtain ⟨sections, vtables, primary, hclass, hall⟩ := hm
    refine ⟨(sections, vtables, primary), hclass, ?_⟩
    have hnd : (findSchedulerLayouts decode moduleBase image sections vtables primary).Nodup :=
      nodup_collect _ _ List.nodup_nil
    obtain ⟨a, ha⟩ := List.length_eq_one_iff.mp
      ((length_eq_one_iff_of_nodup hnd).mpr ⟨layout, hall⟩)
    have hin := (hall layout).mpr rfl
    rw [ha, List.mem_singleton] at hin
    dsimp only
    rw [ha, hin]

end

/-! ## A decoder -/

/-- `movsd` between a register and `[rdi + d]`. -/
def movsdRdi (op0 op1 : OpKind) (d : UInt8) : Instruction :=
  ⟨.movsd, 2, op0, op1, 0, .register 7, .none, d.toNat, false⟩

/-- `movsd xmm0, [rdi + d]`, `movsd [rdi + d], xmm0`, `inc dword [rdi + d]` and `ret`. -/
def decodeRdi : List UInt8 → List Instruction
  | 0xf2 :: 0x0f :: 0x10 :: 0x47 :: d :: rest => movsdRdi .register .memory d :: decodeRdi rest
  | 0xf2 :: 0x0f :: 0x11 :: 0x47 :: d :: rest => movsdRdi .memory .register d :: decodeRdi rest
  | 0xff :: 0x47 :: d :: rest =>
    ⟨.inc, 1, .memory, .other, 0, .register 7, .none, d.toNat, false⟩ :: decodeRdi rest
  | 0xc3 :: rest => ⟨.ret, 0, .other, .other, 0, .none, .none, 0, false⟩ :: decodeRdi rest
  | _ :: rest => ⟨.other, 0, .other, .other, 0, .none, .none, 0, false⟩ :: decodeRdi rest
  | [] => []

def sampleDecoder : Decoder := fun bytes _ => decodeRdi bytes

/-- Loads the deadline at `0x10`, increments the counters, stores the deadline and returns. -/
def schedulerCode (counters : List UInt8) : List UInt8 :=
  [0xf2, 0x0f, 0x10, 0x47, 0x10] ++ counters.flatMap (fun c => [0xff, 0x47, c]) ++
    [0xf2, 0x0f, 0x11, 0x47, 0x10, 0xc3]

theorem resolved_sample :
    resolveRecoveryLayout sampleBase (classImage 8 (schedulerCode [0x18]) []) sampleDecoder =
      .ok ⟨0x130, 0x140, 8, 0x180, 0x18, 0x20⟩ := by decide +kernel

end Recovery
end SteamInputLease
