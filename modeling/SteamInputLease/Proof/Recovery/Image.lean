import SteamInputLease.Proof.Recovery.Locators

/-!
# What the resolver has before it looks for the scheduler

One lemma for each stage: the sections are those of the section table, the vtables are those that
refer to a locator the scan found, and the primary one is unique among them.

Each stage is a loop that stops at the first header or word it cannot use, so its lemma says two
things, when the stage succeeds at all and what it has collected then. The inductions are on the
loops, with what was collected so far as a parameter. `ClassVtables` puts the stages together and is
what is handed on: `Justified` and `Ambiguity` take it for the first half of the resolver and never
unfold a stage again. A vtable refers to one locator only (`VtableOf.unique`), because the reference
is the word before it; that is why the object offset of a candidate is well defined.
-/

namespace SteamInputLease
namespace Recovery

open Lib

/-! ## Numbers -/

theorem checkedAdd_eq_some {largest a b c : Nat} :
    checkedAdd largest a b = some c ↔ a + b ≤ largest ∧ c = a + b := by
  rw [checkedAdd]
  split
  · next h => rw [Option.some.injEq, and_iff_right h, eq_comm]
  · next h => exact iff_of_false (by rintro ⟨⟩) (fun hc => h hc.1)

theorem checkedSub_eq_some {a b c : Nat} : checkedSub a b = some c ↔ a = b + c := by
  rw [checkedSub]
  split
  · rw [Option.some.injEq]
    omega
  · exact iff_of_false (by rintro ⟨⟩) (by omega)

theorem u32TryFrom_eq_some {n k : Nat} : u32TryFrom n = some k ↔ n < 2 ^ 32 ∧ k = n := by
  rw [u32TryFrom]
  split
  · next h => rw [Option.some.injEq, and_iff_right h, eq_comm]
  · next h => exact iff_of_false (by rintro ⟨⟩) (fun hc => h hc.1)

/-! ## Sections -/

section

variable {image : List UInt8} {table declaredSize : Nat}

/-- One header of the section table: what it says, and the section kept of it. -/
theorem sectionHeader_eq_ok {index : Nat} {kept : Option PeSection} :
    sectionHeader image table declaredSize index = .ok kept ↔
      table + index * 40 ≤ usizeMax ∧ ∃ virtualSize start rawSize characteristics,
        readU32 image (table + index * 40 + 8) = some virtualSize ∧
        readU32 image (table + index * 40 + 12) = some start ∧
        readU32 image (table + index * 40 + 16) = some rawSize ∧
        readU32 image (table + index * 40 + 36) = some characteristics ∧
        (if start < min (start + max virtualSize rawSize) u32Max ∧
            min (start + max virtualSize rawSize) u32Max ≤ declaredSize then
          some ⟨start, min (start + max virtualSize rawSize) u32Max, characteristics.testBit 29⟩
        else none) = kept := by
  rw [sectionHeader, bind_eq_ok]
  simp only [bind_eq_ok, okOr_eq_ok, checkedAdd_eq_some, pure_eq_ok]
  constructor
  · intro hm
    obtain ⟨_, ⟨hle, rfl⟩, virtualSize, hvirtual, start, hstart, rawSize, hraw, flags, hflags, h⟩ := hm
    exact ⟨hle, virtualSize, start, rawSize, flags, hvirtual, hstart, hraw, hflags, h⟩
  · intro hm
    obtain ⟨hle, virtualSize, start, rawSize, flags, hvirtual, hstart, hraw, hflags, h⟩ := hm
    exact ⟨_, ⟨hle, rfl⟩, virtualSize, hvirtual, start, hstart, rawSize, hraw, flags, hflags, h⟩

/-- The loop keeps the sections of all its headers, and none of them can be unreadable. -/
theorem mem_sectionLoop : ∀ (n index : Nat) (sections : List PeSection),
    sectionLoop image table declaredSize n index = .ok sections →
      (∀ s, s ∈ sections ↔ ∃ k, index ≤ k ∧ k < index + n ∧
        sectionHeader image table declaredSize k = .ok (some s)) ∧
      ∀ k, index ≤ k → k < index + n →
        ∃ kept, sectionHeader image table declaredSize k = .ok kept := by
  intro n
  induction n with
  | zero =>
    intro index sections h
    cases pure_eq_ok.mp h
    refine ⟨fun s => ⟨fun hs => absurd hs List.not_mem_nil, ?_⟩, ?_⟩
    · intro hm
      obtain ⟨k, hk, hlt, _⟩ := hm
      omega
    · intro k hk hlt
      omega
  | succ n ih =>
    intro index sections h
    rw [sectionLoop] at h
    simp only [bind_eq_ok, pure_eq_ok] at h
    obtain ⟨kept, hkept, rest, hrest, rfl⟩ := h
    obtain ⟨hmem, hall⟩ := ih _ _ hrest
    refine ⟨fun s => ?_, fun k hk hlt => ?_⟩
    · rw [List.mem_append, Option.mem_toList, hmem]
      constructor
      · rintro (rfl | ⟨k, hk, hlt, hs⟩)
        · exact ⟨index, Nat.le_refl _, by omega, hkept⟩
        · exact ⟨k, by omega, by omega, hs⟩
      · intro hm
        obtain ⟨k, hk, hlt, hs⟩ := hm
        rcases Nat.eq_or_lt_of_le hk with rfl | hlt'
        · rw [hkept] at hs
          cases hs
          exact .inl rfl
        · exact .inr ⟨k, hlt', by omega, hs⟩
    · rcases Nat.eq_or_lt_of_le hk with rfl | hlt'
      · exact ⟨kept, hkept⟩
      · exact hall k hlt' (by omega)

end

/-- The stage of the sections: a PE32+ image, all sections of its table that lie inside it, and
    one of them executable. -/
theorem parsePeSections_spec {image : List UInt8} {sections : List PeSection}
    (h : parsePeSections image = .ok sections) :
    ∃ table count declaredSize, PeHeader image table count declaredSize ∧
      (∀ s, s ∈ sections ↔ SectionOf image table count declaredSize s) ∧
      ∃ s ∈ sections, s.executable = true := by
  rw [parsePeSections] at h
  simp only [bind_eq_ok, okOr_eq_ok, require_eq_ok, pure_eq_ok, checkedAdd_eq_some] at h
  obtain ⟨_, hdos, nt, hnt, _, hsig, count, hcount, optionalSize, hopt, _, hmagic, declaredSize,
    hdecl, _, hsize, table, ⟨_, rfl⟩, sections', hloop, _, hexec, rfl⟩ := h
  refine ⟨_, count, declaredSize,
    ⟨hdos, ⟨nt, optionalSize, hnt, hsig, hcount, hopt, hmagic, hdecl, rfl⟩, hsize⟩, ?_, ?_⟩
  · obtain ⟨hmem, hall⟩ := mem_sectionLoop _ _ _ hloop
    intro s
    rw [hmem]
    constructor
    · intro hm
      obtain ⟨k, _, hlt, hs⟩ := hm
      obtain ⟨_, virtualSize, start, rawSize, flags, hvirtual, hstart, hraw, hflags, hkept⟩ :=
        sectionHeader_eq_ok.mp hs
      rw [Option.ite_none_right_eq_some] at hkept
      obtain ⟨⟨hne, hin⟩, hkept⟩ := hkept
      cases hkept
      exact ⟨⟨k, by omega, virtualSize, rawSize, flags, hvirtual, hstart, hraw, hflags, rfl, rfl⟩,
        hne, hin⟩
    · rintro ⟨⟨k, hlt, virtualSize, rawSize, flags, hvirtual, hstart, hraw, hflags, hstop, hexec⟩,
        hne, hin⟩
      obtain ⟨kept, hkept⟩ := hall k (Nat.zero_le _) (by omega)
      obtain ⟨hle, _⟩ := sectionHeader_eq_ok.mp hkept
      refine ⟨k, Nat.zero_le _, by omega, sectionHeader_eq_ok.mpr ⟨hle, virtualSize, s.start,
        rawSize, flags, hvirtual, hstart, hraw, hflags, ?_⟩⟩
      rw [← hstop, ← hexec, if_pos ⟨hne, hin⟩]
  · rw [List.any_eq_true] at hexec
    exact hexec

theorem rvaIsExecutable_iff {sections : List PeSection} {rva : Nat} :
    rvaIsExecutable sections rva = true ↔ Executable sections rva := by
  rw [rvaIsExecutable, List.any_eq_true, Executable]
  simp only [Bool.and_eq_true, decide_eq_true_eq, and_assoc]

/-! ## Vtables -/

section

variable {image : List UInt8} {sections : List PeSection} {moduleBase : Nat}

theorem readU64_of_slice {r value : Nat} (hlen : r + 8 ≤ image.length)
    (h : slice image r 8 = toLe 8 value) (hv : value ≤ usizeMax) :
    readU64 image r = some value := by
  have hlt : value < 256 ^ 8 := by
    rw [usizeMax] at hv
    omega
  rw [readU64, readLe, if_pos hlen, h, leNat_toLe_of_lt hlt]

theorem slice_of_readU64 {r value : Nat} (h : readU64 image r = some value) :
    r + 8 ≤ image.length ∧ slice image r 8 = toLe 8 value := by
  obtain ⟨hlen, rfl⟩ := readLe_eq_some.mp h
  have hwidth : (slice image r 8).length = 8 := by
    rw [slice, List.length_take, List.length_drop]
    omega
  have hround := toLe_leNat (slice image r 8)
  rw [hwidth] at hround
  exact ⟨hlen, hround.symm⟩

/-- `find_u64` finds the aligned words with this value. -/
theorem mem_findU64 {value r : Nat} (hv : value ≤ usizeMax) :
    r ∈ findU64 image value ↔ 8 ∣ r ∧ readU64 image r = some value := by
  rw [findU64, List.mem_filter, List.mem_range', decide_eq_true_eq]
  constructor
  · intro hm
    obtain ⟨⟨i, hi, rfl⟩, hs⟩ := hm
    exact ⟨⟨i, by omega⟩, readU64_of_slice (by omega) hs hv⟩
  · intro hm
    obtain ⟨⟨i, rfl⟩, h⟩ := hm
    obtain ⟨hlen, hs⟩ := slice_of_readU64 h
    exact ⟨⟨i, by omega, by omega⟩, hs⟩

theorem vtableHasExecutableEntry_iff {vtableRva : Nat} :
    vtableHasExecutableEntry moduleBase image sections vtableRva = true ↔
      ∃ rva, readU64 image vtableRva = some (moduleBase + rva) ∧ rva < 2 ^ 32 ∧
        Executable sections rva := by
  rw [vtableHasExecutableEntry, Option.any_eq_true]
  simp only [Option.bind_eq_some_iff, checkedSub_eq_some, u32TryFrom_eq_some, rvaIsExecutable_iff]
  constructor
  · intro h
    obtain ⟨rva, ⟨_, ⟨_, hread, rfl⟩, hlt, rfl⟩, hexec⟩ := h
    exact ⟨rva, hread, hlt, hexec⟩
  · intro h
    obtain ⟨rva, hread, hlt, hexec⟩ := h
    exact ⟨rva, ⟨rva, ⟨_, hread, rfl⟩, hlt, rfl⟩, hexec⟩

/-- One reference to a locator, and the vtable behind it. -/
theorem vtableAt_eq_some {off r : Nat} {v : VtableCandidate} :
    vtableAt moduleBase image sections off r = some v ↔
      v.objectOffset = off ∧ v.vtableRva = r + 8 ∧ v.vtableRva < 2 ^ 32 ∧
        ∃ rva, readU64 image v.vtableRva = some (moduleBase + rva) ∧ rva < 2 ^ 32 ∧
          Executable sections rva := by
  rw [vtableAt, Option.bind_eq_some_iff]
  simp only [Option.bind_eq_some_iff, checkedAdd_eq_some, u32TryFrom_eq_some,
    Option.ite_none_right_eq_some, vtableHasExecutableEntry_iff, Option.some.injEq]
  constructor
  · intro h
    obtain ⟨_, ⟨_, ⟨_, rfl⟩, hlt, rfl⟩, hentry, rfl⟩ := h
    exact ⟨rfl, rfl, hlt, hentry⟩
  · intro h
    obtain ⟨hoff, hrva, hlt, hentry⟩ := h
    refine ⟨v.vtableRva, ⟨r + 8, ⟨?_, rfl⟩, ?_, hrva⟩, hentry, ?_⟩
    · rw [usizeMax]
      omega
    · rwa [← hrva]
    · rw [← hoff]

/-- The word before a vtable refers to one locator. -/
theorem VtableOf.unique {o o' rva : Nat} (h : VtableOf moduleBase image sections o rva)
    (h' : VtableOf moduleBase image sections o' rva) : o = o' := by
  obtain ⟨r, _, hr, hread⟩ := h.reference
  obtain ⟨r', _, hr', hread'⟩ := h'.reference
  have hsame : r = r' := by omega
  subst hsame
  have ho : moduleBase + o = moduleBase + o' := Option.some.inj (hread.symm.trans hread')
  omega

/-- The vtables of a locator that the scan found are those whose references the loop sees. -/
theorem mem_vtableLoop {v : VtableCandidate} :
    ∀ (locators : List (Nat × Nat)) (vtables result : List VtableCandidate),
      vtableLoop moduleBase image sections locators vtables = .ok result →
        (v ∈ result ↔ v ∈ vtables ∨ ∃ o, (o, v.objectOffset) ∈ locators ∧
          VtableOf moduleBase image sections o v.vtableRva) := by
  intro locators
  induction locators with
  | nil =>
    intro vtables result h
    cases pure_eq_ok.mp h
    simp
  | cons l rest ih =>
    obtain ⟨o, off⟩ := l
    intro vtables result h
    rw [vtableLoop, bind_eq_ok] at h
    obtain ⟨absolute, habs, h⟩ := h
    obtain ⟨hle, rfl⟩ := checkedAdd_eq_some.mp (okOr_eq_ok.mp habs)
    rw [ih _ _ h, mem_collect, or_assoc]
    have hhere : (∃ r ∈ findU64 image (moduleBase + o),
          vtableAt moduleBase image sections off r = some v) ↔
        v.objectOffset = off ∧ VtableOf moduleBase image sections o v.vtableRva := by
      constructor
      · intro hm
        obtain ⟨r, hr, hat⟩ := hm
        obtain ⟨hdvd, hread⟩ := (mem_findU64 hle).mp hr
        obtain ⟨hoff, hrva, hlt, hentry⟩ := vtableAt_eq_some.mp hat
        exact ⟨hoff, hlt, ⟨r, hdvd, hrva, hread⟩, hentry⟩
      · intro hm
        obtain ⟨hoff, hlt, ⟨r, hdvd, hrva, hread⟩, hentry⟩ := hm
        exact ⟨r, (mem_findU64 hle).mpr ⟨hdvd, hread⟩,
          vtableAt_eq_some.mpr ⟨hoff, hrva, hlt, hentry⟩⟩
    rw [hhere]
    constructor
    · rintro (hv | ⟨hoff, hv⟩ | ⟨o', ho', hv⟩)
      · exact .inl hv
      · exact .inr ⟨o, hoff ▸ List.mem_cons_self, hv⟩
      · exact .inr ⟨o', List.mem_cons_of_mem _ ho', hv⟩
    · rintro (hv | ⟨o', ho', hv⟩)
      · exact .inl hv
      · rcases List.mem_cons.mp ho' with heq | ho'
        · obtain ⟨rfl, hoff⟩ := Prod.mk.inj heq
          exact .inr (.inl ⟨hoff, hv⟩)
        · exact .inr (.inr ⟨o', ho', hv⟩)

theorem nodup_vtableLoop : ∀ (locators : List (Nat × Nat)) (vtables result : List VtableCandidate),
    vtableLoop moduleBase image sections locators vtables = .ok result →
      vtables.Nodup → result.Nodup := by
  intro locators
  induction locators with
  | nil =>
    intro vtables result h hnd
    cases pure_eq_ok.mp h
    exact hnd
  | cons l rest ih =>
    intro vtables result h hnd
    rw [vtableLoop, bind_eq_ok] at h
    obtain ⟨_, _, h⟩ := h
    exact ih _ _ h (nodup_collect _ _ hnd)

/-- The unique vtable at an object offset. -/
theorem uniqueVtable_eq_ok {candidates : List VtableCandidate} {off : Nat} {kind : String}
    {v : VtableCandidate} (hnd : candidates.Nodup) :
    uniqueVtable candidates off kind = .ok v ↔
      (v ∈ candidates ∧ v.objectOffset = off) ∧
        ∀ v' ∈ candidates, v'.objectOffset = off → v' = v := by
  have hfilter : uniqueVtable candidates off kind = .ok v ↔
      (candidates.filter fun c => c.objectOffset == off) = [v] := by
    rw [uniqueVtable]
    split
    · next heq => rw [heq, Except.ok.injEq, List.cons.injEq, and_iff_left rfl]
    · next hne =>
      constructor
      · rintro ⟨⟩
      · intro heq
        exact absurd heq (hne v)
  have hmem : ∀ c, c ∈ (candidates.filter fun c => c.objectOffset == off) ↔
      c ∈ candidates ∧ c.objectOffset = off := by
    intro c
    rw [List.mem_filter, beq_iff_eq]
  rw [hfilter]
  constructor
  · intro heq
    refine ⟨(hmem v).mp (heq ▸ List.mem_cons_self), fun v' hv' hoff => ?_⟩
    have hin := (hmem v').mpr ⟨hv', hoff⟩
    rwa [heq, List.mem_singleton] at hin
  · intro h
    obtain ⟨hv, honly⟩ := h
    have hone := (length_eq_one_iff_of_nodup (hnd.filter fun c => c.objectOffset == off)).mpr
      ⟨v, fun c => ⟨fun hc => honly c ((hmem c).mp hc).1 ((hmem c).mp hc).2,
        fun hc => (hmem c).mpr (hc ▸ hv)⟩⟩
    obtain ⟨a, ha⟩ := List.length_eq_one_iff.mp hone
    have hin := (hmem v).mpr hv
    rw [ha, List.mem_singleton] at hin
    rw [ha, hin]

end

/-! ## The stages before the scheduler -/

section

variable {moduleBase : Nat} {image : List UInt8}

/-- The type descriptor lies 16 bytes before the only occurrence of the class name. -/
theorem typeDescriptor_eq_ok {td : Nat} : typeDescriptor image = .ok td ↔
    td < 2 ^ 32 ∧ OccursAt image hidThreadRttiName (td + typeDescriptorNameOffset) ∧
      ∀ q, OccursAt image hidThreadRttiName q → q = td + typeDescriptorNameOffset := by
  have hname : ∀ p, (findUnique image hidThreadRttiName).mapError ResolveError.rttiNameCount = .ok p ↔
      OccursAt image hidThreadRttiName p ∧ ∀ q, OccursAt image hidThreadRttiName q → q = p := by
    intro p
    have hne : hidThreadRttiName ≠ [] := by decide
    have hfind : findUnique image hidThreadRttiName = .ok p ↔ _ := findUnique_eq_ok hne
    rw [← hfind]
    cases findUnique image hidThreadRttiName with
    | error count => exact iff_of_false (by rintro ⟨⟩) (by rintro ⟨⟩)
    | ok q => rw [Except.mapError, Except.ok.injEq, Except.ok.injEq]
  rw [typeDescriptor]
  simp only [bind_eq_ok, okOr_eq_ok, hname, checkedSub_eq_some, u32TryFrom_eq_some]
  constructor
  · intro h
    obtain ⟨_, ⟨hp, honly⟩, rva, rfl, hlt, rfl⟩ := h
    rw [Nat.add_comm] at hp honly
    exact ⟨hlt, hp, honly⟩
  · intro h
    obtain ⟨hlt, hp, honly⟩ := h
    exact ⟨_, ⟨hp, honly⟩, td, Nat.add_comm _ _, hlt, rfl⟩

/-- What the first stages hand on. -/
structure ClassVtables (moduleBase : Nat) (image : List UInt8) (td : Nat)
    (sections : List PeSection) (vtables : List VtableCandidate) (primary : VtableCandidate) :
    Prop where
  parsed : parsePeSections image = .ok sections
  named : typeDescriptor image = .ok td
  members : ∀ v, v ∈ vtables ↔ ∃ o,
    (o, v.objectOffset) ∈ findCompleteObjectLocators image td ∧
      VtableOf moduleBase image sections o v.vtableRva
  atZero : primary ∈ vtables ∧ primary.objectOffset = 0
  unique : ∀ v ∈ vtables, v.objectOffset = 0 → v = primary

theorem classVtables_spec {sections : List PeSection} {vtables : List VtableCandidate}
    {primary : VtableCandidate}
    (h : classVtables moduleBase image = .ok (sections, vtables, primary)) :
    ∃ td, ClassVtables moduleBase image td sections vtables primary := by
  rw [classVtables] at h
  simp only [bind_eq_ok, require_eq_ok, pure_eq_ok] at h
  obtain ⟨_, hparsed, td, hnamed, _, _, vtables', hloop, primary', hunique, heq⟩ := h
  cases heq
  have hnd := nodup_vtableLoop _ _ _ hloop List.nodup_nil
  obtain ⟨hprimary, honly⟩ := (uniqueVtable_eq_ok hnd).mp hunique
  refine ⟨td, hparsed, hnamed, fun v => ?_, hprimary, honly⟩
  rw [mem_vtableLoop _ _ _ hloop, or_iff_right List.not_mem_nil]

end

end Recovery
end SteamInputLease
