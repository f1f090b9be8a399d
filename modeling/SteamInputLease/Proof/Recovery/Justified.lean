import SteamInputLease.Proof.Recovery.Scheduler

/-!
# What a resolved layout stands on

Every value of a resolved layout is read from the image, and every guard on the way held. The one
thing that can be missing is that the primary vtable is the only one: a locator in the last 24 bytes
is not found, so a second vtable that refers to it goes unnoticed.

`Evidence` is written from what a layout means, with the predicates of `Recovery.Evidence`, and
mentions no function of the resolver. It is got from the lemmas of the stages, each of which hands
on its part. Uniqueness is said of all well-formed locators of the image, where the resolver knows
only those it found; the two differ by the locator that `Locators` describes, and a vtable that
refers to it is exactly what makes the difference. All other parts of the evidence hold without any
condition, and the theorem keeps them apart from the one that does not.
-/

namespace SteamInputLease
namespace Recovery

open Lib

/-- The evidence for a layout, but for the uniqueness of its primary vtable. -/
structure Evidence (decode : Decoder) (moduleBase : Nat) (image : List UInt8)
    (sections : List PeSection) (td : Nat) (layout : RecoveryLayout) : Prop where
  /-- The image is PE32+, and `sections` are those of its section table that lie inside it. -/
  header : ∃ table count declaredSize, PeHeader image table count declaredSize ∧
    ∀ s, s ∈ sections ↔ SectionOf image table count declaredSize s
  executable : ∃ s ∈ sections, s.executable = true ∧ s.stop ≤ image.length
  name : OccursAt image hidThreadRttiName (td + typeDescriptorNameOffset)
  nameOnce : ∀ q, OccursAt image hidThreadRttiName q → q = td + typeDescriptorNameOffset
  primary : ∃ o, Locator image td o 0 ∧
    VtableOf moduleBase image sections o layout.primaryVtableRva
  secondary : ∃ o, Locator image td o layout.secondaryObjectOffset ∧
    VtableOf moduleBase image sections o layout.secondaryVtableRva
  offset : 1 ≤ layout.secondaryObjectOffset ∧ layout.secondaryObjectOffset ≤ 0x100
  worker : Executable sections layout.workerMethodRva ∧ ∃ slot, slot < 8 ∧
    readU64 image (layout.secondaryVtableRva + slot * 8) = some (moduleBase + layout.workerMethodRva)
  scheduler : ∃ instructions fields,
    methodInstructions decode moduleBase image sections layout.workerMethodRva = some instructions ∧
    Schedules instructions fields ∧
    layout.discoveryDeadlineOffset = layout.secondaryObjectOffset + fields.deadlineFromSecondary ∧
    layout.discoveryCounterOffset = layout.secondaryObjectOffset + fields.counterFromSecondary

/-- Every well-formed locator of the complete object leads to the primary vtable. -/
def PrimaryUnique (moduleBase : Nat) (image : List UInt8) (sections : List PeSection) (td : Nat)
    (layout : RecoveryLayout) : Prop :=
  ∀ o rva, Locator image td o 0 → VtableOf moduleBase image sections o rva →
    rva = layout.primaryVtableRva

/-- Every value of the layout is justified by the image. -/
def Justified (decode : Decoder) (moduleBase : Nat) (image : List UInt8) (layout : RecoveryLayout) :
    Prop :=
  ∃ sections td, Evidence decode moduleBase image sections td layout ∧
    PrimaryUnique moduleBase image sections td layout

/-- A vtable refers to a locator of the complete object in the last 24 bytes of the image. -/
def LastVtable (moduleBase : Nat) (image : List UInt8) : Prop :=
  ∃ sections td rva, parsePeSections image = .ok sections ∧ typeDescriptor image = .ok td ∧
    Locator image td (image.length - completeObjectLocatorSize) 0 ∧
    VtableOf moduleBase image sections (image.length - completeObjectLocatorSize) rva

section

variable {decode : Decoder} {moduleBase : Nat} {image : List UInt8} {sections : List PeSection}
  {td : Nat} {layout : RecoveryLayout}

theorem PeHeader.unique {table table' count count' declaredSize declaredSize' : Nat}
    (h : PeHeader image table count declaredSize) (h' : PeHeader image table' count' declaredSize') :
    table = table' ∧ count = count' ∧ declaredSize = declaredSize' := by
  obtain ⟨nt, optionalSize, hnt, _, hcount, hopt, _, hdecl, rfl⟩ := h.nt
  obtain ⟨nt', optionalSize', hnt', _, hcount', hopt', _, hdecl', rfl⟩ := h'.nt
  cases hnt.symm.trans hnt'
  cases hcount.symm.trans hcount'
  cases hopt.symm.trans hopt'
  cases hdecl.symm.trans hdecl'
  exact ⟨rfl, rfl, rfl⟩

/-- The sections of the evidence are those that the resolver parses. -/
theorem Evidence.sections_iff (h : Evidence decode moduleBase image sections td layout)
    {sections' : List PeSection} (hparsed : parsePeSections image = .ok sections') (s : PeSection) :
    s ∈ sections ↔ s ∈ sections' := by
  obtain ⟨_, _, _, hheader, hmem⟩ := h.header
  obtain ⟨_, _, _, hheader', hmem', _⟩ := parsePeSections_spec hparsed
  obtain ⟨rfl, rfl, rfl⟩ := hheader.unique hheader'
  rw [hmem, hmem']

theorem Evidence.td_eq (h : Evidence decode moduleBase image sections td layout) {td' : Nat}
    (hnamed : typeDescriptor image = .ok td') : td' = td := by
  have hname := h.nameOnce _ (typeDescriptor_eq_ok.mp hnamed).2.1
  omega

theorem VtableOf.congr {sections' : List PeSection} (hs : ∀ s, s ∈ sections ↔ s ∈ sections')
    {o rva : Nat} (h : VtableOf moduleBase image sections o rva) :
    VtableOf moduleBase image sections' o rva := by
  obtain ⟨entry, hread, hlt, s, hmem, hin⟩ := h.entry
  exact ⟨h.small, h.reference, entry, hread, hlt, s, (hs s).mp hmem, hin⟩

/-- The evidence for a resolved layout; among the locators that the scan finds, the primary vtable
    is the only one. -/
theorem evidence (h : resolveRecoveryLayout moduleBase image decode = .ok layout) :
    ∃ sections td, parsePeSections image = .ok sections ∧ typeDescriptor image = .ok td ∧
      Evidence decode moduleBase image sections td layout ∧
      (∃ o, (o, 0) ∈ findCompleteObjectLocators image td ∧
        VtableOf moduleBase image sections o layout.primaryVtableRva) ∧
      ∀ o rva, (o, 0) ∈ findCompleteObjectLocators image td →
        VtableOf moduleBase image sections o rva → rva = layout.primaryVtableRva := by
  obtain ⟨sections, vtables, primary, hclass, hall⟩ := resolveRecoveryLayout_eq_ok.mp h
  obtain ⟨td, hc⟩ := classVtables_spec hclass
  have hlocator : ∀ v ∈ vtables, ∃ o, Locator image td o v.objectOffset ∧
      VtableOf moduleBase image sections o v.vtableRva := by
    intro v hv
    obtain ⟨o, ho, hvt⟩ := (hc.members v).mp hv
    exact ⟨o, (mem_findCompleteObjectLocators.mp ho).1, hvt⟩
  have hoff : ∀ v ∈ vtables, v.objectOffset ≤ maxSecondaryOffset := by
    intro v hv
    obtain ⟨_, ho, _⟩ := hlocator v hv
    exact ho.bounded
  obtain ⟨secondary, hmem, hne, slot, hslot, methodRva, fields, hmethod, hfields, rfl⟩ :=
    (mem_findSchedulerLayouts hoff).mp ((hall layout).mpr rfl)
  obtain ⟨instructions, hinstr, honly⟩ := analyzeSchedulerMethod_eq_some.mp hfields
  obtain ⟨o, ho, hvt⟩ := hlocator secondary hmem
  obtain ⟨hread, _, hexec⟩ := (slotMethod_eq_some hvt.small hslot).mp hmethod
  obtain ⟨table, count, declaredSize, hheader, hsections, s, hs, hsexec⟩ :=
    parsePeSections_spec hc.parsed
  obtain ⟨_, hname, honce⟩ := typeDescriptor_eq_ok.mp hc.named
  have hprimary := hlocator primary hc.atZero.1
  have hfound := (hc.members primary).mp hc.atZero.1
  rw [hc.atZero.2] at hprimary hfound
  -- each stage of the resolution that succeeded is one piece of the evidence
  refine ⟨sections, td, hc.parsed, hc.named, ?_, hfound, fun o' rva hlocator' hvt' => ?_⟩
  · exact
      { header := ⟨table, count, declaredSize, hheader, hsections⟩
        executable := ⟨s, hs, hsexec, ((hsections s).mp hs).inside.trans hheader.size⟩
        name := hname
        nameOnce := honce
        primary := hprimary
        secondary := ⟨o, ho, hvt⟩
        offset := ⟨Nat.one_le_iff_ne_zero.mpr hne, ho.bounded⟩
        worker := ⟨hexec, slot, hslot, hread⟩
        scheduler := ⟨instructions, fields, hinstr, (honly fields).mpr rfl, rfl, rfl⟩ }
  · have hv := (hc.members ⟨0, rva⟩).mpr ⟨o', hlocator', hvt'⟩
    have heq := hc.unique _ hv rfl
    exact congrArg VtableCandidate.vtableRva heq

/-- **Every value of a resolved layout is justified by the image** just when no vtable refers to a
    locator of the complete object in the last 24 bytes; all but the uniqueness of the primary
    vtable holds in any case. -/
theorem layout_justified (h : resolveRecoveryLayout moduleBase image decode = .ok layout) :
    (∃ sections td, Evidence decode moduleBase image sections td layout) ∧
    (Justified decode moduleBase image layout ↔ ¬LastVtable moduleBase image) := by
  obtain ⟨sections, td, hparsed, hnamed, hev, ⟨o, ho, hprimary⟩, hunique⟩ := evidence h
  refine ⟨⟨sections, td, hev⟩, ?_⟩
  constructor
  · rintro ⟨sections', td', hev', hunique'⟩ ⟨sections'', td'', rva, hparsed'', hnamed'', hl, hv⟩
    cases hparsed.symm.trans hparsed''
    cases hnamed.symm.trans hnamed''
    have htd := hev'.td_eq hnamed
    subst htd
    have hsections := hev'.sections_iff hparsed
    -- the last locator leads to the primary vtable, and so does the one that was found
    have hrva := hunique' _ _ hl (hv.congr fun s => (hsections s).symm)
    subst hrva
    have hsame := hprimary.unique hv
    have hin := (mem_findCompleteObjectLocators.mp ho).2
    have hsize := hl.inside
    omega
  · intro hnone
    refine ⟨sections, td, hev, fun o' rva hl hv => ?_⟩
    by_cases hend : o' + completeObjectLocatorSize < image.length
    · exact hunique o' rva (mem_findCompleteObjectLocators.mpr ⟨hl, hend⟩) hv
    · have hsize := hl.inside
      have ho' : o' = image.length - completeObjectLocatorSize := by omega
      exact absurd ⟨sections, td, rva, hparsed, hnamed, ho' ▸ hl, ho' ▸ hv⟩ hnone

end

/-- The layout of the sample image, and that of the image with a third locator at its end. -/
def sampleLayout : RecoveryLayout := ⟨0x130, 0x140, 8, 0x180, 0x18, 0x20⟩

theorem layout_justified_sample :
    Justified sampleDecoder sampleBase (classImage 8 (schedulerCode [0x18]) []) sampleLayout := by
  have hlast : readU32 (classImage 8 (schedulerCode [0x18]) [])
      ((classImage 8 (schedulerCode [0x18]) []).length - completeObjectLocatorSize) = some 0 := by
    decide +kernel
  refine (layout_justified resolved_sample).2.mpr ?_
  generalize classImage 8 (schedulerCode [0x18]) [] = image at hlast ⊢
  intro h
  obtain ⟨_, _, _, _, _, hl, _⟩ := h
  cases hlast.symm.trans hl.signature

/-- With a second vtable at the end the resolver still answers. -/
theorem last_vtable_accepted : ∃ layout,
    resolveRecoveryLayout sampleBase (classImage 8 (schedulerCode [0x18]) lastLocator)
      sampleDecoder = .ok layout ∧
    ¬Justified sampleDecoder sampleBase (classImage 8 (schedulerCode [0x18]) lastLocator) layout := by
  have hbytes : resolveRecoveryLayout sampleBase (classImage 8 (schedulerCode [0x18]) lastLocator)
        sampleDecoder = .ok sampleLayout ∧
      parsePeSections (classImage 8 (schedulerCode [0x18]) lastLocator) =
        .ok [⟨0xc0, 0x1c0, true⟩] ∧
      typeDescriptor (classImage 8 (schedulerCode [0x18]) lastLocator) = .ok 0xc0 ∧
      0x1a8 + completeObjectLocatorSize ≤ (classImage 8 (schedulerCode [0x18]) lastLocator).length ∧
      [0, 4, 8, 12, 16, 20].map
          (fun i => readU32 (classImage 8 (schedulerCode [0x18]) lastLocator) (0x1a8 + i)) =
        [some 1, some 0, some 0, some 0xc0, some 0xc0, some 0x1a8] ∧
      readU64 (classImage 8 (schedulerCode [0x18]) lastLocator) 0x168 = some (sampleBase + 0x1a8) ∧
      readU64 (classImage 8 (schedulerCode [0x18]) lastLocator) 0x170 = some (sampleBase + 0x180) := by
    decide +kernel
  generalize classImage 8 (schedulerCode [0x18]) lastLocator = image at hbytes
  obtain ⟨hres, hparsed, hnamed, hin, hfields, href, hentry⟩ := hbytes
  have hl := locator_of_fields (o := 0x1a8) (by decide) hin (by decide) hfields (by decide)
  refine ⟨sampleLayout, hres, ?_⟩
  intro h
  obtain ⟨sections, td, hev, hunique⟩ := h
  cases hev.td_eq hnamed
  have hv : VtableOf sampleBase image sections 0x1a8 0x170 :=
    { small := by decide
      reference := ⟨0x168, by decide, rfl, href⟩
      entry := ⟨0x180, hentry, by decide, _,
        (hev.sections_iff hparsed _).mpr List.mem_cons_self, rfl, by decide, by decide⟩ }
  exact absurd (hunique 0x1a8 0x170 hl hv) (by decide)

end Recovery
end SteamInputLease
