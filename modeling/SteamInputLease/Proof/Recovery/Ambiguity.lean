import SteamInputLease.Proof.Recovery.Scheduler

/-!
# Ambiguous scheduler evidence

`analyze_scheduler_method` answers nothing for a method that schedules two pairs of fields, and
`find_scheduler_layouts` takes that for a method that schedules none. So two different matches make
the resolver fail, unless they lie in one method and the other methods agree.

A match is a vtable, a slot and a pair of fields that the method in the slot schedules; that the
image has one is said with the predicates of `Recovery.Evidence` and without the loops. The lemma on
which both directions rest is `mem_layouts`: the layouts of the last stage are the values of the
matches in methods that schedule no second pair. From it the resolver answers just when these have
one value (`resolved_iff`), and what is left is to say when two different matches can exist beside
that. The same lemma tells `Alignment` where the object offset of a layout was taken from.
-/

namespace SteamInputLease
namespace Recovery

open Lib

section

variable {decode : Decoder} {moduleBase : Nat} {image : List UInt8} {sections : List PeSection}
  {td : Nat}

/-- A vtable refers to one locator, and so has one object offset. -/
theorem vtable_offset {o o' off off' rva : Nat}
    (h : (o, off) ∈ findCompleteObjectLocators image td ∧ VtableOf moduleBase image sections o rva)
    (h' : (o', off') ∈ findCompleteObjectLocators image td ∧
      VtableOf moduleBase image sections o' rva) : off = off' := by
  have ho := h.2.unique h'.2
  subst ho
  have hoff := (mem_findCompleteObjectLocators.mp h.1).1.offset
  have hoff' := (mem_findCompleteObjectLocators.mp h'.1).1.offset
  exact Option.some.inj (hoff.symm.trans hoff')

end

section

variable (decode : Decoder) (moduleBase : Nat) (image : List UInt8)

/-- One of the matches of the image. -/
def Matches (m : SchedulerMatch) : Prop :=
  ∃ sections td, MatchIn decode moduleBase image sections td m

/-- Two different matches make the resolver fail. -/
def FailsClosed : Prop :=
  (∃ m m', Matches decode moduleBase image m ∧ Matches decode moduleBase image m' ∧
    m.value ≠ m'.value) →
  ∃ e, resolveRecoveryLayout moduleBase image decode = .error e

/-- Two matches lie in one method and have different fields. -/
def AmbiguousMethod (methodRva : Nat) : Prop :=
  ∃ m m', Matches decode moduleBase image m ∧ Matches decode moduleBase image m' ∧
    m.methodRva = methodRva ∧ m'.methodRva = methodRva ∧ m.fields ≠ m'.fields

/-- The matches in the methods that are not ambiguous have one value, and there is one. -/
def RestAgrees : Prop :=
  ∃ value, ∀ v, v = value ↔ ∃ m, Matches decode moduleBase image m ∧
    ¬AmbiguousMethod decode moduleBase image m.methodRva ∧ m.value = v

end

section

variable {decode : Decoder} {moduleBase : Nat} {image : List UInt8} {sections : List PeSection}
  {td : Nat} {vtables : List VtableCandidate} {primary : VtableCandidate}

theorem MatchIn.congr {m m' : SchedulerMatch} (h : MatchIn decode moduleBase image sections td m)
    (h' : Matches decode moduleBase image m') : MatchIn decode moduleBase image sections td m' := by
  obtain ⟨sections', td', h'⟩ := h'
  have hs : sections' = sections := Except.ok.inj (h'.parsed.symm.trans h.parsed)
  have ht : td' = td := Except.ok.inj (h'.named.symm.trans h.named)
  rwa [hs, ht] at h'

/-- The answer for the method of a match. -/
theorem analyze_match {m : SchedulerMatch} (h : MatchIn decode moduleBase image sections td m) :
    analyzeSchedulerMethod decode moduleBase image sections m.methodRva = some m.fields ↔
      ¬AmbiguousMethod decode moduleBase image m.methodRva := by
  rw [analyzeSchedulerMethod_eq_some]
  obtain ⟨instructions, hinstr, hsched⟩ := h.triple
  constructor
  · intro hone hamb
    obtain ⟨instructions', hinstr', hall⟩ := hone
    obtain ⟨a, b, ha, hb, hma, hmb, hne⟩ := hamb
    -- both have the instructions of this method, which schedule one pair only
    have hfields : ∀ c, Matches decode moduleBase image c → c.methodRva = m.methodRva →
        c.fields = m.fields := by
      intro c hc hmc
      obtain ⟨instructions'', hinstr'', hsched''⟩ := (h.congr hc).triple
      rw [hmc, hinstr'] at hinstr''
      cases hinstr''
      exact (hall _).mp hsched''
    exact hne ((hfields a ha hma).trans (hfields b hb hmb).symm)
  · intro hclear
    refine ⟨instructions, hinstr, fun f => ⟨fun hf => ?_, fun hf => hf ▸ hsched⟩⟩
    by_contra hne
    have hm' : MatchIn decode moduleBase image sections td { m with fields := f } :=
      { h with triple := ⟨instructions, hinstr, hf⟩ }
    exact hclear ⟨{ m with fields := f }, m, ⟨_, _, hm'⟩, ⟨_, _, h⟩, rfl, rfl, hne⟩

/-- The layouts that the last stage finds are those of the matches in unambiguous methods. -/
theorem mem_layouts (hc : ClassVtables moduleBase image td sections vtables primary)
    {layout : RecoveryLayout} :
    layout ∈ findSchedulerLayouts decode moduleBase image sections vtables primary ↔
      ∃ m, Matches decode moduleBase image m ∧
        ¬AmbiguousMethod decode moduleBase image m.methodRva ∧
        layoutOf primary m.secondary m.methodRva m.fields = layout := by
  have hoff : ∀ v ∈ vtables, v.objectOffset ≤ maxSecondaryOffset := by
    intro v hv
    obtain ⟨o, ho, _⟩ := (hc.members v).mp hv
    exact (mem_findCompleteObjectLocators.mp ho).1.bounded
  rw [mem_findSchedulerLayouts hoff]
  constructor
  · intro h
    obtain ⟨secondary, hmem, hne, index, hindex, methodRva, fields, hslot, hfields, heq⟩ := h
    obtain ⟨instructions, hinstr, hall⟩ := analyzeSchedulerMethod_eq_some.mp hfields
    have hm : MatchIn decode moduleBase image sections td ⟨secondary, methodRva, fields⟩ :=
      { parsed := hc.parsed
        named := hc.named
        candidate := (hc.members secondary).mp hmem
        secondary := hne
        slot := ⟨index, hindex, hslot⟩
        triple := ⟨instructions, hinstr, (hall fields).mpr rfl⟩ }
    exact ⟨_, ⟨_, _, hm⟩, (analyze_match hm).mp hfields, heq⟩
  · intro h
    obtain ⟨m, ⟨sections', td', hm⟩, hclear, heq⟩ := h
    have hs : sections' = sections := Except.ok.inj (hm.parsed.symm.trans hc.parsed)
    have ht : td' = td := Except.ok.inj (hm.named.symm.trans hc.named)
    subst hs ht
    obtain ⟨index, hindex, hslot⟩ := hm.slot
    exact ⟨m.secondary, (hc.members _).mpr hm.candidate, hm.secondary, index, hindex, m.methodRva,
      m.fields, hslot, (analyze_match hm).mpr hclear, heq⟩

/-- Two matches have one value just when they have one layout. -/
theorem layoutOf_eq_iff {m m' : SchedulerMatch} (h : Matches decode moduleBase image m)
    (h' : Matches decode moduleBase image m') :
    layoutOf primary m.secondary m.methodRva m.fields =
      layoutOf primary m'.secondary m'.methodRva m'.fields ↔ m.value = m'.value := by
  obtain ⟨sections, td, hm⟩ := h
  have hm' := hm.congr h'
  constructor
  · intro heq
    simp only [layoutOf, RecoveryLayout.mk.injEq] at heq
    obtain ⟨_, hrva, _, hmethod, hdeadline, hcounter⟩ := heq
    simp only [SchedulerMatch.value, Prod.mk.injEq]
    exact ⟨hrva, hmethod, hdeadline, hcounter⟩
  · intro heq
    simp only [SchedulerMatch.value, Prod.mk.injEq] at heq
    obtain ⟨hrva, hmethod, hdeadline, hcounter⟩ := heq
    obtain ⟨o, ho⟩ := hm.candidate
    obtain ⟨o', ho'⟩ := hm'.candidate
    have hoff := vtable_offset ho (hrva ▸ ho')
    simp only [layoutOf, RecoveryLayout.mk.injEq]
    exact ⟨trivial, hrva, hoff, hmethod, hdeadline, hcounter⟩

/-- The resolver answers just when the matches in unambiguous methods agree. -/
theorem resolved_iff (hclass : classVtables moduleBase image = .ok (sections, vtables, primary)) :
    (∃ layout, resolveRecoveryLayout moduleBase image decode = .ok layout) ↔
      RestAgrees decode moduleBase image := by
  obtain ⟨td, hc⟩ := classVtables_spec hclass
  constructor
  · intro h
    obtain ⟨layout, hok⟩ := h
    obtain ⟨_, _, _, hclass', hall⟩ := resolveRecoveryLayout_eq_ok.mp hok
    cases hclass.symm.trans hclass'
    obtain ⟨m, hm, hclear, heq⟩ := (mem_layouts hc).mp ((hall layout).mpr rfl)
    refine ⟨m.value, fun v => ⟨fun hv => ⟨m, hm, hclear, hv.symm⟩, fun hv => ?_⟩⟩
    obtain ⟨m', hm', hclear', rfl⟩ := hv
    have hsame := (hall _).mp ((mem_layouts hc).mpr ⟨m', hm', hclear', rfl⟩)
    exact (layoutOf_eq_iff hm' hm).mp (hsame.trans heq.symm)
  · intro h
    obtain ⟨value, hall⟩ := h
    obtain ⟨m, hm, hclear, hvalue⟩ := (hall value).mp rfl
    refine ⟨layoutOf primary m.secondary m.methodRva m.fields,
      resolveRecoveryLayout_eq_ok.mpr ⟨_, _, _, hclass, fun l => ?_⟩⟩
    rw [mem_layouts hc]
    constructor
    · intro hl
      obtain ⟨m', hm', hclear', rfl⟩ := hl
      have hvalue' := (hall m'.value).mpr ⟨m', hm', hclear', rfl⟩
      exact (layoutOf_eq_iff hm' hm).mpr (hvalue'.trans hvalue.symm)
    · intro hl
      exact ⟨m, hm, hclear, hl.symm⟩

/-- In an ambiguous method there are two matches with different values. -/
theorem AmbiguousMethod.values {methodRva : Nat}
    (h : AmbiguousMethod decode moduleBase image methodRva) :
    ∃ m m', Matches decode moduleBase image m ∧ Matches decode moduleBase image m' ∧
      m.value ≠ m'.value := by
  obtain ⟨m, m', ⟨sections, td, hm⟩, hm', hmethod, hmethod', hne⟩ := h
  obtain ⟨instructions, hinstr, hsched⟩ := (hm.congr hm').triple
  -- the fields of the second match, found through the vtable of the first
  have hother : MatchIn decode moduleBase image sections td { m with fields := m'.fields } :=
    { hm with triple := ⟨instructions, by rwa [hmethod, ← hmethod'], hsched⟩ }
  refine ⟨m, { m with fields := m'.fields }, ⟨_, _, hm⟩, ⟨_, _, hother⟩, fun heq => hne ?_⟩
  simp only [SchedulerMatch.value, Prod.mk.injEq, Nat.add_left_cancel_iff] at heq
  exact congrArg₂ SchedulerFields.mk heq.2.2.1 heq.2.2.2

end

/-- **Ambiguous scheduler evidence fails closed** unless the resolver gets to the scheduler, some
    method schedules two pairs of fields, and the other methods agree on one value. -/
theorem failsClosed_iff (decode : Decoder) (moduleBase : Nat) (image : List UInt8) :
    FailsClosed decode moduleBase image ↔
      ¬((∃ stages, classVtables moduleBase image = .ok stages) ∧
        (∃ methodRva, AmbiguousMethod decode moduleBase image methodRva) ∧
        RestAgrees decode moduleBase image) := by
  constructor
  · intro hclosed h
    obtain ⟨⟨⟨sections, vtables, primary⟩, hclass⟩, ⟨methodRva, hamb⟩, hrest⟩ := h
    obtain ⟨layout, hok⟩ := (resolved_iff hclass).mpr hrest
    obtain ⟨e, herr⟩ := hclosed hamb.values
    cases hok.symm.trans herr
  · intro hnot hvalues
    obtain ⟨m, m', hm, hm', hne⟩ := hvalues
    cases hres : resolveRecoveryLayout moduleBase image decode with
    | error e => exact ⟨e, rfl⟩
    | ok layout =>
      exfalso
      obtain ⟨sections, vtables, primary, hclass, _⟩ := resolveRecoveryLayout_eq_ok.mp hres
      have hrest := (resolved_iff hclass).mp ⟨layout, hres⟩
      have hclear : ∀ methodRva, ¬AmbiguousMethod decode moduleBase image methodRva := by
        intro methodRva hamb
        exact hnot ⟨⟨_, hclass⟩, ⟨methodRva, hamb⟩, hrest⟩
      obtain ⟨value, hall⟩ := hrest
      have hv := (hall _).mpr ⟨m, hm, hclear _, rfl⟩
      have hv' := (hall _).mpr ⟨m', hm', hclear _, rfl⟩
      exact hne (hv.trans hv'.symm)

/-- The second slot holds a method that increments two counters between load and store. -/
def twoCounters : List UInt8 :=
  classImage 8 (schedulerCode [0x18])
    [(0x148, toLe 8 (sampleBase + 0x190)), (0x190, schedulerCode [0x18, 0x1c])]

/-- The resolver takes the first method. -/
theorem ambiguous_accepted : ¬FailsClosed sampleDecoder sampleBase twoCounters := by
  intro hclosed
  have hbytes : parsePeSections twoCounters = .ok [⟨0xc0, 0x1c0, true⟩] ∧
      typeDescriptor twoCounters = .ok 0xc0 ∧
      (0x110, 8) ∈ findCompleteObjectLocators twoCounters 0xc0 ∧
      readU64 twoCounters 0x138 = some (sampleBase + 0x110) ∧
      readU64 twoCounters 0x140 = some (sampleBase + 0x180) ∧
      slotMethod sampleBase twoCounters [⟨0xc0, 0x1c0, true⟩] 0x140 1 = some 0x190 ∧
      methodInstructions sampleDecoder sampleBase twoCounters [⟨0xc0, 0x1c0, true⟩] 0x190 =
        some (decodeRdi (schedulerCode [0x18, 0x1c])) ∧
      resolveRecoveryLayout sampleBase twoCounters sampleDecoder =
        .ok ⟨0x130, 0x140, 8, 0x180, 0x18, 0x20⟩ := by
    decide +kernel
  generalize twoCounters = image at hclosed hbytes
  obtain ⟨hparsed, hnamed, hlocator, href, hentry, hslot, hinstr, hres⟩ := hbytes
  have hmatch : ∀ fields, Schedules (decodeRdi (schedulerCode [0x18, 0x1c])) fields →
      Matches sampleDecoder sampleBase image ⟨⟨8, 0x140⟩, 0x190, fields⟩ := by
    intro fields hf
    exact ⟨_, _,
      { parsed := hparsed
        named := hnamed
        candidate := ⟨0x110, hlocator,
          { small := show 0x140 < 2 ^ 32 by decide
            reference := ⟨0x138, by decide, rfl, href⟩
            entry := ⟨0x180, hentry, by decide, _, List.mem_cons_self, rfl, by decide, by decide⟩ }⟩
        secondary := show 8 ≠ 0 by decide
        slot := ⟨1, by decide, hslot⟩
        triple := ⟨_, hinstr, hf⟩ }⟩
  have hfields : ∀ f, f ∈ schedulerFields (decodeRdi (schedulerCode [0x18, 0x1c])) →
      Schedules (decodeRdi (schedulerCode [0x18, 0x1c])) f := fun f => mem_schedulerFields.mp
  obtain ⟨e, herr⟩ := hclosed ⟨_, _, hmatch ⟨0x10, 0x18⟩ (hfields _ (by decide)),
    hmatch ⟨0x10, 0x1c⟩ (hfields _ (by decide)), by decide⟩
  cases hres.symm.trans herr

end Recovery
end SteamInputLease
