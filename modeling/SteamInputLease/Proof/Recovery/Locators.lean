import SteamInputLease.Proof.Recovery.ByteSearch
import SteamInputLease.Recovery.Evidence

/-!
# The locator scan

`find_complete_object_locators` finds the well-formed locators of the class, except one that begins
exactly 24 bytes before the end of the image: its `limit` is the last offset at which a locator
fits, and it skips that offset as well.

The scan goes over the words of the image and takes each for the type descriptor of a locator that
began twelve bytes before; `locatorAt_found` says when one round is right about that. The scan may
also stop altogether, at a locator whose offset does not fit into 32 bits, and this costs nothing,
since no locator behind that can name itself. With these two the induction over the words gives the
members of the result and their order. The image at the end has its third locator in just the place
that is skipped; it serves `Justified` as well, where that locator is what makes an answer wrong.
-/

namespace SteamInputLease
namespace Recovery

open Lib

section

variable {image : List UInt8} {td : Nat}

theorem readLe_eq_some {width offset v : Nat} : readLe width image offset = some v ↔
    offset + width ≤ image.length ∧ leNat (slice image offset width) = v := by
  rw [readLe]
  split
  · next h => rw [Option.some.injEq, and_iff_right h]
  · next h =>
    constructor
    · rintro ⟨⟩
    · intro hv
      exact absurd hv.1 h

theorem readLe_lt {width offset v : Nat} (h : readLe width image offset = some v) :
    v < 256 ^ width := by
  obtain ⟨_, rfl⟩ := readLe_eq_some.mp h
  have hlen : (slice image offset width).length ≤ width := List.length_take_le _ _
  calc leNat (slice image offset width) < 256 ^ (slice image offset width).length := leNat_lt _
    _ ≤ 256 ^ width := Nat.pow_le_pow_right (by decide) hlen

theorem readU32_lt {offset v : Nat} (h : readU32 image offset = some v) : v < 2 ^ 32 := readLe_lt h

theorem Locator.small {o off : Nat} (h : Locator image td o off) : o < 2 ^ 32 := readU32_lt h.self

/-- One round finds the locator whose type descriptor is the word it looks at. -/
theorem locatorAt_found {index o off : Nat} (hindex : index < image.length / 4) :
    locatorAt image td index = .found (o, off) ↔
      index * 4 = o + 12 ∧ Locator image td o off ∧ o + completeObjectLocatorSize < image.length := by
  have hfield : index * 4 + 4 ≤ image.length := by omega
  have hword : readU32 image (index * 4) = some (leNat (slice image (index * 4) 4)) := by
    rw [readU32, readLe, if_pos hfield]
  constructor
  · intro h
    rw [locatorAt] at h
    split at h
    · cases h
    next htd =>
    split at h
    · cases h
    next h12 =>
    split at h
    · cases h
    next hlimit =>
    have hoff : index * 4 = index * 4 - 12 + 12 := by omega
    split at h
    · cases h
    next rva hrva =>
    -- `u32::try_from` can only give the offset itself back
    have hrva : index * 4 - 12 = rva := by
      rw [u32TryFrom] at hrva
      split at hrva
      · exact Option.some.inj hrva
      · cases hrva
    split at h
    · cases h
    next hfixed =>
    rw [not_or, not_or, not_not, not_not, not_not] at hfixed
    split at h
    · next objectOffset classDescriptor hobject hclass =>
      split at h
      · next hbound =>
        cases h
        -- each guard passed on the way down is one field of the locator
        rw [hrva] at hoff hfixed hobject hclass hlimit
        rw [completeObjectLocatorSize] at hlimit
        refine ⟨hoff, ?_, ?_⟩
        · exact
            { aligned := by omega
              inside := by
                rw [completeObjectLocatorSize]
                omega
              signature := hfixed.1
              offset := hobject
              displacement := hfixed.2.1
              descriptor := by rw [← hoff, hword, not_not.mp htd]
              hierarchy := ⟨_, hclass, hbound.2⟩
              self := hfixed.2.2
              bounded := hbound.1 }
        · rw [completeObjectLocatorSize]
          omega
      · cases h
    · cases h
  · intro hm
    obtain ⟨hindex, hl, hlt⟩ := hm
    have hsub : index * 4 - 12 = o := by omega
    obtain ⟨rva, hclass, hrva⟩ := hl.hierarchy
    have htd : leNat (slice image (index * 4) 4) = td := by
      have hdesc := hl.descriptor
      rw [← hindex, hword] at hdesc
      exact Option.some.inj hdesc
    have hlimit : ¬image.length - completeObjectLocatorSize ≤ o := by omega
    have hsmall : u32TryFrom o = some o := if_pos hl.small
    have hfixed : ¬(readU32 image o ≠ some 1 ∨ readU32 image (o + 8) ≠ some 0 ∨
        readU32 image (o + 20) ≠ some o) := by
      rw [not_or, not_or, not_not, not_not, not_not]
      exact ⟨hl.signature, hl.displacement, hl.self⟩
    rw [locatorAt, if_neg (not_not.mpr htd), if_neg (by omega), hsub, if_neg hlimit]
    rw [hsmall]
    dsimp only
    rw [if_neg hfixed, hl.offset, hclass]
    dsimp only
    rw [if_pos ⟨hl.bounded, hrva⟩]

/-- The scan gives up only behind the last offset that a locator can name. -/
theorem locatorAt_stop {index : Nat} (h : locatorAt image td index = .stop) :
    2 ^ 32 ≤ index * 4 - 12 := by
  rw [locatorAt] at h
  split at h
  · cases h
  split at h
  · cases h
  split at h
  · cases h
  split at h
  · next hnone =>
    rw [u32TryFrom] at hnone
    split at hnone
    · cases hnone
    · next hbig => exact Nat.le_of_not_lt hbig
  · split at h
    · cases h
    split at h
    · split at h <;> cases h
    · cases h

/-- What the scan adds to its result from `index` on. -/
theorem mem_locatorLoop {l : Nat × Nat} : ∀ (n index : Nat) (result : List (Nat × Nat)),
    index + n = image.length / 4 →
      (l ∈ locatorLoop image td n index result ↔
        l ∈ result ∨ ∃ k, index ≤ k ∧ k < image.length / 4 ∧ locatorAt image td k = .found l) := by
  intro n
  induction n with
  | zero =>
    intro index result hn
    rw [locatorLoop]
    constructor
    · exact .inl
    · rintro (h | ⟨k, hk, hlt, _⟩)
      · exact h
      · omega
  | succ n ih =>
    intro index result hn
    -- the round at `index`, or one of the rounds after it
    have hsplit : (∃ k, index ≤ k ∧ k < image.length / 4 ∧ locatorAt image td k = .found l) ↔
        locatorAt image td index = .found l ∨
          ∃ k, index + 1 ≤ k ∧ k < image.length / 4 ∧ locatorAt image td k = .found l := by
      constructor
      · intro hm
        obtain ⟨k, hk, hrest⟩ := hm
        rcases Nat.eq_or_lt_of_le hk with rfl | hlt
        · exact .inl hrest.2
        · exact .inr ⟨k, hlt, hrest⟩
      · rintro (h | ⟨k, hk, hrest⟩)
        · exact ⟨index, Nat.le_refl _, by omega, h⟩
        · exact ⟨k, by omega, hrest⟩
    rw [locatorLoop, hsplit]
    cases hat : locatorAt image td index with
    | skip =>
      dsimp only
      rw [ih _ _ (by omega)]
      simp
    | stop =>
      dsimp only
      constructor
      · exact .inl
      · rintro (h | h | ⟨k, hk, hlt, h⟩)
        · exact h
        · cases h
        · obtain ⟨hk', hloc, _⟩ := (locatorAt_found hlt).mp h
          have hbig := locatorAt_stop hat
          have hsmall := hloc.small
          omega
    | found l' =>
      dsimp only
      rw [ih _ _ (by omega), mem_pushNew, or_assoc, Step.found.injEq, eq_comm]

theorem mem_findCompleteObjectLocators {o off : Nat} :
    (o, off) ∈ findCompleteObjectLocators image td ↔
      Locator image td o off ∧ o + completeObjectLocatorSize < image.length := by
  rw [findCompleteObjectLocators, mem_locatorLoop _ _ _ (Nat.zero_add _)]
  constructor
  · rintro (h | ⟨k, _, hlt, h⟩)
    · cases h
    · exact ((locatorAt_found hlt).mp h).2
  · intro hm
    obtain ⟨hl, hlt⟩ := hm
    have hsize := hl.inside
    have hal := hl.aligned
    rw [completeObjectLocatorSize] at hsize
    have hk : (o + 12) / 4 * 4 = o + 12 := by omega
    have hk' : (o + 12) / 4 < image.length / 4 := by omega
    exact .inr ⟨(o + 12) / 4, Nat.zero_le _, hk', (locatorAt_found hk').mpr ⟨hk, hl, hlt⟩⟩

/-- The scan only ever adds a locator behind those it has. -/
theorem ascending_locatorLoop : ∀ (n index : Nat) (result : List (Nat × Nat)),
    index + n = image.length / 4 → result.Pairwise (fun a b => a.1 < b.1) →
      (∀ l ∈ result, l.1 + 12 < index * 4) →
        (locatorLoop image td n index result).Pairwise fun a b => a.1 < b.1 := by
  intro n
  induction n with
  | zero =>
    intro index result _ hasc _
    exact hasc
  | succ n ih =>
    intro index result hn hasc hbelow
    have hmore : ∀ l ∈ result, l.1 + 12 < (index + 1) * 4 := by
      intro l hl
      have := hbelow l hl
      omega
    rw [locatorLoop]
    cases hat : locatorAt image td index with
    | skip => exact ih _ _ (by omega) hasc hmore
    | stop => exact hasc
    | found l =>
      obtain ⟨hl, _⟩ := (locatorAt_found (by omega)).mp hat
      have hnew : l ∉ result := by
        intro hmem
        have := hbelow l hmem
        omega
      dsimp only
      rw [pushNew, if_neg hnew]
      refine ih _ _ (by omega) (List.pairwise_append.mpr ⟨hasc, List.pairwise_singleton _ _, ?_⟩) ?_
      · intro a ha b hb
        rw [List.mem_singleton.mp hb]
        have := hbelow a ha
        omega
      · intro a ha
        rcases List.mem_append.mp ha with ha | ha
        · exact hmore a ha
        · rw [List.mem_singleton.mp ha]
          omega

theorem ascending_locators :
    (findCompleteObjectLocators image td).Pairwise fun a b => a.1 < b.1 := by
  refine ascending_locatorLoop _ 0 [] (Nat.zero_add _) List.Pairwise.nil ?_
  intro l hl
  cases hl

end

/-- The scan is its plain definition: the well-formed locators in ascending order, each once. -/
def LocatorScanExact (image : List UInt8) (typeDescriptorRva : Nat) : Prop :=
  (findCompleteObjectLocators image typeDescriptorRva).Pairwise (fun a b => a.1 < b.1) ∧
  ∀ o objectOffset, (o, objectOffset) ∈ findCompleteObjectLocators image typeDescriptorRva ↔
    Locator image typeDescriptorRva o objectOffset

/-- **The locator scan equals its plain definition** just when no well-formed locator lies in the
    last 24 bytes of the image. -/
theorem locatorScan (image : List UInt8) (typeDescriptorRva : Nat) :
    LocatorScanExact image typeDescriptorRva ↔
      ¬∃ objectOffset, Locator image typeDescriptorRva
        (image.length - completeObjectLocatorSize) objectOffset := by
  constructor
  · rintro ⟨_, hall⟩ ⟨off, hl⟩
    have hin := (mem_findCompleteObjectLocators.mp ((hall _ _).mpr hl)).2
    have hsize := hl.inside
    omega
  · intro hnone
    refine ⟨ascending_locators, fun o off => ?_⟩
    rw [mem_findCompleteObjectLocators]
    constructor
    · intro h
      exact h.1
    · intro hl
      refine ⟨hl, Nat.lt_of_le_of_ne hl.inside ?_⟩
      intro hend
      have ho : o = image.length - completeObjectLocatorSize := by omega
      exact hnone ⟨off, ho ▸ hl⟩

/-! ## An image -/

/-- `image[offset..].copy_from_slice(bytes)`. -/
def put (image : List UInt8) : Nat × List UInt8 → List UInt8
  | (offset, bytes) => image.take offset ++ bytes ++ image.drop (offset + bytes.length)

/-- A locator for the type descriptor at `0xc0`. -/
def locatorBytes (o objectOffset : Nat) : Nat × List UInt8 :=
  (o, [1, objectOffset, 0, 0xc0, 0xc0, o].flatMap (toLe 4))

def sampleBase : Nat := 0x180000000

/-- A loaded image with one executable section from `0xc0` on: the class name at `0xd0`, its
    locators at `0xf8` and `0x110`, a vtable for each at `0x130` and `0x140`, and code. -/
def classImage (secondaryOffset : Nat) (code : List UInt8) (more : List (Nat × List UInt8)) :
    List UInt8 :=
  let header := [(0, [0x4d, 0x5a]), (0x3c, [0x40]), (0x40, [0x50, 0x45]), (0x46, [1]),
    (0x54, [0x40]), (0x58, [0x0b, 0x02]), (0x90, toLe 4 0x1c0), (0xa0, toLe 4 0x100),
    (0xa4, toLe 4 0xc0), (0xbf, [0x20]), (0xd0, hidThreadRttiName)]
  let vtables := [locatorBytes 0xf8 0, locatorBytes 0x110 secondaryOffset,
    (0x128, toLe 8 (sampleBase + 0xf8)), (0x130, toLe 8 (sampleBase + 0x180)),
    (0x138, toLe 8 (sampleBase + 0x110)), (0x140, toLe 8 (sampleBase + 0x180))]
  (header ++ vtables ++ (0x180, code) :: more).foldl put (.replicate 0x1c0 0)

/-- A third locator in the last 24 bytes, for the primary base, and a vtable that refers to it. -/
def lastLocator : List (Nat × List UInt8) :=
  [locatorBytes 0x1a8 0, (0x168, toLe 8 (sampleBase + 0x1a8)), (0x170, toLe 8 (sampleBase + 0x180))]

/-- A locator, from its six words. -/
theorem locator_of_fields {image : List UInt8} {o off td : Nat} (hal : 4 ∣ o)
    (hin : o + completeObjectLocatorSize ≤ image.length) (hoff : off ≤ maxSecondaryOffset)
    (h : [0, 4, 8, 12, 16, 20].map (fun i => readU32 image (o + i)) =
      [some 1, some off, some 0, some td, some td, some o]) (htd : td < o) :
    Locator image td o off := by
  simp only [List.map_cons, List.map_nil, List.cons.injEq, and_true] at h
  obtain ⟨hsig, hobject, hdis, hdesc, hclass, hself⟩ := h
  exact
    { aligned := hal
      inside := hin
      signature := hsig
      offset := hobject
      displacement := hdis
      descriptor := hdesc
      hierarchy := ⟨td, hclass, htd.trans_le (Nat.le_of_add_right_le hin)⟩
      self := hself
      bounded := hoff }

/-- The scan misses it. -/
theorem locatorScan_misses : ¬LocatorScanExact (classImage 8 [] lastLocator) 0xc0 := by
  intro h
  have hbytes : 0x1a8 + completeObjectLocatorSize ≤ (classImage 8 [] lastLocator).length ∧
      [0, 4, 8, 12, 16, 20].map (fun i => readU32 (classImage 8 [] lastLocator) (0x1a8 + i)) =
        [some 1, some 0, some 0, some 0xc0, some 0xc0, some 0x1a8] ∧
      findCompleteObjectLocators (classImage 8 [] lastLocator) 0xc0 = [(0xf8, 0), (0x110, 8)] := by
    decide +kernel
  generalize classImage 8 [] lastLocator = image at h hbytes
  obtain ⟨hin, hfields, hscan⟩ := hbytes
  have hl := locator_of_fields (o := 0x1a8) (by decide) hin (by decide) hfields (by decide)
  have hmem := (h.2 0x1a8 0).mpr hl
  rw [hscan] at hmem
  revert hmem
  decide

end Recovery
end SteamInputLease
