import SteamInputLease.Proof.Recovery.Image
import SteamInputLease.Recovery.Checked

/-!
# Searching and reading do not crash

`for_each_byte` does not crash with a closure that does not, and neither do `find_unique`, the
readers and `find_u64`. Each gives what the function it is a copy of gives.

The closure of `find_unique` counts, and its counter is a `usize` that is added to without a check.
That it does not overflow is known only from the whole search, which reports each offset once, and
not from one call of the closure. So `Counts` asks of a closure that some measure of its state never
falls, and that it runs as long as the measure stays in range; the loops then need only that the
measure is in range at their end. The mask is taken apart bit by bit, and the subtraction of one and
the lane index behind it are in range as the mask is not zero there.
-/

namespace SteamInputLease
namespace Recovery
namespace Checked

open Lib

theorem usizeAdd_ok {a b : Nat} (h : a + b ≤ usizeMax) : usizeAdd a b = .ok (a + b) :=
  MayPanic.add_ok h

theorem usizeMul_ok {a b : Nat} (h : a * b ≤ usizeMax) : usizeMul a b = .ok (a * b) :=
  MayPanic.mul_ok h

theorem isizeMax_lt : isizeMax < usizeMax := by decide

/-! ## `for_each_byte` -/

section

variable {σ : Type} {needle : UInt8} {onHit : σ → Nat → MayPanic σ} {hit : σ → Nat → σ}
  {μ : σ → Nat} {len : Nat}

/-- A closure that does not crash on an offset below `len`, as long as what it counts in `μ` stays
    in range. -/
structure Counts (onHit : σ → Nat → MayPanic σ) (hit : σ → Nat → σ) (μ : σ → Nat) (len : Nat) :
    Prop where
  grows : ∀ s offset, μ s ≤ μ (hit s offset)
  runs : ∀ s offset, offset < len → μ (hit s offset) ≤ usizeMax →
    onHit s offset = .ok (hit s offset)

namespace Counts

variable (hc : Counts onHit hit μ len)
include hc

/-- The loops only ever call the closure, so what it counts does not fall in them. -/
theorem maskLoop_grows (chunk : List UInt8) (base : Nat) : ∀ (n : Nat) (mask : BitVec 64) (s : σ),
    μ s ≤ μ (Recovery.maskLoop needle hit chunk base n mask s) := by
  intro n
  induction n with
  | zero =>
    intro mask s
    exact le_refl _
  | succ n ih =>
    intro mask s
    rw [Recovery.maskLoop]
    split
    · exact le_refl _
    · refine le_trans ?_ (ih _ _)
      split
      · exact hc.grows s _
      · exact le_refl _

theorem tailHits_grows : ∀ (bytes : List UInt8) (index : Nat) (s : σ),
    μ s ≤ μ (Recovery.tailHits needle hit bytes index s) := by
  intro bytes
  induction bytes with
  | nil =>
    intro index s
    exact le_refl _
  | cons byte rest ih =>
    intro index s
    rw [Recovery.tailHits]
    refine le_trans ?_ (ih _ _)
    split
    · exact hc.grows s _
    · exact le_refl _

theorem chunkLoop_grows : ∀ (n : Nat) (haystack : List UInt8) (base : Nat) (s : σ),
    μ s ≤ μ (Recovery.chunkLoop needle hit n haystack base s) := by
  intro n
  induction n with
  | zero =>
    intro haystack base s
    exact hc.tailHits_grows haystack base s
  | succ n ih =>
    intro haystack base s
    exact le_trans (hc.maskLoop_grows _ _ _ _ _) (ih _ _ _)

/-- One byte: the closure is called where it matches, and its offset is in range. -/
theorem visit_ok {byte : UInt8} {base offset : Nat} {s : σ} (hlen : len ≤ usizeMax)
    (hoffset : base + offset < len)
    (hcount : μ (if byte = needle then hit s (base + offset) else s) ≤ usizeMax) :
    visit needle onHit byte base offset s =
      .ok (if byte = needle then hit s (base + offset) else s) := by
  rw [visit]
  split
  · next hmatch =>
    rw [if_pos hmatch] at hcount
    rw [usizeAdd_ok (by omega)]
    exact hc.runs s _ hoffset hcount
  · rfl

/-- The loop over a mask. With as many rounds as bits are set it does not run out. -/
theorem maskLoop_ok {chunk : List UInt8} {base : Nat} (hchunk : chunk.length = 8)
    (hbase : base + 8 ≤ len) (hlen : len ≤ usizeMax) : ∀ (n : Nat) (mask : BitVec 64) (s : σ),
    (setBits mask).length ≤ n →
      μ (Recovery.maskLoop needle hit chunk base n mask s) ≤ usizeMax →
        maskLoop needle onHit chunk base n mask s =
          .ok (Recovery.maskLoop needle hit chunk base n mask s) := by
  intro n
  induction n with
  | zero =>
    intro mask s hbits _
    have hz : mask = 0#64 := by
      apply Decidable.byContradiction
      intro hne
      rw [setBits_cons hne] at hbits
      exact Nat.not_succ_le_zero _ hbits
    rw [maskLoop, if_pos hz]
    rfl
  | succ n ih =>
    intro mask s hbits hcount
    rw [maskLoop, Recovery.maskLoop]
    rw [Recovery.maskLoop] at hcount
    by_cases hz : mask = 0#64
    · rw [if_pos hz, if_pos hz]
      rfl
    rw [if_neg hz] at hcount ⊢
    rw [if_neg hz]
    have hctz : mask.ctz.toNat < 64 := BitVec.lt_of_getLsbD (BitVec.getLsbD_true_ctz_of_ne_zero hz)
    have hlane : mask.ctz.toNat / 8 < chunk.length := by omega
    have hget : chunk[mask.ctz.toNat / 8]? = some chunk[mask.ctz.toNat / 8] :=
      List.getElem?_eq_getElem hlane
    have hne : 1 ≤ mask.toNat := by
      apply Nat.pos_of_ne_zero
      intro h0
      exact hz (BitVec.eq_of_toNat_eq (by simpa using h0))
    -- `mask - 1` does not underflow, so the checked subtraction is the wrapping one
    have hbelow : BitVec.ofNat 64 (mask.toNat - 1) = mask - 1#64 := by bv_omega
    rw [setBits_cons hz, List.length_cons] at hbits
    dsimp only at hcount ⊢
    rw [hget] at hcount ⊢
    simp only [Option.some.injEq] at hcount ⊢
    have hgrow : ∀ s, μ s ≤ μ (Recovery.maskLoop needle hit chunk base n (mask &&& (mask - 1#64)) s) :=
      hc.maskLoop_grows chunk base n (mask &&& (mask - 1#64))
    rw [MayPanic.index_ok hget, MayPanic.sub_ok hne]
    show visit needle onHit _ base _ s >>= _ = _
    rw [hc.visit_ok hlen (by omega) ((hgrow _).trans hcount)]
    show maskLoop needle onHit chunk base n (mask &&& BitVec.ofNat 64 (mask.toNat - 1)) _ = _
    rw [hbelow]
    exact ih _ _ (Nat.le_of_succ_le_succ hbits) hcount

/-- The bytes behind the last chunk. -/
theorem tailHits_ok {base : Nat} (hlen : len ≤ usizeMax) : ∀ (bytes : List UInt8) (index : Nat)
    (s : σ), base + index + bytes.length ≤ len →
      μ (Recovery.tailHits needle hit bytes (base + index) s) ≤ usizeMax →
        tailHits needle onHit base bytes index s =
          .ok (Recovery.tailHits needle hit bytes (base + index) s) := by
  intro bytes
  induction bytes with
  | nil =>
    intro index s _ _
    rfl
  | cons byte rest ih =>
    intro index s hin hcount
    rw [List.length_cons] at hin
    rw [Recovery.tailHits] at hcount ⊢
    have hgrow : ∀ s, μ s ≤ μ (Recovery.tailHits needle hit rest (base + index + 1) s) :=
      hc.tailHits_grows rest (base + index + 1)
    rw [tailHits, hc.visit_ok hlen (by omega) ((hgrow _).trans hcount)]
    exact ih (index + 1) _ (by omega) hcount

/-- One chunk after another. What is counted at the end bounds what is counted on the way. -/
theorem chunkLoop_ok (hlen : len ≤ usizeMax) : ∀ (n : Nat) (haystack : List UInt8) (base : Nat)
    (s : σ), n = haystack.length / 8 → base + haystack.length ≤ len →
      μ (Recovery.chunkLoop needle hit n haystack base s) ≤ usizeMax →
        chunkLoop needle onHit n haystack base s =
          .ok (Recovery.chunkLoop needle hit n haystack base s) := by
  intro n
  induction n with
  | zero =>
    intro haystack base s _ hin hcount
    exact hc.tailHits_ok hlen haystack 0 s hin hcount
  | succ n ih =>
    intro haystack base s hn hin hcount
    rw [Recovery.chunkLoop] at hcount ⊢
    have hchunk : (haystack.take 8).length = 8 := by
      rw [List.length_take]
      omega
    have hbits : (setBits (zeroLanes (u64FromLe (haystack.take 8) ^^^
        u64FromLe (.replicate 8 needle)))).length ≤ 64 :=
      (List.length_filter_le _ _).trans List.length_range.le
    have hgrow : ∀ s, μ s ≤ μ (Recovery.chunkLoop needle hit n (haystack.drop 8) (base + 8) s) :=
      hc.chunkLoop_grows n (haystack.drop 8) (base + 8)
    have hhead := hc.maskLoop_ok hchunk (show base + 8 ≤ len by omega) hlen 64 _ s hbits
      ((hgrow _).trans hcount)
    rw [chunkLoop, chunkHits, hhead, usizeAdd_ok (show base + 8 ≤ usizeMax by omega)]
    refine ih _ _ _ ?_ ?_ hcount
    · rw [List.length_drop]
      omega
    · rw [List.length_drop]
      omega

/-- `for_each_byte`, with a closure whose count stays in range to the end. -/
theorem forEachByte_ok (needle : UInt8) {haystack : List UInt8} (s : σ) (hhay : haystack.length ≤ len)
    (hlen : len ≤ usizeMax) (hcount : μ (Recovery.forEachByte needle hit haystack s) ≤ usizeMax) :
    forEachByte needle onHit haystack s = .ok (Recovery.forEachByte needle hit haystack s) := by
  refine hc.chunkLoop_ok hlen _ haystack 0 s rfl ?_ hcount
  rwa [Nat.zero_add]

end Counts

end

/-! ## `find_unique` and the readers -/

section

variable {image : List UInt8} (himage : image.length ≤ isizeMax)

include himage

/-- The closure of `find_unique` counts the occurrences it was called for. -/
theorem counts_hit {rest : List UInt8} (hrest : rest.length + 1 ≤ image.length) :
    Counts (hit image rest (image.length - (rest.length + 1)))
      (Occurrences.hit image rest (image.length - (rest.length + 1))) (·.count) image.length where
  grows s offset := by
    rw [Occurrences.hit]
    split
    · exact Nat.le_succ _
    · exact le_refl _
  runs s offset hoffset hcount := by
    have hmax := isizeMax_lt
    rw [hit, Occurrences.hit]
    by_cases hle : offset ≤ image.length - (rest.length + 1)
    · have hslice : MayPanic.slice image (offset + 1) (offset + (rest.length + 1)) =
          .ok (slice image (offset + 1) rest.length) := by
        rw [MayPanic.slice_ok (by omega) (by omega), slice]
        congr 2
        omega
      rw [if_pos hle, usizeAdd_ok (by omega), usizeAdd_ok (by omega)]
      show MayPanic.slice image _ _ >>= _ = _
      rw [hslice]
      show (if slice image (offset + 1) rest.length = rest then _ else _) = _
      by_cases hfound : slice image (offset + 1) rest.length = rest
      · have hboth := And.intro hle hfound
        rw [Occurrences.hit, if_pos hboth] at hcount
        rw [if_pos hfound, if_pos hboth, usizeAdd_ok hcount]
        rfl
      · rw [if_neg hfound, if_neg fun h => hfound h.2]
        rfl
    · rw [if_neg hle, if_neg fun h => hle h.1]
      rfl

/-- An image has fewer occurrences than bytes, so they can be counted. -/
theorem findUnique_ok (needle : List UInt8) :
    findUnique image needle = .ok (Recovery.findUnique image needle) := by
  cases needle with
  | nil => rfl
  | cons first rest =>
    rw [findUnique, Recovery.findUnique]
    by_cases hshort : image.length < (first :: rest).length
    · rw [if_pos hshort, if_pos hshort]
      rfl
    rw [if_neg hshort, if_neg hshort, MayPanic.sub_ok (by omega)]
    have hrest : rest.length + 1 ≤ image.length := Nat.le_of_not_lt hshort
    have hcount : (Recovery.forEachByte first (Occurrences.hit image rest
        (image.length - (rest.length + 1))) image ⟨0, 0⟩).count ≤ usizeMax := by
      rw [forEachByte_eq, foldl_hit]
      calc _ ≤ _ := List.length_filter_le _ _
        _ ≤ _ := List.length_filter_le _ _
        _ = image.length := List.length_range
        _ ≤ usizeMax := himage.trans isizeMax_lt.le
    have hloop := (counts_hit himage hrest).forEachByte_ok first ⟨0, 0⟩ (le_refl _)
      (himage.trans isizeMax_lt.le) hcount
    show forEachByte first _ image _ >>= _ = _
    rw [List.length_cons, hloop]
    rfl

omit himage in
theorem readLe_ok {width offset : Nat} (h : offset + width ≤ usizeMax) :
    readLe width image offset = .ok (Recovery.readLe width image offset) := by
  rw [readLe, usizeAdd_ok h]
  rfl

theorem findU64_ok (value : Nat) : findU64 image value = .ok (Recovery.findU64 image value) := by
  apply MayPanic.filter_ok
  intro offset hmem
  have hmax := isizeMax_lt
  obtain ⟨i, hi, rfl⟩ := List.mem_range'.mp hmem
  rw [usizeAdd_ok (by omega)]
  show MayPanic.slice image _ _ >>= _ = _
  rw [MayPanic.slice_ok (by omega) (by omega), slice, Nat.add_sub_cancel_left]
  rfl

end

end Checked
end Recovery
end SteamInputLease
