import SteamInputLease.Recovery.Scan

/-!
# What one chunk yields

`find_vtable_pairs` finds the aligned pairs of a slice and no others, and `next_scan_start` always
moves on, to no later than a pair that the chunk did not hold.

These are the two facts about a single chunk that everything about the scan is built from. The first
is an induction on the rounds of the matcher's loop, with its offset free; `Scan` reads it as what a
chunk contributes, and `Window` adds the order of the result and that no sum in it overflows. The
second needs no memory at all: the saturating sums of `next_scan_start` stay below the end of the
region or end the scan, and so every loop over chunks gets on, in `Scan` over a memory that stands
still and in `ScanEnds` over any.
-/

namespace SteamInputLease
namespace Recovery

open Lib

/-! ## `find_vtable_pairs` -/

section

variable {bytes : List UInt8} {s p q so last : Nat}

theorem mem_pairLoop {a : Nat} : ∀ n o, a ∈ pairLoop bytes s p q so last n o ↔
    ∃ k, k < n ∧ o + 8 * k ≤ last ∧ a = s + (o + 8 * k) ∧
      wordAt bytes (o + 8 * k) = p ∧ wordAt bytes (o + 8 * k + so) = q := by
  intro n
  induction n with
  | zero =>
    intro o
    simp [pairLoop]
  | succ n ih =>
    intro o
    rw [pairLoop]
    by_cases hl : last < o
    · rw [if_pos hl]
      constructor
      · intro h
        cases h
      · intro hm
        obtain ⟨k, _, hk, _⟩ := hm
        omega
    rw [if_neg hl]
    have hshift : ∀ k, o + 8 + 8 * k = o + 8 * (k + 1) := by
      intro k
      omega
    -- the offset of this round, or one of the rounds after it
    have hsplit : (∃ k, k < n + 1 ∧ o + 8 * k ≤ last ∧ a = s + (o + 8 * k) ∧
          wordAt bytes (o + 8 * k) = p ∧ wordAt bytes (o + 8 * k + so) = q) ↔
        (a = s + o ∧ wordAt bytes o = p ∧ wordAt bytes (o + so) = q) ∨
          a ∈ pairLoop bytes s p q so last n (o + 8) := by
      rw [ih (o + 8)]
      constructor
      · intro hm
        obtain ⟨k, hk, hrest⟩ := hm
        cases k with
        | zero => exact .inl ⟨hrest.2.1, hrest.2.2⟩
        | succ k => exact .inr ⟨k, Nat.lt_of_succ_lt_succ hk, by rwa [hshift]⟩
      · rintro (⟨ha, hw⟩ | ⟨k, hk, hrest⟩)
        · exact ⟨0, Nat.succ_pos n, Nat.le_of_not_lt hl, ha, hw⟩
        · exact ⟨k + 1, Nat.succ_lt_succ hk, by rwa [← hshift]⟩
    rw [hsplit]
    dsimp only
    split
    · next hw => rw [List.mem_cons, and_iff_left hw]
    · next hw => simp only [hw, and_false, false_or]

/-- The pairs of a slice: aligned addresses with both words inside it. -/
theorem mem_findVtablePairs (hp : p ≠ 0) (hs : s < 2 ^ 64) (hso : so + 8 ≤ usizeMax) {a : Nat} :
    a ∈ findVtablePairs bytes s p q so ↔
      ∃ o, a = s + o ∧ 8 ∣ a ∧ o + so + 8 ≤ bytes.length ∧
        wordAt bytes o = p ∧ wordAt bytes (o + so) = q := by
  have hreq : satAdd so 8 = so + 8 := Nat.min_eq_left hso
  rw [findVtablePairs, hreq]
  by_cases hshort : bytes.length < so + 8
  · rw [if_pos (.inr hshort)]
    constructor
    · intro h
      cases h
    · intro hm
      obtain ⟨o, _, _, hlen, _⟩ := hm
      omega
  rw [if_neg (by rintro (h | h) <;> contradiction), mem_pairLoop]
  constructor
  · intro hm
    obtain ⟨k, _, hlast, ha, hw⟩ := hm
    exact ⟨_, ha, by omega, by omega, hw⟩
  · intro hm
    obtain ⟨o, ha, hdvd, hlen, hw⟩ := hm
    have hk : (2 ^ 64 - s) % 8 + 8 * ((o - (2 ^ 64 - s) % 8) / 8) = o := by omega
    refine ⟨(o - (2 ^ 64 - s) % 8) / 8, by omega, ?_⟩
    rw [hk]
    exact ⟨by omega, ha, hw⟩

end

/-! ## `next_scan_start` -/

section

variable {cs ce re t ov next : Nat}

/-- The next chunk begins behind this one, and inside the region. -/
theorem nextScanStart_lt (h : nextScanStart cs ce re t ov = some next) (hcs : cs < usizeMax) :
    cs < next ∧ next < re := by
  unfold nextScanStart satMul scanPageSize at h
  split at h
  · dsimp only at h
    split at h
    · next hlt =>
      cases h
      refine ⟨?_, hlt⟩
      have : cs + t < ((cs + t) / 4096 + 1) * 4096 := by omega
      omega
    · cases h
  · split at h
    · cases h
    · dsimp only at h
      split at h
      · next hlt =>
        cases h
        exact ⟨by omega, hlt⟩
      · cases h

end

end Recovery
end SteamInputLease
