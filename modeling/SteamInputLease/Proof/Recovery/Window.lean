import SteamInputLease.Proof.Recovery.Pairs
import SteamInputLease.Proof.Recovery.CheckedSearch
import SteamInputLease.Recovery.CheckedScan

/-!
# One window of the scan

`find_vtable_pairs` does not crash and finds the aligned pairs of a window in ascending order, for
every offset of the second word.

`Pairs` has the members of the result. What is added here is their order, from the loop's own
offset, and that the checked copy of the loop does not panic. The source slices eight bytes at the
offset and eight more at the second word, and it holds the offset to a `last` that it computed
before the loop; that this `last` is right also where the second word overlaps the first one, or
begins behind the end of the window, is all there is to the slices. Nothing is asked of the window
or of the base it is said to begin at but that the window fits into memory.
-/

namespace SteamInputLease
namespace Recovery

open Lib

section

variable {bytes : List UInt8} {s p q so last : Nat}

theorem ascending_pairLoop : ∀ n o, (pairLoop bytes s p q so last n o).Pairwise (· < ·) := by
  intro n
  induction n with
  | zero =>
    intro o
    exact .nil
  | succ n ih =>
    intro o
    rw [pairLoop]
    split
    · exact .nil
    · dsimp only
      split
      · refine .cons ?_ (ih (o + 8))
        intro a ha
        obtain ⟨k, _, _, rfl, _⟩ := (mem_pairLoop n (o + 8)).mp ha
        omega
      · exact ih (o + 8)

theorem ascending_findVtablePairs : (findVtablePairs bytes s p q so).Pairwise (· < ·) := by
  rw [findVtablePairs]
  dsimp only
  split
  · exact .nil
  · exact ascending_pairLoop _ _

end

namespace Checked

section

variable {bytes : List UInt8} {s p q so start last : Nat}

/-- The word at the head of what is left of the window. -/
theorem pairLoop_ok (hs : s + bytes.length ≤ usizeMax) (hstart : start < 8)
    (hlast : last + so + 8 ≤ bytes.length) : ∀ n index,
    start + 8 * (index + n) ≤ bytes.length →
      pairLoop bytes s p q so start last n (bytes.drop (start + 8 * index)) index =
        .ok (Recovery.pairLoop bytes s p q so last n (start + 8 * index)) := by
  intro n
  induction n with
  | zero =>
    intro index _
    rfl
  | succ n ih =>
    intro index hin
    have hnext := ih (index + 1) (by omega)
    have hdrop : (bytes.drop (start + 8 * index)).drop 8 = bytes.drop (start + 8 * (index + 1)) := by
      rw [List.drop_drop]
      congr 1
    have hword : leNat ((bytes.drop (start + 8 * index)).take 8) = wordAt bytes (start + 8 * index) :=
      rfl
    rw [pairLoop, Recovery.pairLoop, usizeMul_ok (by omega), Nat.mul_comm index]
    show usizeAdd start _ >>= _ = _
    rw [usizeAdd_ok (by omega)]
    show (if last < start + 8 * index then _ else _) = _
    by_cases hend : last < start + 8 * index
    · rw [if_pos hend, if_pos hend]
      rfl
    rw [if_neg hend, if_neg hend, hdrop, hword, hnext]
    dsimp only
    by_cases hfirst : wordAt bytes (start + 8 * index) ≠ p
    · rw [if_pos hfirst, if_neg fun h => hfirst h.1]
      rfl
    rw [if_neg hfirst, usizeAdd_ok (by omega), usizeAdd_ok (by omega)]
    show usizeAdd _ 8 >>= _ = _
    rw [usizeAdd_ok (by omega)]
    show MayPanic.slice bytes _ _ >>= _ = _
    rw [MayPanic.slice_ok (by omega) (by omega), Nat.add_sub_cancel_left]
    show (if wordAt bytes (start + 8 * index + so) = q then _ else _) = _
    by_cases hsecond : wordAt bytes (start + 8 * index + so) = q
    · rw [if_pos hsecond, if_pos ⟨not_not.mp hfirst, hsecond⟩]
      rfl
    · rw [if_neg hsecond, if_neg fun h => hsecond h.2]
      rfl

theorem findVtablePairs_ok (hlen : bytes.length ≤ isizeMax) (hs : s + bytes.length ≤ usizeMax) :
    findVtablePairs bytes s p q so = .ok (Recovery.findVtablePairs bytes s p q so) := by
  have hmax := isizeMax_lt
  rw [findVtablePairs, Recovery.findVtablePairs]
  dsimp only
  by_cases hshort : p = 0 ∨ bytes.length < satAdd so 8
  · rw [if_pos hshort, if_pos hshort]
    rfl
  rw [if_neg hshort, if_neg hshort]
  obtain ⟨_, hlong⟩ := not_or.mp hshort
  -- the sum did not saturate, since a slice is shorter than that
  have hreq : satAdd so 8 = so + 8 := by
    rw [satAdd] at hlong ⊢
    omega
  have hstart : (2 ^ 64 - s) % 2 ^ 64 % 8 = (2 ^ 64 - s) % 8 := by omega
  rw [hreq] at hlong ⊢
  rw [MayPanic.sub_ok (by omega), hstart]
  show MayPanic.slice bytes _ _ >>= _ = _
  rw [MayPanic.slice_ok (by omega) (le_refl _), List.take_of_length_le (by rw [List.length_drop])]
  show pairLoop bytes s p q so _ _ ((bytes.drop _).length / 8) _ 0 = _
  rw [List.length_drop]
  exact pairLoop_ok hs (by omega) (by omega) _ 0 (by omega)

end

/-- **Window matching is exact**: no crash, and in ascending order the aligned addresses at which
    both words lie in the window and match. -/
theorem windowMatching (bytes : Slice UInt8)
    (absoluteStart primary secondary secondaryOffset : Nat)
    (hwindow : absoluteStart + bytes.1.length ≤ usizeMax) :
    ∃ addresses, findVtablePairs bytes.1 absoluteStart primary secondary secondaryOffset =
        .ok addresses ∧
      addresses.Pairwise (· < ·) ∧ (primary = 0 → addresses = []) ∧
      ∀ a, a ∈ addresses ↔ primary ≠ 0 ∧ 8 ∣ a ∧ ∃ offset, a = absoluteStart + offset ∧
        offset + 8 ≤ bytes.1.length ∧ offset + secondaryOffset + 8 ≤ bytes.1.length ∧
        wordAt bytes.1 offset = primary ∧ wordAt bytes.1 (offset + secondaryOffset) = secondary := by
  refine ⟨_, findVtablePairs_ok bytes.2 hwindow, ascending_findVtablePairs, ?_, ?_⟩
  · intro hzero
    rw [Recovery.findVtablePairs]
    exact if_pos (.inl hzero)
  intro a
  by_cases hzero : primary = 0
  · rw [Recovery.findVtablePairs, if_pos (.inl hzero)]
    constructor
    · intro ha
      cases ha
    · intro ha
      exact absurd hzero ha.1
  by_cases hfits : secondaryOffset + 8 ≤ usizeMax
  · rw [mem_findVtablePairs hzero (by rw [usizeMax] at hwindow; omega) hfits]
    constructor
    · intro ha
      obtain ⟨offset, rfl, hdvd, hin, hfirst, hsecond⟩ := ha
      exact ⟨hzero, hdvd, offset, rfl, by omega, hin, hfirst, hsecond⟩
    · intro ha
      obtain ⟨_, hdvd, offset, rfl, _, hin, hfirst, hsecond⟩ := ha
      exact ⟨offset, rfl, hdvd, hin, hfirst, hsecond⟩
  · -- no window is long enough for such an offset
    have hmax := isizeMax_lt
    have hlen := bytes.2
    have hshort : bytes.1.length < satAdd secondaryOffset 8 := by
      rw [satAdd]
      omega
    rw [Recovery.findVtablePairs, if_pos (.inr hshort)]
    constructor
    · intro ha
      cases ha
    · intro ha
      obtain ⟨_, _, offset, _, _, hin, _⟩ := ha
      omega

/-- A window that starts four bytes before an aligned address: the second word overlaps the first
    one by half. -/
theorem windowMatching_overlapping :
    ∃ addresses, findVtablePairs (.replicate 20 1) 4 0x0101010101010101 0x0101010101010101 4 =
        .ok addresses ∧ addresses.Pairwise (· < ·) ∧
      ∀ a, a ∈ addresses ↔ (0x0101010101010101 : Nat) ≠ 0 ∧ 8 ∣ a ∧ ∃ offset, a = 4 + offset ∧
        offset + 8 ≤ 20 ∧ offset + 4 + 8 ≤ 20 ∧
        wordAt (.replicate 20 1) offset = 0x0101010101010101 ∧
        wordAt (.replicate 20 1) (offset + 4) = 0x0101010101010101 := by
  obtain ⟨addresses, hok, hasc, _, hmem⟩ := windowMatching ⟨.replicate 20 1, by decide⟩ 4
    0x0101010101010101 0x0101010101010101 4 (by decide)
  exact ⟨addresses, hok, hasc, hmem⟩

end Checked
end Recovery
end SteamInputLease
