import SteamInputLease.Ffi.Message

/-!
# What a fixed buffer holds

The walk back from the end of the buffer stops at the last boundary that fits, so that the buffer
holds the longest prefix of the text for which there is room, and a zero.

A character of up to four bytes may lie across the end of the room, and half of one would be no
UTF-8. The walk tests bytes and knows nothing of characters; `Lib.Utf8` says that the bytes it stops
at are those at which a character begins, or the end. That the prefix is the longest one is then
that no boundary lies between where the walk stopped and where it began. Zeros of the text were
replaced by spaces before, character by character and without a change of length, so the first zero
in the buffer is its terminator.
-/

namespace SteamInputLease
namespace Ffi

open Lib

theorem isCharBoundary_iff {text : List Char} (index : Nat) :
    isCharBoundary (Utf8.encode text) index = true ↔ Utf8.Boundary (Utf8.encode text) index := by
  rw [isCharBoundary]
  split
  · next hzero => exact iff_of_true rfl ((Utf8.boundary_iff _ _).mpr ⟨[], text, rfl, hzero⟩)
  split
  · next hout =>
    rw [beq_iff_eq, Utf8.Boundary, List.getElem?_eq_none hout]
    simp
  · next hin =>
    rw [Utf8.Boundary, or_iff_right (by omega), Option.any_eq_true]
    simp only [Bool.not_eq_true', decide_eq_false_iff_not]

/-- The last boundary up to `start`. -/
theorem boundaryFrom_spec (text : List Char) (start : Nat) :
    Utf8.Boundary (Utf8.encode text) (boundaryFrom (Utf8.encode text) start) ∧
      boundaryFrom (Utf8.encode text) start ≤ start ∧
      ∀ index ≤ start, Utf8.Boundary (Utf8.encode text) index →
        index ≤ boundaryFrom (Utf8.encode text) start := by
  induction start with
  | zero =>
    refine ⟨(isCharBoundary_iff 0).mp rfl, Nat.le_refl _, ?_⟩
    intro index hindex _
    exact hindex
  | succ start ih =>
    rw [boundaryFrom]
    split
    · next hboundary =>
      refine ⟨(isCharBoundary_iff _).mp hboundary, Nat.le_refl _, ?_⟩
      intro index hindex _
      exact hindex
    · next hinside =>
      obtain ⟨hboundary, hle, hlast⟩ := ih
      refine ⟨hboundary, Nat.le_succ_of_le hle, ?_⟩
      intro index hindex hindexed
      have hne : index ≠ start + 1 := by
        intro h
        exact hinside ((isCharBoundary_iff _).mpr (h ▸ hindexed))
      exact hlast index (by omega) hindexed

theorem zipCopy_eq : ∀ (bytes buffer : List UInt8), bytes.length ≤ buffer.length →
    zipCopy buffer bytes = bytes ++ buffer.drop bytes.length := by
  intro bytes
  induction bytes with
  | nil =>
    intro buffer _
    cases buffer <;> rfl
  | cons byte bytes ih =>
    intro buffer hlen
    cases buffer with
    | nil => exact absurd hlen (Nat.not_succ_le_zero _)
    | cons slot buffer =>
      rw [zipCopy, ih buffer (Nat.le_of_succ_le_succ hlen)]
      rfl

theorem nul_not_mem_replaceNul (text : List Char) : '\x00' ∉ replaceNul text := by
  intro h
  obtain ⟨c, _, hc⟩ := List.mem_map.mp h
  split at hc
  · cases hc
  · next hne => exact hne hc

/-- `kept` is a prefix of `text` that fits in `room` bytes, and any other is a prefix of it. -/
structure LongestPrefix (text : List Char) (room : Nat) (kept : List Char) : Prop where
  isPrefix : kept <+: text
  fits : (Utf8.encode kept).length ≤ room
  longest : ∀ other, other <+: text → (Utf8.encode other).length ≤ room → other <+: kept

/-- The walk back finds the longest prefix. -/
theorem longestPrefix_of_boundary (text : List Char) (room : Nat) :
    ∃ kept, LongestPrefix text room kept ∧
      boundaryFrom (Utf8.encode text) (min (Utf8.encode text).length room) =
        (Utf8.encode kept).length := by
  obtain ⟨hboundary, hle, hlast⟩ := boundaryFrom_spec text (min (Utf8.encode text).length room)
  obtain ⟨kept, rest, htext, hstop⟩ := (Utf8.boundary_iff _ _).mp hboundary
  have hkept : kept <+: text := ⟨rest, htext.symm⟩
  refine ⟨kept, ⟨hkept, by omega, ?_⟩, hstop⟩
  intro other hother hfits
  apply Utf8.prefix_of_length_le hother hkept
  obtain ⟨after, rfl⟩ := hother
  have hlen : (Utf8.encode other).length ≤ (Utf8.encode (other ++ after)).length := by
    rw [Utf8.encode_append, List.length_append]
    omega
  rw [← hstop]
  exact hlast _ (by omega) ((Utf8.boundary_iff _ _).mpr ⟨other, after, rfl, rfl⟩)

theorem writeFixedUtf8_eq {buffer : List UInt8} (text : List Char) (hbuffer : buffer ≠ []) :
    ∃ kept, LongestPrefix (replaceNul text) (buffer.length - 1) kept ∧
      writeFixedUtf8 buffer text =
        .ok (Utf8.encode kept ++ 0 :: buffer.drop ((Utf8.encode kept).length + 1)) := by
  have hpos := List.length_pos_iff.mpr hbuffer
  obtain ⟨kept, hkept, hstop⟩ := longestPrefix_of_boundary (replaceNul text) (buffer.length - 1)
  refine ⟨kept, hkept, ?_⟩
  have hfits := hkept.fits
  obtain ⟨rest, htext⟩ := hkept.isPrefix
  have hbytes : Utf8.encode (replaceNul text) = Utf8.encode kept ++ Utf8.encode rest := by
    rw [← htext, Utf8.encode_append]
  have hboundary : isCharBoundary (Utf8.encode (replaceNul text)) (Utf8.encode kept).length =
      true := (isCharBoundary_iff _).mpr ((Utf8.boundary_iff _ _).mpr ⟨kept, rest, htext.symm, rfl⟩)
  have hslice : strSlice (Utf8.encode (replaceNul text)) (Utf8.encode kept).length =
      .ok (Utf8.encode kept) := by
    rw [strSlice, if_pos hboundary, hbytes, MayPanic.slice_zero_ok (by simp), List.take_left']
    rfl
  have hset : MayPanic.set (zipCopy buffer (Utf8.encode kept)) (Utf8.encode kept).length 0 =
      .ok (Utf8.encode kept ++ 0 :: buffer.drop ((Utf8.encode kept).length + 1)) := by
    have hslot : (Utf8.encode kept).length < buffer.length := by omega
    rw [zipCopy_eq _ _ (Nat.le_of_lt hslot),
      MayPanic.set_ok (by rw [List.length_append, List.length_drop]; omega),
      List.set_append_right _ _ (Nat.le_refl _), Nat.sub_self, List.drop_eq_getElem_cons hslot]
    rfl
  rw [writeFixedUtf8, MayPanic.sub_ok (by omega)]
  show strSlice _ (boundaryFrom _ _) >>= _ = _
  rw [hstop, hslice]
  exact hset

/-- **A fixed buffer holds the longest prefix** of the text for which there is room, with a space
    for each zero; behind its terminator nothing changes. -/
theorem fixedBuffer (buffer : List UInt8) (text : List Char) (hbuffer : buffer ≠ []) :
    ∃ kept written, LongestPrefix (replaceNul text) (buffer.length - 1) kept ∧
      writeFixedUtf8 buffer text = .ok written ∧ written.length = buffer.length ∧
      written.takeWhile (· ≠ 0) = Utf8.encode kept ∧
      written[(Utf8.encode kept).length]? = some 0 ∧
      ∀ i, (Utf8.encode kept).length < i → written[i]? = buffer[i]? := by
  have hpos := List.length_pos_iff.mpr hbuffer
  obtain ⟨kept, hkept, hwritten⟩ := writeFixedUtf8_eq text hbuffer
  have hfits := hkept.fits
  have hnul : '\x00' ∉ kept := fun h => nul_not_mem_replaceNul text (hkept.isPrefix.subset h)
  refine ⟨kept, _, hkept, hwritten, ?_, ?_, ?_, ?_⟩
  · rw [List.length_append, List.length_cons, List.length_drop]
    omega
  · rw [List.takeWhile_append_of_pos, List.takeWhile_cons_of_neg (by simp), List.append_nil]
    intro byte hbyte
    have hne : byte ≠ 0 := fun h => Utf8.zero_not_mem hnul (h ▸ hbyte)
    simpa using hne
  · rw [List.getElem?_append_right (Nat.le_refl _), Nat.sub_self]
    rfl
  · intro i hi
    obtain ⟨k, rfl⟩ : ∃ k, i = (Utf8.encode kept).length + 1 + k :=
      ⟨i - ((Utf8.encode kept).length + 1), by omega⟩
    rw [List.getElem?_append_right (by omega), Nat.add_assoc, Nat.add_sub_cancel_left, Nat.add_comm 1,
      List.getElem?_cons_succ, List.getElem?_drop]
    congr 1
    omega

/-- Room for seven bytes, of a text with a zero in it and a character of three bytes at the end of
    the room. -/
theorem fixedBuffer_eight : ∃ kept written,
    LongestPrefix (replaceNul ['a', '\x00', '€', '€', '€']) 7 kept ∧
      writeFixedUtf8 (.replicate 8 0xff) ['a', '\x00', '€', '€', '€'] = .ok written ∧
      written.takeWhile (· ≠ 0) = Utf8.encode kept := by
  obtain ⟨kept, written, hkept, hwritten, _, htext, _⟩ :=
    fixedBuffer (.replicate 8 0xff) ['a', '\x00', '€', '€', '€'] (by simp)
  exact ⟨kept, written, hkept, hwritten, htext⟩

end Ffi
end SteamInputLease
