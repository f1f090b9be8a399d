import SteamInputLease.Recovery.StaticView
import SteamInputLease.Proof.Recovery.Pairs

/-!
# What is read of a memory that stands still

A read delivers the bytes of the view, a chunk shows them to the matcher and nothing else
(`chunk_bytes`), and an object that is live has its two vtable words on readable pages.

A view is a function to bytes and a set of readable pages. How much a read delivers is decided by
the pages alone, and a short read has stopped at a page that cannot be read (`delivered_stop`): that
is what the proof about the scan turns on, since `next_scan_start` goes on behind that page. The
buffer is used over and over, so what is behind the delivered bytes is left from an earlier chunk.
`chunk_bytes` shows that none of it gets to the matcher, and from there on the buffer is not
mentioned any more.
-/

namespace SteamInputLease
namespace Recovery

open Lib

/-! ## Delivered bytes -/

section

variable {readable : Nat → Bool}

theorem delivered_le : ∀ n a, delivered readable a n ≤ n := by
  intro n
  induction n with
  | zero => intro a; exact Nat.le_refl _
  | succ n ih =>
    intro a
    rw [delivered]
    split
    · exact Nat.succ_le_succ (ih _)
    · exact Nat.zero_le _

theorem delivered_readable : ∀ n a i, i < delivered readable a n →
    readable ((a + i) / scanPageSize) = true := by
  intro n
  induction n with
  | zero => intro a i hi; exact absurd hi (Nat.not_lt_zero i)
  | succ n ih =>
    intro a i hi
    rw [delivered] at hi
    split at hi
    · next hr =>
      cases i with
      | zero => exact hr
      | succ i =>
        have := ih (a + 1) i (Nat.lt_of_succ_lt_succ hi)
        rwa [Nat.add_right_comm] at this
    · exact absurd hi (Nat.not_lt_zero i)

/-- A short read stopped at an unreadable page. -/
theorem delivered_stop : ∀ n a, delivered readable a n < n →
    readable ((a + delivered readable a n) / scanPageSize) = false := by
  intro n
  induction n with
  | zero => intro a h; exact absurd h (Nat.not_lt_zero _)
  | succ n ih =>
    intro a h
    rw [delivered] at h ⊢
    split
    · next hr =>
      rw [if_pos hr] at h
      have := ih (a + 1) (Nat.lt_of_succ_lt_succ h)
      rwa [Nat.add_right_comm] at this
    · next hr => simpa using hr

theorem delivered_all {n a : Nat} (h : ∀ i, i < n → readable ((a + i) / scanPageSize) = true) :
    delivered readable a n = n := by
  refine Nat.le_antisymm (delivered_le n a) (Nat.le_of_not_lt fun hlt => ?_)
  have hstop := delivered_stop n a hlt
  rw [h _ hlt] at hstop
  cases hstop

end

/-! ## Words -/

/-- The `n` bytes from `a`. -/
def bytesFrom (byteAt : Nat → UInt8) (a n : Nat) : List UInt8 :=
  (List.range n).map fun i => byteAt (a + i)

/-- The word at `a` can be read and is `w`. -/
def WordIs (byteAt : Nat → UInt8) (readable : Nat → Bool) (a w : Nat) : Prop :=
  (∀ i, i < 8 → readable ((a + i) / scanPageSize) = true) ∧ leNat (bytesFrom byteAt a 8) = w

section

variable {memory : ProcessMemory Id} {byteAt : Nat → UInt8} {readable : Nat → Bool}

theorem readExact_eq (hv : StaticView memory byteAt readable) (a n : Nat) :
    Id.run (readExact memory a n) =
      if delivered readable a n = n then some (bytesFrom byteAt a n) else none := by
  have hcount := hv.count a (.replicate n 0)
  rw [List.length_replicate] at hcount
  show (if (memory.read a _).1 = n then some (memory.read a _).2 else none) = _
  rw [hcount]
  split
  · next hall =>
    refine congrArg some (List.ext_getElem? fun i => ?_)
    by_cases hi : i < n
    · rw [hv.bytes a _ i (by rwa [List.length_replicate, hall]), bytesFrom, List.getElem?_map,
        List.getElem?_range hi]
      rfl
    · rw [List.getElem?_eq_none, List.getElem?_eq_none]
      · rw [bytesFrom, List.length_map, List.length_range]
        exact Nat.le_of_not_lt hi
      · rw [hv.length, List.length_replicate]
        exact Nat.le_of_not_lt hi
  · rfl

theorem readPointer_eq (hv : StaticView memory byteAt readable) {a w : Nat} :
    Id.run (readPointer memory a) = some w ↔ WordIs byteAt readable a w := by
  rw [readPointer, Id.run_bind, Id.run_pure, readExact_eq hv, WordIs]
  constructor
  · intro h
    split at h
    · next hall =>
      refine ⟨fun i hi => delivered_readable 8 a i (by rwa [hall]), ?_⟩
      simpa using h
    · cases h
  · intro hm
    obtain ⟨hr, hw⟩ := hm
    rw [if_pos (delivered_all hr), Option.map_some, hw]

/-- A live object has its vtable words where they are looked for. -/
theorem live_words (hv : StaticView memory byteAt readable) {rt : RuntimeRecoveryLayout} {a : Nat}
    (h : Id.run (hidThreadIsLive memory rt a) = true) :
    WordIs byteAt readable a rt.primary ∧
      WordIs byteAt readable (a + rt.layout.secondaryObjectOffset) rt.secondary := by
  simp only [hidThreadIsLive, vtablesAndDeadline, Id.run_bind, Id.run_pure] at h
  split at h
  · next hfirst =>
    simp only [Id.run_bind] at h
    split at h
    · next hsecond => exact ⟨(readPointer_eq hv).mp hfirst, (readPointer_eq hv).mp hsecond⟩
    · cases h
  · cases h

/-- The bytes the matcher is given are the ones the read delivered. -/
theorem chunk_bytes (hv : StaticView memory byteAt readable) {a n : Nat} {buffer : List UInt8}
    (hn : n ≤ buffer.length) {chunk : List UInt8}
    (hc : chunk = ((memory.read a (buffer.take n)).2 ++ buffer.drop n).take (delivered readable a n)) :
    chunk.length = delivered readable a n ∧
      ∀ o, o + 8 ≤ chunk.length → wordAt chunk o = leNat (bytesFrom byteAt (a + o) 8) := by
  have htake : (buffer.take n).length = n := List.length_take_of_le hn
  have hlen := hv.length a (buffer.take n)
  have hle : delivered readable a n ≤ n := delivered_le n a
  have hchunk : chunk.length = delivered readable a n := by
    rw [hc, List.length_take_of_le]
    rw [List.length_append, hlen, htake]
    omega
  refine ⟨hchunk, fun o ho => congrArg leNat (List.ext_getElem? fun i => ?_)⟩
  rw [hchunk] at ho
  by_cases hi : i < 8
  · have hoi : o + i < delivered readable a n := by omega
    rw [List.getElem?_take_of_lt hi, List.getElem?_drop, hc, List.getElem?_take_of_lt hoi,
      List.getElem?_append_left (by rw [hlen, htake]; omega),
      hv.bytes a _ (o + i) (by rwa [htake]), bytesFrom, List.getElem?_map, List.getElem?_range hi,
      Option.map_some, Nat.add_assoc]
  · rw [List.getElem?_eq_none, List.getElem?_eq_none]
    · rw [bytesFrom, List.length_map, List.length_range]
      omega
    · rw [List.length_take]
      omega

end

end Recovery
end SteamInputLease
