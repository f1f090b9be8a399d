import Mathlib.Data.List.Induction
import Mathlib.Data.List.Sort
import SteamInputLease.Lib.Bits
import SteamInputLease.Recovery.ByteSearch

/-!
# The word-at-a-time search is exact

The mask flags every matching lane and perhaps others; the loop visits the flagged lanes in
ascending order and tests each byte again, so what it reports is what a byte-by-byte search would
report. `find_unique` counts on top of it.

The trick that tests eight bytes at once may flag a lane whose byte differs by one from the one that
is looked for, if the lane below it matched: the subtraction borrows. It never misses a lane
(`zeroLanes_of_zero`), and the source looks at the byte again before it reports it. So nothing here
says which lanes are flagged in excess, only that a superset of the right ones, visited in order and
filtered, gives the right ones (`matching_lanes`). The rest is bookkeeping of offsets: chunks of
eight, the tail, and for `find_unique` the remainder of the needle behind its first byte.
-/

namespace SteamInputLease
namespace Recovery

open Lib

/-! ## The mask -/

/-- Only the top bit of a lane is ever flagged. -/
theorem zeroLanes_bit {word : BitVec 64} {j : Nat} (h : (zeroLanes word).getLsbD j = true) :
    j < 64 ∧ j % 8 = 7 := by
  rw [zeroLanes, BitVec.getLsbD_and, Bool.and_eq_true] at h
  have hj : j < 64 := BitVec.lt_of_getLsbD h.2
  have hlane : ∀ i < 64, (0x8080808080808080#64).getLsbD i = true → i % 8 = 7 := by decide
  exact ⟨hj, hlane j hj h.2⟩

/-- A lane whose byte is zero is flagged. -/
theorem zeroLanes_of_zero {word : BitVec 64} {i : Nat} (hi : i < 8)
    (hzero : ∀ j < 8, word.getLsbD (8 * i + j) = false) :
    (zeroLanes word).getLsbD (8 * i + 7) = true := by
  have hbyte : word.toNat / 2 ^ (8 * i) % 2 ^ 8 = 0 := by
    apply Nat.eq_of_testBit_eq
    intro j
    rw [Nat.testBit_mod_two_pow, Nat.testBit_div_two_pow, Nat.zero_testBit, Nat.add_comm]
    by_cases hj : j < 8
    · have hbit : word.toNat.testBit (8 * i + j) = false := hzero j hj
      rw [hbit, Bool.and_false]
    · rw [decide_eq_false hj, Bool.false_and]
  have hsub : (word - 0x0101010101010101#64).getLsbD (8 * i + 7) = true := by
    rw [BitVec.getLsbD, Nat.testBit_eq_decide_div_mod_eq, decide_eq_true_eq, BitVec.toNat_sub]
    exact zero_byte_borrows hi hbyte
  have htop : (0x8080808080808080#64).getLsbD (8 * i + 7) = true := by
    interval_cases i <;> rfl
  have hlt : 8 * i + 7 < 64 := by omega
  rw [zeroLanes, BitVec.getLsbD_and, BitVec.getLsbD_and, BitVec.getLsbD_not, hsub, htop,
    hzero 7 (by omega), decide_eq_true hlt]
  rfl

theorem getLsbD_u64FromLe (bytes : List UInt8) {i j : Nat} (hi : i < 8) (hj : j < 8) :
    (u64FromLe bytes).getLsbD (8 * i + j) =
      (bytes[i]?.map fun b => b.toNat.testBit j).getD false := by
  have hlt : 8 * i + j < 64 := by omega
  rw [u64FromLe, BitVec.getLsbD_ofNat, decide_eq_true hlt, Bool.true_and, testBit_leNat hj]

/-- The lane of a matching byte is flagged. -/
theorem flagged_of_match {chunk : List UInt8} {needle : UInt8} {i : Nat} (hi : i < 8)
    (h : chunk[i]? = some needle) :
    (zeroLanes (u64FromLe chunk ^^^ u64FromLe (.replicate 8 needle))).getLsbD (8 * i + 7) = true := by
  apply zeroLanes_of_zero hi
  intro j hj
  rw [BitVec.getLsbD_xor, getLsbD_u64FromLe _ hi hj, getLsbD_u64FromLe _ hi hj, h,
    List.getElem?_replicate_of_lt hi, Bool.xor_self]

/-! ## The loops -/

section

variable {σ : Type} {needle : UInt8} {onHit : σ → Nat → σ}

/-- What the loop over a mask does with one flagged bit. -/
def visit (needle : UInt8) (onHit : σ → Nat → σ) (chunk : List UInt8) (base : Nat) (s : σ)
    (lane : Nat) : σ :=
  if chunk[lane]? = some needle then onHit s (base + lane) else s

/-- The loop visits the lanes of the set bits in ascending order. -/
theorem maskLoop_eq (chunk : List UInt8) (base : Nat) :
    ∀ (n : Nat) (mask : BitVec 64) (s : σ), (setBits mask).length ≤ n →
      maskLoop needle onHit chunk base n mask s =
        ((setBits mask).map (· / 8)).foldl (visit needle onHit chunk base) s := by
  intro n
  induction n with
  | zero =>
    intro mask s hlen
    rw [List.eq_nil_of_length_eq_zero (Nat.le_zero.mp hlen)]
    rfl
  | succ n ih =>
    intro mask s hlen
    rw [maskLoop]
    by_cases hm : mask = 0#64
    · rw [if_pos hm, hm, setBits_zero]
      rfl
    · rw [setBits_cons hm] at hlen ⊢
      rw [if_neg hm]
      exact ih _ _ (Nat.le_of_succ_le_succ hlen)

/-- The offsets of the matching bytes of a slice that begins at `base`. -/
def hitsFrom (needle : UInt8) (bytes : List UInt8) (base : Nat) : List Nat :=
  ((List.range bytes.length).filter fun i => bytes[i]? = some needle).map (base + ·)

theorem foldl_visit (chunk : List UInt8) (base : Nat) : ∀ (lanes : List Nat) (s : σ),
    lanes.foldl (visit needle onHit chunk base) s =
      ((lanes.filter fun i => chunk[i]? = some needle).map (base + ·)).foldl onHit s := by
  intro lanes
  induction lanes with
  | nil =>
    intro s
    rfl
  | cons lane lanes ih =>
    intro s
    rw [List.foldl_cons, ih, visit]
    by_cases h : chunk[lane]? = some needle
    · rw [if_pos h, List.filter_cons_of_pos (by simpa using h), List.map_cons, List.foldl_cons]
    · rw [if_neg h, List.filter_cons_of_neg (by simpa using h)]

/-- The flagged lanes that match are the lanes that match. -/
theorem matching_lanes {chunk : List UInt8} (hlen : chunk.length = 8) :
    ((setBits (zeroLanes (u64FromLe chunk ^^^ u64FromLe (.replicate 8 needle)))).map
        (· / 8)).filter (fun i => chunk[i]? = some needle) =
      (List.range chunk.length).filter fun i => chunk[i]? = some needle := by
  have hmem : ∀ j ∈ setBits (zeroLanes (u64FromLe chunk ^^^ u64FromLe (.replicate 8 needle))),
      j < 64 ∧ j % 8 = 7 := by
    intro j hj
    exact zeroLanes_bit (List.mem_filter.mp hj).2
  -- both sides are ascending, so it is enough that they have the same members
  have hasc : ((setBits (zeroLanes (u64FromLe chunk ^^^ u64FromLe (.replicate 8 needle)))).map
      (· / 8)).Pairwise (· < ·) := by
    rw [List.pairwise_map]
    apply ((List.pairwise_lt_range (n := 64)).filter _).imp_of_mem
    intro a b ha hb hlt
    have h1 := hmem a ha
    have h2 := hmem b hb
    omega
  refine List.Pairwise.eq_of_mem_iff (hasc.filter _) (List.pairwise_lt_range.filter _) fun {i} => ?_
  rw [List.mem_filter, List.mem_filter, List.mem_range, hlen]
  constructor
  · intro h
    obtain ⟨hi, hmatch⟩ := h
    obtain ⟨j, hj, rfl⟩ := List.mem_map.mp hi
    have hj' := hmem j hj
    exact ⟨by omega, hmatch⟩
  · intro h
    obtain ⟨hi, hmatch⟩ := h
    have hflag := flagged_of_match hi (of_decide_eq_true hmatch)
    have hbit : 8 * i + 7 ∈ setBits (zeroLanes (u64FromLe chunk ^^^ u64FromLe (.replicate 8 needle))) :=
      List.mem_filter.mpr ⟨List.mem_range.mpr (by omega), hflag⟩
    exact ⟨List.mem_map.mpr ⟨8 * i + 7, hbit, by omega⟩, hmatch⟩

/-- One chunk reports its matching bytes. -/
theorem chunkHits_eq {chunk : List UInt8} (hlen : chunk.length = 8) (base : Nat) (s : σ) :
    chunkHits needle onHit chunk base s = (hitsFrom needle chunk base).foldl onHit s := by
  have hbits : ∀ x : BitVec 64, (setBits x).length ≤ 64 := by
    intro x
    exact (List.length_filter_le _ _).trans (List.length_range).le
  rw [chunkHits, maskLoop_eq chunk base 64 _ s (hbits _), foldl_visit, matching_lanes hlen, hitsFrom]

/-- The hits of two neighbouring slices. -/
theorem hitsFrom_append (a b : List UInt8) (base : Nat) :
    hitsFrom needle (a ++ b) base = hitsFrom needle a base ++ hitsFrom needle b (base + a.length) := by
  rw [hitsFrom, List.length_append, List.range_add, List.filter_append, List.map_append,
    List.filter_map, List.map_map]
  congr 1
  · rw [hitsFrom]
    congr 1
    apply List.filter_congr
    intro i hi
    rw [List.getElem?_append_left (List.mem_range.mp hi)]
  · rw [hitsFrom]
    have hadd : (fun i => base + i) ∘ (fun i => a.length + i) = fun i => base + a.length + i := by
      funext i
      exact (Nat.add_assoc _ _ _).symm
    rw [hadd]
    congr 1
    apply List.filter_congr
    intro i _
    show decide ((a ++ b)[a.length + i]? = some needle) = decide (b[i]? = some needle)
    rw [List.getElem?_append_right (Nat.le_add_right _ _), Nat.add_sub_cancel_left]

theorem tailHits_eq : ∀ (bytes : List UInt8) (base : Nat) (s : σ),
    tailHits needle onHit bytes base s = (hitsFrom needle bytes base).foldl onHit s := by
  intro bytes
  induction bytes with
  | nil =>
    intro base s
    rfl
  | cons byte rest ih =>
    intro base s
    have hone : hitsFrom needle [byte] base = if byte = needle then [base] else [] := by
      rw [hitsFrom]
      by_cases h : byte = needle
      · rw [if_pos h, h]
        simp [List.range_one]
      · rw [if_neg h]
        simp [List.range_one, h]
    rw [tailHits, ih, show byte :: rest = [byte] ++ rest from rfl, hitsFrom_append, hone]
    by_cases h : byte = needle
    · rw [if_pos h, if_pos h]
      rfl
    · rw [if_neg h, if_neg h]
      rfl

theorem chunkLoop_eq : ∀ (n : Nat) (haystack : List UInt8) (base : Nat) (s : σ),
    8 * n ≤ haystack.length →
      chunkLoop needle onHit n haystack base s = (hitsFrom needle haystack base).foldl onHit s := by
  intro n
  induction n with
  | zero =>
    intro haystack base s _
    exact tailHits_eq haystack base s
  | succ n ih =>
    intro haystack base s hlen
    have htake : (haystack.take 8).length = 8 := List.length_take_of_le (by omega)
    have hdrop : 8 * n ≤ (haystack.drop 8).length := by
      rw [List.length_drop]
      omega
    rw [chunkLoop, ih _ _ _ hdrop, chunkHits_eq htake, ← List.foldl_append]
    conv_rhs => rw [← List.take_append_drop 8 haystack]
    rw [hitsFrom_append, htake]

/-- `for_each_byte` calls its closure at every offset that holds the byte, in ascending order,
    and at no other. -/
theorem forEachByte_eq (haystack : List UInt8) (s : σ) :
    forEachByte needle onHit haystack s =
      ((List.range haystack.length).filter fun i => haystack[i]? = some needle).foldl onHit s := by
  have hbase : (fun i => 0 + i) = (id : Nat → Nat) := by
    funext i
    exact Nat.zero_add i
  rw [forEachByte, chunkLoop_eq _ _ _ _ (Nat.mul_div_le _ _), hitsFrom, hbase, List.map_id]

end

/-! ## `find_unique` -/

/-- What the closure has counted after some of the offsets. -/
theorem foldl_hit (haystack rest : List UInt8) (limit : Nat) : ∀ (offsets : List Nat),
    offsets.foldl (Occurrences.hit haystack rest limit) ⟨0, 0⟩ =
      let found := offsets.filter fun p =>
        decide (p ≤ limit ∧ slice haystack (p + 1) rest.length = rest)
      ⟨found.length, found.headD 0⟩ := by
  intro offsets
  induction offsets using List.reverseRecOn with
  | nil => rfl
  | append_singleton offsets p ih =>
    rw [List.foldl_append, ih, List.foldl_cons, List.foldl_nil, Occurrences.hit]
    dsimp only
    rw [List.filter_append]
    by_cases h : p ≤ limit ∧ slice haystack (p + 1) rest.length = rest
    · rw [if_pos h, List.filter_cons_of_pos (by simpa using h), List.filter_nil,
        List.length_append]
      cases offsets.filter fun p =>
        decide (p ≤ limit ∧ slice haystack (p + 1) rest.length = rest) <;> rfl
    · rw [if_neg h, List.filter_cons_of_neg (by simpa using h), List.filter_nil, List.append_nil]

/-- An occurrence is its first byte and the rest behind it. -/
theorem occursAt_cons {haystack rest : List UInt8} {first : UInt8} {p : Nat}
    (hlen : (first :: rest).length ≤ haystack.length) :
    OccursAt haystack (first :: rest) p ↔ haystack[p]? = some first ∧
      p ≤ haystack.length - (first :: rest).length ∧
      slice haystack (p + 1) rest.length = rest := by
  have hle : p + (first :: rest).length ≤ haystack.length ↔
      p ≤ haystack.length - (first :: rest).length := by omega
  rw [OccursAt, hle]
  constructor
  · intro h
    obtain ⟨hp, hs⟩ := h
    rw [List.length_cons] at hp hlen hs
    have hlt : p < haystack.length := by omega
    rw [slice, List.drop_eq_getElem_cons hlt, List.take_succ_cons, List.cons.injEq] at hs
    exact ⟨by rw [List.getElem?_eq_getElem hlt, hs.1], hp, hs.2⟩
  · intro h
    obtain ⟨hfirst, hp, hs⟩ := h
    obtain ⟨hlt, hget⟩ := List.getElem?_eq_some_iff.mp hfirst
    refine ⟨hp, ?_⟩
    rw [slice, List.drop_eq_getElem_cons hlt, List.length_cons, List.take_succ_cons, hget]
    rw [slice] at hs
    rw [hs]

/-- What `find_unique` has counted and found at the end. -/
theorem findUnique_cons {haystack rest : List UInt8} {first : UInt8}
    (hlen : (first :: rest).length ≤ haystack.length) :
    findUnique haystack (first :: rest) =
      if (occurrences haystack (first :: rest)).length = 1 then
        .ok ((occurrences haystack (first :: rest)).headD 0)
      else .error (occurrences haystack (first :: rest)).length := by
  have hocc : ((List.range haystack.length).filter fun i => haystack[i]? = some first).filter
      (fun p => decide (p ≤ haystack.length - (first :: rest).length ∧
        slice haystack (p + 1) rest.length = rest)) = occurrences haystack (first :: rest) := by
    rw [List.filter_filter, occurrences]
    apply List.filter_congr
    intro p _
    rw [← Bool.decide_and, decide_eq_decide, occursAt_cons hlen, and_comm]
  rw [findUnique, if_neg (Nat.not_lt.mpr hlen)]
  dsimp only
  rw [forEachByte_eq, foldl_hit, hocc]

theorem mem_occurrences {haystack needle : List UInt8} (hn : needle ≠ []) {p : Nat} :
    p ∈ occurrences haystack needle ↔ OccursAt haystack needle p := by
  have hpos := List.length_pos_iff.mpr hn
  rw [occurrences, List.mem_filter, List.mem_range, decide_eq_true_eq, and_iff_right_iff_imp]
  intro h
  exact Nat.lt_of_lt_of_le (Nat.lt_add_of_pos_right hpos) h.1

/-- A shorter haystack holds no occurrence. -/
theorem occurrences_short {haystack needle : List UInt8} (h : haystack.length < needle.length) :
    occurrences haystack needle = [] := by
  rw [occurrences, List.filter_eq_nil_iff]
  intro p _
  rw [decide_eq_true_eq]
  intro hp
  exact Nat.not_le.mpr h (Nat.le_of_add_left_le hp.1)

theorem findUnique_eq {haystack needle : List UInt8} (hn : needle ≠ []) :
    findUnique haystack needle =
      if (occurrences haystack needle).length = 1 then
        .ok ((occurrences haystack needle).headD 0)
      else .error (occurrences haystack needle).length := by
  cases needle with
  | nil => exact absurd rfl hn
  | cons first rest =>
    by_cases hlen : haystack.length < (first :: rest).length
    · rw [findUnique, if_pos hlen, occurrences_short hlen]
      rfl
    · exact findUnique_cons (Nat.le_of_not_lt hlen)

/-- An offset is answered just when it is the only occurrence. -/
theorem findUnique_eq_ok {haystack needle : List UInt8} (hn : needle ≠ []) {p : Nat} :
    findUnique haystack needle = .ok p ↔
      OccursAt haystack needle p ∧ ∀ q, OccursAt haystack needle q → q = p := by
  rw [findUnique_eq hn]
  constructor
  · intro h
    split at h
    · next hone =>
      obtain ⟨q, hq⟩ := List.length_eq_one_iff.mp hone
      rw [hq, List.headD_cons, Except.ok.injEq] at h
      subst h
      have hself : q ∈ occurrences haystack needle := by
        rw [hq]
        exact List.mem_cons_self
      refine ⟨(mem_occurrences hn).mp hself, fun q' hq' => ?_⟩
      have hmem := (mem_occurrences hn).mpr hq'
      rwa [hq, List.mem_singleton] at hmem
    · cases h
  · intro h
    obtain ⟨hp, honly⟩ := h
    have hasc : (occurrences haystack needle).Pairwise (· < ·) := List.pairwise_lt_range.filter _
    have hone : occurrences haystack needle = [p] := by
      refine List.Pairwise.eq_of_mem_iff hasc (List.pairwise_singleton _ _) fun {q} => ?_
      rw [mem_occurrences hn, List.mem_singleton]
      constructor
      · exact honly q
      · intro hq
        exact hq ▸ hp
    rw [hone]
    rfl

/-- **The word-at-a-time search is exact.** `for_each_byte` reports every offset that holds the
    byte once, in ascending order, and no other; `find_unique` answers an offset just when it is
    the only occurrence, and the number of occurrences otherwise. -/
theorem byteSearch_exact (haystack needle : List UInt8) :
    (∀ (σ : Type) (byte : UInt8) (onHit : σ → Nat → σ) (s : σ),
      forEachByte byte onHit haystack s =
        ((List.range haystack.length).filter fun i => haystack[i]? = some byte).foldl onHit s) ∧
    (∀ p, findUnique haystack needle = .ok p ↔
      needle ≠ [] ∧ OccursAt haystack needle p ∧ ∀ q, OccursAt haystack needle q → q = p) ∧
    ((∃ p, findUnique haystack needle = .ok p) ∨ findUnique haystack needle =
      .error (if needle = [] then 0 else (occurrences haystack needle).length)) := by
  by_cases hn : needle = []
  · subst hn
    refine ⟨fun σ byte onHit s => forEachByte_eq haystack s, fun p => ?_, .inr rfl⟩
    constructor
    · intro h
      cases h
    · intro h
      exact absurd rfl h.1
  · refine ⟨fun σ byte onHit s => forEachByte_eq haystack s, fun p => ?_, ?_⟩
    · rw [findUnique_eq_ok hn, and_iff_right hn]
    · rw [if_neg hn, findUnique_eq hn]
      split
      · exact .inl ⟨_, rfl⟩
      · exact .inr rfl

end Recovery
end SteamInputLease
