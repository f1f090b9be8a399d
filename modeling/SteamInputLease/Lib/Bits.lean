import Mathlib.Data.List.Basic
import Mathlib.Tactic.IntervalCases
import SteamInputLease.Lib.Bytes

/-!
# Bits of a word

The set bits of a word, lowest first, and the step `x & (x - 1)` that takes the lowest one away;
the bits of a little-endian word, byte by byte; and the borrow that marks a zero byte.
-/

namespace SteamInputLease
namespace Lib

/-! ## The lowest set bit -/

/-- The positions of the set bits, in ascending order. -/
def setBits {w : Nat} (x : BitVec w) : List Nat := (List.range w).filter x.getLsbD

/-- Below its first hit, a filter over a range keeps nothing. -/
theorem filter_range_first {n k : Nat} {p : Nat → Bool} (hk : k < n) (hp : p k = true)
    (hlt : ∀ j < k, p j = false) :
    (List.range n).filter p = k :: (List.range n).filter fun j => p j && decide (j ≠ k) := by
  obtain ⟨m, rfl⟩ := Nat.exists_eq_add_of_lt hk
  have hbelow : ∀ q : Nat → Bool, (∀ j < k, q j = false) → (List.range k).filter q = [] := by
    intro q hq
    rw [List.filter_eq_nil_iff]
    intro j hj
    rw [hq j (List.mem_range.mp hj)]
    exact Bool.false_ne_true
  have hrange : List.range (k + m + 1) =
      List.range k ++ k :: (List.range m).map (k + 1 + ·) := by
    rw [Nat.add_right_comm, List.range_add, List.range_succ, List.append_assoc]
    rfl
  rw [hrange, List.filter_append, List.filter_append, hbelow p hlt,
    hbelow _ (by intro j hj; rw [hlt j hj, Bool.false_and]), List.nil_append, List.nil_append,
    List.filter_cons_of_pos hp, List.filter_cons_of_neg (by simp)]
  congr 1
  apply List.filter_congr
  intro j hj
  obtain ⟨i, _, rfl⟩ := List.mem_map.mp hj
  have hne : k + 1 + i ≠ k := by omega
  rw [decide_eq_true hne, Bool.and_true]

/-- `x & (x - 1)` clears the lowest set bit of `x` and no other. -/
theorem getLsbD_and_sub_one {w : Nat} {x : BitVec w} (hx : x ≠ 0#w) (j : Nat) :
    (x &&& (x - 1#w)).getLsbD j = (x.getLsbD j && decide (j ≠ x.ctz.toNat)) := by
  have hset : x.toNat.testBit x.ctz.toNat = true := BitVec.getLsbD_true_ctz_of_ne_zero hx
  have hclear : ∀ i < x.ctz.toNat, x.toNat.testBit i = false := by
    intro i hi
    exact BitVec.getLsbD_false_of_lt_ctz hi
  have hpos : 0 < x.toNat := by
    apply Nat.pos_of_ne_zero
    intro h0
    exact hx (BitVec.eq_of_toNat_eq (by simpa using h0))
  have hsub : (x - 1#w).toNat = x.toNat - 1 := by
    have hw : 1 % 2 ^ w = 1 := by
      apply Nat.mod_eq_of_lt
      exact Nat.lt_of_le_of_lt hpos x.isLt
    rw [BitVec.toNat_sub, BitVec.toNat_ofNat, hw]
    have hlt := x.isLt
    rw [show 2 ^ w - 1 + x.toNat = x.toNat - 1 + 2 ^ w by omega, Nat.add_mod_right,
      Nat.mod_eq_of_lt (by omega)]
  rw [BitVec.getLsbD, BitVec.getLsbD, BitVec.toNat_and, hsub, Nat.testBit_and]
  generalize x.ctz.toNat = k at hset hclear
  generalize x.toNat = n at hset hclear hpos
  -- `n = 2 ^ k * (2 * m + 1)`, and `n - 1` differs from it in the bits up to `k` only
  have hlow : n % 2 ^ k = 0 := by
    apply Nat.eq_of_testBit_eq
    intro i
    rw [Nat.testBit_mod_two_pow, Nat.zero_testBit]
    by_cases hi : i < k
    · rw [hclear i hi, Bool.and_false]
    · rw [decide_eq_false hi, Bool.false_and]
  have hodd : n / 2 ^ k % 2 = 1 := by
    rwa [Nat.testBit_eq_decide_div_mod_eq, decide_eq_true_eq] at hset
  obtain ⟨m, hm⟩ : ∃ m, n / 2 ^ k = 2 * m + 1 := ⟨n / 2 ^ k / 2, by omega⟩
  have hn : n = 2 ^ k * (2 * m + 1) + 0 := by
    rw [← hm, ← hlow, Nat.div_add_mod]
  have hpow : 0 < 2 ^ k := Nat.two_pow_pos k
  have hn1 : n - 1 = 2 ^ k * (2 * m) + (2 ^ k - 1) := by
    rw [hn, Nat.mul_add]
    omega
  rw [hn1, Nat.testBit_two_pow_mul_add _ (by omega), hn, Nat.testBit_two_pow_mul_add _ hpow]
  by_cases hj : j < k
  · rw [if_pos hj, if_pos hj, Nat.zero_testBit, Bool.false_and, Bool.false_and]
  rw [if_neg hj, if_neg hj]
  by_cases hjk : j = k
  · subst hjk
    rw [Nat.sub_self, decide_eq_false (by simp), Bool.and_false, Nat.testBit_zero]
    simp
  · obtain ⟨i, hi⟩ : ∃ i, j - k = i + 1 := ⟨j - k - 1, by omega⟩
    rw [hi, decide_eq_true hjk, Bool.and_true, Nat.testBit_succ, Nat.testBit_succ]
    have h1 : (2 * m + 1) / 2 = m := by omega
    have h2 : 2 * m / 2 = m := by omega
    rw [h1, h2, Bool.and_self]

theorem setBits_zero {w : Nat} : setBits (0#w) = [] := by
  rw [setBits, List.filter_eq_nil_iff]
  intro j _
  simp

/-- The lowest set bit, and the set bits that are left when it is cleared. -/
theorem setBits_cons {w : Nat} {x : BitVec w} (hx : x ≠ 0#w) :
    setBits x = x.ctz.toNat :: setBits (x &&& (x - 1#w)) := by
  have hset := BitVec.getLsbD_true_ctz_of_ne_zero hx
  have hk : x.ctz.toNat < w := BitVec.lt_of_getLsbD hset
  rw [setBits, filter_range_first hk hset fun j hj => BitVec.getLsbD_false_of_lt_ctz hj, setBits]
  congr 1
  apply List.filter_congr
  intro j _
  rw [getLsbD_and_sub_one hx]

/-! ## Bytes of a word -/

/-- Bit `j` of byte `i` of a little-endian word. -/
theorem testBit_leNat {j : Nat} (hj : j < 8) : ∀ (bytes : List UInt8) (i : Nat),
    (leNat bytes).testBit (8 * i + j) = (bytes[i]?.map fun b => b.toNat.testBit j).getD false := by
  intro bytes
  induction bytes with
  | nil =>
    intro i
    simp [leNat]
  | cons b bs ih =>
    intro i
    have hsplit : leNat (b :: bs) = 2 ^ 8 * leNat bs + b.toNat := by
      rw [leNat]
      omega
    rw [hsplit, Nat.testBit_two_pow_mul_add _ b.toNat_lt]
    cases i with
    | zero =>
      rw [Nat.mul_zero, Nat.zero_add, if_pos hj]
      rfl
    | succ i =>
      rw [if_neg (by omega), show 8 * (i + 1) + j - 8 = 8 * i + j by omega, ih]
      rfl

/-- Whatever was borrowed below it, a zero byte sends the top bit of its lane up when `1` is
    subtracted from every byte. -/
theorem zero_byte_borrows {w i : Nat} (hi : i < 8) (hz : w / 2 ^ (8 * i) % 256 = 0) :
    (2 ^ 64 - 0x0101010101010101 + w) % 2 ^ 64 / 2 ^ (8 * i + 7) % 2 = 1 := by
  interval_cases i <;> omega

end Lib
end SteamInputLease
