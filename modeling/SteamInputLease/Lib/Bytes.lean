import Mathlib.Tactic.Ring

/-!
# Little-endian words over byte lists

`leNat` reads a byte list as a little-endian number and `toLe` writes one; the two are inverse
up to the width. Everything that crosses a byte boundary in this development — a pipe message,
a vtable word in scanned memory, a deadline field — is read with `leNat`.
-/

namespace SteamInputLease
namespace Lib

/-- The number a little-endian byte list denotes. -/
def leNat : List UInt8 → Nat
  | [] => 0
  | b :: bs => b.toNat + 256 * leNat bs

/-- The `k` low bytes of `n`, lowest first. -/
def toLe : Nat → Nat → List UInt8
  | 0, _ => []
  | k + 1, n => UInt8.ofNat n :: toLe k (n / 256)

@[simp] theorem length_toLe : ∀ (k n : Nat), (toLe k n).length = k
  | 0, _ => rfl
  | k + 1, n => by simp [toLe, length_toLe k]

theorem leNat_lt : ∀ bytes : List UInt8, leNat bytes < 256 ^ bytes.length
  | [] => by simp [leNat]
  | b :: bs => by
    have hb := b.toNat_lt
    have hbs := leNat_lt bs
    rw [leNat, List.length_cons, Nat.pow_succ']
    omega

/-- Reading back what was written keeps the low `k` bytes. -/
theorem leNat_toLe : ∀ (k n : Nat), leNat (toLe k n) = n % 256 ^ k
  | 0, n => by simp [toLe, leNat, Nat.mod_one]
  | k + 1, n => by
    rw [toLe, leNat, leNat_toLe k, Nat.pow_succ', Nat.mod_mul]
    simp [UInt8.toNat_ofNat']

/-- Bytes are written back as they were read. -/
theorem toLe_leNat : ∀ bytes : List UInt8, toLe bytes.length (leNat bytes) = bytes
  | [] => rfl
  | b :: bs => by
    have hb := b.toNat_lt
    have hmod : UInt8.ofNat (b.toNat + 256 * leNat bs) = b := by
      apply UInt8.toNat.inj
      rw [UInt8.toNat_ofNat']
      omega
    have hdiv : (b.toNat + 256 * leNat bs) / 256 = leNat bs := by omega
    rw [leNat, List.length_cons, toLe, hmod, hdiv, toLe_leNat bs]

/-- A value that fits in the width is read back unchanged. -/
theorem leNat_toLe_of_lt {k n : Nat} (h : n < 256 ^ k) : leNat (toLe k n) = n := by
  rw [leNat_toLe, Nat.mod_eq_of_lt h]

end Lib
end SteamInputLease
