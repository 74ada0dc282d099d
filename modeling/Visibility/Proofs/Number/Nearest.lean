import Visibility.Number
import Mathlib.Algebra.Order.Group.Nat
import Mathlib.Tactic.SplitIfs

set_option autoImplicit false
set_option relaxedAutoImplicit false

/-!
Integers of 53 significant bits, the ones that a float has room for.

Main statements: going to the nearest of them keeps the order of the integers, moves none below
`2 ^ 53`, and takes no two integers together when one of the two is below `2 ^ 53`.
-/

namespace Visibility

namespace Number

/-- How many bits of a magnitude follow its first 53 ones. -/
def surplus (n : Nat) : Nat := n.log2 - 52

/-- A magnitude without its last bits, rounded to the nearest one; halfway, to the even one. -/
def shortened (n bits : Nat) : Nat :=
  if 2 * (n % 2 ^ bits) < 2 ^ bits then n / 2 ^ bits
  else if 2 * (n % 2 ^ bits) = 2 ^ bits then n / 2 ^ bits + n / 2 ^ bits % 2
  else n / 2 ^ bits + 1

def nearestNat (n : Nat) : Nat := shortened n (surplus n) * 2 ^ surplus n

def nearest (value : Int) : Int :=
  if 0 ≤ value then nearestNat value.toNat else -nearestNat (-value).toNat

section Magnitudes

variable {n m : Nat}

theorem shortened_zero (n : Nat) : shortened n 0 = n := by
  simp [shortened, Nat.mod_one]

theorem le_shortened (n bits : Nat) : n / 2 ^ bits ≤ shortened n bits := by
  unfold shortened
  split_ifs <;> omega

theorem shortened_le (n bits : Nat) : shortened n bits ≤ n / 2 ^ bits + 1 := by
  unfold shortened
  split_ifs <;> omega

theorem shortened_mono (bits : Nat) (le : n ≤ m) : shortened n bits ≤ shortened m bits := by
  have quotients : n / 2 ^ bits ≤ m / 2 ^ bits := Nat.div_le_div_right le
  rcases Nat.lt_or_ge (n / 2 ^ bits) (m / 2 ^ bits) with less | more
  · have below := shortened_le n bits
    have above := le_shortened m bits
    omega
  · -- The quotients agree, so that the remainders are in the order of the numbers.
    have same : n / 2 ^ bits = m / 2 ^ bits := Nat.le_antisymm quotients more
    have rests : n % 2 ^ bits ≤ m % 2 ^ bits := by
      have first := Nat.div_add_mod n (2 ^ bits)
      have second := Nat.div_add_mod m (2 ^ bits)
      rw [same] at first
      omega
    unfold shortened
    rw [same]
    split_ifs <;> omega

theorem lt_two_pow_surplus (n : Nat) : n / 2 ^ surplus n < 2 ^ 53 := by
  rw [Nat.div_lt_iff_lt_mul (Nat.two_pow_pos _), ← Nat.pow_add]
  have bound : n.log2 + 1 ≤ 53 + surplus n := by
    unfold surplus
    omega
  exact Nat.lt_of_lt_of_le Nat.lt_log2_self (Nat.pow_le_pow_right (by decide) bound)

theorem two_pow_le_div_surplus (nonzero : n ≠ 0) :
    2 ^ (n.log2 - surplus n) ≤ n / 2 ^ surplus n := by
  rw [Nat.le_div_iff_mul_le (Nat.two_pow_pos _), ← Nat.pow_add]
  have split : n.log2 - surplus n + surplus n = n.log2 := by
    unfold surplus
    omega
  rw [split]
  exact Nat.log2_self_le nonzero

theorem shortened_le_two_pow (n : Nat) : shortened n (surplus n) ≤ 2 ^ 53 :=
  (shortened_le n (surplus n)).trans (lt_two_pow_surplus n)

theorem surplus_of_lt (small : n < 2 ^ 53) : surplus n = 0 := by
  unfold surplus
  rcases Nat.eq_zero_or_pos n with rfl | positive
  · rfl
  · have := (Nat.log2_lt (Nat.ne_of_gt positive)).mpr small
    omega

theorem nearestNat_of_lt (small : n < 2 ^ 53) : nearestNat n = n := by
  simp [nearestNat, surplus_of_lt small, shortened_zero]

theorem two_pow_log2_le_nearestNat (nonzero : n ≠ 0) : 2 ^ n.log2 ≤ nearestNat n := by
  have split : n.log2 - surplus n + surplus n = n.log2 := by
    unfold surplus
    omega
  calc
    2 ^ n.log2 = 2 ^ (n.log2 - surplus n) * 2 ^ surplus n := by rw [← Nat.pow_add, split]
    _ ≤ n / 2 ^ surplus n * 2 ^ surplus n :=
      Nat.mul_le_mul_right _ (two_pow_le_div_surplus nonzero)
    _ ≤ nearestNat n := Nat.mul_le_mul_right _ (le_shortened n (surplus n))

theorem nearestNat_le_two_pow_log2 (large : 52 ≤ n.log2) : nearestNat n ≤ 2 ^ (n.log2 + 1) := by
  have split : 53 + surplus n = n.log2 + 1 := by
    unfold surplus
    omega
  calc
    nearestNat n ≤ 2 ^ 53 * 2 ^ surplus n := Nat.mul_le_mul_right _ (shortened_le_two_pow n)
    _ = 2 ^ (n.log2 + 1) := by rw [← Nat.pow_add, split]

theorem nearestNat_mono (le : n ≤ m) : nearestNat n ≤ nearestNat m := by
  rcases Nat.eq_zero_or_pos n with rfl | positive
  · simp [nearestNat_of_lt]
  have nonzero : n ≠ 0 := Nat.ne_of_gt positive
  have nonzeroMore : m ≠ 0 := Nat.ne_of_gt (Nat.lt_of_lt_of_le positive le)
  have logs : n.log2 ≤ m.log2 :=
    (Nat.le_log2 nonzeroMore).mpr ((Nat.log2_self_le nonzero).trans le)
  rcases Nat.eq_or_lt_of_le logs with same | less
  · have sameSurplus : surplus n = surplus m := by
      unfold surplus
      rw [same]
    unfold nearestNat
    rw [sameSurplus]
    exact Nat.mul_le_mul_right _ (shortened_mono _ le)
  · -- A power of two lies between the two.
    rcases Nat.lt_or_ge n.log2 52 with small | large
    · have exact_ : nearestNat n = n := by
        apply nearestNat_of_lt
        exact Nat.lt_of_lt_of_le Nat.lt_log2_self (Nat.pow_le_pow_right (by decide) (by omega))
      calc
        nearestNat n = n := exact_
        _ ≤ 2 ^ (n.log2 + 1) := Nat.le_of_lt Nat.lt_log2_self
        _ ≤ 2 ^ m.log2 := Nat.pow_le_pow_right (by decide) less
        _ ≤ nearestNat m := two_pow_log2_le_nearestNat nonzeroMore
    · calc
        nearestNat n ≤ 2 ^ (n.log2 + 1) := nearestNat_le_two_pow_log2 large
        _ ≤ 2 ^ m.log2 := Nat.pow_le_pow_right (by decide) less
        _ ≤ nearestNat m := two_pow_log2_le_nearestNat nonzeroMore

theorem le_nearestNat_of_le (large : 2 ^ 53 ≤ n) : 2 ^ 53 ≤ nearestNat n := by
  have nonzero : n ≠ 0 := by omega
  have logs : 53 ≤ n.log2 := (Nat.le_log2 nonzero).mpr large
  exact (Nat.pow_le_pow_right (by decide) logs).trans (two_pow_log2_le_nearestNat nonzero)

end Magnitudes

variable {a b : Int}

theorem nearest_of_natAbs_lt (small : a.natAbs < 2 ^ 53) : nearest a = a := by
  unfold nearest
  split_ifs with sign
  · rw [nearestNat_of_lt (by omega)]
    omega
  · rw [nearestNat_of_lt (by omega)]
    omega

theorem nearest_mono (le : a ≤ b) : nearest a ≤ nearest b := by
  unfold nearest
  split_ifs with first second second
  · exact_mod_cast nearestNat_mono (by omega)
  · omega
  · omega
  · have magnitudes := nearestNat_mono (n := (-b).toNat) (m := (-a).toNat) (by omega)
    omega

theorem natAbs_nearest_lt_iff : (nearest a).natAbs < 2 ^ 53 ↔ a.natAbs < 2 ^ 53 := by
  constructor
  · intro small
    by_contra large
    unfold nearest at small
    split_ifs at small with sign
    · have := le_nearestNat_of_le (n := a.toNat) (by omega)
      omega
    · have := le_nearestNat_of_le (n := (-a).toNat) (by omega)
      omega
  · intro small
    rwa [nearest_of_natAbs_lt small]

theorem eq_of_nearest_eq (small : a.natAbs < 2 ^ 53 ∨ b.natAbs < 2 ^ 53)
    (same : nearest a = nearest b) : a = b := by
  have both : a.natAbs < 2 ^ 53 ∧ b.natAbs < 2 ^ 53 := by
    rcases small with small | small
    · exact ⟨small, natAbs_nearest_lt_iff.mp (same ▸ natAbs_nearest_lt_iff.mpr small)⟩
    · exact ⟨natAbs_nearest_lt_iff.mp (same ▸ natAbs_nearest_lt_iff.mpr small), small⟩
  rwa [nearest_of_natAbs_lt both.1, nearest_of_natAbs_lt both.2] at same

/-- The order is the one of the integers themselves unless two of them come together. -/
theorem compare_nearest_iff :
    compare (nearest a) (nearest b) = compare a b ↔ (nearest a = nearest b → a = b) := by
  constructor
  · intro same together
    rw [compare_eq_iff_eq.mpr together] at same
    exact compare_eq_iff_eq.mp same.symm
  · intro apart
    rcases lt_trichotomy a b with less | rfl | more
    · rw [compare_lt_iff_lt.mpr less, compare_lt_iff_lt]
      exact lt_of_le_of_ne (nearest_mono less.le) fun together => less.ne (apart together)
    · simp
    · rw [compare_gt_iff_gt.mpr more, compare_gt_iff_gt]
      exact lt_of_le_of_ne (nearest_mono more.le) fun together => more.ne (apart together.symm).symm

end Number

end Visibility
