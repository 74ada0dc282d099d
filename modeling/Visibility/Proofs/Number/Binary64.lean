import Visibility.Proofs.Number.Nearest
import Mathlib

set_option autoImplicit false
set_option relaxedAutoImplicit false

/-!
The float of an integer of 64 bits.

Main statements: it stands for the nearest integer of 53 significant bits, so that two of these floats
compare as the nearest integers do.
-/

namespace Visibility

namespace Number

open Float.Model Float.Model.UnpackedFloat

/-- Whether an unpacked float stands for an integer, written with all of its 53 bits and an exponent
that a packed float has room for. -/
inductive Denotes : UnpackedFloat → Int → Prop where
  | zero (sign : Sign) : Denotes (.zero sign) 0
  | finite (sign : Sign) {mantissa shift n : Nat} (positive : 0 < mantissa)
      (least : 2 ^ 52 ≤ mantissa) (most : mantissa < 2 ^ 53) (fits : shift ≤ 64)
      (value : mantissa * 2 ^ shift = n * 2 ^ 52) :
      Denotes (.finite sign mantissa (shift - 52 : Int) positive) (sign.apply n)

namespace Denotes

variable {u v : UnpackedFloat} {a b : Int}

theorem ofExponent (sign : Sign) (shift : Nat) {mantissa n : Nat} {exponent : Int}
    (positive : 0 < mantissa) (least : 2 ^ 52 ≤ mantissa) (most : mantissa < 2 ^ 53)
    (fits : shift ≤ 64) (same : exponent = shift - 52)
    (value : mantissa * 2 ^ shift = n * 2 ^ 52) :
    Denotes (.finite sign mantissa exponent positive) (sign.apply n) := by
  subst same
  exact .finite sign positive least most fits value

theorem neg (denotes : Denotes u a) : Denotes u.neg (-a) := by
  cases denotes with
  | zero sign => exact .zero _
  | @finite sign mantissa shift n positive least most fits value =>
    have flipped : -sign.apply n = (-sign).apply n := by
      cases sign
      · exact Int.neg_neg _
      · rfl
    rw [flipped]
    exact .finite _ positive least most fits value

end Denotes

theorem pos_of_value {mantissa shift n : Nat} (positive : 0 < mantissa)
    (value : mantissa * 2 ^ shift = n * 2 ^ 52) : 0 < n := by
  have := Nat.mul_pos positive (Nat.two_pow_pos shift)
  omega

theorem lt_of_shift_lt {mantissa shift n mantissa' shift' n' : Nat} (most : mantissa < 2 ^ 53)
    (least : 2 ^ 52 ≤ mantissa') (value : mantissa * 2 ^ shift = n * 2 ^ 52)
    (value' : mantissa' * 2 ^ shift' = n' * 2 ^ 52) (less : shift < shift') : n < n' := by
  have scaled : n * 2 ^ 52 < n' * 2 ^ 52 := by
    calc
      n * 2 ^ 52 = mantissa * 2 ^ shift := value.symm
      _ < 2 ^ 53 * 2 ^ shift := Nat.mul_lt_mul_of_pos_right most (Nat.two_pow_pos _)
      _ = 2 ^ 52 * 2 ^ (shift + 1) := by ring
      _ ≤ 2 ^ 52 * 2 ^ shift' := Nat.mul_le_mul_left _ (Nat.pow_le_pow_right (by decide) less)
      _ ≤ mantissa' * 2 ^ shift' := Nat.mul_le_mul_right _ least
      _ = n' * 2 ^ 52 := value'
  exact Nat.lt_of_mul_lt_mul_right scaled

theorem compare_neg (n m : Nat) : compare (-n : Int) (-m) = (compare n m).swap := by
  have strict : StrictAnti fun n : Nat => (-n : Int) := by
    intro x y less
    dsimp only
    omega
  rw [← cmp_eq_compare, ← cmp_eq_compare, cmp_swap]
  exact strict.cmp_map_eq n m

theorem compare_magnitudes {mantissa shift n mantissa' shift' n' : Nat}
    (least : 2 ^ 52 ≤ mantissa) (most : mantissa < 2 ^ 53)
    (value : mantissa * 2 ^ shift = n * 2 ^ 52) (least' : 2 ^ 52 ≤ mantissa')
    (most' : mantissa' < 2 ^ 53) (value' : mantissa' * 2 ^ shift' = n' * 2 ^ 52) :
    (compare (shift - 52 : Int) (shift' - 52)).then (compare mantissa mantissa') =
      compare n n' := by
  have exponents : StrictMono fun shift : Nat => (shift - 52 : Int) := by
    intro x y less
    dsimp only
    omega
  rw [← cmp_eq_compare, exponents.cmp_map_eq, cmp_eq_compare]
  rcases Nat.lt_trichotomy shift shift' with less | rfl | more
  · rw [compare_lt_iff_lt.mpr less,
      compare_lt_iff_lt.mpr (lt_of_shift_lt most least' value value' less)]
    rfl
  · -- With one exponent the mantissas are proportional to the magnitudes.
    have scaling (bits x y : Nat) : compare (x * 2 ^ bits) (y * 2 ^ bits) = compare x y := by
      have strict : StrictMono (· * 2 ^ bits) :=
        fun _ _ less => Nat.mul_lt_mul_of_pos_right less (Nat.two_pow_pos bits)
      simpa only [cmp_eq_compare] using strict.cmp_map_eq x y
    calc
      (compare shift shift).then (compare mantissa mantissa') = compare mantissa mantissa' := by
        rw [compare_eq_iff_eq.mpr rfl, Ordering.eq_then]
      _ = compare (mantissa * 2 ^ shift) (mantissa' * 2 ^ shift) :=
        (scaling shift mantissa mantissa').symm
      _ = compare (n * 2 ^ 52) (n' * 2 ^ 52) := by rw [value, value']
      _ = compare n n' := scaling 52 n n'
  · rw [compare_gt_iff_gt.mpr more,
      compare_gt_iff_gt.mpr (lt_of_shift_lt most' least value' value more)]
    rfl

theorem Denotes.compare_eq {u v : UnpackedFloat} {a b : Int} (first : Denotes u a)
    (second : Denotes v b) : u.compare v = some (compare a b) := by
  cases first with
  | zero sign =>
    cases second with
    | zero => rfl
    | @finite sign' mantissa' shift' n' positive' least' most' fits' value' =>
      have above : 0 < n' := pos_of_value positive' value'
      cases sign' with
      | negative =>
        have order : compare (0 : Int) (-n') = .gt := compare_gt_iff_gt.mpr (by omega)
        exact congrArg some order.symm
      | positive =>
        have order : compare (0 : Int) n' = .lt := compare_lt_iff_lt.mpr (by omega)
        exact congrArg some order.symm
  | @finite sign mantissa shift n positive least most fits value =>
    have above : 0 < n := pos_of_value positive value
    cases second with
    | zero =>
      cases sign with
      | negative =>
        have order : compare (-n : Int) 0 = .lt := compare_lt_iff_lt.mpr (by omega)
        exact congrArg some order.symm
      | positive =>
        have order : compare (n : Int) 0 = .gt := compare_gt_iff_gt.mpr (by omega)
        exact congrArg some order.symm
    | @finite sign' mantissa' shift' n' positive' least' most' fits' value' =>
      have above' : 0 < n' := pos_of_value positive' value'
      have magnitudes := compare_magnitudes least most value least' most' value'
      cases sign with
      | negative =>
        cases sign' with
        | negative =>
          calc
            _ = some (Ordering.swap (compare n n')) := by rw [← magnitudes]; rfl
            _ = some (compare (-n : Int) (-n')) := by rw [compare_neg]
        | positive =>
          have order : compare (-n : Int) n' = .lt := compare_lt_iff_lt.mpr (by omega)
          exact congrArg some order.symm
      | positive =>
        cases sign' with
        | negative =>
          have order : compare (n : Int) (-n') = .gt := compare_gt_iff_gt.mpr (by omega)
          exact congrArg some order.symm
        | positive =>
          calc
            _ = some (compare n n') := by rw [← magnitudes]; rfl
            _ = some (compare (n : Int) n') := by
              rw [← cmp_eq_compare, ← cmp_eq_compare, Int.natCast_strictMono.cmp_map_eq]

/-- Whether an extended mantissa is what the last bits of a magnitude leave, its residual bits telling
how these compare to one half. -/
structure Leaves (em : ExtendedMantissa) (n bits : Nat) : Prop where
  mantissa : em.mantissa = n / 2 ^ bits
  roundBit : em.roundBit = true ↔ 2 ^ bits ≤ 2 * (n % 2 ^ bits)
  stickyBit : em.stickyBit = true ↔ n % 2 ^ bits ≠ 0 ∧ 2 * (n % 2 ^ bits) ≠ 2 ^ bits

namespace Leaves

theorem zero (n : Nat) : Leaves ⟨n, false, false⟩ n 0 where
  mantissa := by simp
  roundBit := by simp [Nat.mod_one]
  stickyBit := by simp [Nat.mod_one]

theorem succ {em : ExtendedMantissa} {n bits : Nat} (leaves : Leaves em n bits) :
    Leaves em.shiftRightOne n (bits + 1) := by
  obtain ⟨mantissa, roundBit, stickyBit⟩ := leaves
  have power : 0 < 2 ^ bits := Nat.two_pow_pos bits
  have small : n % 2 ^ bits < 2 ^ bits := Nat.mod_lt n power
  have rest : n % 2 ^ (bits + 1) = n % 2 ^ bits + 2 ^ bits * (n / 2 ^ bits % 2) := by
    rw [Nat.pow_succ, Nat.mod_mul]
  have bit : n / 2 ^ bits % 2 = 0 ∨ n / 2 ^ bits % 2 = 1 := by omega
  refine ⟨?_, ?_, ?_⟩
  · change em.mantissa / 2 = n / 2 ^ (bits + 1)
    rw [mantissa, Nat.div_div_eq_div_mul, Nat.pow_succ]
  · change (em.mantissa % 2 != 0) = true ↔ _
    rw [rest, mantissa, Nat.pow_succ, bne_iff_ne]
    rcases bit with bit | bit <;> rw [bit] <;> omega
  · change (em.roundBit || em.stickyBit) = true ↔ _
    rw [rest, Bool.or_eq_true, roundBit, stickyBit, Nat.pow_succ]
    rcases bit with bit | bit <;> rw [bit] <;> omega

theorem shiftRight (n bits : Nat) :
    Leaves ((⟨n, false, false⟩ : ExtendedMantissa) >>> bits) n bits := by
  induction bits with
  | zero => exact .zero n
  | succ bits ih => exact ih.succ

theorem roundedMantissa {em : ExtendedMantissa} {n bits : Nat} (leaves : Leaves em n bits) :
    em.roundedMantissa = shortened n bits := by
  obtain ⟨mantissa, roundBit, stickyBit⟩ := leaves
  have power : 0 < 2 ^ bits := Nat.two_pow_pos bits
  obtain ⟨kept, round, sticky⟩ := em
  simp only at mantissa roundBit stickyBit
  subst mantissa
  unfold shortened
  cases round with
  | false =>
    have below : 2 * (n % 2 ^ bits) < 2 ^ bits := by simpa using roundBit
    rw [if_pos below]
    cases sticky <;> rfl
  | true =>
    have above : 2 ^ bits ≤ 2 * (n % 2 ^ bits) := roundBit.mp rfl
    rw [if_neg (Nat.not_lt.mpr above)]
    cases sticky with
    | false =>
      have half : 2 * (n % 2 ^ bits) = 2 ^ bits := by
        by_contra other
        exact Bool.false_ne_true (stickyBit.mpr ⟨by omega, other⟩)
      rw [if_pos half]
      rfl
    | true =>
      rw [if_neg (stickyBit.mp rfl).2]
      rfl

end Leaves

theorem shiftToTargetExponent_eq {mantissa amount : Nat} {exponent : Int}
    (log2 : mantissa.log2 = 52 + amount) (least : -52 ≤ exponent) :
    shiftToTargetExponent .binary64 mantissa exponent .exact =
      ((⟨mantissa, false, false⟩ : ExtendedMantissa) >>> amount, exponent + amount) := by
  have target : Format.targetExponent .binary64 (totalExponent mantissa exponent) =
      exponent + amount := by
    simp only [Format.targetExponent, totalExponent, Format.mantissaBits, Format.minExponent, log2]
    omega
  unfold shiftToTargetExponent shiftToExponent
  simp only [target]
  have shift : (exponent + amount - exponent).toNat = amount := by omega
  rw [shift]
  rfl

theorem log2_eq {n : Nat} (least : 2 ^ 52 ≤ n) (most : n < 2 ^ 53) : n.log2 = 52 :=
  (Nat.log2_eq_iff (by omega)).mpr ⟨least, most⟩

theorem shiftToTargetExponent_of_lt {mantissa : Nat} {exponent : Int} (least : 2 ^ 52 ≤ mantissa)
    (most : mantissa < 2 ^ 53) (low : -52 ≤ exponent) :
    shiftToTargetExponent .binary64 mantissa exponent .exact =
      (⟨mantissa, false, false⟩, exponent) := by
  have log2 : mantissa.log2 = 52 + 0 := log2_eq least most
  rw [shiftToTargetExponent_eq log2 low, Int.natCast_zero, Int.add_zero]
  rfl

/-- A magnitude that rounding brought up to the next power of two loses one more bit, a zero. -/
theorem shiftToTargetExponent_two_pow {exponent : Int} (low : -52 ≤ exponent) :
    shiftToTargetExponent .binary64 (2 ^ 53) exponent .exact =
      (⟨2 ^ 52, false, false⟩, exponent + 1) := by
  have log2 : (2 ^ 53).log2 = 52 + 1 := Nat.log2_two_pow
  rw [shiftToTargetExponent_eq log2 low]
  rfl

theorem roundWithAccuracy_eq {n : Nat} {exponent : Int} (sign : Sign) (large : 52 ≤ n.log2)
    (low : -52 ≤ exponent) :
    (∃ positive, 2 ^ 52 ≤ shortened n (surplus n) ∧ shortened n (surplus n) < 2 ^ 53 ∧
      roundWithAccuracy .binary64 sign n exponent .exact =
        .finite sign (shortened n (surplus n)) (exponent + surplus n) positive) ∨
    (∃ positive, shortened n (surplus n) = 2 ^ 53 ∧
      roundWithAccuracy .binary64 sign n exponent .exact =
        .finite sign (2 ^ 52) (exponent + surplus n + 1) positive) := by
  have log2 : n.log2 = 52 + surplus n := by
    unfold surplus
    omega
  have nonzero : n ≠ 0 := by
    rintro rfl
    simp at large
  have least : 2 ^ 52 ≤ shortened n (surplus n) := by
    have quotient := two_pow_le_div_surplus nonzero
    rw [log2, Nat.add_sub_cancel] at quotient
    exact quotient.trans (le_shortened n (surplus n))
  have rounded := (Leaves.shiftRight n (surplus n)).roundedMantissa
  have lowShifted : -52 ≤ exponent + surplus n := by omega
  unfold roundWithAccuracy
  rw [shiftToTargetExponent_eq log2 low]
  simp only [rounded]
  rcases Nat.lt_or_eq_of_le (shortened_le_two_pow n) with most | full
  · have positive : 0 < shortened n (surplus n) := by omega
    refine Or.inl ⟨positive, least, most, ?_⟩
    simp only [shiftToTargetExponent_of_lt least most lowShifted]
    exact dif_neg (Nat.ne_of_gt positive)
  · refine Or.inr ⟨by decide, full, ?_⟩
    simp only [full, shiftToTargetExponent_two_pow lowShifted]
    exact dif_neg (by decide)

theorem round_eq (n : Nat) :
    UnpackedFloat.round .binary64 .positive n 0 =
      roundWithAccuracy .binary64 .positive (n <<< (52 - n.log2)) (-(52 - n.log2 : Nat)) .exact := by
  have target : Format.targetExponent .binary64 (totalExponent n 0) = (n.log2 - 52 : Int) := by
    simp only [Format.targetExponent, totalExponent, Format.mantissaBits, Format.minExponent]
    omega
  have amount : (-(n.log2 - 52 : Int)).toNat = 52 - n.log2 := by omega
  unfold UnpackedFloat.round
  simp only [target, decreaseExponent, Int.zero_sub, amount]

theorem Denotes.round_of_lt {n : Nat} (positive : 0 < n) (small : n < 2 ^ 53) :
    Denotes (UnpackedFloat.round .binary64 .positive n 0) (nearestNat n) := by
  have nonzero : n ≠ 0 := Nat.ne_of_gt positive
  have log2 : n.log2 < 53 := (Nat.log2_lt nonzero).mpr small
  have raised : n <<< (52 - n.log2) = n * 2 ^ (52 - n.log2) := Nat.shiftLeft_eq ..
  have split : n.log2 + (52 - n.log2) = 52 := by omega
  have least : 2 ^ 52 ≤ n <<< (52 - n.log2) := by
    rw [raised, ← split, Nat.pow_add, split]
    exact Nat.mul_le_mul_right _ (Nat.log2_self_le nonzero)
  have most : n <<< (52 - n.log2) < 2 ^ 53 := by
    calc
      n <<< (52 - n.log2) = n * 2 ^ (52 - n.log2) := raised
      _ < 2 ^ (n.log2 + 1) * 2 ^ (52 - n.log2) :=
        Nat.mul_lt_mul_of_pos_right Nat.lt_log2_self (Nat.two_pow_pos _)
      _ = 2 ^ 53 := by rw [← Nat.pow_add]; congr 1; omega
  have unchanged : surplus (n <<< (52 - n.log2)) = 0 := surplus_of_lt most
  have rounded := roundWithAccuracy_eq .positive (by rw [log2_eq least most])
    (by omega : (-52 : Int) ≤ (-(52 - n.log2 : Nat)))
  rw [unchanged, shortened_zero, ← round_eq] at rounded
  rcases rounded with ⟨above, -, -, rounded⟩ | ⟨-, full, -⟩
  · rw [rounded, nearestNat_of_lt small]
    refine .ofExponent .positive n.log2 above least most (by omega) ?_ ?_
    · omega
    · rw [raised, Nat.mul_assoc, ← Nat.pow_add, Nat.add_comm, split]
  · omega

theorem Denotes.round_of_le {n : Nat} (large : 2 ^ 53 ≤ n) (word : n < 2 ^ 64) :
    Denotes (UnpackedFloat.round .binary64 .positive n 0) (nearestNat n) := by
  have nonzero : n ≠ 0 := by omega
  have log2 : 53 ≤ n.log2 := (Nat.le_log2 nonzero).mpr large
  have few : surplus n ≤ 11 := by
    have := (Nat.log2_lt nonzero).mpr word
    unfold surplus
    omega
  have unraised : 52 - n.log2 = 0 := by omega
  have rounded := roundWithAccuracy_eq (n := n) .positive (by omega)
    (by decide : (-52 : Int) ≤ -(0 : Nat))
  rw [round_eq, unraised, Nat.shiftLeft_zero]
  rcases rounded with ⟨positive, least, most, rounded⟩ | ⟨positive, full, rounded⟩
  · rw [rounded]
    refine .ofExponent .positive (52 + surplus n) positive least most (by omega) ?_ ?_
    · omega
    · unfold nearestNat
      ring
  · rw [rounded]
    refine .ofExponent .positive (53 + surplus n) positive (by decide) (by decide) (by omega) ?_ ?_
    · omega
    · unfold nearestNat
      rw [full]
      ring

theorem Denotes.ofNat {n : Nat} (word : n < 2 ^ 64) :
    Denotes (UnpackedFloat.ofNat .binary64 n) (nearestNat n) := by
  rcases Nat.eq_zero_or_pos n with rfl | positive
  · exact .zero .positive
  · have sign : compare (n : Int) 0 = .gt := compare_gt_iff_gt.mpr (by omega)
    have rounds : UnpackedFloat.ofNat .binary64 n = UnpackedFloat.round .binary64 .positive n 0 := by
      unfold UnpackedFloat.ofNat UnpackedFloat.ofInt UnpackedFloat.normalize
      rw [sign]
      rfl
    rw [rounds]
    rcases Nat.lt_or_ge n (2 ^ 53) with small | large
    · exact .round_of_lt positive small
    · exact .round_of_le large word

theorem toNat_implicit_append {mantissa : Nat} (least : 2 ^ 52 ≤ mantissa)
    (most : mantissa < 2 ^ 53) : (1#1 ++ BitVec.ofNat 52 mantissa).toNat = mantissa := by
  rw [BitVec.toNat_append, ← Nat.shiftLeft_add_eq_or_of_lt (BitVec.isLt _), BitVec.toNat_ofNat]
  change 1 * 2 ^ 52 + mantissa % 2 ^ 52 = mantissa
  omega

theorem Denotes.unpack_pack {u : UnpackedFloat} {a : Int} (denotes : Denotes u a) :
    UnpackedFloat.unpack .binary64 (UnpackedFloat.pack .binary64 u) = u := by
  cases denotes with
  | zero sign => cases sign <;> rfl
  | @finite sign mantissa shift n positive least most fits value =>
    have bias : (Format.binary64.exponentBias : Int) = 1023 := rfl
    have width : (Format.binary64.mantissaBitsWithoutImplicit : Int) = 52 := rfl
    have biased : (shift - 52 + Format.binary64.exponentBias +
        Format.binary64.mantissaBitsWithoutImplicit : Int).toNat = shift + 1023 := by omega
    have unbiased : ((shift + 1023 : Nat) : Int) - (Format.binary64.exponentBias +
        Format.binary64.mantissaBitsWithoutImplicit) = shift - 52 := by omega
    have fitted : (BitVec.ofNat 11 (shift + 1023)).toNat = shift + 1023 := by
      rw [BitVec.toNat_ofNat]
      exact Nat.mod_eq_of_lt (by omega)
    have notFull : BitVec.ofNat 11 (shift + 1023) ≠ -1#11 := by
      intro full
      have := congrArg BitVec.toNat full
      rw [fitted] at this
      change shift + 1023 = 2047 at this
      omega
    have notZero : BitVec.ofNat 11 (shift + 1023) ≠ 0#11 := by
      intro none
      have := congrArg BitVec.toNat none
      rw [fitted] at this
      change shift + 1023 = 0 at this
      omega
    have packed : UnpackedFloat.pack .binary64 (.finite sign mantissa (shift - 52 : Int) positive) =
        packComponents .binary64 sign (BitVec.ofNat 11 (shift + 1023)) (BitVec.ofNat 52 mantissa) := by
      unfold UnpackedFloat.pack
      simp only [biased, log2_eq least most]
      rw [if_neg (show ¬2 ^ 11 ≤ shift + 1023 + 1 by omega)]
      exact if_pos rfl
    rw [packed]
    unfold UnpackedFloat.unpack
    simp only [unpackMantissa_packComponents, unpackExponent_packComponents,
      unpackSign_packComponents, Sign.ofBitVec_toBitVec]
    rw [if_neg notFull, if_neg notZero]
    simp only [toNat_implicit_append least most, fitted, unbiased]

theorem denotes_toFloat {n : Nat} (word : n < 2 ^ 64) :
    Denotes n.toUInt64.toFloat.toModel.unpack (nearestNat n) := by
  have toNat : n.toUInt64.toNat = n := Nat.mod_eq_of_lt word
  have denotes : Denotes (UnpackedFloat.ofUInt64 .binary64 n.toUInt64) (nearestNat n) := by
    unfold UnpackedFloat.ofUInt64
    rw [toNat]
    exact .ofNat word
  have stored : n.toUInt64.toFloat.toModel.unpack = UnpackedFloat.unpack .binary64
      (UnpackedFloat.pack .binary64 (UnpackedFloat.ofUInt64 .binary64 n.toUInt64)) := rfl
  rwa [stored, denotes.unpack_pack]

theorem denotes_neg {float : Float} {a : Int} (denotes : Denotes float.toModel.unpack a) :
    Denotes (-float).toModel.unpack (-a) := by
  have stored : (-float).toModel.unpack =
      UnpackedFloat.unpack .binary64 (UnpackedFloat.pack .binary64 float.toModel.unpack.neg) := rfl
  rw [stored, denotes.neg.unpack_pack]
  exact denotes.neg

structure Fits (value : Int) : Prop where
  least : minInt ≤ value
  most : value ≤ maxInt

/-- The float of an integer of 64 bits stands for the nearest integer of 53 significant bits. -/
theorem denotes_floatOfInt {value : Int} (fits : Fits value) :
    Denotes (floatOfInt value).toModel.unpack (nearest value) := by
  have least := fits.least
  have most := fits.most
  unfold minInt at least
  unfold maxInt at most
  unfold floatOfInt nearest
  split_ifs with sign
  · exact denotes_toFloat (by omega)
  · exact denotes_neg (denotes_toFloat (by omega))

section Comparing

variable {a b : Int}

theorem floatOfInt_beq (first : Fits a) (second : Fits b) :
    (floatOfInt a == floatOfInt b) = (compare (nearest a) (nearest b)).isEq := by
  have compared := (denotes_floatOfInt first).compare_eq (denotes_floatOfInt second)
  have test : (floatOfInt a == floatOfInt b) =
      ((floatOfInt a).toModel.unpack.compare (floatOfInt b).toModel.unpack == some .eq) := rfl
  rw [test, compared]
  cases compare (nearest a) (nearest b) <;> rfl

theorem floatOfInt_lt (first : Fits a) (second : Fits b) :
    floatOfInt a < floatOfInt b ↔ compare (nearest a) (nearest b) = .lt := by
  have compared := (denotes_floatOfInt first).compare_eq (denotes_floatOfInt second)
  have test : floatOfInt a < floatOfInt b ↔
      ((floatOfInt a).toModel.unpack.compare (floatOfInt b).toModel.unpack == some .lt) = true :=
    decide_eq_true_iff
  rw [test, compared]
  cases compare (nearest a) (nearest b) <;> decide

end Comparing

end Number

end Visibility
