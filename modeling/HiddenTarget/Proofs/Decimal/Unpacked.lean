import HiddenTarget.Proofs.Decimal.Rounding
import Mathlib

/-!
# Adding unpacked doubles

The sum of two doubles is computed on their unpacked forms: the mantissas are brought to one
exponent and added, and the sum is shifted to 53 bits with a round and a sticky bit for what is
shifted out. `Unpacks` gives an unpacked double its exact value in units of `2^-1074`, and
`unpacks_add` says that the value of a sum is the nearest one to the exact sum.
-/

namespace HiddenTarget.Decimal

open Float.Model (Format UnpackedFloat totalExponent)
open Float.Model.UnpackedFloat

/-- The value of an unpacked double in units of `2^-1074`. A finite one has 53 bits, fewer only
at the least exponent. -/
inductive Unpacks : UnpackedFloat → Int → Prop
  | zero (s : Sign) : Unpacks (.zero s) 0
  | finite (s : Sign) {m k : Nat} (hm : 0 < m) (hlt : m < 2 ^ 53)
      (hfull : 2 ^ 52 ≤ m ∨ k = 0) :
      Unpacks (.finite s m ((k : Int) - 1074) hm) (s.apply (m * 2 ^ k : Nat))

variable {m n k : Nat} {em : ExtendedMantissa}

/-! ## Shifting with two spare bits -/

/-- The mantissa after the lowest `n` bits of `m` have been shifted out. -/
structure ShiftedOut (m n : Nat) (em : ExtendedMantissa) : Prop where
  mantissa : em.mantissa = m / 2 ^ n
  roundBit : em.roundBit = true ↔ 2 ^ n ≤ 2 * (m % 2 ^ n)
  stickyBit : em.stickyBit = true ↔ m % 2 ^ n ≠ 0 ∧ 2 * (m % 2 ^ n) ≠ 2 ^ n

namespace ShiftedOut

theorem exact (m : Nat) : ShiftedOut m 0 (.ofMantissaAndAccuracy m .exact) where
  mantissa := by simp [ExtendedMantissa.ofMantissaAndAccuracy]
  roundBit := by simp [ExtendedMantissa.ofMantissaAndAccuracy, Nat.mod_one]
  stickyBit := by simp [ExtendedMantissa.ofMantissaAndAccuracy, Nat.mod_one]

theorem shiftRightOne (h : ShiftedOut m n em) : ShiftedOut m (n + 1) em.shiftRightOne := by
  have hrest : m % 2 ^ (n + 1) = m % 2 ^ n + 2 ^ n * (m / 2 ^ n % 2) := by
    rw [Nat.pow_succ, Nat.mod_mul]
  have hlt : m % 2 ^ n < 2 ^ n := Nat.mod_lt m (Nat.two_pow_pos n)
  have hpow : 2 ^ (n + 1) = 2 * 2 ^ n := Nat.pow_succ'
  have hround : (em.shiftRightOne.roundBit = true) ↔ m / 2 ^ n % 2 = 1 := by
    simp only [ExtendedMantissa.shiftRightOne, bne_iff_ne, h.mantissa]
    omega
  have hsticky : (em.shiftRightOne.stickyBit = true) ↔ m % 2 ^ n ≠ 0 := by
    simp only [ExtendedMantissa.shiftRightOne, Bool.or_eq_true, h.roundBit, h.stickyBit]
    omega
  refine ⟨?_, ?_, ?_⟩
  · rw [ExtendedMantissa.shiftRightOne, h.mantissa, Nat.div_div_eq_div_mul, Nat.pow_succ]
  · rw [hround, hrest, hpow]
    rcases Nat.mod_two_eq_zero_or_one (m / 2 ^ n) with hbit | hbit
    · rw [hbit]
      omega
    · rw [hbit]
      omega
  · rw [hsticky, hrest, hpow]
    rcases Nat.mod_two_eq_zero_or_one (m / 2 ^ n) with hbit | hbit
    · rw [hbit]
      omega
    · rw [hbit]
      omega

theorem shiftRight (m n : Nat) :
    ShiftedOut m n (ExtendedMantissa.ofMantissaAndAccuracy m .exact >>> n) := by
  change ShiftedOut m n (n.repeat ExtendedMantissa.shiftRightOne _)
  induction n with
  | zero => exact exact m
  | succ n ih => exact ih.shiftRightOne

/-- The spare bits are what rounding to the nearest needs to know. -/
theorem roundedMantissa_eq (h : ShiftedOut m n em) :
    em.roundedMantissa = roundHalf .toEven m (2 ^ n) := by
  have hpos : 0 < 2 ^ n := Nat.two_pow_pos n
  obtain ⟨q, round, sticky⟩ := em
  obtain ⟨rfl, hround, hsticky⟩ := h
  rw [roundHalf_toEven]
  rcases round with _ | _
  · have hlow : 2 * (m % 2 ^ n) < 2 ^ n := by simpa using hround
    rw [if_pos (.inl hlow)]
    cases sticky with
    | false => rfl
    | true => rfl
  · have hhigh : 2 ^ n ≤ 2 * (m % 2 ^ n) := hround.mp rfl
    cases sticky with
    | false =>
        have htie : 2 * (m % 2 ^ n) = 2 ^ n := by
          simp at hsticky
          omega
        change m / 2 ^ n + m / 2 ^ n % 2 = _
        split
        · omega
        · omega
    | true =>
        have hoff := (hsticky.mp rfl).2
        rw [if_neg (by omega)]
        rfl

end ShiftedOut

/-! ## Rounding -/

theorem targetExponent_eq (m k : Nat) :
    Format.binary64.targetExponent (totalExponent m ((k : Int) - 1074)) =
      ((m.log2 + k - 52 : Nat) : Int) - 1074 := by
  simp only [Format.targetExponent, totalExponent, Format.mantissaBits, Format.minExponent]
  omega

theorem decreaseExponent_eq (m k j : Nat) :
    decreaseExponent m ((k : Int) - 1074) ((j : Int) - 1074) =
      (m * 2 ^ (k - j), ((min k j : Nat) : Int) - 1074) := by
  have hshift : (((k : Int) - 1074) - ((j : Int) - 1074)).toNat = k - j := by omega
  rw [decreaseExponent, hshift, Nat.shiftLeft_eq]
  congr 1
  omega

theorem spacing_mul_pow (hm : 0 < m) (k : Nat) : spacing (m * 2 ^ k) = m.log2 + k - 52 := by
  have hlog : (m * 2 ^ k).log2 = m.log2 + k := by
    have hpow := Nat.two_pow_pos k
    rw [Nat.log2_eq_iff (Nat.mul_pos hm hpow).ne', Nat.pow_add, Nat.add_right_comm, Nat.pow_add]
    exact ⟨Nat.mul_le_mul_right _ (Nat.log2_self_le hm.ne'),
      Nat.mul_lt_mul_of_pos_right Nat.lt_log2_self hpow⟩
  rw [spacing, hlog]

theorem shiftToTargetExponent_eq (m k : Nat) :
    shiftToTargetExponent Format.binary64 m ((k : Int) - 1074) .exact =
      (ExtendedMantissa.ofMantissaAndAccuracy m .exact >>> (m.log2 + k - 52 - k),
        ((max k (m.log2 + k - 52) : Nat) : Int) - 1074) := by
  have hshift : ((((m.log2 + k - 52 : Nat) : Int) - 1074) - ((k : Int) - 1074)).toNat =
      m.log2 + k - 52 - k := by
    omega
  rw [shiftToTargetExponent, shiftToExponent, targetExponent_eq, hshift]
  congr 1
  omega

/-- A mantissa of 53 bits is not shifted, and one that rounding has carried to `2^53` is halved
exactly. -/
theorem mantissa_shiftToTargetExponent (hm : m ≤ 2 ^ 53) (k : Nat) :
    let shifted := shiftToTargetExponent Format.binary64 m ((k : Int) - 1074) .exact
    ∃ m' k' : Nat, m' < 2 ^ 53 ∧ m' * 2 ^ k' = m * 2 ^ k ∧
      (2 ^ 52 ≤ m ∨ k = 0 → 2 ^ 52 ≤ m' ∨ k' = 0) ∧
      shifted.1.mantissa = m' ∧ shifted.2 = (k' : Int) - 1074 := by
  intro shifted
  have hshifted : shifted = _ := shiftToTargetExponent_eq m k
  rw [hshifted, (ShiftedOut.shiftRight m _).mantissa]
  rcases Nat.lt_or_eq_of_le hm with hlt | rfl
  · have hlog : m.log2 ≤ 52 := by
      rcases Nat.eq_zero_or_pos m with rfl | hpos
      · simp
      · exact Nat.le_of_lt_succ ((Nat.log2_lt hpos.ne').mpr hlt)
    refine ⟨m, k, hlt, rfl, id, ?_, ?_⟩
    · rw [show m.log2 + k - 52 - k = 0 by omega, Nat.pow_zero, Nat.div_one]
    · rw [max_eq_left (by omega)]
  · rw [Nat.log2_two_pow]
    refine ⟨2 ^ 52, k + 1, by decide, ?_, fun _ => .inl (Nat.le_refl _), ?_, ?_⟩
    · rw [Nat.pow_succ']
      omega
    · rw [show 53 + k - 52 - k = 1 by omega]
      rfl
    · rw [max_eq_right (by omega), show 53 + k - 52 = k + 1 by omega]

theorem unpacks_roundWithAccuracy (s : Sign) (hm : 0 < m) (hk : k ≤ spacing (m * 2 ^ k)) :
    Unpacks (roundWithAccuracy Format.binary64 s m ((k : Int) - 1074) .exact)
      (s.apply (rounded (m * 2 ^ k) : Nat)) := by
  have hshift := shiftToTargetExponent_eq m k
  rw [← spacing_mul_pow hm, max_eq_right hk] at hshift
  have hround := (ShiftedOut.shiftRight m (spacing (m * 2 ^ k) - k)).roundedMantissa_eq
  rw [← roundHalf_mul_right m _ (Nat.two_pow_pos k), ← Nat.pow_add, Nat.sub_add_cancel hk] at hround
  obtain ⟨m', k', hlt, hvalue, hfull, hmantissa, hexponent⟩ :=
    mantissa_shiftToTargetExponent (roundHalf_spacing_le (m * 2 ^ k)) (spacing (m * 2 ^ k))
  rw [rounded, ← hvalue]
  simp only [roundWithAccuracy, hshift, hround, hmantissa, hexponent]
  split
  · next h =>
      rw [h, Nat.zero_mul]
      cases s with
      | negative => exact .zero _
      | positive => exact .zero _
  · next h =>
      refine .finite s (Nat.pos_of_ne_zero h) hlt (hfull ?_)
      rcases Nat.eq_zero_or_pos (spacing (m * 2 ^ k)) with hzero | hpos
      · exact .inr hzero
      · exact .inl (le_roundHalf_spacing hpos)

/-- Rounding an unpacked double rounds its value. -/
theorem unpacks_round (s : Sign) (hm : 0 < m) (k : Nat) :
    Unpacks (UnpackedFloat.round Format.binary64 s m ((k : Int) - 1074))
      (s.apply (rounded (m * 2 ^ k) : Nat)) := by
  have hexact : m * 2 ^ (k - spacing (m * 2 ^ k)) * 2 ^ min k (spacing (m * 2 ^ k)) =
      m * 2 ^ k := by
    rw [Nat.mul_assoc, ← Nat.pow_add]
    congr 2
    omega
  have hpos : 0 < m * 2 ^ (k - spacing (m * 2 ^ k)) := Nat.mul_pos hm (Nat.two_pow_pos _)
  have hrounded := @unpacks_roundWithAccuracy _ (min k (spacing (m * 2 ^ k))) s hpos
  rw [hexact] at hrounded
  simp only [UnpackedFloat.round, targetExponent_eq, ← spacing_mul_pow hm,
    decreaseExponent_eq]
  exact hrounded (min_le_right _ _)

/-- The value nearest to `z` that has 53 bits. -/
def roundedInt (z : Int) : Int := z.sign * (rounded z.natAbs : Nat)

theorem roundedInt_apply (s : Sign) (n : Nat) :
    roundedInt (s.apply n) = s.apply (rounded n : Nat) := by
  rcases Nat.eq_zero_or_pos n with rfl | hpos
  · have hzero : rounded 0 = 0 := rfl
    cases s with
    | negative => simp [roundedInt, Sign.apply, hzero]
    | positive => simp [roundedInt, Sign.apply, hzero]
  · cases s with
    | negative => simp [roundedInt, Sign.apply, Int.sign_natCast_of_ne_zero hpos.ne']
    | positive => simp [roundedInt, Sign.apply, Int.sign_natCast_of_ne_zero hpos.ne']

theorem Unpacks.roundedInt_eq {u : UnpackedFloat} {z : Int} (h : Unpacks u z) :
    roundedInt z = z := by
  cases h with
  | zero s => simp [roundedInt]
  | finite s hm hlt hfull => rw [roundedInt_apply, rounded_eq_self _ hlt]

theorem unpacks_normalize (z : Int) (k : Nat) :
    Unpacks (UnpackedFloat.normalize Format.binary64 z ((k : Int) - 1074) .positive)
      (roundedInt (z * 2 ^ k)) := by
  rcases Int.lt_trichotomy z 0 with hlt | rfl | hgt
  · obtain ⟨n, rfl⟩ : ∃ n : Nat, z = -n := ⟨z.natAbs, by omega⟩
    have hround := unpacks_round .negative (m := n) (by omega) k
    rw [← roundedInt_apply] at hround
    rw [UnpackedFloat.normalize, show compare (-(n : Int)) 0 = .lt from Int.compare_eq_lt.mpr hlt]
    simpa [Sign.apply] using hround
  · simpa [UnpackedFloat.normalize, roundedInt] using Unpacks.zero .positive
  · obtain ⟨n, rfl⟩ : ∃ n : Nat, z = n := ⟨z.natAbs, by omega⟩
    have hround := unpacks_round .positive (m := n) (by omega) k
    rw [← roundedInt_apply] at hround
    rw [UnpackedFloat.normalize, show compare (n : Int) 0 = .gt from Int.compare_eq_gt.mpr hgt]
    simpa [Sign.apply] using hround

theorem apply_mul_pow {j : Nat} (s : Sign) (m : Nat) (h : j ≤ k) :
    s.apply (m * 2 ^ (k - j) : Nat) * 2 ^ j = s.apply (m * 2 ^ k : Nat) := by
  have hpow : 2 ^ k = 2 ^ (k - j) * 2 ^ j := by rw [← Nat.pow_add, Nat.sub_add_cancel h]
  rw [hpow, ← Nat.mul_assoc, Nat.cast_mul _ (2 ^ j), Nat.cast_pow]
  cases s with
  | negative => exact Int.neg_mul _ _
  | positive => rfl

theorem unpacks_add {u v : UnpackedFloat} {a b : Int} (hu : Unpacks u a) (hv : Unpacks v b) :
    Unpacks (add Format.binary64 u v) (roundedInt (a + b)) := by
  cases hu with
  | zero s =>
      rw [Int.zero_add, hv.roundedInt_eq]
      cases hv with
      | zero s' =>
          rw [add]
          split
          · exact .zero s
          · exact .zero .positive
      | finite s' hm' hlt' hfull' => exact .finite s' hm' hlt' hfull'
  | @finite s m k hm hlt hfull =>
      cases hv with
      | zero s' =>
          rw [Int.add_zero, roundedInt_apply, rounded_eq_self k hlt]
          exact .finite s hm hlt hfull
      | @finite s' m' k' hm' hlt' hfull' =>
          have hmin : min ((k : Int) - 1074) ((k' : Int) - 1074) =
              ((min k k' : Nat) : Int) - 1074 := by
            omega
          have hsum := unpacks_normalize (s.apply (m * 2 ^ (k - min k k') : Nat) +
            s'.apply (m' * 2 ^ (k' - min k k') : Nat)) (min k k')
          rw [Int.add_mul, apply_mul_pow s m (min_le_left k k'),
            apply_mul_pow s' m' (min_le_right k k')] at hsum
          simpa only [add, hmin, decreaseExponent_eq] using hsum

theorem isFinite_add_left {u : UnpackedFloat} (v : UnpackedFloat) (h : u.isFinite = false) :
    (add Format.binary64 u v).isFinite = false := by
  cases u with
  | infinity s =>
      cases v with
      | infinity s' =>
          rw [add]
          split
          · rfl
          · rfl
      | notANumber => rfl
      | zero s' => rfl
      | finite s' m e hm => rfl
  | notANumber =>
      rw [add]
      rfl
  | zero s => cases h
  | finite s m e hm => cases h

end HiddenTarget.Decimal
