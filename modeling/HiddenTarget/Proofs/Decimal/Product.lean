import HiddenTarget.Proofs.Decimal.Addition

/-!
# Multiplying doubles

A product of two doubles from one on is the nearest double to the exact product, so it is a number
if the exact product is below `overflowBound`: `isFinite_mul`. The exact value of a product is
again a whole number of units, as both factors have trailing zeros there. Rounding makes a number
larger by one part in `2 ^ 53` at most, `rounded_mul_le`.
-/

namespace HiddenTarget.Decimal

open Float.Model (Format UnpackedFloat)
open Float.Model.UnpackedFloat

/-! ## How far rounding goes -/

theorem roundHalf_mul_le {d : Nat} (hd : 0 < d) (n : Nat) :
    2 * (roundHalf .toEven n d * d) ≤ 2 * n + d := by
  have hsplit := Nat.div_add_mod' n d
  have hmod := Nat.mod_lt n hd
  rw [roundHalf_toEven]
  split
  · omega
  · rw [Nat.add_mul]
    omega

theorem rounded_mul_le (n : Nat) : rounded n * 2 ^ 53 ≤ n * (2 ^ 53 + 1) := by
  rcases Nat.eq_zero_or_pos (spacing n) with hzero | hpos
  · have hle : rounded n ≤ n := by
      rw [rounded, hzero, Nat.pow_zero, Nat.mul_one]
      exact roundHalf_le Nat.one_pos (Nat.mul_one n).ge
    exact Nat.mul_le_mul hle (Nat.le_succ _)
  · have hround := roundHalf_mul_le (Nat.two_pow_pos (spacing n)) n
    have hfull := pow_spacing_le hpos
    rw [rounded]
    omega

theorem pow_le_rounded {n j : Nat} (h : 2 ^ j ≤ n) : 2 ^ j ≤ rounded n := by
  rcases Nat.lt_or_ge j (spacing n) with hj | hj
  · have hfull : 0 < roundHalf .toEven n (2 ^ spacing n) :=
      Nat.lt_of_lt_of_le (by decide) (le_roundHalf_spacing (Nat.zero_lt_of_lt hj))
    exact (Nat.pow_le_pow_right (by decide) hj.le).trans (Nat.le_mul_of_pos_left _ hfull)
  · have hsplit : 2 ^ j = 2 ^ (j - spacing n) * 2 ^ spacing n := by
      rw [← Nat.pow_add, Nat.sub_add_cancel hj]
    rw [hsplit] at h ⊢
    exact Nat.mul_le_mul_right _ (le_roundHalf (Nat.two_pow_pos _) h)

/-! ## Products -/

def unitsOfOne : Nat := 2 ^ 1074

theorem unitsOfOne_pos : 0 < unitsOfOne := pow_pos two_pos _

/-- What is one or more has a full mantissa and trailing zeros. -/
theorem Unpacks.eq_finite_of_le {u : UnpackedFloat} {z : Int} (h : Unpacks u z)
    (hz : (unitsOfOne : Int) ≤ z) :
    ∃ (m k : Nat) (hm : 0 < m), u = .finite .positive m ((k : Int) - 1074) hm ∧
      z = (m * 2 ^ k : Nat) ∧ 2 ^ 52 ≤ m ∧ 1022 ≤ k := by
  have hone : (0 : Int) < unitsOfOne := Int.natCast_pos.mpr unitsOfOne_pos
  cases h with
  | zero s => omega
  | @finite s m k hm hlt hfull =>
      cases s with
      | negative =>
          have hneg : Sign.negative.apply (m * 2 ^ k : Nat) = -((m * 2 ^ k : Nat) : Int) := rfl
          omega
      | positive =>
          have hle : unitsOfOne ≤ m * 2 ^ k := Int.ofNat_le.mp hz
          rw [unitsOfOne] at hle
          have hlow : 2 ^ 1074 < 2 ^ (53 + k) := by
            rw [Nat.pow_add]
            exact hle.trans_lt (Nat.mul_lt_mul_of_pos_right hlt (Nat.two_pow_pos k))
          have hk := (Nat.pow_lt_pow_iff_right (by decide)).mp hlow
          exact ⟨m, k, hm, rfl, rfl, hfull.resolve_right (by omega), by omega⟩

theorem unpacks_mul {u v : UnpackedFloat} {a b : Int} (hu : Unpacks u a) (hv : Unpacks v b)
    (ha : (unitsOfOne : Int) ≤ a) (hb : (unitsOfOne : Int) ≤ b) :
    ∃ c : Nat, (c * unitsOfOne : Nat) = a * b ∧ Unpacks (mul Format.binary64 u v) (rounded c) := by
  obtain ⟨m, k, hm, rfl, rfl, hfull, hk⟩ := hu.eq_finite_of_le ha
  obtain ⟨m', k', hm', rfl, rfl, hfull', hk'⟩ := hv.eq_finite_of_le hb
  have hpos : 0 < m * m' := Nat.mul_pos hm hm'
  have hexponent : ((k : Int) - 1074) + ((k' : Int) - 1074) =
      ((k + k' - 1074 : Nat) : Int) - 1074 := by
    omega
  have hspacing : k + k' - 1074 ≤ spacing (m * m' * 2 ^ (k + k' - 1074)) := by
    have hlog : 2 ^ 52 ≤ m * m' := hfull.trans (Nat.le_mul_of_pos_right m hm')
    rw [spacing_mul_pow hpos]
    have := (Nat.le_log2 hpos.ne').mpr hlog
    omega
  refine ⟨m * m' * 2 ^ (k + k' - 1074), ?_, ?_⟩
  · rw [← Nat.cast_mul, unitsOfOne, Nat.mul_assoc (m * m'), ← Nat.pow_add,
      Nat.sub_add_cancel (by omega), Nat.pow_add, Nat.mul_mul_mul_comm]
  · have hround := unpacks_roundWithAccuracy .positive hpos hspacing
    rw [← hexponent] at hround
    exact hround

/-- **A product of two doubles from one on is a number** if the exact product is in the range. -/
theorem isFinite_mul {x y : Float} (hx : isFinite x = true) (hy : isFinite y = true)
    (hx1 : (unitsOfOne : Int) ≤ units x) (hy1 : (unitsOfOne : Int) ≤ units y)
    (h : units x * units y < (overflowBound * unitsOfOne : Nat)) : isFinite (x * y) = true := by
  obtain ⟨c, hc, hmul⟩ := unpacks_mul (unpacks_of_isFinite x hx) (unpacks_of_isFinite y hy) hx1 hy1
  rw [← hc, Int.ofNat_lt] at h
  have hlt : c < overflowBound := Nat.lt_of_mul_lt_mul_right h
  exact (packed_of_lt rfl hmul ((rounded_lt_top_iff c).mpr hlt)).1

/-! ## Words as doubles -/

/-- Half of the distance between the largest doubles. -/
def halfStep : Nat := 2 ^ 970

theorem halfStep_pos : 0 < halfStep := pow_pos two_pos _

theorem overflowBound_eq : overflowBound = (2 ^ 54 - 1) * halfStep * unitsOfOne := by
  have hexponent : topExponent - 1 = 970 + 1074 := rfl
  rw [halfStep, unitsOfOne, Nat.mul_assoc, ← Nat.pow_add, overflowBound, hexponent]

theorem mul_unitsOfOne_lt {n : Nat} (h : n < 2 ^ 64) : n * unitsOfOne < overflowBound := by
  have hpow : 2 ^ 64 ≤ (2 ^ 54 - 1) * halfStep := by decide +kernel
  rw [overflowBound_eq]
  exact Nat.mul_lt_mul_of_pos_right (h.trans_le hpow) unitsOfOne_pos

theorem isFinite_toFloat (n : UInt64) :
    isFinite n.toFloat = true ∧ units n.toFloat = rounded (n.toNat * unitsOfOne) := by
  have hvalue : ((n.toNat : Int) * 2 ^ 1074) = (n.toNat * unitsOfOne : Nat) := by
    rw [Nat.cast_mul, unitsOfOne, Nat.cast_pow]
    rfl
  have hnormal := unpacks_normalize n.toNat 1074
  rw [hvalue] at hnormal
  have happly := roundedInt_apply .positive (n.toNat * unitsOfOne)
  rw [Sign.apply, Sign.apply] at happly
  rw [happly] at hnormal
  refine packed_of_lt rfl hnormal ?_
  rw [Int.natAbs_natCast, rounded_lt_top_iff]
  exact mul_unitsOfOne_lt n.toNat_lt

theorem isInf_eq_false {x : Float} (h : isFinite x = true) : x.isInf = false := by
  rw [isFinite_iff_exponentField] at h
  change x.toModel.unpack.isInf = false
  rw [unpack_eq, if_neg h]
  split
  · split
    · rfl
    · rfl
  · rfl

end HiddenTarget.Decimal
