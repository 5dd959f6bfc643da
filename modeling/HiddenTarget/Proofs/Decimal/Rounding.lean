import HiddenTarget.Decimal.Binary
import Mathlib.Algebra.Order.Ring.Nat
import Mathlib.Tactic.Ring

/-!
# Rounding to the size of a mantissa

The exact value of a double is a whole number of units of `2^-1074`. `Decimal.rounded` takes such
a number to the nearest one that has a mantissa of 53 bits, a tie going to the even mantissa. What
lies below a number of this kind is not rounded above it, `rounded_le`, and a power of two is
reached from half a step below it on, `rounded_lt_iff`.
-/

namespace HiddenTarget.Decimal

/-! ## The nearest integer -/

section Nearest

variable {n d c : Nat}

theorem roundHalf_toEven (n d : Nat) :
    roundHalf .toEven n d =
      if 2 * (n % d) < d ∨ 2 * (n % d) = d ∧ n / d % 2 = 0 then n / d else n / d + 1 := by
  simp only [roundHalf]
  split
  · next h => rw [if_pos (.inl h)]
  · next h =>
      split
      · next h' => rw [if_neg (by omega)]
      · next h' =>
          have htie : 2 * (n % d) = d := by omega
          simp [htie]

theorem roundHalf_mul_right (n d : Nat) (hc : 0 < c) :
    roundHalf .toEven (n * c) (d * c) = roundHalf .toEven n d := by
  have hlt : 2 * (n % d * c) < d * c ↔ 2 * (n % d) < d := by
    rw [← Nat.mul_assoc, Nat.mul_lt_mul_right hc]
  have heq : 2 * (n % d * c) = d * c ↔ 2 * (n % d) = d := by
    rw [← Nat.mul_assoc, Nat.mul_left_inj hc.ne']
  rw [roundHalf_toEven, roundHalf_toEven, Nat.mul_mod_mul_right, Nat.mul_div_mul_right n d hc]
  simp only [hlt, heq]

theorem le_roundHalf (hd : 0 < d) (h : c * d ≤ n) : c ≤ roundHalf .toEven n d := by
  have hq : c ≤ n / d := (Nat.le_div_iff_mul_le hd).mpr h
  rw [roundHalf_toEven]
  split
  · exact hq
  · exact Nat.le_succ_of_le hq

theorem roundHalf_le (hd : 0 < d) (h : n ≤ c * d) : roundHalf .toEven n d ≤ c := by
  have hsplit := Nat.div_add_mod n d
  rcases Nat.lt_or_ge (n / d) c with hq | hq
  · rw [roundHalf_toEven]
    split
    · exact hq.le
    · exact hq
  · -- Then the quotient is exact.
    have hle : c * d ≤ d * (n / d) := by
      rw [Nat.mul_comm c]
      exact Nat.mul_le_mul_left d hq
    have hzero : n % d = 0 := by omega
    have hc : n / d = c := by
      rw [hzero] at hsplit
      exact Nat.le_antisymm (Nat.div_le_of_le_mul (by rwa [Nat.mul_comm])) hq
    rw [roundHalf_toEven, if_pos (.inl (by omega)), hc]

theorem roundHalf_lt_even_iff (hd : 0 < d) (hc : 0 < c) :
    roundHalf .toEven n d < 2 * c ↔ 2 * n < (4 * c - 1) * d := by
  have hsplit := Nat.div_add_mod n d
  have hmod := Nat.mod_lt n hd
  obtain ⟨k, rfl⟩ : ∃ k, c = k + 1 := ⟨c - 1, by omega⟩
  have hodd : (4 * (k + 1) - 1) * d = 2 * (d * (2 * k + 1)) + d := by
    rw [show 4 * (k + 1) - 1 = 2 * (2 * k + 1) + 1 by omega]
    ring
  rw [hodd, roundHalf_toEven]
  rcases Nat.lt_trichotomy (n / d) (2 * k + 1) with hq | hq | hq
  · have hle : d * (n / d + 1) ≤ d * (2 * k + 1) := Nat.mul_le_mul_left d hq
    rw [Nat.mul_add, Nat.mul_one] at hle
    refine iff_of_true ?_ (by omega)
    split
    · omega
    · omega
  · rw [hq] at hsplit ⊢
    split
    · omega
    · omega
  · have hle : d * (2 * k + 1 + 1) ≤ d * (n / d) := Nat.mul_le_mul_left d hq
    rw [Nat.mul_add, Nat.mul_one] at hle
    refine iff_of_false ?_ (by omega)
    split
    · omega
    · omega

end Nearest

/-! ## 53 bits -/

/-- The distance between neighbours with 53 bits is `2 ^ spacing n` around `n`. -/
def spacing (n : Nat) : Nat := n.log2 - 52

/-- The number nearest to this one that has a mantissa of 53 bits. -/
def rounded (n : Nat) : Nat := roundHalf .toEven n (2 ^ spacing n) * 2 ^ spacing n

variable {n m k : Nat}

theorem lt_pow_spacing (n : Nat) : n < 2 ^ 53 * 2 ^ spacing n := by
  rw [← Nat.pow_add]
  refine Nat.lt_of_lt_of_le Nat.lt_log2_self (Nat.pow_le_pow_right (by decide) ?_)
  rw [spacing]
  omega

theorem pow_spacing_le (h : 0 < spacing n) : 2 ^ 52 * 2 ^ spacing n ≤ n := by
  have hlog : 52 + spacing n = n.log2 := by
    rw [spacing] at h ⊢
    omega
  have hn : n ≠ 0 := by
    rintro rfl
    simp [spacing] at h
  rw [← Nat.pow_add, hlog]
  exact Nat.log2_self_le hn

theorem roundHalf_spacing_le (n : Nat) : roundHalf .toEven n (2 ^ spacing n) ≤ 2 ^ 53 :=
  roundHalf_le (Nat.two_pow_pos _) (lt_pow_spacing n).le

theorem le_roundHalf_spacing (h : 0 < spacing n) :
    2 ^ 52 ≤ roundHalf .toEven n (2 ^ spacing n) :=
  le_roundHalf (Nat.two_pow_pos _) (pow_spacing_le h)

theorem spacing_le (hm : m < 2 ^ 53) (h : n ≤ m * 2 ^ k) : spacing n ≤ k := by
  rcases Nat.eq_zero_or_pos (spacing n) with hzero | hpos
  · omega
  · have hlt : 2 ^ (52 + spacing n) < 2 ^ (53 + k) := by
      rw [Nat.pow_add, Nat.pow_add]
      refine Nat.lt_of_le_of_lt ((pow_spacing_le hpos).trans h) ?_
      exact Nat.mul_lt_mul_of_pos_right hm (Nat.two_pow_pos k)
    have := (Nat.pow_lt_pow_iff_right (by decide)).mp hlt
    omega

theorem rounded_le (hm : m < 2 ^ 53) (h : n ≤ m * 2 ^ k) : rounded n ≤ m * 2 ^ k := by
  have hpow : 2 ^ k = 2 ^ (k - spacing n) * 2 ^ spacing n := by
    rw [← Nat.pow_add, Nat.sub_add_cancel (spacing_le hm h)]
  rw [hpow, ← Nat.mul_assoc] at h ⊢
  exact Nat.mul_le_mul_right _ (roundHalf_le (Nat.two_pow_pos _) h)

theorem rounded_eq_self (k : Nat) (hm : m < 2 ^ 53) : rounded (m * 2 ^ k) = m * 2 ^ k := by
  have hle := rounded_le hm (Nat.le_refl (m * 2 ^ k))
  have hpow : 2 ^ k = 2 ^ (k - spacing (m * 2 ^ k)) * 2 ^ spacing (m * 2 ^ k) := by
    rw [← Nat.pow_add, Nat.sub_add_cancel (spacing_le hm (Nat.le_refl _))]
  have hge : m * 2 ^ (k - spacing (m * 2 ^ k)) * 2 ^ spacing (m * 2 ^ k) = m * 2 ^ k := by
    rw [Nat.mul_assoc, ← hpow]
  refine Nat.le_antisymm hle (hge.symm.trans_le ?_)
  exact Nat.mul_le_mul_right _ (le_roundHalf (Nat.two_pow_pos _) hge.le)

/-- A number is rounded to a power of two and beyond from half a step below it on. -/
theorem rounded_lt_iff (n k : Nat) :
    rounded n < 2 ^ 53 * 2 ^ (k + 1) ↔ n < (2 ^ 54 - 1) * 2 ^ k := by
  have hdouble : 2 ^ (k + 1) = 2 * 2 ^ k := Nat.pow_succ'
  rcases Nat.lt_trichotomy (spacing n) (k + 1) with hspacing | hspacing | hspacing
  · -- Both are far below the power.
    have hpow : 2 ^ spacing n ≤ 2 ^ k := Nat.pow_le_pow_right (by decide) (by omega)
    have hn := lt_pow_spacing n
    have hround := Nat.mul_le_mul_right (2 ^ spacing n) (roundHalf_spacing_le n)
    rw [rounded]
    have hpos := Nat.two_pow_pos k
    refine iff_of_true ?_ ?_
    · omega
    · omega
  · have hpos := Nat.two_pow_pos (k + 1)
    have hiff := roundHalf_lt_even_iff (n := n) hpos (Nat.two_pow_pos 52)
    rw [rounded, hspacing, Nat.mul_lt_mul_right hpos]
    refine hiff.trans ?_
    rw [hdouble]
    omega
  · -- Both have reached it.
    have hpow : 2 ^ (k + 1 + 1) ≤ 2 ^ spacing n := Nat.pow_le_pow_right (by decide) hspacing
    have hquad : 2 ^ (k + 1 + 1) = 2 * 2 ^ (k + 1) := Nat.pow_succ'
    have hn := pow_spacing_le (n := n) (by omega)
    have hround := Nat.mul_le_mul_right (2 ^ spacing n) (le_roundHalf_spacing (n := n) (by omega))
    rw [rounded]
    refine iff_of_false ?_ ?_
    · omega
    · omega

end HiddenTarget.Decimal
