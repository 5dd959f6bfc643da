import HiddenTarget.Decimal.Shortest
import HiddenTarget.Proofs.Decimal.Product

/-!
# The interval of a shortest decimal

Whatever grid it is found on, the shortest decimal of a double is positive and not above the upper
end of the reals that are rounded to the double: `withinEnds_shortest`. The comparison is one of
natural numbers there, where both sides have been scaled by `10 ^ (-k)` and `2 ^ (-q)`; in
rationals the scale is cancelled.
-/

namespace HiddenTarget.Decimal

def Digits.value (d : Digits) : ℚ := d.coefficient * (10 : ℚ) ^ d.exponent

/-- The upper end of the reals that are rounded to the double of a bit pattern. -/
def upperEnd (bits : Nat) : ℚ :=
  ((magnitude bits).mantissa + 1 / 2) * (2 : ℚ) ^ (magnitude bits).exponent

/-- A decimal that can be printed for the double of a bit pattern. -/
structure Digits.WithinEnds (d : Digits) (bits : Nat) : Prop where
  pos : 0 < d.coefficient
  le : d.value ≤ upperEnd bits
  exponent : -1074 ≤ d.exponent

variable {bits : Nat}

theorem magnitude_eq (bits : Nat) :
    magnitude bits =
      if bits / leadingBit = 0 then ⟨bits % leadingBit, -1074⟩
      else ⟨leadingBit + bits % leadingBit, ((bits / leadingBit : Nat) : Int) - 1075⟩ := rfl

theorem mantissa_pos (h : 0 < bits) : 0 < (magnitude bits).mantissa := by
  rw [magnitude_eq]
  split
  · next hfield =>
      have hlt := (Nat.div_eq_zero_iff_lt (by decide : 0 < leadingBit)).mp hfield
      rwa [Nat.mod_eq_of_lt hlt]
  · exact Nat.add_pos_left (by decide) _

theorem le_exponent (bits : Nat) : -1074 ≤ (magnitude bits).exponent := by
  rw [magnitude_eq]
  split
  · exact Int.le_refl _
  · next hfield =>
      obtain ⟨field, hfield⟩ := Nat.exists_eq_succ_of_ne_zero hfield
      rw [hfield]
      dsimp only
      omega

theorem pow_toNat {b : ℚ} (hb : b ≠ 0) (k : Int) : b ^ k.toNat = b ^ k * b ^ (-k).toNat := by
  rw [← zpow_natCast, ← zpow_natCast b (-k).toNat, ← zpow_add₀ hb]
  congr 1
  omega

/-! ## Grid points -/

theorem Scaled.le_upperEnd (h : 0 < bits) {k : Int} {d : Nat}
    (hit : (Scaled.ofBits bits k).hits d = true) :
    0 < d ∧ (d : ℚ) * (10 : ℚ) ^ k ≤ upperEnd bits := by
  have hm := mantissa_pos h
  have hup : 0 < Nat.pow 10 (-k).toNat <<< ((magnitude bits).exponent - 2).toNat := by
    rw [Nat.shiftLeft_eq]
    exact Nat.mul_pos (Nat.pow_pos (by decide)) (Nat.two_pow_pos _)
  have hlower : 0 < (Scaled.ofBits bits k).lower := by
    refine Nat.mul_pos ?_ hup
    split
    · omega
    · omega
  have hends : 0 < d * (Scaled.ofBits bits k).step ∧
      d * (Scaled.ofBits bits k).step ≤ (Scaled.ofBits bits k).upper := by
    rw [Scaled.hits] at hit
    split at hit
    · have hit := of_decide_eq_true hit
      omega
    · have hit := of_decide_eq_true hit
      omega
  refine ⟨Nat.pos_of_mul_pos_right hends.1, ?_⟩
  have hle : d * (10 ^ k.toNat * 2 ^ (-((magnitude bits).exponent - 2)).toNat) ≤
      (4 * (magnitude bits).mantissa + 2) *
        (10 ^ (-k).toNat * 2 ^ ((magnitude bits).exponent - 2).toNat) := by
    rw [← Nat.shiftLeft_eq, ← Nat.shiftLeft_eq]
    exact hends.2
  have hcast := (Nat.cast_le (α := ℚ)).mpr hle
  push_cast at hcast
  rw [pow_toNat (by norm_num : (10 : ℚ) ≠ 0) k,
    pow_toNat (by norm_num : (2 : ℚ) ≠ 0) ((magnitude bits).exponent - 2)] at hcast
  have hscale : (0 : ℚ) < 10 ^ (-k).toNat * 2 ^ (-((magnitude bits).exponent - 2)).toNat := by
    positivity
  have hquarter : (2 : ℚ) ^ (magnitude bits).exponent =
      2 ^ ((magnitude bits).exponent - 2) * 4 := by
    rw [zpow_sub₀ (by norm_num)]
    norm_num
  rw [upperEnd, hquarter]
  refine le_of_mul_le_mul_right ?_ hscale
  linarith

theorem Scaled.hits_of_pick {s : Scaled} {tie : Tie} {d : Nat} (h : s.pick tie = some d) :
    s.hits d = true := by
  have hround : roundHalf tie s.value s.step = s.value / s.step ∨
      roundHalf tie s.value s.step = s.value / s.step + 1 := by
    simp only [roundHalf]
    split_ifs
    · exact .inl rfl
    · exact .inr rfl
    · cases tie with
      | toEven => exact .inl rfl
      | up => exact .inr rfl
    · cases tie with
      | toEven => exact .inr rfl
      | up => exact .inr rfl
  simp only [pick] at h
  split_ifs at h with hbelow habove habove
  · cases h
    rcases hround with hround | hround
    · rw [hround, hbelow]
    · rw [hround, habove]
  · cases h
    exact hbelow
  · cases h
    exact habove

/-! ## The decimal that is found -/

/-- Where no grid has a point, the decimal is the double itself. -/
theorem exact_value (bits : Nat) (tie : Tie) (k : Int) :
    (firstHit tie bits 0 k).value =
      (magnitude bits).mantissa * (2 : ℚ) ^ (magnitude bits).exponent := by
  generalize hv : magnitude bits = v
  obtain ⟨m, e⟩ := v
  simp only [firstHit, Digits.value, hv, Nat.shiftLeft_eq]
  rcases Int.le_total 0 e with he | he
  · obtain ⟨n, rfl⟩ := Int.eq_ofNat_of_zero_le he
    have hneg : (-(n : Int)).toNat = 0 := by omega
    rw [min_eq_right he, hneg]
    simp
  · obtain ⟨n, hn⟩ := Int.exists_eq_neg_ofNat he
    subst hn
    have hpow : (5 : ℚ) ^ n * (10 : ℚ) ^ (-(n : Int)) = (2 : ℚ) ^ (-(n : Int)) := by
      rw [zpow_neg, zpow_neg, zpow_natCast, zpow_natCast, show (10 : ℚ) = 5 * 2 by norm_num,
        mul_pow]
      field_simp
    rw [min_eq_left he, ← hpow]
    simp [mul_assoc]

theorem withinEnds_firstHit (h : 0 < bits) (tie : Tie) (n : Nat) {k : Int}
    (hk : -1074 + n ≤ k + 1) : (firstHit tie bits n k).WithinEnds bits := by
  induction n generalizing k with
  | zero =>
      have hm := mantissa_pos h
      have hpow := zpow_pos (two_pos : (0 : ℚ) < 2) (magnitude bits).exponent
      refine ⟨?_, ?_, ?_⟩
      · refine Nat.mul_pos ?_ (Nat.pow_pos (by decide))
        rw [Nat.shiftLeft_eq]
        exact Nat.mul_pos hm (Nat.two_pow_pos _)
      · rw [exact_value, upperEnd]
        nlinarith
      · exact le_min (le_exponent bits) (by decide)
  | succ n ih =>
      rw [firstHit]
      split
      · next d hd =>
          obtain ⟨hpos, hle⟩ := Scaled.le_upperEnd h (Scaled.hits_of_pick hd)
          exact ⟨hpos, hle, by dsimp only; omega⟩
      · exact ih (by omega)

/-- **The shortest decimal of a double** is positive and not above the upper end of its
interval. -/
theorem withinEnds_shortest (h : 0 < bits) (tie : Tie) : (shortest tie bits).WithinEnds bits := by
  have hexponent := le_exponent bits
  refine withinEnds_firstHit h tie 24 ?_
  simp only [coarseGrid]
  omega

/-! ## The largest doubles -/

/-- The upper end of the fourth largest double. -/
def fourthEnd : Nat := (2 ^ 54 - 7) * halfStep

theorem upperEnd_le_of_le {m e : Nat} (hm : (magnitude bits).mantissa ≤ m)
    (he : (magnitude bits).exponent ≤ e) : upperEnd bits ≤ (m + 1 / 2) * (2 : ℚ) ^ e := by
  have hcast : ((magnitude bits).mantissa : ℚ) ≤ m := Nat.cast_le.mpr hm
  have hpow : (2 : ℚ) ^ (magnitude bits).exponent ≤ 2 ^ e := by
    rw [← zpow_natCast]
    exact zpow_le_zpow_right₀ one_le_two he
  rw [upperEnd]
  gcongr

theorem upperEnd_le (h : bits + 3 < infinityBits) : upperEnd bits ≤ fourthEnd := by
  have hvalue := magnitude_eq bits
  have hsplit := Nat.div_add_mod' bits leadingBit
  have hmod := Nat.mod_lt bits (by decide : 0 < leadingBit)
  generalize bits / leadingBit = field at hsplit hvalue
  generalize bits % leadingBit = fraction at hsplit hvalue hmod
  rw [leadingBit] at hsplit hmod hvalue
  rw [infinityBits] at h
  have hend : (fourthEnd : ℚ) = (2 ^ 54 - 7 : Nat) * 2 ^ 970 := by
    rw [fourthEnd, halfStep, Nat.cast_mul, Nat.cast_pow, Nat.cast_ofNat]
  have hpow : (0 : ℚ) < 2 ^ 970 := by positivity
  -- The three doubles that are left out are all in the topmost octave.
  rcases Nat.lt_or_ge field 2046 with hfield | hfield
  · have hm : (magnitude bits).mantissa ≤ 2 ^ 53 := by
      rw [hvalue]
      split
      · dsimp only
        omega
      · dsimp only
        omega
    have he : (magnitude bits).exponent ≤ (970 : Nat) := by
      rw [hvalue]
      split
      · dsimp only
        omega
      · dsimp only
        omega
    have hle := upperEnd_le_of_le hm he
    rw [hend]
    generalize (2 : ℚ) ^ 970 = p at hle hpow ⊢
    norm_num at hle ⊢
    linarith
  · rw [if_neg (by omega)] at hvalue
    have hm : (magnitude bits).mantissa ≤ 2 ^ 53 - 4 := by
      rw [hvalue]
      dsimp only
      omega
    have he : (magnitude bits).exponent ≤ (971 : Nat) := by
      rw [hvalue]
      dsimp only
      omega
    have hle := upperEnd_le_of_le hm he
    have hdouble : (2 : ℚ) ^ 971 = 2 ^ 970 * 2 := pow_succ 2 970
    rw [hdouble] at hle
    rw [hend]
    generalize (2 : ℚ) ^ 970 = p at hle hpow ⊢
    norm_num at hle ⊢
    linarith

/-- The first digit of a decimal in the range belongs to a power of ten up to `10 ^ 308`. -/
theorem Digits.exponent_lt {d : Digits} {n : Nat} (hn : 10 ^ n ≤ d.coefficient)
    (h : d.value ≤ fourthEnd) : d.exponent + n < 309 := by
  have hbound : (fourthEnd : ℚ) < 10 ^ (309 : Int) := by
    have hnat : fourthEnd < 10 ^ 309 := by decide +kernel
    exact_mod_cast hnat
  have hcast : (10 : ℚ) ^ n ≤ d.coefficient := by exact_mod_cast hn
  have hpow : (10 : ℚ) ^ (d.exponent + n) ≤ fourthEnd := by
    refine le_trans ?_ h
    rw [add_comm, zpow_add₀ (by norm_num), zpow_natCast, value]
    exact mul_le_mul_of_nonneg_right hcast (by positivity)
  exact (zpow_lt_zpow_iff_right₀ (by norm_num)).mp (hpow.trans_lt hbound)

end HiddenTarget.Decimal
