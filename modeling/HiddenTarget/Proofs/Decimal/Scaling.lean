import HiddenTarget.Decimal.Literal
import HiddenTarget.Proofs.Decimal.Ends
import HiddenTarget.Proofs.Decimal.Grammar
import HiddenTarget.Proofs.Decimal.Product

/-!
# Scaled doubles

`Literal.scaled?` rounds the leading digits, the power of ten and their product, and there is no
answer if the product is infinite. Each rounding adds one part in `2 ^ 53` at most, so there is an
answer for digits whose exact value is up to `fourthEnd`: `isSome_scaleUp?`. The leading digits
of a literal are never more than the literal itself.
-/

namespace HiddenTarget.Decimal

namespace Literal

/-! ## Powers of ten -/

/-- Two roundings do not lead beyond the range, and leave space for a third one. -/
theorem mul_lt_overflowBound {m t a b : Nat} (h : m * t ≤ fourthEnd)
    (ha : a * 2 ^ 53 ≤ m * unitsOfOne * (2 ^ 53 + 1))
    (hb : b * 2 ^ 53 ≤ t * unitsOfOne * (2 ^ 53 + 1)) : a * b < overflowBound * unitsOfOne := by
  have hsquare : (2 ^ 54 - 7) * (2 ^ 53 + 1) ^ 2 < (2 ^ 54 - 1) * (2 ^ 53) ^ 2 := by decide
  have hpos : 0 < halfStep * unitsOfOne ^ 2 :=
    Nat.mul_pos halfStep_pos (Nat.pow_pos unitsOfOne_pos)
  refine Nat.lt_of_mul_lt_mul_right (a := (2 ^ 53) ^ 2) ?_
  rw [overflowBound_eq]
  rw [fourthEnd] at h
  generalize halfStep = p at h hpos ⊢
  generalize unitsOfOne = u at ha hb hpos ⊢
  calc
    a * b * (2 ^ 53) ^ 2 = a * 2 ^ 53 * (b * 2 ^ 53) := by ring
    _ ≤ m * u * (2 ^ 53 + 1) * (t * u * (2 ^ 53 + 1)) := Nat.mul_le_mul ha hb
    _ = m * t * (2 ^ 53 + 1) ^ 2 * u ^ 2 := by ring
    _ ≤ (2 ^ 54 - 7) * p * (2 ^ 53 + 1) ^ 2 * u ^ 2 :=
      Nat.mul_le_mul_right _ (Nat.mul_le_mul_right _ h)
    _ = (2 ^ 54 - 7) * (2 ^ 53 + 1) ^ 2 * (p * u ^ 2) := by ring
    _ < (2 ^ 54 - 1) * (2 ^ 53) ^ 2 * (p * u ^ 2) := Nat.mul_lt_mul_of_pos_right hsquare hpos
    _ = (2 ^ 54 - 1) * p * u * u * (2 ^ 53) ^ 2 := by ring

/-- The powers of ten that doubles have are numbers, and none is too large by more than one part
in `2 ^ 53`. -/
theorem tenPower_spec : ∀ n ≤ 308, isFinite (tenPower n) = true ∧
    unitsOfOne ≤ units (tenPower n) ∧
    units (tenPower n) * 2 ^ 53 ≤ (10 ^ n * unitsOfOne : Nat) * (2 ^ 53 + 1 : Nat) := by
  decide +kernel

theorem isSome_scaleUp? {m n : Nat} (hm : 0 < m) (hword : m < 2 ^ 64) (hn : n ≤ 308)
    (h : m * 10 ^ n ≤ fourthEnd) : (scaleUp? (UInt64.ofNat m).toFloat n).isSome = true := by
  obtain ⟨hten, htenOne, htenLe⟩ := tenPower_spec n hn
  obtain ⟨hfinite, hunits⟩ := isFinite_toFloat (UInt64.ofNat m)
  rw [UInt64.toNat_ofNat_of_lt' hword] at hunits
  have hone : (unitsOfOne : Int) ≤ units (UInt64.ofNat m).toFloat := by
    rw [hunits, Nat.cast_le]
    exact pow_le_rounded (Nat.le_mul_of_pos_left _ hm)
  have hproduct : units (UInt64.ofNat m).toFloat * units (tenPower n) <
      (overflowBound * unitsOfOne : Nat) := by
    obtain ⟨t, ht⟩ := Int.eq_ofNat_of_zero_le ((Int.natCast_nonneg _).trans htenOne)
    rw [ht] at htenLe ⊢
    rw [hunits, ← Nat.cast_mul, Nat.cast_lt]
    refine mul_lt_overflowBound h (rounded_mul_le _) ?_
    exact_mod_cast htenLe
  have hmul := isFinite_mul hfinite hten hone htenOne hproduct
  rw [scaleUp?, if_pos hn]
  simp only [isInf_eq_false hmul]
  rfl

/-! ## Leading digits -/

variable {n : Nat} {ds : List Char} {c : Char}

theorem digitValue_lt (hc : c.isDigit = true) : (digit? c).getD 0 = c.toNat - '0'.toNat ∧
    c.toNat - '0'.toNat < 10 := by
  rw [digit?_of_isDigit hc]
  rw [Char.isDigit, Bool.and_eq_true, decide_eq_true_eq, decide_eq_true_eq] at hc
  have hhigh : c.toNat ≤ 57 := UInt32.le_iff_toNat_le.mp hc.2
  have hzero : '0'.toNat = 48 := rfl
  exact ⟨rfl, by omega⟩

theorem zero_lt_of_isDigit (hc : c.isDigit = true) (hzero : c ≠ '0') : '0'.toNat < c.toNat := by
  rw [Char.isDigit, Bool.and_eq_true, decide_eq_true_eq, decide_eq_true_eq] at hc
  refine Nat.lt_of_le_of_ne (UInt32.le_iff_toNat_le.mp hc.1) fun heq => hzero ?_
  exact Char.toNat_inj.mp heq.symm

theorem takeFitting_cons (n : Nat) (c : Char) (ds : List Char) :
    takeFitting n (c :: ds) =
      if n * 10 + (digit? c).getD 0 ≤ IntegerRange.uint64.top then
        ((takeFitting (n * 10 + (digit? c).getD 0) ds).1,
          (takeFitting (n * 10 + (digit? c).getD 0) ds).2 + 1)
      else (n, 0) := rfl

theorem mul_pow_le_ofDigitChars (ds : List Char) (n : Nat) :
    n * 10 ^ ds.length ≤ Nat.ofDigitChars 10 ds n := by
  induction ds generalizing n with
  | nil => exact (Nat.mul_one n).le
  | cons c ds ih =>
      rw [List.length_cons, Nat.pow_succ', ← Nat.mul_assoc, Nat.ofDigitChars_cons]
      exact (Nat.mul_le_mul_right _ (by omega)).trans (ih _)

structure Fitting (n : Nat) (ds : List Char) (taken : Nat × Nat) : Prop where
  count : taken.2 ≤ ds.length
  value : taken.1 * 10 ^ (ds.length - taken.2) ≤ Nat.ofDigitChars 10 ds n
  start : n ≤ taken.1
  fits : taken.1 ≤ max n IntegerRange.uint64.top

theorem fitting_takeFitting (hds : ∀ c ∈ ds, c.isDigit = true) (n : Nat) :
    Fitting n ds (takeFitting n ds) := by
  induction ds generalizing n with
  | nil => exact ⟨Nat.le_refl 0, (Nat.mul_one n).le, Nat.le_refl n, le_max_left _ _⟩
  | cons c ds ih =>
      have hvalue := (digitValue_lt (hds c List.mem_cons_self)).1
      have hrest := ih (fun d hd => hds d (List.mem_cons_of_mem c hd))
        (n * 10 + (digit? c).getD 0)
      rw [takeFitting_cons]
      split
      · next hfits =>
          refine ⟨Nat.succ_le_succ hrest.count, ?_, ?_, ?_⟩
          · rw [List.length_cons, Nat.add_sub_add_right, Nat.ofDigitChars_cons, Nat.mul_comm 10,
              ← hvalue]
            exact hrest.value
          · exact Nat.le_trans (by omega) hrest.start
          · exact hrest.fits.trans (max_le (hfits.trans (le_max_right _ _)) (le_max_right _ _))
      · exact ⟨Nat.zero_le _, mul_pow_le_ofDigitChars _ n, Nat.le_refl n, le_max_left _ _⟩

theorem takeFitting_of_le (hds : ∀ c ∈ ds, c.isDigit = true)
    (h : (n + 1) * 10 ^ ds.length ≤ IntegerRange.uint64.top) :
    (takeFitting n ds).2 = ds.length ∧ (takeFitting n ds).1 < (n + 1) * 10 ^ ds.length := by
  induction ds generalizing n with
  | nil => exact ⟨rfl, by rw [List.length_nil, Nat.pow_zero, Nat.mul_one]; exact Nat.lt_succ_self n⟩
  | cons c ds ih =>
      obtain ⟨hvalue, hlt⟩ := digitValue_lt (hds c List.mem_cons_self)
      rw [List.length_cons, Nat.pow_succ', ← Nat.mul_assoc] at h ⊢
      have hstep : (n * 10 + (digit? c).getD 0 + 1) * 10 ^ ds.length ≤
          (n + 1) * 10 * 10 ^ ds.length :=
        Nat.mul_le_mul_right _ (by omega)
      have hfits : n * 10 + (digit? c).getD 0 ≤ IntegerRange.uint64.top :=
        (Nat.le_succ _).trans ((Nat.le_mul_of_pos_right _ (by positivity)).trans (hstep.trans h))
      obtain ⟨hcount, hbound⟩ := ih (fun d hd => hds d (List.mem_cons_of_mem c hd)) (hstep.trans h)
      rw [takeFitting_cons, if_pos hfits]
      exact ⟨congrArg (· + 1) hcount, hbound.trans_le hstep⟩

theorem isSome_scaled? {l : Literal} (hgiven : (l.exponent.getD 0).natAbs ≤ IntegerRange.int32.top)
    (h : 0 ≤ l.leading.2 + l.exponent.getD 0 →
      (scaleUp? (UInt64.ofNat l.leading.1).toFloat
        (l.leading.2 + l.exponent.getD 0).toNat).isSome = true) : l.scaled?.isSome = true := by
  simp only [scaled?, if_pos hgiven, Option.isSome_map]
  split
  · next hsign => exact h hsign
  · rfl

/-! ## Literals as they are printed -/

variable {negative : Bool} {w f : List Char} {e : Int}

/-- A literal with few digits in front of the point, some behind it and no exponent is scaled
down. -/
theorem isSome_scaled?_of_length_le (hw : ∀ c ∈ w, c.isDigit = true) (hf : IsDigits f)
    (hlength : w.length ≤ 16) :
    (scaled? ⟨negative, w, some f, none⟩).isSome = true := by
  have hpow : 10 ^ w.length ≤ 10 ^ 16 := Nat.pow_le_pow_right (by decide) hlength
  have htop : IntegerRange.uint64.top = 18446744073709551615 := rfl
  obtain ⟨hcount, hbound⟩ := takeFitting_of_le (n := 0) hw (by omega)
  obtain ⟨c, rest, rfl⟩ := List.exists_cons_of_ne_nil hf.1
  have hdigit := digitValue_lt (hf.2 c List.mem_cons_self)
  have hmore : 0 < (takeFitting (takeFitting 0 w).1 (c :: rest)).2 := by
    rw [takeFitting_cons, if_pos (by omega)]
    exact Nat.succ_pos _
  refine isSome_scaled? (Nat.zero_le _) fun hsign => ?_
  simp only [leading, Option.getD_some, Option.getD_none] at hsign
  omega

/-- A literal in scientific notation has a scaled double if its exact value is not above
`fourthEnd`. -/
theorem isSome_scaled?_of_le (hc : c.isDigit = true) (hzero : c ≠ '0')
    (hds : ∀ d ∈ ds, d.isDigit = true) {fraction : Option (List Char)}
    (hfraction : fraction.getD [] = ds) (hlow : -1074 ≤ e) (hhigh : e ≤ 308)
    (h : (Nat.ofDigitChars 10 (c :: ds) 0 : ℚ) * (10 : ℚ) ^ (e - ds.length) ≤ fourthEnd) :
    (scaled? ⟨negative, [c], fraction, some e⟩).isSome = true := by
  obtain ⟨hvalue, hlt⟩ := digitValue_lt hc
  have htop : IntegerRange.uint64.top = 18446744073709551615 := rfl
  have hfirst : takeFitting 0 [c] = ((digit? c).getD 0, 1) := by
    rw [takeFitting_cons, if_pos (by omega), Nat.zero_mul, Nat.zero_add]
    rfl
  have hpos : 0 < (digit? c).getD 0 := by
    rw [hvalue]
    exact Nat.sub_pos_of_lt (zero_lt_of_isDigit hc hzero)
  have hfitting := fitting_takeFitting hds ((digit? c).getD 0)
  rw [Nat.ofDigitChars_cons, Nat.mul_zero, Nat.zero_add, ← hvalue] at h
  have hleading : leading ⟨negative, [c], fraction, some e⟩ =
      ((takeFitting ((digit? c).getD 0) ds).1,
        -((takeFitting ((digit? c).getD 0) ds).2 : Int)) := by
    simp only [leading, hfirst, hfraction, List.length_singleton]
    simp
  refine isSome_scaled? ?_ fun hsign => ?_
  · change e.natAbs ≤ 2147483647
    omega
  · rw [hleading] at hsign ⊢
    dsimp only [Option.getD_some] at hsign ⊢
    generalize takeFitting ((digit? c).getD 0) ds = taken at hfitting hsign ⊢
    obtain ⟨m, count⟩ := taken
    dsimp only at hfitting hsign ⊢
    refine isSome_scaleUp? ?_ ?_ ?_ ?_
    · exact Nat.lt_of_lt_of_le hpos hfitting.start
    · have := hfitting.fits
      omega
    · omega
    · have hsplit : (10 : ℚ) ^ (-(count : Int) + e).toNat =
          10 ^ (ds.length - count) * 10 ^ (e - ds.length) := by
        have hcount := hfitting.count
        rw [← zpow_natCast, Int.toNat_of_nonneg hsign, ← zpow_natCast,
          ← zpow_add₀ (by norm_num : (10 : ℚ) ≠ 0)]
        exact congrArg _ (by omega)
      have hdigits := (Nat.cast_le (α := ℚ)).mpr hfitting.value
      rw [Nat.cast_mul, Nat.cast_pow, Nat.cast_ofNat] at hdigits
      have hle : (m : ℚ) * 10 ^ (-(count : Int) + e).toNat ≤ fourthEnd := by
        rw [hsplit, ← mul_assoc]
        exact (mul_le_mul_of_nonneg_right hdigits (by positivity)).trans h
      refine (Nat.cast_le (α := ℚ)).mp ?_
      rwa [Nat.cast_mul, Nat.cast_pow, Nat.cast_ofNat]

end Literal

end HiddenTarget.Decimal
