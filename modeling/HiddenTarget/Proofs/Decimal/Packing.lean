import HiddenTarget.Proofs.Decimal.Unpacked

/-!
# Doubles and their unpacked forms

`Decimal.units` is the exact value of a finite double, a whole number of units of `2^-1074`. A
finite double unpacks to this value, `unpacks_of_isFinite`. In the other direction a value that
is packed comes back if it is in the range, `packed_of_lt`, and is infinite otherwise,
`packed_of_le`.
-/

namespace HiddenTarget.Decimal

open Float.Model (Format UnpackedFloat)
open Float.Model.UnpackedFloat

/-- The exact value of a finite double in units of `2^-1074`. -/
def units (x : Float) : Int :=
  let m := magnitude (unsignedBits x)
  let size : Int := (m.mantissa * 2 ^ (m.exponent + 1074).toNat : Nat)
  if isNegative x then -size else size

/-! ## Fields -/

def exponentField (x : Float) : Nat := x.toBits.toNat / 2 ^ 52 % 2 ^ 11

/-- The bits of the mantissa that are stored. -/
def fraction (x : Float) : Nat := x.toBits.toNat % 2 ^ 52

def sign (x : Float) : Sign := if isNegative x then .negative else .positive

variable (x : Float)

theorem exponentField_lt : exponentField x < 2048 := Nat.mod_lt _ (by decide)

theorem fraction_lt : fraction x < 2 ^ 52 := Nat.mod_lt _ (by decide)

theorem unsignedBits_eq : unsignedBits x = exponentField x * 2 ^ 52 + fraction x := by
  rw [unsignedBits, signBit, exponentField, fraction]
  omega

theorem isFinite_iff_exponentField : isFinite x = true ↔ exponentField x ≠ 2047 := by
  have hfield := exponentField_lt x
  have hfraction := fraction_lt x
  rw [isFinite, decide_eq_true_iff, unsignedBits_eq, infinityBits]
  omega

theorem units_eq : units x = (sign x).apply
    (if exponentField x = 0 then fraction x
      else (2 ^ 52 + fraction x) * 2 ^ (exponentField x - 1) : Nat) := by
  have hfraction := fraction_lt x
  have hmagnitude : magnitude (exponentField x * 2 ^ 52 + fraction x) =
      if exponentField x = 0 then ⟨fraction x, -1074⟩
      else ⟨2 ^ 52 + fraction x, (exponentField x : Int) - 1075⟩ := by
    have hdiv : (exponentField x * 2 ^ 52 + fraction x) / leadingBit = exponentField x := by
      rw [leadingBit]
      omega
    have hmod : (exponentField x * 2 ^ 52 + fraction x) % leadingBit = fraction x := by
      rw [leadingBit]
      omega
    rw [magnitude, hdiv, hmod]
    rfl
  have hexponent : ((exponentField x : Int) - 1075 + 1074).toNat = exponentField x - 1 := by omega
  have hvalue : (magnitude (exponentField x * 2 ^ 52 + fraction x)).mantissa *
      2 ^ ((magnitude (exponentField x * 2 ^ 52 + fraction x)).exponent + 1074).toNat =
      if exponentField x = 0 then fraction x
      else (2 ^ 52 + fraction x) * 2 ^ (exponentField x - 1) := by
    rw [hmagnitude]
    split
    · exact Nat.mul_one _
    · rw [hexponent]
  rw [units, unsignedBits_eq, ← hvalue, sign]
  split
  · rfl
  · rfl

theorem toNat_unpackExponent :
    (@unpackExponent Format.binary64 x.toBits.toBitVec).toNat = exponentField x := by
  simp only [unpackExponent, BitVec.toNat_cast, BitVec.extractLsb_toNat, Nat.shiftRight_eq_div_pow]
  rfl

theorem toNat_unpackMantissa :
    (@unpackMantissa Format.binary64 x.toBits.toBitVec).toNat = fraction x := by
  simp only [unpackMantissa, BitVec.toNat_cast, BitVec.extractLsb_toNat, Nat.shiftRight_zero]
  rfl

theorem ofBitVec_unpackSign :
    Sign.ofBitVec (@unpackSign Format.binary64 x.toBits.toBitVec) = sign x := by
  have hbits : (@unpackSign Format.binary64 x.toBits.toBitVec).toNat = x.toBits.toNat / 2 ^ 63 := by
    have hlt := x.toBits.toNat_lt
    simp only [unpackSign, BitVec.toNat_cast, BitVec.extractLsb_toNat, Nat.shiftRight_eq_div_pow,
      UInt64.toNat_toBitVec]
    omega
  have hiff : @unpackSign Format.binary64 x.toBits.toBitVec = 0#1 ↔ ¬ isNegative x = true := by
    rw [← BitVec.toNat_inj, hbits, isNegative, decide_eq_true_iff, signBit]
    simp only [BitVec.toNat_ofNat]
    omega
  rw [Sign.ofBitVec, sign]
  rcases hnegative : isNegative x with _ | _
  · rw [if_pos (hiff.mpr (by rw [hnegative]; decide)), if_neg (by decide)]
  · rw [if_neg (fun h => hiff.mp h hnegative), if_pos rfl]

theorem toNat_append_implicit (b : BitVec 52) : (1#1 ++ b).toNat = 2 ^ 52 + b.toNat := by
  rw [BitVec.toNat_append, ← Nat.shiftLeft_add_eq_or_of_lt b.isLt]
  rfl

theorem unpack_eq : x.toModel.unpack =
    if exponentField x = 2047 then
      if fraction x = 0 then .infinity (sign x) else .notANumber
    else if exponentField x = 0 then
      if hfraction : fraction x = 0 then .zero (sign x)
      else .finite (sign x) (fraction x) (((0 : Nat) : Int) - 1074) (Nat.pos_of_ne_zero hfraction)
    else
      .finite (sign x) (2 ^ 52 + fraction x) (((exponentField x - 1 : Nat) : Int) - 1074)
        (Nat.add_pos_left (Nat.two_pow_pos 52) _) := by
  have hones : @unpackExponent Format.binary64 x.toBits.toBitVec = -1#_ ↔
      exponentField x = 2047 := by
    rw [← BitVec.toNat_inj, toNat_unpackExponent]
    rfl
  have hzero : @unpackExponent Format.binary64 x.toBits.toBitVec = 0#_ ↔ exponentField x = 0 := by
    rw [← BitVec.toNat_inj, toNat_unpackExponent]
    rfl
  have hempty : @unpackMantissa Format.binary64 x.toBits.toBitVec = 0#_ ↔ fraction x = 0 := by
    rw [← BitVec.toNat_inj, toNat_unpackMantissa]
    rfl
  change unpack Format.binary64 x.toBits.toBitVec = _
  simp only [unpack, hones, hzero, hempty, ofBitVec_unpackSign, toNat_unpackMantissa,
    toNat_unpackExponent, toNat_append_implicit]
  split
  · rfl
  · split
    · next h =>
        split
        · rfl
        · congr 1
          rw [h]
          rfl
    · next h =>
        have hexponent : (exponentField x : Int) - ((Format.binary64.exponentBias : Int) +
            Format.binary64.mantissaBitsWithoutImplicit) =
            ((exponentField x - 1 : Nat) : Int) - 1074 := by
          simp only [Format.exponentBias]
          omega
        congr 1

theorem unpacks_of_isFinite (h : isFinite x = true) : Unpacks x.toModel.unpack (units x) := by
  have hlt := fraction_lt x
  rw [unpack_eq, units_eq, if_neg ((isFinite_iff_exponentField x).mp h)]
  split
  · split
    · next hfraction =>
        rw [hfraction]
        cases sign x with
        | negative => exact .zero _
        | positive => exact .zero _
    · next hfraction =>
        have hunpacks := Unpacks.finite (sign x) (Nat.pos_of_ne_zero hfraction) (by omega)
          (.inr (Eq.refl 0))
        rwa [Nat.pow_zero, Nat.mul_one] at hunpacks
  · exact .finite (sign x) _ (by omega) (.inl (Nat.le_add_right _ _))

theorem isFinite_unpack_of_not_isFinite {x : Float} (h : ¬ isFinite x = true) :
    x.toModel.unpack.isFinite = false := by
  rw [isFinite_iff_exponentField, Classical.not_not] at h
  rw [unpack_eq, if_pos h]
  split
  · rfl
  · rfl

/-! ## Packing -/

theorem fields_of_toBits {x : Float} {s : Sign} {e : BitVec 11} {m : BitVec 52}
    (h : x.toBits.toBitVec = packComponents Format.binary64 s e m) :
    sign x = s ∧ exponentField x = e.toNat ∧ fraction x = m.toNat := by
  refine ⟨?_, ?_, ?_⟩
  · rw [← ofBitVec_unpackSign, h, unpackSign_packComponents, Sign.ofBitVec_toBitVec]
  · rw [← toNat_unpackExponent, h, unpackExponent_packComponents]
  · rw [← toNat_unpackMantissa, h, unpackMantissa_packComponents]

/-- The values of finite doubles are below `2 ^ 53 * 2 ^ topExponent` units. -/
def topExponent : Nat := 2045

theorem natAbs_apply (s : Sign) (n : Nat) : (s.apply n).natAbs = n := by
  cases s with
  | negative => exact Int.natAbs_neg _
  | positive => rfl

theorem lt_top_iff {m k : Nat} (hlt : m < 2 ^ 53) (hfull : 2 ^ 52 ≤ m ∨ k = 0) :
    m * 2 ^ k < 2 ^ 53 * 2 ^ topExponent ↔ k ≤ topExponent := by
  refine ⟨fun h => Nat.le_of_not_lt fun hk => ?_, fun hk => ?_⟩
  · have hm : 2 ^ 52 ≤ m := hfull.resolve_right (by omega)
    have hpow : 2 * 2 ^ topExponent ≤ 2 ^ k := by
      rw [← Nat.pow_succ']
      exact Nat.pow_le_pow_right (by decide) hk
    have hle := Nat.mul_le_mul hm hpow
    omega
  · exact Nat.lt_of_lt_of_le (Nat.mul_lt_mul_of_pos_right hlt (Nat.two_pow_pos k))
      (Nat.mul_le_mul_left _ (Nat.pow_le_pow_right (by decide) hk))

theorem pack_finite (s : Sign) {m k : Nat} (hm : 0 < m) :
    pack Format.binary64 (.finite s m ((k : Int) - 1074) hm) =
      if topExponent < k then packComponents Format.binary64 s (-1#_) 0
      else if m.log2 = 52 then
        packComponents Format.binary64 s (BitVec.ofNat _ (k + 1)) (BitVec.ofNat _ m)
      else packComponents Format.binary64 s 0#_ (BitVec.ofNat _ m) := by
  have hbiased : ((k : Int) - 1074 + (Format.binary64.exponentBias : Int) +
      Format.binary64.mantissaBitsWithoutImplicit).toNat = k + 1 := by
    change ((k : Int) - 1074 + 1023 + 52).toNat = k + 1
    omega
  have hover : 2 ^ Format.binary64.exponentBits ≤ k + 1 + 1 ↔ topExponent < k := by
    have hcapacity : 2 ^ Format.binary64.exponentBits = 2048 := rfl
    rw [hcapacity, topExponent]
    omega
  have hnormal : m.log2 + 1 = Format.binary64.mantissaBits ↔ m.log2 = 52 := by
    change m.log2 + 1 = 53 ↔ m.log2 = 52
    omega
  simp only [pack, hbiased, hover, hnormal]
  rfl

theorem toBits_of_toModel {x : Float} {u : UnpackedFloat} (h : x.toModel = .pack u) :
    x.toBits.toBitVec = pack Format.binary64 u := by
  change x.toModel.toBits.toBitVec = _
  rw [h]
  rfl

theorem packed_of_lt {x : Float} {u : UnpackedFloat} {z : Int} (hx : x.toModel = .pack u)
    (h : Unpacks u z) (hz : z.natAbs < 2 ^ 53 * 2 ^ topExponent) :
    isFinite x = true ∧ units x = z := by
  have hbits := toBits_of_toModel hx
  rw [isFinite_iff_exponentField, units_eq]
  cases h with
  | zero s =>
      obtain ⟨hsign, hfield, hfraction⟩ := fields_of_toBits hbits
      rw [hsign, hfield, hfraction]
      cases s with
      | negative => exact ⟨by decide, rfl⟩
      | positive => exact ⟨by decide, rfl⟩
  | @finite s m k hm hlt hfull =>
      rw [natAbs_apply, lt_top_iff hlt hfull] at hz
      rw [pack_finite, if_neg (Nat.not_lt.mpr hz)] at hbits
      rw [topExponent] at hz
      split at hbits
      · next hlog =>
          have hle : 2 ^ 52 ≤ m := hlog ▸ Nat.log2_self_le hm.ne'
          obtain ⟨hsign, hfield, hfraction⟩ := fields_of_toBits hbits
          rw [BitVec.toNat_ofNat, Nat.mod_eq_of_lt (by omega)] at hfield
          rw [BitVec.toNat_ofNat] at hfraction
          have hvalue : 2 ^ 52 + fraction x = m := by omega
          rw [if_neg (by omega), hvalue, hfield, hsign]
          exact ⟨by omega, rfl⟩
      · next hlog =>
          have hsmall : ¬ 2 ^ 52 ≤ m := fun hle =>
            hlog ((Nat.log2_eq_iff hm.ne').mpr ⟨hle, hlt⟩)
          obtain rfl : k = 0 := hfull.resolve_left hsmall
          obtain ⟨hsign, hfield, hfraction⟩ := fields_of_toBits hbits
          rw [BitVec.toNat_ofNat, Nat.mod_eq_of_lt (by omega)] at hfraction
          rw [hfield, hfraction, hsign]
          exact ⟨by decide, by simp⟩

theorem packed_of_le {x : Float} {u : UnpackedFloat} {z : Int} (hx : x.toModel = .pack u)
    (h : Unpacks u z) (hz : 2 ^ 53 * 2 ^ topExponent ≤ z.natAbs) :
    ¬ isFinite x = true := by
  have hbits := toBits_of_toModel hx
  rw [isFinite_iff_exponentField]
  cases h with
  | zero s =>
      have hpos := Nat.mul_pos (Nat.two_pow_pos 53) (Nat.two_pow_pos topExponent)
      rw [Int.natAbs_zero] at hz
      omega
  | @finite s m k hm hlt hfull =>
      rw [natAbs_apply] at hz
      have hk : topExponent < k := by
        have := (lt_top_iff hlt hfull).not.mp (Nat.not_lt.mpr hz)
        omega
      rw [pack_finite, if_pos hk] at hbits
      obtain ⟨-, hfield, -⟩ := fields_of_toBits hbits
      rw [hfield]
      decide

theorem packed_of_not_isFinite {x : Float} {u : UnpackedFloat} (hx : x.toModel = .pack u)
    (h : u.isFinite = false) : ¬ isFinite x = true := by
  have hbits := toBits_of_toModel hx
  rw [isFinite_iff_exponentField]
  cases u with
  | infinity s =>
      obtain ⟨-, hfield, -⟩ := fields_of_toBits hbits
      rw [hfield]
      decide
  | notANumber =>
      obtain ⟨-, hfield, -⟩ := fields_of_toBits hbits
      rw [hfield]
      decide
  | zero s => cases h
  | finite s m e hm => cases h

end HiddenTarget.Decimal
