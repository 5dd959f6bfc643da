import HiddenTarget.Random.Draw
import Mathlib.Algebra.Group.Int.Defs
import Mathlib.Algebra.Group.Nat.Defs

/-!
# Draws stay in their range

A draw from `lo..hi` is the low end and an offset. The offset is the upper half of a product
with the width of the range, `toNat_offset`, so it is below the width, and the sum does not
leave the range: `add_offset_mem`. `draw_mem` is the draw itself, whatever words the
generator gives.
-/

namespace HiddenTarget.Random

theorem toNat_toUInt32 (x : Int32) : (x.toUInt32.toNat : Int) = x.toInt % 2 ^ 32 := by
  have h : x.toInt = (x.toUInt32.toNat : Int).bmod (2 ^ 32) := BitVec.toInt_eq_toNat_bmod _
  have hlt := x.toUInt32.toNat_lt
  rw [Int.bmod] at h
  split at h <;> omega

theorem toInt_toInt32 (w : UInt32) : w.toInt32.toInt = (w.toNat : Int).bmod (2 ^ 32) :=
  BitVec.toInt_eq_toNat_bmod _

/-- The width is the number of values, or zero if no word is that large. -/
theorem toNat_width (lo hi : Int32) :
    ((width lo hi).toNat : Int) = (hi.toInt - lo.toInt + 1) % 2 ^ 32 := by
  have hone : (1 : UInt32).toNat = 1 := rfl
  have hdiff := toNat_toUInt32 (hi - lo)
  rw [Int32.toInt_sub] at hdiff
  rw [width, UInt32.toNat_add, hone, Int.natCast_emod, Int.natCast_add, hdiff, Int.bmod_def]
  split <;> omega

theorem toNat_offset (r w : UInt32) : (offset r w).toNat = w.toNat * r.toNat / 2 ^ 32 := by
  have hproduct : w.toNat * r.toNat < 2 ^ 64 := by
    have := Nat.mul_lt_mul'' w.toNat_lt r.toNat_lt
    omega
  have hshift : (32 : UInt64).toNat % 64 = 32 := rfl
  rw [offset, spread, UInt64.toNat_toUInt32, UInt64.toNat_shiftRight, UInt64.toNat_mul,
    UInt32.toNat_toUInt64, UInt32.toNat_toUInt64, Nat.mod_eq_of_lt hproduct, hshift,
    Nat.shiftRight_eq_div_pow]
  omega

theorem offset_lt {r : UInt32} (h : r ≠ 0) (w : UInt32) : (offset r w).toNat < r.toNat := by
  have hpos : 0 < r.toNat := by
    rw [Nat.pos_iff_ne_zero]
    intro hzero
    exact h (UInt32.toNat_inj.mp hzero)
  rw [toNat_offset, Nat.div_lt_iff_lt_mul (by decide), Nat.mul_comm]
  exact Nat.mul_lt_mul_of_pos_left w.toNat_lt hpos

theorem add_offset_mem {lo hi : Int32} (h : lo ≤ hi) (hr : width lo hi ≠ 0) (w : UInt32) :
    lo ≤ lo + (offset (width lo hi) w).toInt32 ∧
      lo + (offset (width lo hi) w).toInt32 ≤ hi := by
  have hwidth := toNat_width lo hi
  have hoffset := offset_lt hr w
  have hlo := lo.le_toInt
  have hhi := hi.toInt_lt
  rw [Int32.le_iff_toInt_le] at h
  rw [Int32.le_iff_toInt_le, Int32.le_iff_toInt_le, Int32.toInt_add, toInt_toInt32,
    Int.add_bmod_bmod, Int.bmod_eq_of_le (by omega) (by omega)]
  omega

theorem mem_of_width_eq_zero {lo hi : Int32} (h : lo ≤ hi) (hr : width lo hi = 0)
    (x : Int32) : lo ≤ x ∧ x ≤ hi := by
  have hwidth := toNat_width lo hi
  have hzero : (width lo hi).toNat = 0 := by rw [hr]; rfl
  have hlo := lo.le_toInt
  have hhi := hi.toInt_lt
  have hx := x.le_toInt
  have hx' := x.toInt_lt
  rw [Int32.le_iff_toInt_le] at h
  rw [Int32.le_iff_toInt_le, Int32.le_iff_toInt_le]
  omega

namespace Generator

theorem search_mem {lo hi : Int32} (h : lo ≤ hi) (hr : width lo hi ≠ 0) (n : Nat)
    (g : Generator) :
    lo ≤ (search lo (width lo hi) n g).1 ∧ (search lo (width lo hi) n g).1 ≤ hi := by
  induction n generalizing g with
  | zero => exact ⟨Int32.le_refl lo, h⟩
  | succ n ih =>
      by_cases haccepts : accepts (width lo hi) g.next.1 = true
      · have hfound : (search lo (width lo hi) (n + 1) g).1 =
            lo + (offset (width lo hi) g.next.1).toInt32 := by
          rw [search]
          simp only [haccepts, if_true]
        rw [hfound]
        exact add_offset_mem h hr g.next.1
      · have hrest : search lo (width lo hi) (n + 1) g =
            search lo (width lo hi) n g.next.2 := by
          rw [search]
          simp only [haccepts, Bool.false_eq_true, if_false]
        rw [hrest]
        exact ih g.next.2

/-- **A draw stays in its range.** -/
theorem draw_mem {lo hi : Int32} (h : lo ≤ hi) (g : Generator) :
    lo ≤ (g.draw lo hi).1 ∧ (g.draw lo hi).1 ≤ hi := by
  by_cases hr : width lo hi = 0
  · exact mem_of_width_eq_zero h hr _
  · have hdraw : g.draw lo hi = search lo (width lo hi) period g := if_neg hr
    rw [hdraw]
    exact search_mem h hr period g

end Generator

end HiddenTarget.Random
