import HiddenTarget.Proofs.Decimal.Packing

/-!
# Adding doubles

The sum of two finite doubles is the double nearest to the exact sum, unless that is as large as
`overflowBound`: `isFinite_add_iff` and `units_add`. A sum that has become infinite stays so. By
induction, many doubles added one after the other come to a number exactly if they have a
`runningTotal`: `units?_foldl_add`.
-/

namespace HiddenTarget.Decimal

/-! ## Sums -/

/-- From here on a sum is rounded to infinity: `2 ^ 1024 - 2 ^ 970`, half a step above the
largest finite double. -/
def overflowBound : Nat := (2 ^ 54 - 1) * 2 ^ (topExponent - 1)

theorem natAbs_roundedInt (z : Int) : (roundedInt z).natAbs = rounded z.natAbs := by
  rcases eq_or_ne z 0 with rfl | hz
  · rfl
  · rw [roundedInt, Int.natAbs_mul, Int.natAbs_sign_of_ne_zero hz, Nat.one_mul, Int.natAbs_natCast]

theorem rounded_lt_top_iff (n : Nat) :
    rounded n < 2 ^ 53 * 2 ^ topExponent ↔ n < overflowBound := by
  have htop : topExponent - 1 + 1 = topExponent := rfl
  have hiff := rounded_lt_iff n (topExponent - 1)
  rwa [htop] at hiff

theorem natAbs_roundedInt_lt_iff (z : Int) :
    (roundedInt z).natAbs < 2 ^ 53 * 2 ^ topExponent ↔ z.natAbs < overflowBound := by
  rw [natAbs_roundedInt, rounded_lt_top_iff]

/-- The sum of two finite doubles is the nearest double to the exact sum if that is in the
range, and infinite otherwise. -/
theorem isFinite_add_iff {x y : Float} (hx : isFinite x = true) (hy : isFinite y = true) :
    isFinite (x + y) = true ↔ (units x + units y).natAbs < overflowBound := by
  have hsum := unpacks_add (unpacks_of_isFinite x hx) (unpacks_of_isFinite y hy)
  rw [← natAbs_roundedInt_lt_iff]
  refine ⟨fun h => Nat.lt_of_not_le fun hle => packed_of_le rfl hsum hle h, fun h => ?_⟩
  exact (packed_of_lt rfl hsum h).1

theorem units_add {x y : Float} (hx : isFinite x = true) (hy : isFinite y = true)
    (hxy : isFinite (x + y) = true) : units (x + y) = roundedInt (units x + units y) := by
  have hsum := unpacks_add (unpacks_of_isFinite x hx) (unpacks_of_isFinite y hy)
  rw [isFinite_add_iff hx hy, ← natAbs_roundedInt_lt_iff] at hxy
  exact (packed_of_lt rfl hsum hxy).2

theorem not_isFinite_add {x : Float} (y : Float) (hx : ¬ isFinite x = true) :
    ¬ isFinite (x + y) = true :=
  packed_of_not_isFinite rfl (isFinite_add_left _ (isFinite_unpack_of_not_isFinite hx))

/-! ## Running totals -/

def units? (x : Float) : Option Int := if isFinite x then some (units x) else none

/-- The total that some doubles come to, one after the other, each sum rounded to 53 bits. There
is none if a sum reaches the bound on the way. -/
def runningTotal : Int → List Float → Option Int
  | total, [] => some total
  | total, x :: rest =>
    if (total + units x).natAbs < overflowBound then
      runningTotal (roundedInt (total + units x)) rest
    else none

theorem units?_of_isFinite {x : Float} (h : isFinite x = true) : units? x = some (units x) :=
  if_pos h

theorem units?_of_not_isFinite {x : Float} (h : ¬ isFinite x = true) : units? x = none := if_neg h

theorem isSome_units? (x : Float) : (units? x).isSome = isFinite x := by
  rw [units?]
  cases isFinite x with
  | true => rfl
  | false => rfl

theorem not_isFinite_foldl_add {x : Float} (h : ¬ isFinite x = true) (rest : List Float) :
    ¬ isFinite (rest.foldl (· + ·) x) = true := by
  induction rest generalizing x with
  | nil => exact h
  | cons y rest ih => exact ih (not_isFinite_add y h)

/-- **The sum of some doubles is a number** exactly if they have a running total, and then this is
its value. -/
theorem units?_foldl_add {x : Float} (h : isFinite x = true) {rest : List Float}
    (hrest : ∀ y ∈ rest, isFinite y = true) :
    units? (rest.foldl (· + ·) x) = runningTotal (units x) rest := by
  induction rest generalizing x with
  | nil => exact units?_of_isFinite h
  | cons y rest ih =>
      have hy := hrest y List.mem_cons_self
      rw [List.foldl_cons, runningTotal]
      by_cases hsum : isFinite (x + y) = true
      · rw [if_pos ((isFinite_add_iff h hy).mp hsum), ← units_add h hy hsum]
        exact ih hsum fun z hz => hrest z (List.mem_cons_of_mem y hz)
      · rw [if_neg (mt (isFinite_add_iff h hy).mpr hsum)]
        exact units?_of_not_isFinite (not_isFinite_foldl_add hsum rest)

/-- Fewer than `2 ^ 32` doubles up to `2 ^ 992` in size do not leave the range. -/
theorem mul_pow_lt_overflowBound {n : Nat} (h : n < 2 ^ 32) :
    n * 2 ^ (topExponent + 21) < overflowBound := by
  have hpow : topExponent + 21 = 22 + (topExponent - 1) := rfl
  have hlt : n * 2 ^ 22 < 2 ^ 54 - 1 := by omega
  rw [hpow, Nat.pow_add, ← Nat.mul_assoc, overflowBound]
  generalize topExponent - 1 = k
  exact Nat.mul_lt_mul_of_pos_right hlt (Nat.two_pow_pos k)

theorem isSome_runningTotal {q n : Nat} {total : Int} {rest : List Float}
    (htotal : total.natAbs ≤ n * 2 ^ q) (hrest : ∀ y ∈ rest, (units y).natAbs ≤ 2 ^ q)
    (hcount : n + rest.length < 2 ^ 53) (hbound : (n + rest.length) * 2 ^ q < overflowBound) :
    (runningTotal total rest).isSome = true := by
  induction rest generalizing n total with
  | nil => rfl
  | cons y rest ih =>
      have hy := hrest y List.mem_cons_self
      have hsum : (total + units y).natAbs ≤ (n + 1) * 2 ^ q := by
        rw [Nat.succ_mul]
        exact (Int.natAbs_add_le _ _).trans (Nat.add_le_add htotal hy)
      have hlength : n + 1 + rest.length = n + (y :: rest).length := by
        rw [List.length_cons]
        omega
      have hlt : (total + units y).natAbs < overflowBound :=
        hsum.trans_lt ((Nat.mul_le_mul_right _ (by rw [← hlength]; omega)).trans_lt hbound)
      rw [runningTotal, if_pos hlt]
      refine ih ?_ (fun z hz => hrest z (List.mem_cons_of_mem y hz)) (hlength ▸ hcount)
        (hlength ▸ hbound)
      rw [natAbs_roundedInt]
      exact rounded_le (by omega) hsum

end HiddenTarget.Decimal
