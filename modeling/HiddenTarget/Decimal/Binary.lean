/-!
# Doubles as exact numbers

A finite double is a sign and an exact value `mantissa · 2^exponent`; `magnitude`
takes it out of the bit pattern. In the other direction `nearestBits num den` is
the bit pattern of the double nearest to the quotient `num / den`, a tie going to
the even mantissa and a value beyond the range going to infinity. Both work on
natural numbers alone, without rounding on the way.

Bit patterns of nonnegative doubles are ordered as the doubles are, and the
pattern of `m · 2^q` at the least exponent that fits `m` is `(q + 1074) · 2^52 + m`:
a carry out of the mantissa lands in the exponent field, and infinity is the
pattern after the largest finite one.
-/

namespace HiddenTarget.Decimal

/-- The value `mantissa · 2^exponent`. -/
structure Dyadic where
  mantissa : Nat
  exponent : Int
deriving DecidableEq, Repr

def infinityBits : Nat := 0x7ff0000000000000

/-- The weight of the sign bit, `2^63`. -/
def signBit : Nat := 0x8000000000000000

/-- The weight of the bit that leads the mantissa of a normal double, `2^52`. It is the
lowest bit of the exponent field and not stored itself. -/
def leadingBit : Nat := 0x10000000000000

def unsignedBits (x : Float) : Nat := x.toBits.toNat % signBit

def isNegative (x : Float) : Bool := signBit ≤ x.toBits.toNat

def isFinite (x : Float) : Bool := unsignedBits x < infinityBits

def infinite (negative : Bool) : Float :=
  Float.ofBits (UInt64.ofNat (infinityBits + if negative then signBit else 0))

/-- The exact value of a finite bit pattern without sign. -/
def magnitude (bits : Nat) : Dyadic :=
  let field : Nat := bits / leadingBit
  let fraction : Nat := bits % leadingBit
  if field = 0 then ⟨fraction, -1074⟩ else ⟨leadingBit + fraction, (field : Int) - 1075⟩

/-! ## Rounding a quotient -/

/-- Where a value half way between two integers goes. -/
inductive Tie
  | toEven
  | up
deriving DecidableEq, Repr

def roundHalf (tie : Tie) (num den : Nat) : Nat :=
  let q := num / den
  let r := num % den
  if 2 * r < den then q
  else if den < 2 * r then q + 1
  else match tie with
    | .toEven => if q % 2 = 0 then q else q + 1
    | .up => q + 1

/-- The exponent `e` with `2^e ≤ num / den < 2^(e+1)`, for positive numbers. -/
def floorLog2 (num den : Nat) : Int :=
  let e : Int := (num.log2 : Int) - den.log2
  let reaches := if 0 ≤ e then den <<< e.toNat ≤ num else den ≤ num <<< (-e).toNat
  if reaches then e else e - 1

def nearestBits (num den : Nat) : Nat :=
  if num = 0 then 0
  else
    let q := max (floorLog2 num den - 52) (-1074)
    let m := roundHalf .toEven (num <<< (-q).toNat) (den <<< q.toNat)
    min ((q + 1074).toNat * leadingBit + m) infinityBits

def nearest (negative : Bool) (num den : Nat) : Float :=
  Float.ofBits (UInt64.ofNat (nearestBits num den + if negative then signBit else 0))

end HiddenTarget.Decimal
