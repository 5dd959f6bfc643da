import HiddenTarget.Decimal.Integer
import HiddenTarget.Decimal.Shortest

/-!
# Layouts of a decimal

A `Layout` says how the shortest decimal of a double is written: which of two equally
near ones is taken, in which range of scientific exponents there is no exponent part,
whether whole numbers keep a `.0`, and what stands for the values that are no numbers.
`Layout.render` writes a double, and the formats of this library are the records `json`
and `plain`.
-/

namespace HiddenTarget.Decimal

structure Layout where
  /-- Which of two shortest decimals is taken if both are equally near. -/
  tie : Tie
  /-- Scientific exponents written without exponent part; all of them if absent. -/
  positional : Option (Int × Int)
  /-- Whether a whole number ends in `.0`. -/
  keepsPoint : Bool
  nan : String
  infinity : String
  /-- Whether infinity has its sign in front. -/
  signedInfinity : Bool

namespace Layout

/-- The text between a digit sequence and its point: digits `ds`, of which `whole`
stand in front of the point. -/
def pointed (keepsPoint : Bool) (ds : List Char) (whole : Int) : List Char :=
  let n : Int := ds.length
  if n ≤ whole then
    ds ++ List.replicate (whole - n).toNat '0' ++ (if keepsPoint then ['.', '0'] else [])
  else if 0 < whole then
    ds.take whole.toNat ++ '.' :: ds.drop whole.toNat
  else
    '0' :: '.' :: List.replicate (-whole).toNat '0' ++ ds

/-- One digit, the others behind a point if there are any, and the exponent with
its sign. -/
def scientific (ds : List Char) (e : Int) : List Char :=
  let lead := ds.take 1 ++ (if ds.length ≤ 1 then [] else '.' :: ds.drop 1)
  let sign := if e < 0 then '-' else '+'
  lead ++ 'e' :: sign :: natural e.natAbs

def digits (l : Layout) (d : Digits) : List Char :=
  let ds := natural d.coefficient
  let e : Int := d.exponent + ds.length - 1
  match l.positional with
  | none => pointed l.keepsPoint ds (e + 1)
  | some (least, greatest) =>
    if least ≤ e ∧ e ≤ greatest then pointed l.keepsPoint ds (e + 1) else scientific ds e

def finite (l : Layout) (bits : Nat) : List Char :=
  if bits = 0 then pointed l.keepsPoint ['0'] 1 else l.digits (shortest l.tie bits)

def render (l : Layout) (x : Float) : List Char :=
  let bits := unsignedBits x
  let sign := if isNegative x then ['-'] else []
  if infinityBits < bits then l.nan.toList
  else if bits = infinityBits then
    (if l.signedInfinity then sign else []) ++ l.infinity.toList
  else sign ++ l.finite bits

/-- Numbers in JSON text: without exponent from `0.00001` up to sixteen digits, and
with a fraction in any case; a tie goes to the even digit, and there is no text for
the other values. -/
def json : Layout := ⟨.toEven, some (-5, 15), true, "null", "null", false⟩

/-- Numbers in messages: never an exponent, a fraction only where there is one, and a
tie goes up. -/
def plain : Layout := ⟨.up, none, false, "NaN", "inf", true⟩

end Layout

end HiddenTarget.Decimal
