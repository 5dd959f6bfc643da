import HiddenTarget.Decimal.Integer
import HiddenTarget.Decimal.Binary

/-!
# Decimal literals and the doubles they stand for

A `Literal` is the text of a number taken apart: a sign, the digits in front of
the point, the digits behind it and the exponent. It has two values as a double.

* `Literal.nearest` is the double nearest to the exact value, infinity beyond the
  range. Settings are read this way.
* `Literal.scaled?` rounds three times: the leading digits that fit into 64 bits
  are one double, the power of ten is a second one, and the answer is their
  product or quotient. There is no answer beyond the range. JSON text is read
  this way.

`readReal?` reads the numbers of settings, the words for infinity and for a value
that is no number included.
-/

namespace HiddenTarget.Decimal

structure Literal where
  negative : Bool
  whole : List Char
  fraction : Option (List Char)
  exponent : Option Int
deriving DecidableEq, Repr

def digitsValue (ds : List Char) : Nat :=
  ds.foldl (fun n c => n * 10 + (digit? c).getD 0) 0

namespace Literal

def isWhole (l : Literal) : Bool := l.fraction.isNone && l.exponent.isNone

/-! ## The nearest double -/

def coefficient (l : Literal) : Nat := digitsValue (l.whole ++ l.fraction.getD [])

def scale (l : Literal) : Int := l.exponent.getD 0 - (l.fraction.getD []).length

/-- The double nearest to the exact value. A value of more than 400 digits in
front of the point is infinite, and one with 400 zeros behind it is zero, so the
powers of ten stay small. -/
def nearest (l : Literal) : Float :=
  let m := l.coefficient
  let size : Int := (natural m).length + l.scale
  if m = 0 ∨ size < -400 then Decimal.nearest l.negative 0 1
  else if 400 < size then infinite l.negative
  else Decimal.nearest l.negative (m * Nat.pow 10 l.scale.toNat) (Nat.pow 10 (-l.scale).toNat)

/-! ## The scaled double -/

/-- Take digits onto `n` while the value fits into 64 bits, and count them. -/
def takeFitting : Nat → List Char → Nat × Nat
  | n, [] => (n, 0)
  | n, c :: rest =>
    let m := n * 10 + (digit? c).getD 0
    if m ≤ IntegerRange.uint64.top then
      let (v, count) := takeFitting m rest
      (v, count + 1)
    else (n, 0)

def leading (l : Literal) : Nat × Int :=
  let (m, taken) := takeFitting 0 l.whole
  let behind := l.fraction.getD []
  let (n, more) := takeFitting m behind
  (n, (l.whole.length : Int) - taken - more)

def tenPower (n : Nat) : Float := Decimal.nearest false (Nat.pow 10 n) 1

/-- Divide by `10^n`, in steps of at most 308 while something is left. -/
def scaleDown (x : Float) (n : Nat) : Float :=
  if h : n ≤ 308 then x / tenPower n
  else if x == 0 then x
  else scaleDown (x / tenPower 308) (n - 308)
termination_by n
decreasing_by omega

/-- Multiply by `10^n`; beyond the range there is no answer. -/
def scaleUp? (x : Float) (n : Nat) : Option Float :=
  if n ≤ 308 then
    let y := x * tenPower n
    if y.isInf then none else some y
  else if x == 0 then some x
  else none

/-- The leading digits times the power of ten. An exponent of more than 31 bits
makes every nonzero literal too large, or zero if it is negative. -/
def scaled? (l : Literal) : Option Float :=
  let (m, e) := l.leading
  let given := l.exponent.getD 0
  let size :=
    if given.natAbs ≤ IntegerRange.int32.top then
      let x := (UInt64.ofNat m).toFloat
      let total := e + given
      if 0 ≤ total then scaleUp? x total.toNat else some (scaleDown x (-total).toNat)
    else if 0 < given ∧ m ≠ 0 then none
    else some 0
  size.map fun x => if l.negative then -x else x

end Literal

/-! ## Numbers of settings -/

def spanDigits (s : List Char) : List Char × List Char :=
  s.span fun c => (digit? c).isSome

/-- The exponent part up to the end of the text: nothing, or an `e`, an optional
sign and at least one digit. -/
def readExponent? : List Char → Option (Option Int)
  | [] => some none
  | c :: rest =>
    if c = 'e' ∨ c = 'E' then
      let (negative, ds) := match rest with
        | '+' :: ds => (false, ds)
        | '-' :: ds => (true, ds)
        | ds => (false, ds)
      if ds ≠ [] ∧ ds.all (fun d => (digit? d).isSome) then
        let n : Int := digitsValue ds
        some (some (if negative then -n else n))
      else none
    else none

/-- Digits with an optional point among or around them, and an optional exponent.
There must be a digit on one side of the point. -/
def readUnsigned? (negative : Bool) (s : List Char) : Option Literal :=
  let (whole, rest) := spanDigits s
  let (fraction, tail) := match rest with
    | '.' :: after =>
      let (ds, tail) := spanDigits after
      (some ds, tail)
    | tail => (none, tail)
  if whole = [] ∧ fraction.getD [] = [] then none
  else (readExponent? tail).map fun e => ⟨negative, whole, fraction, e⟩

def isWord (word : String) (s : List Char) : Bool := s.map Char.toLower = word.toList

/-- Read a number: an optional sign, then a literal, `inf`, `infinity` or `nan`. -/
def readReal? (s : List Char) : Option Float :=
  let (negative, body) := match s with
    | '+' :: r => (false, r)
    | '-' :: r => (true, r)
    | r => (false, r)
  if isWord "inf" body ∨ isWord "infinity" body then
    some (infinite negative)
  else if isWord "nan" body then some (0.0 / 0.0)
  else (readUnsigned? negative body).map Literal.nearest

end HiddenTarget.Decimal
