/-!
# Integers as decimal text

Writing is `natural` and `integer`: the usual digits, a minus sign in front of
negative values.

Reading accepts an optional sign and one or more ASCII digits, any number of
leading zeros included, as long as the value stays within the bounds. A reader
without negative values does not know the minus sign at all: for it `-0` is a
text with a bad digit. The digits are read from the left and the first one that
spoils the text names the fault, so an overflow wins over a bad character that
comes later.
-/

namespace HiddenTarget.Decimal

/-! ## Writing -/

def natural (n : Nat) : List Char := Nat.toDigits 10 n

def integer : Int → List Char
  | .ofNat n => natural n
  | .negSucc n => '-' :: natural (n + 1)

def integerText (i : Int) : String := String.ofList (integer i)

def naturalText (n : Nat) : String := String.ofList (natural n)

/-! ## Reading -/

inductive IntegerFault
  | empty
  | badDigit
  | tooLarge
  | tooSmall
deriving DecidableEq, Repr

namespace IntegerFault

def message : IntegerFault → String
  | empty => "cannot parse integer from empty string"
  | badDigit => "invalid digit found in string"
  | tooLarge => "number too large to fit in target type"
  | tooSmall => "number too small to fit in target type"

end IntegerFault

def digit? (c : Char) : Option Nat :=
  if '0' ≤ c ∧ c ≤ '9' then some (c.toNat - '0'.toNat) else none

/-- Read digits onto `acc`; a value above `limit` is the fault `excess`. -/
def readDigits (limit : Nat) (excess : IntegerFault) : Nat → List Char → Except IntegerFault Nat
  | acc, [] => .ok acc
  | acc, c :: rest =>
    match digit? c with
    | none => .error .badDigit
    | some d => if acc * 10 + d ≤ limit then readDigits limit excess (acc * 10 + d) rest
        else .error excess

/-- The integers that a reader knows: `0..top`, and `-bottom..-1` if there is a
`bottom`. A reader without one does not know the minus sign. -/
structure IntegerRange where
  bottom : Option Nat
  top : Nat
deriving DecidableEq, Repr

namespace IntegerRange

def int32 : IntegerRange := ⟨some 0x80000000, 0x7fffffff⟩

def uint32 : IntegerRange := ⟨none, 0xffffffff⟩

def int64 : IntegerRange := ⟨some 0x8000000000000000, 0x7fffffffffffffff⟩

def uint64 : IntegerRange := ⟨none, 0xffffffffffffffff⟩

def Contains (r : IntegerRange) (i : Int) : Prop := -(r.bottom.getD 0 : Int) ≤ i ∧ i ≤ r.top

instance (r : IntegerRange) (i : Int) : Decidable (r.Contains i) :=
  inferInstanceAs (Decidable (_ ∧ _))

def readNatural (r : IntegerRange) : List Char → Except IntegerFault Int
  | [] => .error .badDigit
  | ds => (readDigits r.top .tooLarge 0 ds).map Int.ofNat

def read (r : IntegerRange) : List Char → Except IntegerFault Int
  | [] => .error .empty
  | '+' :: ds => r.readNatural ds
  | '-' :: ds =>
    match r.bottom, ds with
    | some b, _ :: _ => (readDigits b .tooSmall 0 ds).map fun n => -Int.ofNat n
    | _, _ => .error .badDigit
  | ds => r.readNatural ds

def read? (r : IntegerRange) (s : List Char) : Option Int := (r.read s).toOption

end IntegerRange

end HiddenTarget.Decimal
