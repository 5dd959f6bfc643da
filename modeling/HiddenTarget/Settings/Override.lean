import HiddenTarget.Decimal.Layout
import HiddenTarget.Decimal.Literal
import HiddenTarget.Game.Rules
import HiddenTarget.Text.Blank
import HiddenTarget.Text.Quoted

/-!
# Overriding the rules by variables

Each of the four rules has a variable of its own. A variable that is set replaces its
rule if its text, without the blanks around it, is a number that the rule can hold, and
leaves the rule alone otherwise. Either way it is reported on one line: with the value
taken, or with the text as it is, quoted.

`Rules.override` reads the variables in a fixed order; no variable has a say in a rule
other than its own.
-/

namespace HiddenTarget

structure Numeral (α : Type) where
  read? : List Char → Option α
  write : α → List Char

namespace Numeral

def int32 : Numeral Int32 where
  read? s := (Decimal.IntegerRange.int32.read? s).map Int32.ofInt
  write i := Decimal.integer i.toInt

def uint32 : Numeral UInt32 where
  read? s := (Decimal.IntegerRange.uint32.read? s).map fun i => UInt32.ofNat i.toNat
  write n := Decimal.natural n.toNat

def real : Numeral Float where
  read? := Decimal.readReal?
  write := Decimal.Layout.plain.render

end Numeral

/-- What became of a variable that is set. -/
inductive Override
  | taken (key : String) (value : List Char)
  /-- The text is no value of the rule, which keeps its own. -/
  | ignored (key : String) (raw : String) (value : List Char)
deriving DecidableEq, Repr

namespace Override

def line : Override → List Char
  | taken key value =>
    "[config] ".toList ++ key.toList ++ " = ".toList ++ value ++ " (overrode default)\n".toList
  | ignored key raw value =>
    "[config] WARN: could not parse ".toList ++ key.toList ++ " = ".toList ++
      Text.quote raw.toList ++ "; using default ".toList ++ value ++ ['\n']

def report (os : List Override) : String := String.ofList (os.flatMap line)

end Override

def Numeral.override? {α : Type} (n : Numeral α) (raw : String) : Option α :=
  n.read? (Text.trim raw.toList)

/-- The value of a rule under its variable, and the report if the variable is set. -/
def Numeral.override {α : Type} (n : Numeral α) (key : String) (raw : Option String)
    (current : α) : α × List Override :=
  match raw with
  | none => (current, [])
  | some raw =>
    match n.override? raw with
    | some value => (value, [.taken key (n.write value)])
    | none => (current, [.ignored key raw (n.write current)])

namespace Rules

def maxStepsKey : String := "SIMPLE_ENV_MAX_STEPS"

def numTargetsKey : String := "SIMPLE_ENV_NUM_TARGETS"

def hitRewardKey : String := "SIMPLE_ENV_HIT_REWARD"

def missRewardKey : String := "SIMPLE_ENV_MISS_REWARD"

def override (r : Rules) (lookup : String → Option String) : Rules × List Override :=
  let (maxSteps, a) := Numeral.uint32.override maxStepsKey (lookup maxStepsKey) r.maxSteps
  let (numTargets, b) := Numeral.int32.override numTargetsKey (lookup numTargetsKey) r.numTargets
  let (hitReward, c) := Numeral.real.override hitRewardKey (lookup hitRewardKey) r.hitReward
  let (missReward, d) := Numeral.real.override missRewardKey (lookup missRewardKey) r.missReward
  (⟨numTargets, maxSteps, hitReward, missReward⟩, a ++ b ++ c ++ d)

end Rules

end HiddenTarget
