/-!
# Outcomes of a step

What an environment answers to a guess: the number of steps taken so far, the
reward, and how the episode stands.
-/

namespace HiddenTarget

abbrev Action := Int32

/-- The number of steps taken in the running episode. -/
abbrev Observation := UInt32

inductive Ending
  | targetHit
  | maxSteps
  /-- The step came after the end of the episode. -/
  | alreadyDone
deriving DecidableEq, Repr

namespace Ending

/-- The name of an ending in step records. -/
def label : Ending → String
  | targetHit => "target_hit"
  | maxSteps => "max_steps"
  | alreadyDone => "already_done"

/-- The name of an ending in written forms. -/
def name : Ending → String
  | targetHit => "TargetHit"
  | maxSteps => "MaxSteps"
  | alreadyDone => "AlreadyDone"

def all : List Ending := [targetHit, maxSteps, alreadyDone]

end Ending

structure StepInfo where
  /-- The number of the step, counted from one. -/
  step : UInt32
  ending : Option Ending
  hit : Bool
  seed : UInt64
deriving DecidableEq, Repr

structure Outcome where
  observation : Observation
  reward : Float
  done : Bool
  info : StepInfo

end HiddenTarget
