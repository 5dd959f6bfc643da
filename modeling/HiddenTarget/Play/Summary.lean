import HiddenTarget.Game.Outcome

/-!
# The summary of an episode

What is reported about a played episode. The total is the sum of the rewards from
`0` on, in the order in which they came.
-/

namespace HiddenTarget

structure Summary where
  episode : UInt32
  seed : UInt64
  steps : UInt32 := 0
  total : Float := 0.0
  /-- Whether the last guess was the target. -/
  cleared : Bool := false
  /-- Why the episode is over; absent if the actions ran out before it was. -/
  ending : Option Ending := none

namespace Summary

def add (s : Summary) (o : Outcome) : Summary :=
  { s with steps := s.steps + 1, total := s.total + o.reward }

def close (s : Summary) (o : Outcome) : Summary :=
  { s with cleared := o.info.hit, ending := o.info.ending }

end Summary

end HiddenTarget
