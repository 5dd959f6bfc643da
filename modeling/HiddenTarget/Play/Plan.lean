import HiddenTarget.Play.Policy

/-!
# The plan of a batch

How many episodes to play, how many actions to spend on each, which actions to draw
from, and the seed that the whole batch follows from. `Plan.check` refuses a plan
that plays nothing.
-/

namespace HiddenTarget

structure Plan where
  episodes : UInt32 := 1
  /-- The number of actions for one episode, whatever the rules allow. -/
  iterations : UInt32 := 100
  actionLow : Action := 0
  actionHigh : Action := 10
  /-- The seed that the batch follows from; drawn afresh if there is none. -/
  seed : Option UInt64 := none
deriving DecidableEq, Repr

namespace Plan

def Valid (p : Plan) : Prop := 1 ≤ p.episodes ∧ 1 ≤ p.iterations ∧ p.actionLow ≤ p.actionHigh

def check (p : Plan) : Except Complaint Unit :=
  if p.episodes < 1 then .error .noEpisodes
  else if p.iterations < 1 then .error .noIterations
  else checkActionRange p.actionLow p.actionHigh

theorem check_eq_ok_iff (p : Plan) : p.check = .ok () ↔ p.Valid := by
  have he : ¬ p.episodes < 1 ↔ 1 ≤ p.episodes := UInt32.not_lt
  have hi : ¬ p.iterations < 1 ↔ 1 ≤ p.iterations := UInt32.not_lt
  have ha : ¬ p.actionHigh < p.actionLow ↔ p.actionLow ≤ p.actionHigh := Int32.not_lt
  simp only [check, Valid, checkActionRange]
  split
  · next h => simp [← he, h]
  · next h1 =>
    split
    · next h => simp [← hi, h]
    · next h2 =>
      split
      · next h => simp [← ha, h]
      · next h3 => simp_all

end Plan

end HiddenTarget
