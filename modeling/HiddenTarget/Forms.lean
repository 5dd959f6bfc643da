import HiddenTarget.Json.Printer
import HiddenTarget.Json.Shape
import HiddenTarget.Play.Plan
import HiddenTarget.Play.Summary
import HiddenTarget.Game.Rules

/-!
# Written forms

The JSON form of rules, plans, step results, endings and summaries, and how to read
one back. The members of a form stand in the order of the fields, and each form comes
with the shape that its text has.
-/

namespace HiddenTarget

open Json

/-! ## Endings -/

namespace Ending

def toJson (e : Ending) : Json := .string e.name

def shape : Shape := .choice (all.map name)

def ofValue (i : Fin (all.map name).length) : Ending := all.get (i.cast (List.length_map name))

end Ending

/-! ## Rules -/

namespace Rules

def toJson (r : Rules) : Json := .object [
  ("num_targets", .integer r.numTargets.toInt),
  ("max_steps", .integer r.maxSteps.toNat),
  ("hit_reward", .ofFloat r.hitReward),
  ("miss_reward", .ofFloat r.missReward)]

def shape : Shape := .record <|
  .cons "num_targets" .int32 <| .cons "max_steps" .uint32 <|
  .cons "hit_reward" .real <| .cons "miss_reward" .real .nil

def ofValue : shape.Value → Rules
  | (numTargets, maxSteps, hitReward, missReward, ()) =>
    ⟨numTargets, maxSteps, hitReward, missReward⟩

def read (text : String) : Except ReadFault Rules := (shape.read text).map ofValue

end Rules

/-! ## Plans -/

namespace Plan

def toJson (p : Plan) : Json := .object [
  ("episodes", .integer p.episodes.toNat),
  ("max_iterations", .integer p.iterations.toNat),
  ("action_low", .integer p.actionLow.toInt),
  ("action_high", .integer p.actionHigh.toInt),
  ("seed", .ofOption (fun s => .integer s.toNat) p.seed)]

def shape : Shape := .record <|
  .cons "episodes" .uint32 <| .cons "max_iterations" .uint32 <|
  .cons "action_low" .int32 <| .cons "action_high" .int32 <|
  .cons "seed" (.optional .uint64) .nil

def ofValue : shape.Value → Plan
  | (episodes, iterations, actionLow, actionHigh, seed, ()) =>
    ⟨episodes, iterations, actionLow, actionHigh, seed⟩

def read (text : String) : Except ReadFault Plan := (shape.read text).map ofValue

end Plan

/-! ## Outcomes -/

namespace StepInfo

def toJson (i : StepInfo) : Json := .object [
  ("step", .integer i.step.toNat),
  ("termination_reason", .ofOption Ending.toJson i.ending),
  ("target_hit", .bool i.hit),
  ("seed", .integer i.seed.toNat)]

def shape : Shape := .record <|
  .cons "step" .uint32 <| .cons "termination_reason" (.optional Ending.shape) <|
  .cons "target_hit" .bool <| .cons "seed" .uint64 .nil

def ofValue : shape.Value → StepInfo
  | (step, ending, hit, seed, ()) => ⟨step, Option.map Ending.ofValue ending, hit, seed⟩

def read (text : String) : Except ReadFault StepInfo := (shape.read text).map ofValue

end StepInfo

namespace Outcome

def toJson (o : Outcome) : Json := .object [
  ("observation", .integer o.observation.toNat),
  ("reward", .ofFloat o.reward),
  ("done", .bool o.done),
  ("info", o.info.toJson)]

def shape : Shape := .record <|
  .cons "observation" .uint32 <| .cons "reward" .real <|
  .cons "done" .bool <| .cons "info" StepInfo.shape .nil

def ofValue : shape.Value → Outcome
  | (observation, reward, done, info, ()) => ⟨observation, reward, done, StepInfo.ofValue info⟩

def read (text : String) : Except ReadFault Outcome := (shape.read text).map ofValue

end Outcome

/-! ## Summaries -/

namespace Summary

def members (s : Summary) : Members := [
  ("episode", .integer s.episode.toNat),
  ("seed", .integer s.seed.toNat),
  ("steps", .integer s.steps.toNat),
  ("total_reward", .ofFloat s.total),
  ("cleared", .bool s.cleared),
  ("termination_reason", .ofOption Ending.toJson s.ending)]

def toJson (s : Summary) : Json := .object s.members

def shape : Shape := .record <|
  .cons "episode" .uint32 <| .cons "seed" .uint64 <| .cons "steps" .uint32 <|
  .cons "total_reward" .real <| .cons "cleared" .bool <|
  .cons "termination_reason" (.optional Ending.shape) .nil

def ofValue : shape.Value → Summary
  | (episode, seed, steps, total, cleared, ending, ()) =>
    ⟨episode, seed, steps, total, cleared, Option.map Ending.ofValue ending⟩

def read (text : String) : Except ReadFault Summary := (shape.read text).map ofValue

end Summary

namespace Ending

def read (text : String) : Except ReadFault Ending := (shape.read text).map ofValue

end Ending

end HiddenTarget
