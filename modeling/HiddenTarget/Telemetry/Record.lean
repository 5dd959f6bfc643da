import HiddenTarget.Forms

/-!
# Telemetry records

A record is a JSON object on a line of its own. `stamp` gives it the version of the
schema unless it brings one along. There are two kinds of records that the program
makes itself: one for each step and one for each episode. Their members are in the
order of the keys.
-/

namespace HiddenTarget.Telemetry

open Json

def schemaVersion : Int := 1

def schemaKey : String := "schema_version"

/-- Give a record the schema version, unless it has one. -/
def stamp (record : Members) : Members := record.insertNew schemaKey (.integer schemaVersion)

def stamped? : Json → Option Members
  | .object members => some (stamp members)
  | _ => none

def stepRecord (episode : UInt32) (action : Action) (o : Outcome) : Members := Members.ofList [
  ("kind", .string "step"),
  ("episode", .integer episode.toNat),
  ("step", .integer o.info.step.toNat),
  ("seed", .integer o.info.seed.toNat),
  ("action", .integer action.toInt),
  ("observation", .integer o.observation.toNat),
  ("reward", .ofFloat o.reward),
  ("done", .bool o.done),
  ("target_hit", .bool o.info.hit),
  ("termination_reason", .ofOption (fun e => .string e.label) o.info.ending)]

def episodeRecord (s : Summary) : Members :=
  (Members.ofList s.members).insert "kind" (.string "episode")

def recordText (record : Members) : String := (Json.object record).print

end HiddenTarget.Telemetry
