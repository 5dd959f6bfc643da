import HiddenTarget.Decimal.Integer

/-!
# Complaints about a configuration

A `Complaint` names the setting that is wrong and why. Its text is the same
wherever it is shown: `Complaint.message` is the reason, `Complaint.text` the whole
sentence.
-/

namespace HiddenTarget

inductive Complaint
  | tooFewTargets (given : Int32)
  | noSteps
  | hitRewardNotFinite
  | missRewardNotFinite
  | noEpisodes
  | noIterations
  | emptyActionRange (low high : Int32)
  | noEnvironments
  | wrongActionCount (given expected : Nat)
  /-- A complaint in its reporter's own words. -/
  | custom (field message : String)
deriving DecidableEq, Repr

namespace Complaint

def field : Complaint → String
  | tooFewTargets _ => "num_targets"
  | noSteps => "max_steps"
  | hitRewardNotFinite => "hit_reward"
  | missRewardNotFinite => "miss_reward"
  | noEpisodes => "episodes"
  | noIterations => "max_iterations"
  | emptyActionRange _ _ => "action_low"
  | noEnvironments => "n"
  | wrongActionCount _ _ => "actions"
  | custom field _ => field

def message : Complaint → String
  | tooFewTargets given => "must be >= 1, got " ++ Decimal.integerText given.toInt
  | noSteps | noEpisodes | noIterations => "must be >= 1"
  | hitRewardNotFinite | missRewardNotFinite => "must be finite"
  | emptyActionRange low high =>
    "action_low " ++ Decimal.integerText low.toInt ++ " must not exceed action_high " ++
      Decimal.integerText high.toInt
  | noEnvironments => "must be > 0"
  | wrongActionCount given expected =>
    "actions length " ++ Decimal.naturalText given ++ " must match num_envs " ++
      Decimal.naturalText expected
  | custom _ message => message

def text (c : Complaint) : String :=
  "Invalid configuration '" ++ c.field ++ "': " ++ c.message

end Complaint

end HiddenTarget
