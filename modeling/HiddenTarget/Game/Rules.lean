import HiddenTarget.Complaint
import HiddenTarget.Decimal.Binary

/-!
# The rules of the game

A player guesses a hidden target from `0` up to, but not including, `numTargets`.
A guess that hits earns `hitReward`, any other one `missReward`, and an episode is
cut off after `maxSteps` guesses.

`Rules.check` refuses rules that cannot be played, with the first complaint in the
order of the fields, and `Rules.Valid` says which rules pass.
-/

namespace HiddenTarget

structure Rules where
  numTargets : Int32 := 10
  maxSteps : UInt32 := 100
  hitReward : Float := 1.0
  missReward : Float := -0.1

namespace Rules

def Valid (r : Rules) : Prop :=
  1 ≤ r.numTargets ∧ 1 ≤ r.maxSteps ∧ Decimal.isFinite r.hitReward ∧ Decimal.isFinite r.missReward

def check (r : Rules) : Except Complaint Unit :=
  if r.numTargets < 1 then .error (.tooFewTargets r.numTargets)
  else if r.maxSteps < 1 then .error .noSteps
  else if !Decimal.isFinite r.hitReward then .error .hitRewardNotFinite
  else if !Decimal.isFinite r.missReward then .error .missRewardNotFinite
  else .ok ()

theorem check_eq_ok_iff (r : Rules) : r.check = .ok () ↔ r.Valid := by
  have hn : ¬ r.numTargets < 1 ↔ 1 ≤ r.numTargets := Int32.not_lt
  have hs : ¬ r.maxSteps < 1 ↔ 1 ≤ r.maxSteps := UInt32.not_lt
  simp only [check, Valid]
  split
  · next h => simp [← hn, h]
  · next h1 =>
    split
    · next h => simp [← hs, h]
    · next h2 =>
      split
      · next h => simp_all
      · next h3 =>
        split
        · next h => simp_all
        · next h4 => simp_all

end Rules

end HiddenTarget
