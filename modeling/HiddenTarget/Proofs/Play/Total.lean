import HiddenTarget.Proofs.Decimal.Addition
import HiddenTarget.Proofs.Play.Drive
import HiddenTarget.Proofs.Play.Performance
import HiddenTarget.Proofs.Telemetry.Lines

/-!
# The total of an episode

The rules demand finite rewards, but nothing is demanded of their sum. An episode earns misses,
and a hit at the end if it is cleared, `Policy.rewards_turns`, so its total depends on the rules,
the number of its steps and how it ends. `Stage.playEpisode_total` says for which of them it is a
number. The total of all others is infinite, and the forms of the summary have no number for it.
-/

namespace HiddenTarget

open Decimal (isFinite units units? runningTotal overflowBound topExponent)
open Telemetry (Logbook episodeRecord stamp)

/-! ## Rewards -/

/-- The rewards of an episode: misses, and a hit at the end if it is cleared. -/
def Rules.rewards (r : Rules) (steps : Nat) (cleared : Bool) : List Float :=
  if cleared then List.replicate (steps - 1) r.missReward ++ [r.hitReward]
  else List.replicate steps r.missReward

namespace Rules

variable {r : Rules}

theorem mem_rewards {steps : Nat} {cleared : Bool} {x : Float} (h : x ∈ r.rewards steps cleared) :
    x = r.hitReward ∨ x = r.missReward := by
  rw [rewards] at h
  split at h
  · rcases List.mem_append.mp h with hmiss | hhit
    · exact .inr (List.eq_of_mem_replicate hmiss)
    · exact .inl (List.mem_singleton.mp hhit)
  · exact .inr (List.eq_of_mem_replicate h)

theorem rewards_succ {steps : Nat} {cleared : Bool} (h : cleared = true → 0 < steps) :
    r.rewards (steps + 1) cleared = r.missReward :: r.rewards steps cleared := by
  cases cleared with
  | false => rfl
  | true =>
      obtain ⟨k, rfl⟩ : ∃ k, steps = k + 1 := ⟨steps - 1, by have := h rfl; omega⟩
      rfl

theorem Valid.units?_total (h : r.Valid) (steps : Nat) (cleared : Bool) :
    units? ((r.rewards steps cleared).foldl (· + ·) 0.0) =
      runningTotal 0 (r.rewards steps cleared) := by
  refine Decimal.units?_foldl_add (x := 0.0) (by decide) fun x hx => ?_
  rcases mem_rewards hx with rfl | rfl
  · exact h.2.2.1
  · exact h.2.2.2

/-- Rewards up to `2 ^ 992` in size have a running total, however many there are. -/
theorem isSome_runningTotal_rewards {steps : Nat} {cleared : Bool}
    (hlength : (r.rewards steps cleared).length < 2 ^ 32)
    (hhit : (units r.hitReward).natAbs ≤ 2 ^ (topExponent + 21))
    (hmiss : (units r.missReward).natAbs ≤ 2 ^ (topExponent + 21)) :
    (runningTotal 0 (r.rewards steps cleared)).isSome = true := by
  refine Decimal.isSome_runningTotal (n := 0) (q := topExponent + 21) (Nat.zero_le _) ?_ ?_ ?_
  · intro x hx
    rcases mem_rewards hx with rfl | rfl
    · exact hhit
    · exact hmiss
  · omega
  · rw [Nat.zero_add]
    exact Decimal.mul_pow_lt_overflowBound hlength

end Rules

namespace Environment

theorem step_reward {e : Environment} (h : e.done = false) (action : Action) :
    (e.step action).1.reward =
      if (e.step action).1.info.hit then e.rules.hitReward else e.rules.missReward := by
  rw [step_eq_of_running h]
  simp only [decide_eq_true_eq]

theorem done_of_hit (e : Environment) (action : Action) (h : (e.step action).1.info.hit = true) :
    (e.step action).1.done = true := by
  cases hdone : e.done with
  | true => rw [step_eq_of_done hdone]
  | false =>
      rw [step_eq_of_running hdone] at h ⊢
      simp only [endingAfter] at h ⊢
      rw [if_pos h]
      rfl

end Environment

def cleared (turns : List Turn) : Bool := (ended turns).elim false (·.outcome.info.hit)

theorem cleared_singleton {t : Turn} (h : t.outcome.done = true) :
    cleared [t] = t.outcome.info.hit := by
  rw [cleared, ended_singleton h, Option.elim_some]

theorem cleared_cons {t : Turn} (h : t.outcome.done = false) (rest : List Turn) :
    cleared (t :: rest) = cleared rest := by
  rw [cleared, ended_cons h, cleared]

theorem length_pos_of_cleared {turns : List Turn} (h : cleared turns = true) :
    0 < turns.length := by
  refine List.length_pos_of_ne_nil ?_
  rintro rfl
  cases h

theorem Policy.length_turns_le {σ : Type} (policy : Policy σ) (n : Nat)
    (observation : Observation) (e : Environment) (player : σ) :
    (policy.turns n observation e player).1.length ≤ n := by
  induction n generalizing observation e player with
  | zero => exact Nat.le_refl 0
  | succ n ih =>
      cases hdone : (e.step (policy.act player observation).1).1.done with
      | true =>
          rw [turns_of_done hdone]
          exact Nat.succ_le_succ (Nat.zero_le n)
      | false =>
          rw [turns_of_running hdone]
          exact Nat.succ_le_succ (ih _ _ _)

theorem Policy.rewards_turns {σ : Type} {policy : Policy σ} {e : Environment} (h : e.done = false)
    (n : Nat) (observation : Observation) (player : σ) :
    let turns := (policy.turns n observation e player).1
    turns.map (·.outcome.reward) = e.rules.rewards turns.length (cleared turns) := by
  induction n generalizing observation e player with
  | zero => rfl
  | succ n ih =>
      have hreward := Environment.step_reward h (policy.act player observation).1
      cases hdone : (e.step (policy.act player observation).1).1.done with
      | true =>
          rw [turns_of_done hdone]
          intro turns
          rw [show cleared turns = _ from cleared_singleton hdone, List.map_singleton, hreward,
            Rules.rewards]
          split
          · rfl
          · rfl
      | false =>
          have hmiss : (e.step (policy.act player observation).1).1.info.hit = false := by
            by_contra hhit
            rw [Environment.done_of_hit e _ (by simpa using hhit)] at hdone
            cases hdone
          have hrest := ih (by rw [← Environment.step_done, hdone])
            (e.step (policy.act player observation).1).1.observation
            (policy.act player observation).2
          rw [turns_of_running hdone]
          intro turns
          rw [show cleared turns = _ from cleared_cons hdone _, List.map_cons, hreward, hmiss,
            hrest, List.length_cons, Rules.rewards_succ length_pos_of_cleared,
            Environment.step_rules]
          rfl

/-! ## The summary -/

theorem EpisodeTurns.summed {turns : List Turn} (h : EpisodeTurns turns)
    (hlength : turns.length < 2 ^ 32) (episode : UInt32) (seed : UInt64) :
    let summary := ({ episode := episode, seed := seed } : Summary).addTurns turns
    summary.steps.toNat = turns.length ∧ summary.cleared = cleared turns ∧
      summary.total = (turns.map (·.outcome.reward)).foldl (· + ·) 0.0 := by
  rw [h.addTurns_eq]
  refine ⟨?_, rfl, rfl⟩
  rw [UInt32.zero_add, UInt32.toNat_ofNat_of_lt' hlength]

theorem get?_members_total (s : Summary) :
    Json.Members.get? "total_reward" s.members = some (.ofFloat s.total) := rfl

theorem get?_episodeRecord_total (s : Summary) :
    (stamp (episodeRecord s)).get? "total_reward" = some (.ofFloat s.total) := by
  rw [stamp, Json.Members.get?_insertNew, if_neg (by decide), episodeRecord,
    Json.Members.get?_insert_of_ne (by decide)]
  rfl

namespace Stage

variable {σ : Type}

theorem exists_recordEpisode {policy : Policy σ} {episode : UInt32} {seed : Option UInt64}
    {iterations : UInt32} {s s' : Stage σ} {summary : Summary}
    (h : playEpisode policy episode seed iterations s = (.ok summary, s')) :
    ∃ b : Logbook, s'.logbook = b.record (episodeRecord summary) := by
  simp only [playEpisode] at h
  split at h
  · cases h
  · cases h
    exact ⟨_, rfl⟩

theorem Performs.answer_eq {α : Type} {play : Stage σ → Except OutputFault α × Stage σ}
    {environment environment' : Environment} {player player' : σ} {events : List Event} {a a' : α}
    (h : Performs play environment player events a environment' player') {o : Output} {b : Logbook}
    {s : Stage σ} (hplay : play ⟨environment, player, o, b⟩ = (.ok a', s)) : a' = a := by
  rcases hperform : Event.performAll o b events with ⟨_ | fault, o', b'⟩
  · rw [h.done hperform] at hplay
    cases hplay
    rfl
  · obtain ⟨e, p, hcut⟩ := h.cut hperform
    rw [hcut] at hplay
    cases hplay

/-- **The total of an episode** is a number exactly if the exact total of its rewards, rounded to
53 bits with each of them, never reaches `2 ^ 1024 - 2 ^ 970`. Both the record of the episode and
the form of its summary have `null` in the place of any other total. Rewards up to `2 ^ 992` in
size always have a number for their total. With an output that takes everything there is such a
summary, and an output that does not makes no difference to it. -/
theorem playEpisode_total (policy : Policy σ) (player : σ) {e : Environment} (he : e.rules.Valid)
    (episode : UInt32) (seed : Option UInt64) (iterations : UInt32) :
    ∃ summary : Summary,
      (∀ output logbook, output.room = none → ∃ s,
        playEpisode policy episode seed iterations ⟨e, player, output, logbook⟩ =
          (.ok summary, s)) ∧
      (∀ output logbook answer s,
        playEpisode policy episode seed iterations ⟨e, player, output, logbook⟩ = (.ok answer, s) →
        answer = summary ∧ ∃ b : Logbook, s.logbook = b.record (episodeRecord summary)) ∧
      let rewards := e.rules.rewards summary.steps.toNat summary.cleared
      let member := if (runningTotal 0 rewards).isSome then Json.real summary.total else .null
      summary.total = rewards.foldl (· + ·) 0.0 ∧
      units? summary.total = runningTotal 0 rewards ∧
      (stamp (episodeRecord summary)).get? "total_reward" = some member ∧
      (∃ members, summary.toJson = .object members ∧
        Json.Members.get? "total_reward" members = some member) ∧
      ((units e.rules.hitReward).natAbs ≤ 2 ^ (topExponent + 21) →
        (units e.rules.missReward).natAbs ≤ 2 ^ (topExponent + 21) →
        (runningTotal 0 rewards).isSome) := by
  let turns := (policy.turns iterations.toNat 0 (e.reset seed).2 player).1
  let summary : Summary :=
    ({ episode := episode, seed := (e.reset seed).2.seed } : Summary).addTurns turns
  have hplay := playEpisode_performs policy episode seed iterations e player
  have hepisode : EpisodeTurns turns := policy.episodeTurns_turns _ _ _ _
  have hlength : turns.length < 2 ^ 32 :=
    (policy.length_turns_le _ _ _ _).trans_lt iterations.toNat_lt
  obtain ⟨hsteps, hcleared, htotal⟩ := hepisode.summed hlength episode (e.reset seed).2.seed
  have hrewards : turns.map (·.outcome.reward) =
      e.rules.rewards summary.steps.toNat summary.cleared := by
    rw [hsteps, hcleared]
    exact Policy.rewards_turns rfl _ _ _
  have hunits : units? summary.total =
      runningTotal 0 (e.rules.rewards summary.steps.toNat summary.cleared) := by
    rw [htotal, hrewards]
    exact he.units?_total _ _
  have hmember : Json.ofFloat summary.total =
      if (runningTotal 0 (e.rules.rewards summary.steps.toNat summary.cleared)).isSome then
        Json.real summary.total
      else .null := by
    rw [← hunits, Decimal.isSome_units?, Json.ofFloat]
  refine ⟨summary, ?_, ?_, hrewards ▸ htotal, hunits, ?_, ?_, ?_⟩
  · intro output logbook houtput
    exact ⟨_, playEpisode_of_unlimited policy episode seed iterations houtput⟩
  · intro output logbook answer s h
    obtain rfl : answer = summary := hplay.answer_eq h
    exact ⟨rfl, exists_recordEpisode h⟩
  · rw [get?_episodeRecord_total, hmember]
  · exact ⟨summary.members, rfl, by rw [get?_members_total, hmember]⟩
  · refine Rules.isSome_runningTotal_rewards ?_
    rwa [← hrewards, List.length_map]

/-- A hit with the third of three guesses under the default rewards. -/
theorem playEpisode_total_of_small :
    let rules : Rules := { numTargets := 1 }
    let e : Environment := ⟨rules, .ofSeed 77, 0, 0, false, 0⟩
    let script : Script := { actions := [1, 1, 0] }
    rules.Valid ∧
      (units rules.hitReward).natAbs ≤ 2 ^ (topExponent + 21) ∧
      (units rules.missReward).natAbs ≤ 2 ^ (topExponent + 21) ∧
      ∃ (summary : Summary) (s : Stage Script),
        playEpisode .cyclic 0 (some 5) 5 ⟨e, script, {}, {}⟩ = (.ok summary, s) ∧
        (stamp (episodeRecord summary)).get? "total_reward" = some (.real summary.total) := by
  intro rules e script
  have hvalid : rules.Valid := ⟨by decide, by decide, by decide, by decide⟩
  have hhit : (units rules.hitReward).natAbs ≤ 2 ^ (topExponent + 21) := by decide +kernel
  have hmiss : (units rules.missReward).natAbs ≤ 2 ^ (topExponent + 21) := by decide +kernel
  obtain ⟨summary, hplay, -, -, -, hmember, -, hsmall⟩ :=
    playEpisode_total (e := e) .cyclic script hvalid 0 (some 5) 5
  obtain ⟨s, hs⟩ := hplay {} {} rfl
  rw [if_pos (hsmall hhit hmiss)] at hmember
  exact ⟨hvalid, hhit, hmiss, summary, s, hs, hmember⟩

/-- Two misses that leave the range, and a hit that would bring the sum back into it. -/
theorem playEpisode_total_out_of_range :
    let rules : Rules :=
      { numTargets := 1, maxSteps := 5, hitReward := 1e308, missReward := -1e308 }
    let e : Environment := ⟨rules, .ofSeed 77, 0, 0, false, 0⟩
    let script : Script := { actions := [1, 1, 0] }
    rules.Valid ∧
      units rules.missReward + units rules.missReward + units rules.hitReward = units (-1e308) ∧
      ∃ (summary : Summary) (s : Stage Script),
        playEpisode .cyclic 0 (some 5) 5 ⟨e, script, {}, {}⟩ = (.ok summary, s) ∧
        summary.steps = 3 ∧ summary.cleared = true ∧
        Json.Members.get? "total_reward" summary.members = some .null ∧
        (stamp (episodeRecord summary)).get? "total_reward" = some .null ∧
        (Summary.read summary.toJson.print).isOk = false := by
  intro rules e script
  refine ⟨⟨by decide, by decide, by decide +kernel, by decide +kernel⟩, by decide +kernel, _, _,
    playEpisode_of_unlimited .cyclic 0 (some 5) 5 rfl, by decide +kernel, by decide +kernel, ?_,
    ?_, ?_⟩
  · rw [get?_members_total, Json.ofFloat, if_neg (by decide +kernel)]
  · rw [get?_episodeRecord_total, Json.ofFloat, if_neg (by decide +kernel)]
  · decide +kernel

end Stage

end HiddenTarget
