import HiddenTarget.Proofs.Game.Bounds
import HiddenTarget.Proofs.Play.Budget
import Mathlib.Logic.Function.Iterate

/-!
# Episodes driven by a policy

Without a budget, a policy drives an environment step by step, `Policy.drive`, and some step
ends the episode: `exists_endsAfter`. Against this measure stand the books of a played episode.
`length_turns` counts its turns, `turns_tallies` says what the state after them tells, and
`watched_turns` writes down what the policy has been shown, by a policy that keeps a diary and
otherwise acts the same. `Stage.playEpisode_bookkeeping` puts them together.
-/

namespace HiddenTarget

open Telemetry (Logbook)

namespace Environment

theorem step_done (e : Environment) (action : Action) :
    (e.step action).1.done = (e.step action).2.done := by
  cases hdone : e.done with
  | true => rw [step_eq_of_done hdone, hdone]
  | false => rw [step_eq_of_running hdone]

theorem ending_of_step {e : Environment} (h : e.done = false) {action : Action}
    (hdone : (e.step action).1.done = true) :
    let info := (e.step action).1.info
    info.ending = some (if info.hit then .targetHit else .maxSteps) := by
  rw [step_eq_of_running h] at hdone ⊢
  simp only [endingAfter] at hdone ⊢
  by_cases hhit : action = e.target
  · simp [hhit]
  · by_cases hlimit : e.rules.maxSteps ≤ e.steps + 1
    · simp [hhit, hlimit]
    · simp [hhit, hlimit] at hdone

end Environment

namespace Policy

variable {σ : Type} {policy : Policy σ}

/-! ## Driving without a budget -/

/-- The policy acts once more on what it sees, and the environment answers. -/
def advance (policy : Policy σ) (x : Observation × Environment × σ) :
    Observation × Environment × σ :=
  let (action, player) := policy.act x.2.2 x.1
  let (outcome, e) := x.2.1.step action
  (outcome.observation, e, player)

/-- `k` actions of the policy, with no budget and no regard to the end of the episode. -/
def drive (policy : Policy σ) (k : Nat) (x : Observation × Environment × σ) :
    Observation × Environment × σ :=
  policy.advance^[k] x

def EndsAfter (policy : Policy σ) (x : Observation × Environment × σ) (T : Nat) : Prop :=
  ∀ k, (policy.drive k x).2.1.done = true ↔ T ≤ k

theorem drive_succ (policy : Policy σ) (k : Nat) (x : Observation × Environment × σ) :
    policy.drive (k + 1) x = policy.drive k (policy.advance x) :=
  Function.iterate_succ_apply _ _ _

theorem drive_of_done {x : Observation × Environment × σ} (h : x.2.1.done = true) (k : Nat) :
    (policy.drive k x).2.1.done = true := by
  induction k generalizing x with
  | zero => exact h
  | succ k ih =>
      rw [drive_succ]
      refine ih ?_
      have hsame : (policy.advance x).2.1 = x.2.1 := Environment.step_of_done h _
      rw [hsame, h]

theorem endsAfter_zero {x : Observation × Environment × σ} (h : x.2.1.done = true) :
    policy.EndsAfter x 0 :=
  fun k => ⟨fun _ => Nat.zero_le k, fun _ => drive_of_done h k⟩

theorem endsAfter_succ {x : Observation × Environment × σ} (h : x.2.1.done = false) {T : Nat} :
    policy.EndsAfter x (T + 1) ↔ policy.EndsAfter (policy.advance x) T := by
  constructor
  · intro hends k
    rw [← drive_succ, hends (k + 1), Nat.succ_le_succ_iff]
  · intro hends k
    cases k with
    | zero => simp [drive, h]
    | succ k => rw [drive_succ, hends k, Nat.succ_le_succ_iff]

theorem EndsAfter.pos {x : Observation × Environment × σ} {T : Nat}
    (hends : policy.EndsAfter x T) (h : x.2.1.done = false) : 0 < T := by
  refine Nat.pos_of_ne_zero fun hzero => ?_
  have hdone : x.2.1.done = true := (hends 0).mpr (Nat.le_of_eq hzero)
  rw [h] at hdone
  cases hdone

/-- **Every policy comes to an end**, at the latest with the last step that is left. -/
theorem exists_endsAfter (policy : Policy σ) {rules : Rules} (d : Nat)
    {x : Observation × Environment × σ} (h : x.2.1.InBounds rules)
    (hleft : rules.maxSteps.toNat ≤ x.2.1.steps.toNat + d) :
    ∃ T ≤ d, policy.EndsAfter x T := by
  induction d generalizing x with
  | zero =>
      refine ⟨0, Nat.le_refl 0, endsAfter_zero ?_⟩
      by_contra hrunning
      have hlt := UInt32.lt_iff_toNat_lt.mp (h.steps_lt (by simpa using hrunning))
      omega
  | succ d ih =>
      cases hdone : x.2.1.done with
      | true => exact ⟨0, Nat.zero_le _, endsAfter_zero hdone⟩
      | false =>
          have hcount : (policy.advance x).2.1.steps = x.2.1.steps + 1 :=
            (Environment.step_snd_of_running hdone _).1
          have hsteps := toNat_add_one_of_lt (h.steps_lt hdone)
          obtain ⟨T, hle, hends⟩ := ih (x := policy.advance x) (h.step _) (by
            rw [hcount, hsteps]
            omega)
          exact ⟨T + 1, Nat.succ_le_succ hle, (endsAfter_succ hdone).mpr hends⟩

/-! ## The turns of a budget -/

theorem length_turns {n T : Nat} {observation : Observation} {e : Environment} {player : σ}
    (hends : policy.EndsAfter (observation, e, player) T) (h : e.done = false) :
    (policy.turns n observation e player).1.length = min n T ∧
      ((ended (policy.turns n observation e player).1).isSome ↔ T ≤ n) := by
  induction n generalizing T observation e player with
  | zero =>
      have hpos := hends.pos h
      simp [turns, ended_nil, Nat.ne_of_gt hpos]
  | succ n ih =>
      obtain ⟨T, rfl⟩ := Nat.exists_eq_succ_of_ne_zero (Nat.ne_of_gt (hends.pos h))
      have hrest : policy.EndsAfter ((e.step (policy.act player observation).1).1.observation,
          (e.step (policy.act player observation).1).2, (policy.act player observation).2) T :=
        (endsAfter_succ h).mp hends
      have hover : (e.step (policy.act player observation).1).1.done = true ↔ T ≤ 0 := by
        rw [Environment.step_done]
        exact hrest 0
      cases hdone : (e.step (policy.act player observation).1).1.done with
      | true =>
          have hzero : T = 0 := Nat.le_zero.mp (hover.mp hdone)
          rw [turns_of_done hdone, ended_singleton hdone, hzero]
          simp
      | false =>
          obtain ⟨hlength, hended⟩ := ih hrest (by rw [← Environment.step_done, hdone])
          rw [turns_of_running hdone, ended_cons hdone]
          refine ⟨?_, hended.trans Nat.succ_le_succ_iff.symm⟩
          rw [List.length_cons, hlength, Nat.succ_min_succ]

end Policy

/-- What the state `e'` after some turns of a running episode tells of them. -/
structure Tallies (e : Environment) (turns : List Turn) (e' : Environment) : Prop where
  steps_eq : e'.steps = e.steps + UInt32.ofNat turns.length
  seed_eq : e'.seed = e.seed
  done_eq : e'.done = (ended turns).isSome
  ending_eq : ∀ t, ended turns = some t →
    t.outcome.info.ending = some (if t.outcome.info.hit then .targetHit else .maxSteps)

namespace Policy

variable {σ : Type} {policy : Policy σ} {n : Nat}

theorem turns_tallies {e : Environment} (h : e.done = false) (n : Nat)
    (observation : Observation) (player : σ) :
    Tallies e (policy.turns n observation e player).1
      (policy.turns n observation e player).2.1 := by
  induction n generalizing observation e player with
  | zero =>
      exact
        { steps_eq := (UInt32.add_zero e.steps).symm
          seed_eq := rfl
          done_eq := h
          ending_eq := fun t ht => nomatch ht }
  | succ n ih =>
      have hsteps : (e.step (policy.act player observation).1).2.steps = e.steps + 1 :=
        (Environment.step_snd_of_running h _).1
      cases hdone : (e.step (policy.act player observation).1).1.done with
      | true =>
          rw [turns_of_done hdone]
          exact
            { steps_eq := hsteps
              seed_eq := Environment.step_seed _ _
              done_eq := by
                rw [ended_singleton hdone, ← Environment.step_done, hdone]
                rfl
              ending_eq := by
                intro t ht
                rw [ended_singleton hdone] at ht
                obtain rfl := Option.some.inj ht
                exact Environment.ending_of_step h hdone }
      | false =>
          have hrest := ih (by rw [← Environment.step_done, hdone])
            (e.step (policy.act player observation).1).1.observation
            (policy.act player observation).2
          rw [turns_of_running hdone]
          exact
            { steps_eq := by
                rw [hrest.steps_eq, hsteps, List.length_cons, UInt32.add_assoc, UInt32.ofNat_add,
                  UInt32.add_comm 1]
                rfl
              seed_eq := hrest.seed_eq.trans (Environment.step_seed _ _)
              done_eq := by rw [ended_cons hdone, hrest.done_eq]
              ending_eq := by
                intro t ht
                rw [ended_cons hdone] at ht
                exact hrest.ending_eq t ht }

/-! ## What the policy is shown -/

/-- The same policy with a diary of the observations that it is shown. -/
def watched (policy : Policy σ) : Policy (σ × List Observation) where
  act p observation :=
    let (action, player) := policy.act p.1 observation
    (action, player, p.2 ++ [observation])

/-- With a diary a policy takes the same turns. The diary goes on with the number of the step
before each of them. -/
theorem watched_turns (policy : Policy σ) {e : Environment} (h : e.done = false) {k : Nat}
    (hk : e.steps = UInt32.ofNat k) {observation : Observation} (hshown : observation = e.steps)
    (n : Nat) (player : σ) (seen : List Observation) :
    policy.watched.turns n observation e (player, seen) =
      ((policy.turns n observation e player).1, (policy.turns n observation e player).2.1,
        (policy.turns n observation e player).2.2,
        seen ++ (List.range' k (policy.turns n observation e player).1.length).map
          UInt32.ofNat) := by
  induction n generalizing e k observation player seen with
  | zero => simp [turns]
  | succ n ih =>
      have hact : policy.watched.act (player, seen) observation =
          ((policy.act player observation).1, (policy.act player observation).2,
            seen ++ [observation]) := rfl
      cases hdone : (e.step (policy.act player observation).1).1.done with
      | true =>
          have hdiary : policy.watched.turns (n + 1) observation e (player, seen) = _ :=
            turns_of_done (by rw [hact]; exact hdone)
          rw [hdiary, turns_of_done hdone, hact]
          simp [hshown, hk]
      | false =>
          have hsteps : (e.step (policy.act player observation).1).2.steps =
              UInt32.ofNat (k + 1) := by
            rw [(Environment.step_snd_of_running h _).1, hk, UInt32.ofNat_add]
            rfl
          have hrest := ih (by rw [← Environment.step_done, hdone]) hsteps
            (Environment.step_observation e _) (policy.act player observation).2
            (seen ++ [observation])
          have hdiary : policy.watched.turns (n + 1) observation e (player, seen) = _ :=
            turns_of_running (by rw [hact]; exact hdone)
          rw [hdiary, turns_of_running hdone, hact]
          simp only [hrest]
          simp [hshown, hk, List.range'_succ]

end Policy

/-! ## The books of an episode -/

theorem Tallies.summary {e e' : Environment} {turns : List Turn} (h : Tallies e turns e')
    (hepisode : EpisodeTurns turns) (start : Summary) (hstart : start.ending = none)
    (hmiss : start.cleared = false) :
    let summary := start.addTurns turns
    (summary.ending = none ↔ ended turns = none) ∧
      (∀ ending, summary.ending = some ending → ending = .targetHit ∨ ending = .maxSteps) ∧
      (summary.cleared = true ↔ summary.ending = some .targetHit) := by
  rw [hepisode.addTurns_eq, hstart, hmiss]
  rcases hended : ended turns with _ | t
  · simp
  · have hending := h.ending_eq t hended
    cases hhit : t.outcome.info.hit with
    | true => simp [hending, hhit]
    | false => simp [hending, hhit]

/-- **The books of an episode.** Take a state that an environment can be in, over or not, any
policy with any state, and a seed or none. Driven without a budget from the reset on, the episode
ends after `T` actions, which the rules bound. Played with a budget and an output that takes
everything, it is summed up after `min iterations T` actions, which is what the environment has
counted. The policy is asked so many times and no more, and shown the numbers from `0` on. The
summary has an ending if the budget was not used up before, and then it is a hit or the limit;
the episode is cleared by a hit only, and over with an ending only. -/
theorem Stage.playEpisode_bookkeeping {σ : Type} {rules : Rules} {e : Environment}
    (h : Environment.Reachable rules e) (policy : Policy σ) (player : σ) (seed : Option UInt64) :
    ∃ T ≤ rules.maxSteps.toNat,
      policy.EndsAfter ((e.reset seed).1, (e.reset seed).2, player) T ∧
      ∀ (iterations episode : UInt32) (output : Output) (logbook : Logbook), output.room = none →
        ∃ (summary : Summary) (s : Stage σ),
          Stage.playEpisode policy episode seed iterations ⟨e, player, output, logbook⟩ =
            (.ok summary, s) ∧
          summary.steps.toNat = min iterations.toNat T ∧
          s.environment.steps = summary.steps ∧
          (∀ seen, Stage.playEpisode policy.watched episode seed iterations
              ⟨e, (player, seen), output, logbook⟩ =
            (.ok summary, ⟨s.environment,
              (s.player, seen ++ (List.range summary.steps.toNat).map UInt32.ofNat),
              s.output, s.logbook⟩)) ∧
          (summary.ending = none ↔ iterations.toNat < T) ∧
          (∀ ending, summary.ending = some ending → ending = .targetHit ∨ ending = .maxSteps) ∧
          (summary.cleared = true ↔ summary.ending = some .targetHit) ∧
          (s.environment.done = true ↔ summary.ending ≠ none) ∧
          summary.seed = s.environment.seed ∧
          (rules.maxSteps ≤ iterations → summary.ending ≠ none) := by
  have hstart : (e.reset seed).2.InBounds rules :=
    Environment.reset_inBounds h.valid h.rules_eq seed
  obtain ⟨T, hT, hends⟩ := policy.exists_endsAfter rules.maxSteps.toNat
    (x := ((e.reset seed).1, (e.reset seed).2, player)) hstart (Nat.le_add_left _ _)
  refine ⟨T, hT, hends, ?_⟩
  intro iterations episode output logbook houtput
  let start : Summary := { episode := episode, seed := (e.reset seed).2.seed }
  let played := policy.turns iterations.toNat (e.reset seed).1 (e.reset seed).2 player
  obtain ⟨hlength, hended⟩ :
      played.1.length = min iterations.toNat T ∧ ((ended played.1).isSome ↔ T ≤ iterations.toNat) :=
    Policy.length_turns hends rfl
  have htallies : Tallies (e.reset seed).2 played.1 played.2.1 :=
    Policy.turns_tallies rfl _ _ _
  have hepisode : EpisodeTurns played.1 := policy.episodeTurns_turns _ _ _ _
  have hplay := playEpisode_of_unlimited policy episode seed iterations
    (s := ⟨e, player, output, logbook⟩) houtput
  obtain ⟨hnone, hending, hcleared⟩ := htallies.summary hepisode start rfl rfl
  have hover : (start.addTurns played.1).ending = none ↔ iterations.toNat < T := by
    rw [hnone, ← Option.not_isSome_iff_eq_none, hended, Nat.not_le]
  have hsteps : (start.addTurns played.1).steps = UInt32.ofNat played.1.length := by
    rw [hepisode.addTurns_eq]
    exact UInt32.zero_add _
  have hcount : (start.addTurns played.1).steps.toNat = played.1.length := by
    have hlt : played.1.length < 2 ^ 32 := by
      have := iterations.toNat_lt
      omega
    rw [hsteps, UInt32.toNat_ofNat_of_lt' hlt]
  refine ⟨start.addTurns played.1, _, hplay, hcount.trans hlength, ?_, ?_, hover, hending, hcleared,
    ?_, ?_, ?_⟩
  · rw [hsteps]
    exact htallies.steps_eq.trans (UInt32.zero_add _)
  · intro seen
    have hwatched := playEpisode_of_unlimited policy.watched episode seed iterations
      (s := ⟨e, (player, seen), output, logbook⟩) houtput
    have hdiary := policy.watched_turns (e := (e.reset seed).2) (k := 0) rfl rfl
      (show (e.reset seed).1 = _ from rfl) iterations.toNat player seen
    rw [← List.range_eq_range'] at hdiary
    simp only [Environment.reset_fst] at hdiary
    rw [hwatched, hcount]
    simp only [hdiary]
    rfl
  · rw [Ne, hnone, ← Option.not_isSome_iff_eq_none, not_not, ← htallies.done_eq]
    exact Iff.rfl
  · rw [hepisode.addTurns_eq]
    exact htallies.seed_eq.symm
  · intro hbudget hopen
    have hle := UInt32.le_iff_toNat_le.mp hbudget
    have hlt := hover.mp hopen
    omega

/-- A script that hits with its second action, played in an environment whose last episode is
over, with a budget of five actions. -/
theorem Stage.playEpisode_bookkeeping_hit :
    let rules : Rules := { maxSteps := 2 }
    let first := ((Environment.mk rules (.ofSeed 5) 0 0 false 0).reset none).2
    let e := (first.run [.step (-1), .step (-1)]).2
    let script : Script := { actions := [-1, 4] }
    Environment.Reachable rules e ∧ e.done = true ∧
      Policy.cyclic.EndsAfter ((e.reset (some 77)).1, (e.reset (some 77)).2, script) 2 ∧
      ∃ (summary : Summary) (s : Stage Script),
        Stage.playEpisode .cyclic 0 (some 77) 5 ⟨e, script, {}, {}⟩ = (.ok summary, s) ∧
        summary.steps.toNat = 2 ∧ summary.ending ≠ none ∧ s.environment.done = true ∧
        ∃ s', Stage.playEpisode Policy.cyclic.watched 0 (some 77) 5 ⟨e, (script, []), {}, {}⟩ =
            (.ok summary, s') ∧
          s'.player.2 = [0, 1] := by
  intro rules first e script
  have hvalid : rules.Valid := ⟨by decide, by decide, by decide, by decide⟩
  have hreachable : Environment.Reachable rules e :=
    (Environment.Reachable.make (Environment.make_of_valid hvalid _)).run _
  obtain ⟨T, -, hends, hplay⟩ :=
    playEpisode_bookkeeping hreachable .cyclic script (some 77)
  have hone : ¬ T ≤ 1 := fun hle =>
    absurd ((hends 1).mpr hle) (by decide +kernel)
  have htwo : T ≤ 2 := (hends 2).mp (by decide +kernel)
  obtain rfl : T = 2 := by omega
  obtain ⟨summary, s, hepisode, hsteps, -, hwatched, hnone, -, -, hdone, -, -⟩ :=
    hplay 5 0 {} {} rfl
  have hcount : summary.steps.toNat = 2 := hsteps
  have hended : summary.ending ≠ none := fun hopen => absurd (hnone.mp hopen) (by decide)
  refine ⟨hreachable, by decide +kernel, hends, summary, s, hepisode, hcount, hended,
    hdone.mpr hended, _, hwatched [], ?_⟩
  rw [hcount]
  rfl

end HiddenTarget
