import HiddenTarget.Proofs.Scripting.FleetSession

/-!
# Sessions are runs of the library

What a host gets to see of an object in a session is what the environment or the fleet answers,
and the object ends up in the state that the moves of the session lead to. The parts are those of
the modules on single environments and on fleets; `sessions_refine` has them together.
-/

namespace HiddenTarget.Scripting

open HiddenTarget.Random

/-- **Sessions are runs of the library, and a call that raises changes nothing.** Calls work in
place, but one that raises has left its object as it was, whatever the call. A session on an
environment made with a seed is answered as the environment with this seed answers it, and ends
where the moves of its calls lead. A step with its information answers what the step does and
more, and no later answer tells the two apart. A session on a fleet is answered as the fleet
answers it, with three columns as long as the fleet for a step; and if it gives seeds to all
environments, as any other fleet with these rules and so many environments does. -/
theorem sessions_refine :
    (∀ (o : Object) (method : String) (a : Arguments),
      o.perform (.call method a) = settle o (o.call method a)) ∧
    (∀ (o : Object) (r : Request) (x : Exception),
      (o.perform r).1 = .error x → (o.perform r).2 = o) ∧
    (∀ (fresh : Nat → Generator) (a : Arguments) (maxSteps : UInt32) (numTargets : Int32)
        (seed : UInt64),
      let rules : Rules := { maxSteps := maxSteps, numTargets := numTargets }
      a.MakesSingle maxSteps numTargets seed → rules.Valid →
      ∃ e, Environment.ofSeed rules seed = .ok e ∧
        Class.single.construct fresh a = .ok (.single e) ∧
        ∀ (calls : List SingleCall) (requests : List Request),
          List.Forall₂ SingleCall.Asks calls requests →
          let replayed := replay SingleCall.answer e calls
          (Object.single e).session requests = (replayed.1, .single replayed.2) ∧
          replayed.2 = (e.run (calls.filterMap SingleCall.move?)).2) ∧
    (∀ (e : Environment) (before after : List SingleCall) (i : Int),
      let plain := replay SingleCall.answer e (before ++ .step i :: after)
      let informed := replay SingleCall.answer e (before ++ .stepWithInfo i :: after)
      informed.2 = plain.2 ∧
      ∃ earlier r later, earlier.length = before.length ∧
        plain.1 = earlier ++ r.map SingleCall.firstThree :: later ∧
        informed.1 = earlier ++ r :: later) ∧
    (∀ (fresh : Nat → Generator) (a : Arguments) (n : Nat) (maxSteps : UInt32)
        (numTargets : Int32),
      let rules : Rules := { maxSteps := maxSteps, numTargets := numTargets }
      a.MakesFleet n maxSteps numTargets → 0 < n → n < 2 ^ 64 → rules.Valid →
      ∃ f, Fleet.make rules ((List.range n).map fresh) = .ok f ∧ f.size = n ∧
        Class.fleet.construct fresh a = .ok (.fleet f) ∧
        ∀ (calls : List FleetCall) (requests : List Request),
          List.Forall₂ FleetCall.Asks calls requests →
          let replayed := replay FleetCall.answer f calls
          (Object.fleet f).session requests = (replayed.1, .fleet replayed.2) ∧
          replayed.2 = (f.run (calls.filterMap FleetCall.move?)).2 ∧
          (∀ is v, (FleetCall.step is, Except.ok v) ∈ calls.zip replayed.1 →
            ∃ observations rewards dones,
              v = .tuple [.list observations, .list rewards, .list dones] ∧
              observations.length = n ∧ rewards.length = n ∧ dones.length = n) ∧
          (FleetCall.Seeded n calls →
            ∀ (sources : List Generator) (g : Fleet), sources.length = n →
              Fleet.make rules sources = .ok g →
              (replay FleetCall.answer g calls).1 = replayed.1)) := by
  refine ⟨Object.callInPlace_eq, fun o r x h => Object.unchanged_of_raises h, ?_,
    SingleCall.replay_stepWithInfo, ?_⟩
  · intro fresh a maxSteps numTargets seed rules ha hvalid
    obtain ⟨e, hmake, hconstruct⟩ := construct_single ha hvalid fresh
    refine ⟨e, hmake, hconstruct, fun calls requests hasks => ⟨?_, ?_⟩⟩
    · exact session_eq_replay SingleCall.perform_of_asks hasks e
    · exact SingleCall.replay_eq_run e calls
  · intro fresh a n maxSteps numTargets rules ha hpos hlt hvalid
    obtain ⟨f, hmake, hconstruct⟩ := construct_fleet ha hpos hlt hvalid fresh
    have hsize : f.size = n := by
      rw [(Fleet.rules_of_make hvalid hmake).1, List.length_map, List.length_range]
    refine ⟨f, hmake, hsize, hconstruct, fun calls requests hasks => ⟨?_, ?_, ?_, ?_⟩⟩
    · exact session_eq_replay FleetCall.perform_of_asks hasks f
    · exact FleetCall.replay_eq_run f calls
    · intro is v hmem
      obtain ⟨g, hg, hanswer⟩ := FleetCall.exists_answer_of_mem hmem
      rw [← hsize, ← hg]
      exact FleetCall.columns_of_step hanswer
    · intro hseeded sources g hsources hg
      have hrules : Fleet.SameRules f g := Fleet.sameRules_of_make hvalid hmake hg (by
        rw [List.length_map, List.length_range, hsources])
      exact (FleetCall.replay_of_seeded hseeded hsize hrules).symm

/-- An environment and a fleet of one, both asked for numbers that do not fit and for steps that
do: what raises leaves no trace in the answers that come after it. -/
theorem sessions_refine_hit :
    let fresh := fun _ : Nat => Generator.ofSeed 0
    let single : Arguments := { places := [.int 2], names := [("seed", .int 5)] }
    let requests : List Request := [
      .call "reset" { places := [.int 77] },
      .call "step" { places := [.int (2 ^ 31)] },
      .call "step" { names := [("action", .bool true)] },
      .call "step" { places := [.int 4] },
      .get "is_done"]
    let fleet : Arguments := { places := [.bool true, .int 2] }
    let requests' : List Request := [
      .call "reset_all" { places := [.list [.int 77]] },
      .call "step" { places := [.tuple [.int 4, .int 4]] },
      .call "step" { places := [.list [.int 4]] }]
    (∃ o, Class.single.construct fresh single = .ok o ∧
      (o.session requests).1 =
        [.ok (.int 0), .error .overflowError,
          .ok (.tuple [.int 1, .float (-0.1), .bool false]),
          .ok (.tuple [.int 2, .float 1.0, .bool true]),
          .ok (.bool true)]) ∧
    (∃ o, Class.fleet.construct fresh fleet = .ok o ∧
      (o.session requests').1 =
        [.ok (.list [.int 0]),
          .error (.valueError
            "Invalid configuration 'actions': actions length 2 must match num_envs 1"),
          .ok (.tuple [.list [.int 1], .list [.float 1.0], .list [.bool true]])]) := by
  intro fresh single requests fleet requests'
  obtain ⟨-, -, hsingle, -, hfleet⟩ := sessions_refine
  have hvalid : ({ maxSteps := 2, numTargets := 10 } : Rules).Valid :=
    ⟨by decide, by decide, by decide, by decide⟩
  have htarget : Environment.targetOf { maxSteps := 2, numTargets := 10 } 77 = 4 := by
    decide +kernel
  constructor
  · have hmakes : single.MakesSingle 2 10 5 := ⟨_, _, _, rfl, rfl, rfl, rfl⟩
    obtain ⟨e, hmake, hconstruct, hsession⟩ := hsingle fresh single 2 10 5 hmakes hvalid
    have hasks : List.Forall₂ SingleCall.Asks
        [.reset (some 77), .step (2 ^ 31), .step 1, .step 4, .isDone] requests :=
      .cons (.reset rfl rfl) (.cons (.step rfl rfl) (.cons (.step rfl rfl) (.cons (.step rfl rfl)
        (.cons .isDone .nil))))
    obtain ⟨hreplay, -⟩ := hsession _ _ hasks
    refine ⟨_, hconstruct, ?_⟩
    have hreset : settle e (SingleCall.answer e (.reset (some 77))) =
        (.ok (.int 0), ⟨{ maxSteps := 2, numTargets := 10 }, e.seeds, 4, 0, false, 77⟩) := by
      rw [← htarget, ← (Environment.Reachable.make hmake).rules_eq]
      rfl
    rw [hreplay, replay_cons, hreset]
    rfl
  · have hmakes : fleet.MakesFleet 1 2 10 := ⟨_, _, _, rfl, rfl, rfl, rfl⟩
    obtain ⟨f, hmake, hsize, hconstruct, hsession⟩ :=
      hfleet fresh fleet 1 2 10 hmakes (by decide) (by decide) hvalid
    have hasks : List.Forall₂ FleetCall.Asks
        [.resetAll (some [77]), .step [4, 4], .step [4]] requests' :=
      .cons (.resetAll rfl ⟨_, .inl rfl, .cons rfl .nil⟩)
        (.cons (.step rfl ⟨_, .inr rfl, .cons rfl (.cons rfl .nil)⟩)
          (.cons (.step rfl ⟨_, .inl rfl, .cons rfl .nil⟩) .nil))
    obtain ⟨hreplay, -⟩ := hsession _ _ hasks
    refine ⟨_, hconstruct, ?_⟩
    obtain ⟨-, hrules⟩ := Fleet.rules_of_make hvalid hmake
    obtain ⟨e, he⟩ := List.length_eq_one_iff.mp hsize
    obtain rfl : f = ⟨[e]⟩ := congrArg Fleet.mk he
    have hreset : settle ⟨[e]⟩ (FleetCall.answer ⟨[e]⟩ (.resetAll (some [77]))) =
        (.ok (.list [.int 0]),
          ⟨[⟨{ maxSteps := 2, numTargets := 10 }, e.seeds, 4, 0, false, 77⟩]⟩) := by
      rw [← htarget, ← hrules e List.mem_cons_self]
      rfl
    have hrefused : (Complaint.wrongActionCount 2 1).text =
        "Invalid configuration 'actions': actions length 2 must match num_envs 1" := by
      decide +kernel
    rw [hreplay, replay_cons, hreset, ← hrefused]
    rfl

end HiddenTarget.Scripting
