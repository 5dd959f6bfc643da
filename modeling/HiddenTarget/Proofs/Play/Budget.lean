import HiddenTarget.Proofs.Play.Limited

/-!
# Episodes that differ in their budget

With more actions to spend, a policy takes the same turns as before and then some more, from
where it has got to: `turns_add_of_unfinished`. If the episode is over, there are no more turns
to take, and the larger budget makes no difference at all: `turns_add_of_ended`. So the account of
an episode with the smaller budget is where that with the larger one begins.
-/

namespace HiddenTarget

open Telemetry (Logbook episodeRecord recordBytes stepRecord)

/-! ## Turns -/

/-- What a policy sees after some turns that begin with an observation. -/
def lastObservation (observation : Observation) (turns : List Turn) : Observation :=
  turns.getLast?.elim observation (·.outcome.observation)

theorem lastObservation_cons (observation : Observation) (t : Turn) (rest : List Turn) :
    lastObservation observation (t :: rest) = lastObservation t.outcome.observation rest := by
  cases rest with
  | nil => rfl
  | cons u rest =>
      rw [lastObservation, lastObservation, List.getLast?_cons_cons, List.getLast?_cons]
      rfl

theorem ended_nil : ended [] = none := rfl

namespace Policy

variable {σ : Type}

theorem episodeTurns_turns (policy : Policy σ) (n : Nat) (observation : Observation)
    (e : Environment) (player : σ) : EpisodeTurns (policy.turns n observation e player).1 := by
  induction n generalizing observation e player with
  | zero => exact .unfinished
  | succ n ih =>
      cases hdone : (e.step (policy.act player observation).1).1.done with
      | true =>
          rw [turns_of_done hdone]
          exact .finished hdone
      | false =>
          rw [turns_of_running hdone]
          exact .turn hdone (ih _ _ _)

variable {policy : Policy σ} {n : Nat} {observation : Observation} {e : Environment} {player : σ}

/-- Nothing is left of a larger budget to spend if the episode is over. -/
theorem turns_add_of_ended (h : (ended (policy.turns n observation e player).1).isSome)
    (m : Nat) :
    policy.turns (n + m) observation e player = policy.turns n observation e player := by
  induction n generalizing observation e player with
  | zero => cases h
  | succ n ih =>
      rw [Nat.succ_add]
      cases hdone : (e.step (policy.act player observation).1).1.done with
      | true => rw [turns_of_done hdone, turns_of_done hdone]
      | false =>
          rw [turns_of_running hdone, ended_cons hdone] at h
          rw [turns_of_running hdone, turns_of_running hdone]
          simp only [ih h]

/-- What is left of a larger budget is spent from where a smaller one has led to. -/
theorem turns_add_of_unfinished (h : ended (policy.turns n observation e player).1 = none)
    (m : Nat) :
    policy.turns (n + m) observation e player =
      let first := policy.turns n observation e player
      let rest := policy.turns m (lastObservation observation first.1) first.2.1 first.2.2
      (first.1 ++ rest.1, rest.2) := by
  induction n generalizing observation e player with
  | zero => rw [Nat.zero_add]; rfl
  | succ n ih =>
      rw [Nat.succ_add]
      cases hdone : (e.step (policy.act player observation).1).1.done with
      | true =>
          rw [turns_of_done hdone, ended_singleton hdone] at h
          cases h
      | false =>
          rw [turns_of_running hdone, ended_cons hdone] at h
          rw [turns_of_running hdone, turns_of_running hdone]
          simp only [ih h, lastObservation_cons, List.cons_append]

theorem turns_prefix_of_le (policy : Policy σ) {m : Nat} (hle : n ≤ m)
    (observation : Observation) (e : Environment) (player : σ) :
    (policy.turns n observation e player).1 <+: (policy.turns m observation e player).1 := by
  obtain ⟨d, rfl⟩ := Nat.exists_eq_add_of_le hle
  rcases hended : ended (policy.turns n observation e player).1 with _ | t
  · rw [turns_add_of_unfinished hended]
    exact List.prefix_append _ _
  · have hover : (ended (policy.turns n observation e player).1).isSome := by
      rw [hended, Option.isSome_some]
    exact (turns_add_of_ended hover d).symm ▸ List.prefix_rfl

theorem turns_eq_of_le {m : Nat} (hle : n ≤ m)
    (h : (ended (policy.turns n observation e player).1).isSome) :
    policy.turns m observation e player = policy.turns n observation e player := by
  obtain ⟨d, rfl⟩ := Nat.exists_eq_add_of_le hle
  exact turns_add_of_ended h d

end Policy

/-! ## The episode -/

theorem EpisodeTurns.ending_addTurns {turns : List Turn} (h : EpisodeTurns turns) {s : Summary}
    (hs : s.ending = none) :
    (s.addTurns turns).ending = (ended turns).bind (·.outcome.info.ending) := by
  rw [h.addTurns_eq, hs]
  rcases ended turns with _ | t
  · rfl
  · rfl

def stepRecords (episode : UInt32) (turns : List Turn) : List Json.Members :=
  turns.map fun t => stepRecord episode t.action t.outcome

theorem stepRecords_append (episode : UInt32) (before after : List Turn) :
    stepRecords episode (before ++ after) =
      stepRecords episode before ++ stepRecords episode after :=
  List.map_append

theorem toUTF8_turnsText_append (before after : List Turn) :
    (turnsText (before ++ after)).toUTF8 =
      (turnsText before).toUTF8 ++ (turnsText after).toUTF8 := by
  simp only [turnsText_append, String.toUTF8_eq_toByteArray, String.toByteArray_append]

/-- What is in the file of a sink that is well when it is closed. -/
theorem Telemetry.Logbook.Healthy.content_close_records {b : Logbook} {l : Location}
    {bytes : ByteArray} {records : List Json.Members}
    (h : b.Healthy l bytes (recordBytes records).size) (hne : records ≠ []) :
    (records.foldl Logbook.record b).close.disk.content l = bytes ++ recordBytes records := by
  rw [← List.append_nil records] at h
  exact (h.content_close hne).1

namespace Stage

variable {σ : Type}

theorem written_write (s : Stage σ) (start : Summary) (turns : List Turn) :
    (s.write (episodeEvents start turns)).output.written =
      s.output.written ++ (turnsText turns).toUTF8 := by
  rw [write, episodeEvents, Event.text_append, text_turns, Event.text_record, String.append_empty]

theorem logbook_write (s : Stage σ) (start : Summary) (turns : List Turn) :
    (s.write (episodeEvents start turns)).logbook =
      (stepRecords start.episode turns ++ [episodeRecord (start.addTurns turns)]).foldl
        Logbook.record s.logbook := by
  rw [write, episodeEvents, Event.records_append, records_turns, Event.records_record, stepRecords]

/-- **A larger budget only adds to an episode.** An episode is played twice from one stage, with
an output that takes everything and with budgets `k ≤ m`. The second play takes the turns of the
first one and perhaps more of them. What the first one writes is where the text of the second one
begins, and so are its records of steps, in the file of a sink that is well. If the first summary
has an ending, then nothing at all differs: the summaries, the states of the environment and of
the policy, the output and the logbook are the same. -/
theorem playEpisode_of_budget_le (policy : Policy σ) (episode : UInt32) (seed : Option UInt64)
    {k m : UInt32} (hle : k ≤ m) {s : Stage σ} (h : s.output.room = none) :
    let short := s.playEpisode policy episode seed k
    let long := s.playEpisode policy episode seed m
    ∃ (summary summary' : Summary) (turns more : List Turn),
      short.1 = .ok summary ∧ long.1 = .ok summary' ∧
      short.2.output.written = s.output.written ++ (turnsText turns).toUTF8 ∧
      long.2.output.written =
        s.output.written ++ (turnsText turns).toUTF8 ++ (turnsText more).toUTF8 ∧
      (let recorded := stepRecords episode turns ++ [episodeRecord summary]
       let recorded' := stepRecords episode turns ++ stepRecords episode more ++
         [episodeRecord summary']
       short.2.logbook = recorded.foldl Logbook.record s.logbook ∧
       long.2.logbook = recorded'.foldl Logbook.record s.logbook ∧
       ∀ l bytes,
        (s.logbook.Healthy l bytes (recordBytes recorded).size →
          short.2.logbook.close.disk.content l = bytes ++ recordBytes recorded) ∧
        (s.logbook.Healthy l bytes (recordBytes recorded').size →
          long.2.logbook.close.disk.content l = bytes ++ recordBytes recorded')) ∧
      (summary.ending ≠ none → long = short) := by
  intro short long
  let start := (s.environment.reset seed).2
  let summary : Summary := { episode := episode, seed := start.seed }
  let played := fun n : UInt32 => policy.turns n.toNat 0 start s.player
  have hplay : ∀ n : UInt32, s.playEpisode policy episode seed n =
      (.ok (summary.addTurns (played n).1),
        { s with environment := (played n).2.1, player := (played n).2.2 }.write
          (episodeEvents summary (played n).1)) :=
    fun n => playEpisode_of_unlimited policy episode seed n h
  have hshort : short = _ := hplay k
  have hlong : long = _ := hplay m
  have hbudget : k.toNat ≤ m.toNat := UInt32.le_iff_toNat_le.mp hle
  obtain ⟨more, hmore⟩ : (played k).1 <+: (played m).1 :=
    policy.turns_prefix_of_le hbudget 0 start s.player
  refine ⟨summary.addTurns (played k).1, summary.addTurns (played m).1, (played k).1, more,
    by rw [hshort], by rw [hlong], ?_, ?_, ⟨?_, ?_, ?_⟩, ?_⟩
  · rw [hshort]
    exact written_write _ _ _
  · rw [hlong, ByteArray.append_assoc, ← toUTF8_turnsText_append, hmore]
    exact written_write _ _ _
  · rw [hshort]
    exact logbook_write _ _ _
  · rw [hlong, ← stepRecords_append, hmore]
    exact logbook_write _ _ _
  · intro l bytes
    rw [hshort, hlong, logbook_write, logbook_write, ← stepRecords_append, hmore]
    exact ⟨fun hhealthy => hhealthy.content_close_records (by simp),
      fun hhealthy => hhealthy.content_close_records (by simp)⟩
  · intro hending
    have hepisode : EpisodeTurns (played k).1 := policy.episodeTurns_turns _ _ _ _
    have hover : (ended (played k).1).isSome := by
      by_contra hnone
      rw [Option.not_isSome_iff_eq_none] at hnone
      rw [hepisode.ending_addTurns rfl, hnone] at hending
      exact hending rfl
    have hsame : played m = played k := Policy.turns_eq_of_le hbudget hover
    rw [hlong, hshort, hsame]

/-- A script that hits with its second action: a budget of five actions makes no difference to one
of two. -/
theorem playEpisode_of_budget_le_hit :
    let s : Stage Script :=
      { environment := ⟨{}, .ofSeed 5, 0, 0, false, 0⟩
        player := { actions := [-1, 4] }
        logbook := Logbook.making }
    let short := s.playEpisode .cyclic 0 (some 77) 2
    let long := s.playEpisode .cyclic 0 (some 77) 5
    long = short ∧
      short.2.output.written = "Choice: -1\t Answer: 1\nChoice: 4\t Answer: 2\nClear!\n".toUTF8 ∧
      ∃ (summary : Summary) (steps : List Json.Members),
        short.1 = .ok summary ∧ summary.ending = some .targetHit ∧
        short.2.logbook.close.disk.content ["game.jsonl"] =
          recordBytes (steps ++ [episodeRecord summary]) := by
  intro s short long
  have hending : short.1.toOption.bind (·.ending) = some .targetHit := by decide +kernel
  have hwritten : short.2.output.written =
      "Choice: -1\t Answer: 1\nChoice: 4\t Answer: 2\nClear!\n".toUTF8 := by decide +kernel
  obtain ⟨summary, summary', turns, more, hshort, -, -, -, ⟨-, -, hfile⟩, hsame⟩ :=
    playEpisode_of_budget_le .cyclic 0 (some 77) (show (2 : UInt32) ≤ 5 by decide)
      (show s.output.room = none from rfl)
  rw [show short.1 = .ok summary from hshort] at hending
  have hhit : summary.ending = some .targetHit := hending
  have hhealthy := (hfile ["game.jsonl"] ByteArray.empty).1
    (.inl ⟨Logbook.opensAt_making, rfl, Logbook.takes_making _⟩)
  rw [ByteArray.empty_append] at hhealthy
  exact ⟨hsame (by rw [hhit]; simp), hwritten, summary, stepRecords 0 turns, hshort, hhit, hhealthy⟩

end Stage

end HiddenTarget
