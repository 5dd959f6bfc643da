import HiddenTarget.Proofs.Play.Agreement
import HiddenTarget.Proofs.Telemetry.Lines

/-!
# Batches that differ in length

A batch plays its trajectories, `Plan.played`, and with an output that takes everything it gives
no account of anything else: `playBatch_of_played`. No trajectory depends on how many come
after it, so a longer batch plays those of a shorter one first, `played_of_le`. All that the
shorter batch returns, writes and records is where the account of the longer one begins.
-/

namespace HiddenTarget

open Telemetry (Logbook lineBytes newline recordBytes recordText stamp)

def Plan.played (plan : Plan) (rules : Rules) (base : UInt64) :
    Except Complaint (List (List Turn)) :=
  (openStage plan rules base {} {}).map fun s =>
    trajectories plan.iterations.toNat s.player.guess
      (batchStarts s.environment base 0 plan.episodes.toNat)

variable {plan : Plan} {rules : Rules} {base : UInt64} {played : List (List Turn)}

theorem openStage_of_valid (hplan : plan.Valid) (hrules : rules.Valid) (base : UInt64) :
    ∃ (environment : Environment) (player : UniformPlayer), ∀ plan' : Plan, plan'.Valid →
      plan'.actionLow = plan.actionLow → plan'.actionHigh = plan.actionHigh →
      ∀ output logbook, openStage plan' rules base output logbook =
        .ok { environment := environment, player := player, output := output,
              logbook := logbook } := by
  obtain ⟨environment, henvironment⟩ : ∃ e, Environment.ofSeed rules base = .ok e :=
    ⟨_, Environment.make_of_valid hrules _⟩
  obtain ⟨player, hplayer⟩ : ∃ p,
      UniformPlayer.ofSeed plan.actionLow plan.actionHigh (playerSeed base) = .ok p :=
    ⟨_, UniformPlayer.ofSeed_of_le hplan.2.2 _⟩
  refine ⟨environment, player, fun plan' hplan' hlow hhigh output logbook => ?_⟩
  exact openStage_eq_ok hplan' henvironment (by rw [hlow, hhigh, hplayer])

theorem trajectories_append (n : Nat) (guesses : Nat → Action) (before after : List Environment) :
    ∃ guesses', trajectories n guesses (before ++ after) =
      trajectories n guesses before ++ trajectories n guesses' after := by
  induction before generalizing guesses with
  | nil => exact ⟨guesses, rfl⟩
  | cons e before ih =>
      obtain ⟨guesses', hrest⟩ := ih fun k => guesses ((e.trajectory n guesses).length + k)
      refine ⟨guesses', ?_⟩
      rw [List.cons_append, trajectories, trajectories, hrest, List.cons_append]

theorem batchStarts_append (e : Environment) (base : UInt64) (i m n : Nat) :
    batchStarts e base i (m + n) = batchStarts e base i m ++ batchStarts e base (i + m) n := by
  rw [batchStarts, batchStarts, batchStarts, ← List.map_append, List.range'_append_1]

theorem played_eq {environment : Environment} {player : UniformPlayer}
    (hopen : openStage plan rules base {} {} =
      .ok { environment := environment, player := player }) :
    plan.played rules base = .ok (trajectories plan.iterations.toNat player.guess
      (batchStarts environment base 0 plan.episodes.toNat)) := by
  rw [Plan.played, hopen]
  rfl

/-- **A longer batch plays the trajectories of a shorter one first.** -/
theorem played_of_le (hplan : plan.Valid) (hrules : rules.Valid) {m : UInt32}
    (hle : plan.episodes ≤ m) (base : UInt64) :
    ∃ played more, plan.played rules base = .ok played ∧
      { plan with episodes := m }.played rules base = .ok (played ++ more) ∧
      played.length = plan.episodes.toNat ∧ (played ++ more).length = m.toNat := by
  obtain ⟨environment, player, hopen⟩ := openStage_of_valid hplan hrules base
  have hlong : ({ plan with episodes := m } : Plan).Valid :=
    ⟨UInt32.le_trans hplan.1 hle, hplan.2⟩
  obtain ⟨k, hk⟩ := Nat.exists_eq_add_of_le (UInt32.le_iff_toNat_le.mp hle)
  obtain ⟨guesses, hsplit⟩ := trajectories_append plan.iterations.toNat player.guess
    (batchStarts environment base 0 plan.episodes.toNat)
    (batchStarts environment base (0 + plan.episodes.toNat) k)
  rw [← batchStarts_append, ← hk] at hsplit
  have hlength : ∀ guesses i n, (trajectories plan.iterations.toNat guesses
      (batchStarts environment base i n)).length = n := by
    intro guesses i n
    rw [length_trajectories, batchStarts, List.length_map, List.length_range']
  refine ⟨_, trajectories plan.iterations.toNat guesses
    (batchStarts environment base (0 + plan.episodes.toNat) k),
    played_eq (hopen plan hplan rfl rfl {} {}), ?_, hlength _ _ _, ?_⟩
  · rw [← hsplit]
    exact played_eq (hopen _ hlong rfl rfl {} {})
  · rw [← hsplit]
    exact hlength _ _ _

/-- **What a batch does** with an output that takes everything: its account of the trajectories
that it plays, and a flush. -/
theorem playBatch_of_played (hplan : plan.Valid) (hrules : rules.Valid)
    (hseed : plan.seed = some base) (hplayed : plan.played rules base = .ok played)
    {output : Output} (houtput : output.room = none) (fresh : UInt64) (b : Logbook) :
    playBatch plan rules fresh output b =
      ⟨.ok (played.mapIdx (report base)),
        { output with
          written := output.written ++ (String.join (played.flatMap trajectoryLines)).toUTF8 },
        ((played.mapIdx (trajectoryRecords base)).flatten.foldl Logbook.record b).flush⟩ := by
  obtain ⟨environment, player, hopen⟩ := openStage_of_valid hplan hrules base
  obtain rfl := Except.ok.inj
    (hplayed.symm.trans (played_eq (hopen plan hplan rfl rfl {} {})))
  have hbound : 0 + plan.episodes.toNat ≤ UInt32.size := by
    rw [Nat.zero_add]
    exact Nat.le_of_lt plan.episodes.toNat_lt
  obtain ⟨⟨environment', player', hplay⟩, htext, hrecords⟩ :=
    Stage.playEpisodes_eq_trajectories base plan.iterations environment plan.episodes.toNat 0
      hbound (s := { environment := environment, player := player, output, logbook := b })
      houtput rfl rfl
  simp only [Nat.zero_add] at hplay hrecords
  rw [playBatch_of_open hseed (hopen plan hplan rfl rfl output b) hplay fresh, Stage.write]
  simp only [htext, hrecords]

theorem lines_of_played (hplan : plan.Valid) (hrules : rules.Valid)
    (hseed : plan.seed = some base) (hplayed : plan.played rules base = .ok played)
    (hpos : 0 < played.length) (fresh : UInt64) {b : Logbook} {l : Location} (hopens : b.OpensAt l)
    (hempty : b.disk.content l = ByteArray.empty)
    (htakes : b.disk.Takes l
      (recordBytes (played.mapIdx (trajectoryRecords base)).flatten).size) :
    ((playBatch plan rules fresh {} b).logbook.disk.content l).data.toList.splitOn newline =
      (played.mapIdx (trajectoryRecords base)).flatten.map
        (fun members => lineBytes (recordText (stamp members))) ++ [[]] := by
  have hkept : b.kept l = ByteArray.empty := by
    rw [Logbook.kept, hempty, ite_self]
  obtain ⟨hcontent, -⟩ := hopens.flush_records (records_ne_nil base hpos) htakes
  rw [hkept, ByteArray.empty_append] at hcontent
  rw [playBatch_of_played hplan hrules hseed hplayed rfl fresh, hcontent,
    Telemetry.splitOn_recordBytes]

/-- **A shorter batch is where a longer one begins.** Two batches that differ in the number of
their episodes only, with a base seed and an output that takes everything: the summaries of
the shorter one are the first of the longer one, and what it writes is where the output of the
longer one begins. So are the lines in the file of its sink, if the files of both were empty
and take what is recorded. -/
theorem playBatch_prefix (hplan : plan.Valid) (hrules : rules.Valid)
    (hseed : plan.seed = some base) {m : UInt32} (hle : plan.episodes ≤ m)
    (fresh fresh' : UInt64) (b b' : Logbook) :
    let short := playBatch plan rules fresh {} b
    let long := playBatch { plan with episodes := m } rules fresh' {} b'
    (∃ summaries : List Summary, long.summaries = .ok summaries ∧
      short.summaries = .ok (summaries.take plan.episodes.toNat) ∧
      summaries.length = m.toNat) ∧
    (∃ text : String, long.output.written = short.output.written ++ text.toUTF8) ∧
    ∃ records more : List Json.Members,
      let line := fun members => lineBytes (recordText (stamp members))
      (∀ l, b.OpensAt l → b.disk.content l = ByteArray.empty →
        b.disk.Takes l (recordBytes records).size →
        (short.logbook.disk.content l).data.toList.splitOn newline =
          records.map line ++ [[]]) ∧
      ∀ l, b'.OpensAt l → b'.disk.content l = ByteArray.empty →
        b'.disk.Takes l (recordBytes (records ++ more)).size →
        (long.logbook.disk.content l).data.toList.splitOn newline =
          records.map line ++ more.map line ++ [[]] := by
  intro short long
  obtain ⟨played, more, hplayed, hlong, hlength, hlengths⟩ := played_of_le hplan hrules hle base
  have hvalid : ({ plan with episodes := m } : Plan).Valid :=
    ⟨UInt32.le_trans hplan.1 hle, hplan.2⟩
  have hpos : 0 < played.length := hlength ▸ UInt32.le_iff_toNat_le.mp hplan.1
  have hposs : 0 < (played ++ more).length := by
    rw [List.length_append]
    exact Nat.add_pos_left hpos _
  have hshortEq : short = _ := playBatch_of_played hplan hrules hseed hplayed rfl fresh b
  have hlongEq : long = _ := playBatch_of_played hvalid hrules hseed hlong rfl fresh' b'
  refine ⟨⟨(played ++ more).mapIdx (report base), ?_, ?_, ?_⟩,
    ⟨String.join (more.flatMap trajectoryLines), ?_⟩,
    (played.mapIdx (trajectoryRecords base)).flatten,
    (more.mapIdx fun i => trajectoryRecords base (i + played.length)).flatten, ?_, ?_⟩
  · rw [hlongEq]
  · rw [hshortEq, List.mapIdx_append, List.take_left' (by rw [List.length_mapIdx, hlength])]
  · rw [List.length_mapIdx, hlengths]
  · rw [hshortEq, hlongEq, List.flatMap_append, String.join_append]
    simp only [String.toUTF8_eq_toByteArray, String.toByteArray_append, ByteArray.append_assoc]
  · intro l hopens hempty htakes
    exact lines_of_played hplan hrules hseed hplayed hpos fresh hopens hempty htakes
  · intro l hopens hempty htakes
    rw [← List.flatten_append, ← List.mapIdx_append] at htakes
    have hlines := lines_of_played hvalid hrules hseed hlong hposs fresh' hopens hempty htakes
    rw [List.mapIdx_append, List.flatten_append, List.map_append] at hlines
    exact hlines

/-- One episode and two episodes of a batch, each with a sink that makes its file. -/
theorem playBatch_prefix_two :
    let plan : Plan := { iterations := 1, actionLow := 4, actionHigh := 4, seed := some 77 }
    let short := playBatch plan {} 0 {} Logbook.making
    let long := playBatch { plan with episodes := 2 } {} 0 {} Logbook.making
    (∃ summaries : List Summary, long.summaries = .ok summaries ∧
      short.summaries = .ok (summaries.take 1) ∧ summaries.length = 2) ∧
    (∃ text : String, long.output.written = short.output.written ++ text.toUTF8) ∧
    ∃ records more : List Json.Members,
      let line := fun members => lineBytes (recordText (stamp members))
      (short.logbook.disk.content ["game.jsonl"]).data.toList.splitOn newline =
        records.map line ++ [[]] ∧
      (long.logbook.disk.content ["game.jsonl"]).data.toList.splitOn newline =
        records.map line ++ more.map line ++ [[]] := by
  intro plan
  have hplan : plan.Valid := ⟨by decide, by decide, by decide⟩
  obtain ⟨hsummaries, htext, records, more, hshort, hlong⟩ :=
    playBatch_prefix hplan Rules.valid_default rfl (m := 2) (by decide) 0 0 Logbook.making
      Logbook.making
  exact ⟨hsummaries, htext, records, more,
    hshort _ Logbook.opensAt_making rfl (Logbook.takes_making _),
    hlong _ Logbook.opensAt_making rfl (Logbook.takes_making _)⟩

end HiddenTarget
