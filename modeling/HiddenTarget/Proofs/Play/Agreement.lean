import HiddenTarget.Proofs.Game.Course
import HiddenTarget.Proofs.Play.Trajectory
import HiddenTarget.Proofs.Telemetry.Delivery

/-!
# The three accounts of a batch

A batch gives account of its trajectories three times: in the summaries it returns, in
the lines of its output and in the records of its telemetry. `report`, `trajectoryLines`
and `trajectoryRecords` are what one trajectory amounts to in each of them.
`Stage.playEpisodes_eq_trajectories` carries all three along the episodes of a batch, and
`playBatch_eq_trajectories` is the whole batch.
-/

namespace HiddenTarget

open Telemetry

/-! ## One trajectory -/

def ended (turns : List Turn) : Option Turn := turns.getLast?.filter (·.outcome.done)

theorem ended_singleton {t : Turn} (h : t.outcome.done = true) : ended [t] = some t :=
  if_pos h

theorem ended_cons {t : Turn} (h : t.outcome.done = false) (rest : List Turn) :
    ended (t :: rest) = ended rest := by
  cases rest with
  | nil => exact if_neg (by simp [h])
  | cons u rest => rw [ended, List.getLast?_cons_cons, ended]

/-- What is reported of the turns of episode `i` in a batch with the given base seed. -/
def report (base : UInt64) (i : Nat) (turns : List Turn) : Summary where
  episode := UInt32.ofNat i
  seed := base + UInt64.ofNat i
  steps := UInt32.ofNat turns.length
  total := (turns.map (·.outcome.reward)).foldl (· + ·) 0.0
  cleared := (ended turns).elim false (·.outcome.info.hit)
  ending := (ended turns).elim none (·.outcome.info.ending)

/-- The lines of some turns: one for each of them, and one more if the episode has
ended. -/
def trajectoryLines (turns : List Turn) : List String :=
  turns.map (fun t => choiceLine t.action t.outcome.observation) ++
    if (ended turns).isSome then [clearLine] else []

/-- The records of the turns of episode `i`: one for each of them, and one of the whole. -/
def trajectoryRecords (base : UInt64) (i : Nat) (turns : List Turn) : List Json.Members :=
  turns.map (fun t => stepRecord (UInt32.ofNat i) t.action t.outcome) ++
    [episodeRecord (report base i turns)]

namespace EpisodeTurns

variable {turns : List Turn}

theorem addTurns_eq (h : EpisodeTurns turns) (s : Summary) :
    s.addTurns turns =
      { s with
        steps := s.steps + UInt32.ofNat turns.length
        total := (turns.map (·.outcome.reward)).foldl (· + ·) s.total
        cleared := (ended turns).elim s.cleared (·.outcome.info.hit)
        ending := (ended turns).elim s.ending (·.outcome.info.ending) } := by
  induction h generalizing s with
  | unfinished => simp [Summary.addTurns, ended]
  | @finished t hdone =>
      rw [ended_singleton hdone]
      simp [Summary.addTurns, Summary.add, Summary.close, hdone]
  | @turn t rest hdone _ ih =>
      have hsteps : s.steps + 1 + UInt32.ofNat rest.length =
          s.steps + UInt32.ofNat (rest.length + 1) := by
        rw [UInt32.add_assoc, UInt32.ofNat_add, UInt32.add_comm 1]
        rfl
      rw [Summary.addTurns, if_neg (by simp [hdone]), ih, ended_cons hdone, List.length_cons,
        ← hsteps]
      rfl

theorem addTurns_start (h : EpisodeTurns turns) (base : UInt64) (i : Nat) :
    ({ episode := UInt32.ofNat i, seed := base + UInt64.ofNat i } : Summary).addTurns turns =
      report base i turns := by
  rw [h.addTurns_eq, UInt32.zero_add]
  rfl

theorem flatMap_outcomeLines (h : EpisodeTurns turns) :
    turns.flatMap (fun t => outcomeLines t.action t.outcome) = trajectoryLines turns := by
  induction h with
  | unfinished => rfl
  | @finished t hdone =>
      rw [trajectoryLines, ended_singleton hdone]
      simp [outcomeLines, hdone]
  | @turn t rest hdone _ ih =>
      rw [List.flatMap_cons, ih, trajectoryLines, trajectoryLines, ended_cons hdone]
      simp [outcomeLines, hdone]

end EpisodeTurns

theorem text_episodeEvents (start : Summary) {turns : List Turn} (h : EpisodeTurns turns) :
    Event.text (episodeEvents start turns) = String.join (trajectoryLines turns) := by
  rw [episodeEvents, Event.text_append, Event.text_record, String.append_empty, Event.text,
    List.filterMap_flatMap]
  simp only [Event.filterMap_line?_events, h.flatMap_outcomeLines]

theorem records_episodeEvents (base : UInt64) (i : Nat) {turns : List Turn}
    (h : EpisodeTurns turns) :
    Event.records (episodeEvents
      { episode := UInt32.ofNat i, seed := base + UInt64.ofNat i } turns) =
      trajectoryRecords base i turns := by
  have hturns : Event.records (turns.flatMap (·.events (UInt32.ofNat i))) =
      turns.map fun t => stepRecord (UInt32.ofNat i) t.action t.outcome := by
    rw [Event.records, List.filterMap_flatMap, List.map_eq_flatMap]
    exact congrArg turns.flatMap (funext (Event.records_events _))
  rw [episodeEvents, Event.records_append, h.addTurns_start, hturns, Event.records_record,
    trajectoryRecords]

/-! ## All episodes -/

theorem Environment.reset_some_congr {e e' : Environment} (hrules : e.rules = e'.rules)
    (hseeds : e.seeds = e'.seeds) (seed : UInt64) :
    e.reset (some seed) = e'.reset (some seed) := by
  simp only [Environment.reset, Environment.nextSeed, hrules, hseeds]

theorem episodeSeed_ofNat (base : UInt64) {i : Nat} (h : i < UInt32.size) :
    episodeSeed base (UInt32.ofNat i) = base + UInt64.ofNat i := by
  have hnumber : (UInt32.ofNat i).toUInt64 = UInt64.ofNat i := by
    rw [← UInt64.toNat_inj, UInt32.toNat_toUInt64, UInt32.toNat_ofNat_of_lt' h,
      UInt64.toNat_ofNat_of_lt' (Nat.lt_trans h (by decide))]
  rw [episodeSeed, hnumber]

/-- The states in which `n` episodes of a batch start, from number `i` on. -/
def batchStarts (e : Environment) (base : UInt64) (i n : Nat) : List Environment :=
  (List.range' i n).map fun k => (e.reset (some (base + UInt64.ofNat k))).2

theorem batchStarts_succ (e : Environment) (base : UInt64) (i n : Nat) :
    batchStarts e base i (n + 1) =
      (e.reset (some (base + UInt64.ofNat i))).2 :: batchStarts e base (i + 1) n := by
  rw [batchStarts, List.range'_succ, List.map_cons, batchStarts]

theorem Stage.playEpisode_eq_trajectory (base : UInt64) (iterations : UInt32)
    (origin : Environment) {i : Nat} (hi : i < UInt32.size) {s : Stage UniformPlayer}
    (hroom : s.output.room = none) (hrules : s.environment.rules = origin.rules)
    (hseeds : s.environment.seeds = origin.seeds) {turns : List Turn}
    (hturns : (origin.reset (some (base + UInt64.ofNat i))).2.trajectory iterations.toNat
      s.player.guess = turns) :
    ∃ (environment : Environment) (events : List Event),
      environment.rules = origin.rules ∧ environment.seeds = origin.seeds ∧
      s.playEpisode .uniform (UInt32.ofNat i) (some (episodeSeed base (UInt32.ofNat i)))
          iterations =
        (.ok (report base i turns),
          { s with
            environment := environment
            player := s.player.after turns.length }.write events) ∧
      Event.text events = String.join (trajectoryLines turns) ∧
      Event.records events = trajectoryRecords base i turns ∧
      ∀ n, episodesEvents base iterations (n + 1) (UInt32.ofNat i) s.environment s.player =
        events ++ episodesEvents base iterations n (UInt32.ofNat (i + 1)) environment
          (s.player.after turns.length) := by
  have hstart := Environment.reset_some_congr hrules hseeds (base + UInt64.ofNat i)
  have hepisode : EpisodeTurns turns := hturns ▸ Environment.episodeTurns_trajectory _ _ _
  have hnext : UInt32.ofNat i + 1 = UInt32.ofNat (i + 1) := (UInt32.ofNat_add i 1).symm
  obtain ⟨environment, hrules', hseeds', hseed, hplayed⟩ := Policy.uniform_turns
    iterations.toNat 0 (origin.reset (some (base + UInt64.ofNat i))).2 s.player
  rw [hturns] at hplayed
  refine ⟨environment,
    episodeEvents { episode := UInt32.ofNat i, seed := base + UInt64.ofNat i } turns,
    hrules', hseeds', ?_, text_episodeEvents _ hepisode, records_episodeEvents base i hepisode,
    ?_⟩
  · rw [playEpisode_of_unlimited .uniform _ _ _ hroom, episodeSeed_ofNat base hi, hstart]
    simp only [hplayed]
    rw [← hepisode.addTurns_start]
    rfl
  · intro n
    rw [episodesEvents, episodeSeed_ofNat base hi, hstart, hnext]
    simp only [Environment.reset_fst, hplayed, hseed, Environment.reset_some_seed]

/-- **The episodes of a batch, from number `i` on**, with an output that takes everything:
the summaries, the lines and the records tell of the same trajectories, which begin at
seeded resets and go on in the player's stream of guesses. -/
theorem Stage.playEpisodes_eq_trajectories (base : UInt64) (iterations : UInt32)
    (origin : Environment) (n i : Nat) (hbound : i + n ≤ UInt32.size) {s : Stage UniformPlayer}
    (hroom : s.output.room = none) (hrules : s.environment.rules = origin.rules)
    (hseeds : s.environment.seeds = origin.seeds) :
    let played := trajectories iterations.toNat s.player.guess (batchStarts origin base i n)
    let events := episodesEvents base iterations n (UInt32.ofNat i) s.environment s.player
    (∃ environment player,
      s.playEpisodes base iterations n (UInt32.ofNat i) =
        (.ok (played.mapIdx fun k => report base (i + k)),
          { s with environment := environment, player := player }.write events)) ∧
      Event.text events = String.join (played.flatMap trajectoryLines) ∧
      Event.records events =
        (played.mapIdx fun k => trajectoryRecords base (i + k)).flatten := by
  induction n generalizing i s with
  | zero =>
      exact ⟨⟨s.environment, s.player, congrArg (Prod.mk _) (write_nil s).symm⟩, rfl, rfl⟩
  | succ n ih =>
      have hnext : UInt32.ofNat i + 1 = UInt32.ofNat (i + 1) := (UInt32.ofNat_add i 1).symm
      rw [batchStarts_succ, trajectories]
      generalize hturns : (origin.reset (some (base + UInt64.ofNat i))).2.trajectory
        iterations.toNat s.player.guess = turns
      obtain ⟨environment, events, hrules', hseeds', hplay, htext, hrecords, hevents⟩ :=
        playEpisode_eq_trajectory base iterations origin (by omega) hroom hrules hseeds hturns
      -- The rest of the batch starts where the episode has left the stage.
      obtain ⟨⟨environment', player', hrest⟩, htexts, hrecordss⟩ := ih (i + 1) (by omega)
        (s := { s with
          environment := environment
          player := s.player.after turns.length }.write events) hroom hrules' hseeds'
      rw [write_player, write_environment, UniformPlayer.guess_after] at hrest htexts hrecordss
      refine ⟨⟨environment', player', ?_⟩, ?_, ?_⟩
      · rw [playEpisodes, hplay]
        simp only [hnext, hrest]
        rw [mapIdx_from_cons (report base), hevents, write_append]
        rfl
      · rw [hevents, Event.text_append, htext, htexts, List.flatMap_cons, String.join_append]
      · rw [hevents, Event.records_append, hrecords, hrecordss,
          mapIdx_from_cons (trajectoryRecords base), List.flatten_cons]

/-! ## The batch -/

theorem records_ne_nil (base : UInt64) {played : List (List Turn)} (h : 0 < played.length) :
    (played.mapIdx (trajectoryRecords base)).flatten ≠ [] := by
  cases played with
  | nil => cases h
  | cons turns rest =>
      rw [List.mapIdx_cons, List.flatten_cons, trajectoryRecords]
      simp

theorem report_toNat (base : UInt64) {i : Nat} {turns : List Turn} (hi : i < UInt32.size)
    (hlength : turns.length < UInt32.size) :
    (report base i turns).episode.toNat = i ∧
      (report base i turns).seed.toNat = (base.toNat + i) % UInt64.size ∧
      (report base i turns).steps.toNat = turns.length := by
  refine ⟨UInt32.toNat_ofNat_of_lt' hi, ?_, UInt32.toNat_ofNat_of_lt' hlength⟩
  have hnumber : (UInt64.ofNat i).toNat = i :=
    UInt64.toNat_ofNat_of_lt' (Nat.lt_trans hi (by decide))
  rw [report, UInt64.toNat_add, hnumber]

theorem UniformPlayer.ofSeed_of_le {low high : Action} (h : low ≤ high) (seed : UInt64) :
    UniformPlayer.ofSeed low high seed = .ok ⟨low, high, Random.Generator.ofSeed seed⟩ := by
  rw [UniformPlayer.ofSeed, checkActionRange, if_neg (Int32.not_lt.mpr h)]

theorem openStage_eq_ok {plan : Plan} {rules : Rules} {base : UInt64} {output : Output}
    {logbook : Logbook} {environment : Environment} {player : UniformPlayer}
    (hplan : plan.Valid) (henvironment : Environment.ofSeed rules base = .ok environment)
    (hplayer : UniformPlayer.ofSeed plan.actionLow plan.actionHigh (playerSeed base) =
      .ok player) :
    openStage plan rules base output logbook =
      .ok { environment := environment, player := player, output := output,
            logbook := logbook } := by
  rw [openStage, (Plan.check_eq_ok_iff plan).mpr hplan, henvironment, hplayer]
  rfl

theorem playBatch_of_open {plan : Plan} {rules : Rules} {base : UInt64} {output : Output}
    {logbook : Logbook} {s s' : Stage UniformPlayer} {summaries : List Summary}
    (hseed : plan.seed = some base) (hopen : openStage plan rules base output logbook = .ok s)
    (hplay : s.playEpisodes base plan.iterations plan.episodes.toNat 0 = (.ok summaries, s'))
    (fresh : UInt64) :
    playBatch plan rules fresh output logbook =
      ⟨.ok summaries, s'.output, s'.logbook.flush⟩ := by
  rw [playBatch, hseed]
  simp only [Option.getD_some, hopen, hplay]

/-- **The three accounts of a batch agree.** For every plan and rules that can be played, a
base seed and an output that takes everything, the summaries, the lines and the records of
a batch are those of the same trajectories. Their guesses are the first draws of one
player, and each begins at the reset with the base seed plus its number. The records arrive
in the file of any sink that opens it first, if the file has room for them. -/
theorem playBatch_eq_trajectories {plan : Plan} {rules : Rules} {base : UInt64}
    {output : Output} (hplan : plan.Valid) (hseed : plan.seed = some base)
    (hrules : rules.Valid) (houtput : output.room = none) (fresh : UInt64)
    (logbook : Logbook) :
    ∃ environment player,
      Environment.ofSeed rules base = .ok environment ∧
      UniformPlayer.ofSeed plan.actionLow plan.actionHigh (playerSeed base) = .ok player ∧
      let played := trajectories plan.iterations.toNat player.guess
        (batchStarts environment base 0 plan.episodes.toNat)
      let records := (played.mapIdx (trajectoryRecords base)).flatten
      let result := playBatch plan rules fresh output logbook
      played.length = plan.episodes.toNat ∧
      played.flatten.map Turn.action = player.drawMany played.flatten.length ∧
      result.summaries = .ok (played.mapIdx (report base)) ∧
      (∀ i turns, played[i]? = some turns →
        (report base i turns).episode.toNat = i ∧
        (report base i turns).seed.toNat = (base.toNat + i) % UInt64.size ∧
        (report base i turns).steps.toNat = turns.length) ∧
      result.output = { output with
        written := output.written ++ (String.join (played.flatMap trajectoryLines)).toUTF8 } ∧
      ∀ l, logbook.OpensAt l → logbook.disk.Takes l (recordBytes records).size →
        result.logbook.disk.content l = logbook.kept l ++ recordBytes records ∧
        result.logbook.sink.isEnabled = true := by
  obtain ⟨environment, henvironment⟩ : ∃ e, Environment.ofSeed rules base = .ok e :=
    ⟨_, Environment.make_of_valid hrules _⟩
  obtain ⟨player, hplayer⟩ : ∃ p,
      UniformPlayer.ofSeed plan.actionLow plan.actionHigh (playerSeed base) = .ok p :=
    ⟨_, UniformPlayer.ofSeed_of_le hplan.2.2 _⟩
  refine ⟨environment, player, henvironment, hplayer, ?_⟩
  intro played records result
  have hlength : played.length = plan.episodes.toNat := by
    rw [length_trajectories, batchStarts, List.length_map, List.length_range']
  have hbound : 0 + plan.episodes.toNat ≤ UInt32.size := by
    rw [Nat.zero_add]
    exact Nat.le_of_lt plan.episodes.toNat_lt
  obtain ⟨⟨environment', player', hplay⟩, htext, hrecords⟩ :=
    Stage.playEpisodes_eq_trajectories base plan.iterations environment plan.episodes.toNat 0
      hbound (s := { environment := environment, player := player, output, logbook })
      houtput rfl rfl
  simp only [Nat.zero_add] at hplay hrecords
  have hresult : result = _ :=
    playBatch_of_open hseed (openStage_eq_ok hplan henvironment hplayer) hplay fresh
  rw [hresult]
  refine ⟨hlength, ?_, rfl, ?_, ?_, ?_⟩
  · rw [UniformPlayer.drawMany_eq]
    exact map_action_trajectories _ _ _
  · intro i turns hi
    obtain ⟨hlt, rfl⟩ := List.getElem?_eq_some_iff.mp hi
    obtain ⟨e, later, heq⟩ := exists_of_mem_trajectories (List.getElem_mem hlt)
    have hturns := heq ▸ Environment.length_trajectory_le plan.iterations.toNat later e
    exact report_toNat base (Nat.lt_trans (hlength ▸ hlt) plan.episodes.toNat_lt)
      (Nat.lt_of_le_of_lt hturns plan.iterations.toNat_lt)
  · exact congrArg
      (fun text : String => { output with written := output.written ++ text.toUTF8 }) htext
  · intro l hopens htakes
    have hpos : 0 < played.length := hlength ▸ UInt32.le_iff_toNat_le.mp hplan.1
    have hlogbook : result.logbook = (records.foldl Logbook.record logbook).flush :=
      (congrArg BatchResult.logbook hresult).trans
        (congrArg (fun rs => (List.foldl Logbook.record logbook rs).flush) hrecords)
    rw [← hresult, hlogbook]
    exact hopens.flush_records (records_ne_nil base hpos) htakes

/-- One episode of one turn, with a sink that makes its file. -/
theorem playBatch_single_hit :
    let plan : Plan := { iterations := 1, actionLow := 4, actionHigh := 4, seed := some 77 }
    let logbook : Logbook := { sink := .ofSetup (.jsonl "game.jsonl") }
    let result := playBatch plan {} 0 {} logbook
    let outcome : Outcome :=
      { observation := 1, reward := 1.0, done := true
        info := { step := 1, ending := some .targetHit, hit := true, seed := 77 } }
    let summary : Summary :=
      { episode := 0, seed := 77, steps := 1, total := 0.0 + 1.0, cleared := true
        ending := some .targetHit }
    result.summaries = .ok [summary] ∧
      result.output.written = "Choice: 4\t Answer: 1\nClear!\n".toUTF8 ∧
      result.logbook.disk.content ["game.jsonl"] =
        recordBytes [stepRecord 0 4 outcome, episodeRecord summary] ∧
      recordText (stamp (stepRecord 0 4 outcome)) =
        "\x7b\"action\":4,\"done\":true,\"episode\":0,\"kind\":\"step\",\"observation\":1," ++
          "\"reward\":1.0,\"schema_version\":1,\"seed\":77,\"step\":1,\"target_hit\":true," ++
          "\"termination_reason\":\"target_hit\"\x7d" ∧
      recordText (stamp (episodeRecord summary)) =
        "\x7b\"cleared\":true,\"episode\":0,\"kind\":\"episode\",\"schema_version\":1," ++
          "\"seed\":77,\"steps\":1,\"termination_reason\":\"TargetHit\"," ++
          "\"total_reward\":1.0\x7d" := by
  intro plan logbook result outcome summary
  have hplan : plan.Valid := ⟨by decide, by decide, by decide⟩
  have hrules : ({} : Rules).Valid := Rules.valid_default
  have hfind : logbook.disk.find ⟨"game.jsonl"⟩ = .ok (.named [] "game.jsonl") := by
    have hnames : (Path.mk "game.jsonl").names = ["game.jsonl"] := rfl
    rw [Disk.find, hnames, if_neg (by simp)]
    rfl
  have hopens : logbook.OpensAt ["game.jsonl"] := by
    refine ⟨rfl, rfl, "game.jsonl", ⟨["game.jsonl"], some 0⟩,
      { nodes := [(["game.jsonl"], .file ByteArray.empty none)] }, rfl, ?_, rfl⟩
    change logbook.disk.openFile ⟨"game.jsonl"⟩ false = _
    rw [Disk.openFile, hfind]
    rfl
  have htakes : ∀ n, logbook.disk.Takes ["game.jsonl"] n := by
    intro n content room hfile
    cases hfile
  obtain ⟨environment, player, henvironment, hplayer, -, -, hsummaries, -, houtput, hrecords⟩ :=
    playBatch_eq_trajectories hplan rfl hrules (show ({} : Output).room = none from rfl) 0 logbook
  have henvironmentRules : environment.rules = {} := by
    rw [Environment.ofSeed, Environment.make_of_valid hrules] at henvironment
    exact Except.ok.inj henvironment ▸ rfl
  have hguess : player.guess 0 = 4 := by
    rw [UniformPlayer.ofSeed_of_le hplan.2.2] at hplayer
    rw [← Except.ok.inj hplayer]
    decide +kernel
  have htarget : Environment.targetOf {} 77 = 4 := by decide +kernel
  have hstep : ((environment.reset (some (77 + UInt64.ofNat 0))).2.step 4).1 = outcome := by
    simp [Environment.step, Environment.endingAfter, henvironmentRules, htarget, outcome]
  have hplayed : trajectories plan.iterations.toNat player.guess
      (batchStarts environment 77 0 plan.episodes.toNat) = [[⟨4, outcome⟩]] := by
    change trajectories (0 + 1) _ (batchStarts environment 77 0 (0 + 1)) = _
    rw [batchStarts_succ, trajectories, Environment.trajectory_of_done (by rw [hguess, hstep]),
      hguess, hstep]
    rfl
  rw [hplayed] at hsummaries houtput hrecords
  obtain ⟨hcontent, -⟩ := hrecords _ hopens (htakes _)
  have hreport : report 77 0 [⟨4, outcome⟩] = summary := by
    rw [report, ended_singleton rfl]
    rfl
  have htext : String.join (trajectoryLines [⟨4, outcome⟩]) =
      "Choice: 4\t Answer: 1\nClear!\n" := by
    rw [trajectoryLines, ended_singleton rfl]
    decide +kernel
  have hevents : trajectoryRecords 77 0 [⟨4, outcome⟩] =
      [stepRecord 0 4 outcome, episodeRecord summary] := by
    rw [trajectoryRecords, hreport]
    rfl
  have hkept : logbook.kept ["game.jsonl"] = ByteArray.empty := rfl
  rw [List.mapIdx_cons, List.mapIdx_nil, hreport] at hsummaries
  rw [List.flatMap_cons, List.flatMap_nil, List.append_nil, htext] at houtput
  rw [List.mapIdx_cons, List.mapIdx_nil, List.flatten_cons, List.flatten_nil, hevents, hkept,
    ByteArray.empty_append] at hcontent
  have hresult : result = playBatch plan {} 0 {} logbook := rfl
  rw [hresult]
  refine ⟨hsummaries, ?_, hcontent, by decide +kernel, by decide +kernel⟩
  rw [houtput]
  exact ByteArray.empty_append

end HiddenTarget
