import HiddenTarget.Proofs.Console.CommandLine
import HiddenTarget.Proofs.Console.Errors
import HiddenTarget.Proofs.Play.Joined

/-!
# What a run of the command shows

A run shows the text of the batch, with the prompt in front of it and the summaries behind it if
they are wanted. All three come from what is played, and the options and variables that only say
how to show it have no say in that: `run_of_samePlay` is about any two runs that differ in them.

The records must not go to the output for that. If they do, all that is written arrives there, the
records included, so that more is shown than the text: `run_with_records_on_output`.
-/

namespace HiddenTarget

open Telemetry (Logbook recordBytes)

/-! ## Episodes that have ended -/

/-- The number of lines of a text that say that an episode has ended. -/
def clearings (text : String) : Nat := (text.toList.splitOn '\n').count "Clear!".toList

/-- A text is a line if its only newline is at its end. -/
def IsLine (text : String) : Prop := ∃ body, text.toList = body ++ ['\n'] ∧ '\n' ∉ body

theorem isLine_clearLine : IsLine clearLine := ⟨"Clear!".toList, rfl, by decide⟩

theorem isLine_choiceLine (action : Action) (observation : Observation) :
    IsLine (choiceLine action observation) := by
  refine ⟨"Choice: ".toList ++ Decimal.integer action.toInt ++ "\t Answer: ".toList ++
    Decimal.natural observation.toNat, ?_, ?_⟩
  · simp only [choiceLine, Decimal.integerText, Decimal.naturalText, String.toList_append,
      String.toList_ofList]
    rfl
  · simp only [List.mem_append, not_or]
    refine ⟨⟨⟨by decide, fun h => ?_⟩, by decide⟩, fun h => ?_⟩
    · exact absurd (Decimal.inNumber_of_mem_integer h).visible.1 (by decide)
    · exact absurd (Decimal.inNumber_of_mem_natural h).visible.1 (by decide)

theorem isLine_of_mem_trajectoryLines {turns : List Turn} {line : String}
    (h : line ∈ trajectoryLines turns) : IsLine line := by
  rw [trajectoryLines, List.mem_append] at h
  rcases h with h | h
  · obtain ⟨t, -, rfl⟩ := List.mem_map.mp h
    exact isLine_choiceLine _ _
  · split at h
    · obtain rfl := List.mem_singleton.mp h
      exact isLine_clearLine
    · cases h

theorem count_clearLine_le_clearings {lines : List String} (h : ∀ line ∈ lines, IsLine line) :
    lines.count clearLine ≤ clearings (String.join lines) := by
  induction lines with
  | nil => exact Nat.zero_le _
  | cons line rest ih =>
      obtain ⟨body, hline, hbody⟩ := h line List.mem_cons_self
      have hrest := ih fun l hl => h l (List.mem_cons_of_mem _ hl)
      have hsplit : (String.join (line :: rest)).toList.splitOn '\n' =
          body :: (String.join rest).toList.splitOn '\n' := by
        rw [String.join_cons, String.toList_append, hline, List.append_assoc,
          List.singleton_append, List.splitOn_append_cons_self_of_not_mem hbody]
      rw [clearings, hsplit, List.count_cons, List.count_cons]
      refine Nat.add_le_add hrest ?_
      by_cases hclear : line = clearLine
      · have hchars : body ++ ['\n'] = "Clear!".toList ++ ['\n'] := by
          rw [← hline, hclear]
          rfl
        simp [List.append_cancel_right hchars, hclear]
      · simp [hclear]

theorem cleared_le_count (base : UInt64) (i : Nat) (turns : List Turn) :
    (report base i turns).cleared.toNat ≤ (trajectoryLines turns).count clearLine := by
  rw [report, trajectoryLines, List.count_append]
  cases ended turns with
  | none => exact Nat.zero_le _
  | some t =>
      have hone : ([clearLine] : List String).count clearLine = 1 := List.count_singleton_self
      rw [Option.isSome_some, if_pos rfl, hone]
      exact Nat.le_trans (Bool.toNat_le _) (Nat.le_add_left 1 _)

theorem countP_cleared_le (base : UInt64) (i : Nat) (played : List (List Turn)) :
    (played.mapIdx fun k => report base (i + k)).countP (·.cleared) ≤
      clearings (String.join (played.flatMap trajectoryLines)) := by
  have hlines : ∀ line ∈ played.flatMap trajectoryLines, IsLine line := by
    intro line hline
    obtain ⟨turns, -, hmem⟩ := List.mem_flatMap.mp hline
    exact isLine_of_mem_trajectoryLines hmem
  refine Nat.le_trans ?_ (count_clearLine_le_clearings hlines)
  clear hlines
  induction played generalizing i with
  | nil => exact Nat.zero_le _
  | cons turns rest ih =>
      rw [mapIdx_from_cons (report base), List.countP_cons, List.flatMap_cons, List.count_append,
        Nat.add_comm]
      refine Nat.add_le_add ?_ (ih (i + 1))
      refine Nat.le_trans (Nat.le_of_eq ?_) (cleared_le_count base i turns)
      cases (report base i turns).cleared with
      | true => rfl
      | false => rfl

namespace Console

/-! ## Playing -/

section Play

variable {s : Start} {base : UInt64} {played : List (List Turn)} {w : Surroundings}

theorem Start.disk_play (s : Start) (w : Surroundings) :
    (s.play w).disk = (playBatch s.options.plan s.rules w.fresh w.output
      { sink := .ofSetup s.setup, disk := w.disk }).logbook.close.disk := by
  simp only [Start.play]
  split
  · rfl
  · split
    · rfl
    · rfl

def Start.summaryText (s : Start) (summaries : List Summary) : String :=
  String.join (if 0 < s.options.verbosity then summaryLines summaries else [])

def Start.finalLogbook (s : Start) (w : Surroundings) (base : UInt64) (played : List (List Turn)) :
    Logbook :=
  ((played.mapIdx (trajectoryRecords base)).flatten.foldl Logbook.record
    { sink := .ofSetup s.setup, disk := w.disk }).flush

theorem Start.play_of_output (hplan : s.options.plan.Valid) (hrules : s.rules.Valid)
    (hseed : s.options.plan.seed = some base)
    (hplayed : s.options.plan.played s.rules base = .ok played) (hroom : w.output.room = none)
    {written : ByteArray}
    (houtput : (if (s.finalLogbook w base played).place?.any w.outputPlaces.contains
      then s.joinedOutput w
      else { w.output with
        written := w.output.written ++ (String.join (played.flatMap trajectoryLines)).toUTF8 }) =
      { w.output with written := written }) :
    (s.play w).status = 0 ∧
      (s.play w).output.written = written ++ (s.summaryText (played.mapIdx (report base))).toUTF8 ∧
      (s.play w).errors = (s.finalLogbook w base played).close.warningText ++
        (match (s.finalLogbook w base played).place?.filter w.errorPlaces.contains with
          | none => ""
          | some l => (String.fromUTF8?
              ((s.finalLogbook w base played).close.disk.content l)).getD "") ++
        doneLine (played.mapIdx (report base)) := by
  have hwrite : ∀ lines, ({ w.output with written := written } : Output).writeAll lines =
      (none, { w.output with written := written ++ (String.join lines).toUTF8 }) :=
    fun lines => @Stage.writeAll_of_unlimited { w.output with written := written } hroom lines
  rw [Start.finalLogbook] at houtput
  simp only [Start.play, playBatch_of_played hplan hrules hseed hplayed hroom]
  rw [houtput, hwrite]
  exact ⟨rfl, rfl, rfl⟩

theorem Start.play_of_played (hplan : s.options.plan.Valid) (hrules : s.rules.Valid)
    (hseed : s.options.plan.seed = some base)
    (hplayed : s.options.plan.played s.rules base = .ok played) (hpos : 0 < played.length)
    (hroom : w.output.room = none) (herrors : ∀ l ∈ w.errorPlaces, ∀ n, w.disk.Takes l n)
    (helsewhere : ∀ path, s.setup.path = some path →
      (Path.mk path).location w.disk.home ∉ w.outputPlaces) :
    (s.play w).status = 0 ∧
      (s.play w).output.written = w.output.written ++
        (String.join (played.flatMap trajectoryLines) ++
          s.summaryText (played.mapIdx (report base))).toUTF8 ∧
      ∃ shown, WholeLines shown ∧
        (s.play w).errors = shown ++ doneLine (played.mapIdx (report base)) := by
  have hplace : ¬ (s.finalLogbook w base played).place?.any w.outputPlaces.contains := by
    intro hany
    obtain ⟨l, hl, hmem⟩ := (Option.any_eq_true _ _).mp hany
    obtain ⟨-, path, hpath, rfl⟩ := Logbook.opensAt_of_place? hl
    exact helsewhere path hpath (List.contains_iff_mem.mp hmem)
  obtain ⟨hstatus, hwritten, hshown⟩ :=
    Start.play_of_output hplan hrules hseed hplayed hroom (if_neg hplace)
  refine ⟨hstatus, ?_, _, (wholeLines_warningText _).append
    (wholeLines_records (records_ne_nil base hpos) herrors), hshown⟩
  rw [hwritten, String.toUTF8_eq_toByteArray, String.toUTF8_eq_toByteArray,
    String.toUTF8_eq_toByteArray, String.toByteArray_append, ByteArray.append_assoc]

/-- Surroundings in which a run shows what is played: a line can be read if one is waited for, the
output takes everything and so does the error stream, and the records do not go to the output.
Records that go to the error stream come before the last line there, as it is appended to. -/
structure Start.Shows (s : Start) (w : Surroundings) : Prop where
  line : s.options.noWait = false →
    (String.fromUTF8? (w.input.extract 0 (lineLength w.input.toList))).isSome = true
  output : w.output.room = none
  errors : ∀ l ∈ w.errorPlaces, ∀ n, w.disk.Takes l n
  elsewhere : ∀ path, s.setup.path = some path →
    (Path.mk path).location w.disk.home ∉ w.outputPlaces

def Start.promptText (s : Start) : String := if s.options.noWait then "" else prompt

theorem Start.run_of_line (hwait : s.options.noWait = false) (hroom : w.output.room = none)
    (hline : (String.fromUTF8? (w.input.extract 0 (lineLength w.input.toList))).isSome = true) :
    s.run w = s.play { w with
      output := { w.output with written := w.output.written ++ prompt.toUTF8 }
      input := w.input.extract (lineLength w.input.toList) w.input.size } := by
  rw [Start.run, hwait, waitForEnter, Output.write_of_room_none hroom]
  simp only [if_pos hline]
  rfl

theorem Start.run_of_played (hplan : s.options.plan.Valid) (hrules : s.rules.Valid)
    (hseed : s.options.plan.seed = some base)
    (hplayed : s.options.plan.played s.rules base = .ok played) (hpos : 0 < played.length)
    (hshows : s.Shows w) :
    (s.run w).status = 0 ∧
      (s.run w).output.written = w.output.written ++ (s.promptText ++
        String.join (played.flatMap trajectoryLines) ++
          s.summaryText (played.mapIdx (report base))).toUTF8 ∧
      ∃ shown, WholeLines shown ∧
        (s.run w).errors = shown ++ doneLine (played.mapIdx (report base)) := by
  cases hwait : s.options.noWait with
  | true =>
      rw [Start.run, if_pos hwait, Start.promptText, if_pos hwait, String.empty_append]
      exact Start.play_of_played hplan hrules hseed hplayed hpos hshows.output hshows.errors
        hshows.elsewhere
  | false =>
      let output : Output := { w.output with written := w.output.written ++ prompt.toUTF8 }
      let input := w.input.extract (lineLength w.input.toList) w.input.size
      obtain ⟨hstatus, hwritten, hdone⟩ := @Start.play_of_played s base played
        { w with output := output, input := input } hplan hrules hseed hplayed hpos hshows.output
        hshows.errors hshows.elsewhere
      rw [Start.run_of_line hwait hshows.output (hshows.line hwait)]
      refine ⟨hstatus, ?_, hdone⟩
      rw [hwritten, Start.promptText, hwait]
      simp only [output, Bool.false_eq_true, if_false, String.toUTF8_eq_toByteArray,
        String.toByteArray_append, ByteArray.append_assoc]

end Play

/-! ## Preparing -/

/-- Two lookups differ in the variables of telemetry only. -/
def SameButTelemetry (lookup lookup' : String → Option String) : Prop :=
  ∀ key, key ∉ [Telemetry.Setup.modeKey, Telemetry.Setup.pathKey, Telemetry.Setup.appendKey] →
    lookup' key = lookup key

variable {arguments arguments' : List String} {lookup lookup' : String → Option String}
  {start start' : Start}

theorem SameButTelemetry.override (h : SameButTelemetry lookup lookup') (r : Rules) :
    r.override lookup' = r.override lookup := by
  rw [Rules.override, h Rules.maxStepsKey (by decide), h Rules.numTargetsKey (by decide),
    h Rules.hitRewardKey (by decide), h Rules.missRewardKey (by decide)]
  rfl

theorem prepare_eq_ok (h : prepare arguments lookup = .ok start) :
    Options.ofArguments arguments = .ok start.options ∧
      ({} : Rules).override lookup = (start.rules, start.overrides) ∧
      start.rules.check = .ok () ∧ start.options.plan.check = .ok () ∧
      start.setup = (match start.options.telemetry with
        | some path => Telemetry.Setup.jsonl path
        | none => Telemetry.Setup.ofLookup lookup) := by
  rw [prepare] at h
  split at h
  · cases h
  · cases h
  · cases h
  · next options hoptions =>
      rcases hoverride : ({} : Rules).override lookup with ⟨rules, overrides⟩
      simp only [hoverride] at h
      split at h
      · cases h
      · next hrules =>
          split at h
          · cases h
          · next hplan =>
              cases h
              exact ⟨hoptions, rfl, hrules, hplan, rfl⟩

theorem prepare_of_telemetry (h : prepare arguments lookup = .ok start)
    (hgiven : start.options.telemetry.isSome = true) (hsame : SameButTelemetry lookup lookup') :
    prepare arguments lookup' = .ok start := by
  obtain ⟨hoptions, hoverride, hrules, hplan, hsetup⟩ := prepare_eq_ok h
  obtain ⟨path, hpath⟩ := Option.isSome_iff_exists.mp hgiven
  rw [hpath] at hsetup
  simp only [prepare, hoptions, hsame.override, hoverride, hrules, hplan, hpath, ← hsetup]

/-! ## Two runs -/

/-- **Presentation has no say in the play.** A command line with a seed that is accepted has
summaries and a text, those of its batch, however the batch is played. Every run that differs in
words that only present the play and in the variables of telemetry ends well and shows them: the
prompt if it waits, the text, and the summaries if they are wanted. Its last line on the error
stream counts the episodes that were cleared, which are no more than the text says have ended. If
the place of the records is among the words, the variables of telemetry change nothing at all. -/
theorem run_of_samePlay {base : UInt64} (hstart : prepare arguments lookup = .ok start)
    (hseed : start.options.plan.seed = some base) :
    ∃ (summaries : List Summary) (text : String),
      (∀ fresh b,
        let batch := playBatch start.options.plan start.rules fresh {} b
        batch.summaries = .ok summaries ∧ batch.output.written = text.toUTF8) ∧
      summaries.length = start.options.plan.episodes.toNat ∧
      summaries.countP (·.cleared) ≤ clearings text ∧
      (∀ arguments' w start', SamePlay arguments arguments' → SameButTelemetry lookup w.lookup →
        prepare arguments' w.lookup = .ok start' → start'.Shows w →
        let report := run arguments' w
        report.status = 0 ∧
        report.output.written =
          w.output.written ++ (start'.promptText ++ text ++ start'.summaryText summaries).toUTF8 ∧
        ∃ before, report.errors = before ++ "\n" ++ doneLine summaries) ∧
      ∀ w : Surroundings, w.lookup = lookup → start.options.telemetry.isSome = true →
        ∀ lookup', SameButTelemetry lookup lookup' →
          run arguments { w with lookup := lookup' } = run arguments w := by
  obtain ⟨hoptions, hoverride, hrules, hplan, -⟩ := prepare_eq_ok hstart
  rw [Rules.check_eq_ok_iff] at hrules
  rw [Plan.check_eq_ok_iff] at hplan
  obtain ⟨played, -, hplayed, -, hlength, -⟩ :=
    played_of_le hplan hrules (UInt32.le_refl start.options.plan.episodes) base
  have hpos : 0 < played.length := hlength ▸ UInt32.le_iff_toNat_le.mp hplan.1
  refine ⟨played.mapIdx (report base), String.join (played.flatMap trajectoryLines), ?_, ?_, ?_,
    ?_, ?_⟩
  · intro fresh b batch
    have hbatch : batch = _ := playBatch_of_played hplan hrules hseed hplayed rfl fresh b
    rw [hbatch]
    exact ⟨rfl, ByteArray.empty_append⟩
  · rw [List.length_mapIdx, hlength]
  · have hcleared := countP_cleared_le base 0 played
    simp only [Nat.zero_add] at hcleared
    exact hcleared
  · intro arguments' w start' hsame hlookup hstart' hshows
    obtain ⟨hoptions', hoverride', -⟩ := prepare_eq_ok hstart'
    rw [hlookup.override, hoverride] at hoverride'
    obtain ⟨hrulesEq, -⟩ := Prod.mk.inj hoverride'
    have hplanEq := hsame.plan_eq hoptions hoptions'
    obtain ⟨hstatus, hwritten, shown, hshown, herrors⟩ := @Start.run_of_played start' base played w
      (hplanEq ▸ hplan) (hrulesEq ▸ hrules) (hplanEq ▸ hseed) (by rw [hplanEq, ← hrulesEq, hplayed])
      hpos hshows
    have hrun : run arguments' w =
        { start'.run w with errors := start'.preamble ++ (start'.run w).errors } := by
      rw [run, hstart']
    rw [hrun]
    obtain ⟨before, hbefore⟩ := hshown.exists_eq start'.getLast?_preamble
    refine ⟨hstatus, hwritten, before, ?_⟩
    rw [herrors, ← String.append_assoc, hbefore]
  · rintro w rfl hgiven lookup' hsame
    rw [run, run, prepare_of_telemetry hstart hgiven hsame, hstart]
    rfl

/-- One episode, once without anything around its text, and once behind the prompt, in front of its
summary and with its records in a file. The file is given, so that the variable is not asked. -/
theorem run_of_samePlay_waiting :
    let quiet :=
      run ["--no-wait", "--seed", "77", "--max-iterations", "1"] { lookup := fun _ => none }
    let words := ["--seed", "77", "-v", "--telemetry", "/game.jsonl", "--max-iterations", "1"]
    let w : Surroundings := { lookup := fun _ => none, input := "go\n".toUTF8 }
    let loud := run words w
    (∃ (summaries : List Summary) (text : String), summaries.length = 1 ∧
      quiet.status = 0 ∧ quiet.output.written = text.toUTF8 ∧
      loud.status = 0 ∧ loud.output.written =
        (prompt ++ text ++ String.join (summaryLines summaries)).toUTF8 ∧
      (∃ before, quiet.errors = before ++ "\n" ++ doneLine summaries) ∧
      ∃ before, loud.errors = before ++ "\n" ++ doneLine summaries) ∧
    run words { w with lookup := fun key =>
      if key = Telemetry.Setup.modeKey then some "off" else none } = loud := by
  intro quiet words w loud
  let plan : Plan := { iterations := 1, seed := some 77 }
  have hloud : prepare words (fun _ => none) = .ok
      ⟨{ plan := plan, telemetry := some "/game.jsonl", verbosity := 1 }, {}, .jsonl "/game.jsonl",
        []⟩ := rfl
  have hquiet : prepare ["--no-wait", "--seed", "77", "--max-iterations", "1"] (fun _ => none) = .ok
      ⟨{ plan := plan, noWait := true }, {}, .off, []⟩ := rfl
  obtain ⟨summaries, text, -, hlength, -, hruns, hgiven⟩ := run_of_samePlay hloud rfl
  have hsame : SamePlay words ["--no-wait", "--seed", "77", "--max-iterations", "1"] :=
    ⟨["--seed", "77", "--max-iterations", "1"],
      .keep _ (.keep _ (.letters 0 (.telemetry _ (.refl _)))), .noWait (.refl _)⟩
  obtain ⟨hstatus, hwritten, herrors⟩ := hruns words w _ (.refl words) (fun _ _ => rfl) hloud
    ⟨fun _ => by decide +kernel, rfl, nofun, nofun⟩
  obtain ⟨hstatus', hwritten', herrors'⟩ := hruns _ { lookup := fun _ => none } _ hsame
    (fun _ _ => rfl) hquiet ⟨nofun, rfl, nofun, nofun⟩
  have hplain : "" ++ text ++ String.join [] = text := by
    rw [String.empty_append]
    exact String.append_empty
  refine ⟨⟨summaries, text, hlength, hstatus', ?_, hstatus, ?_, herrors', herrors⟩,
    hgiven w rfl rfl _ ?_⟩
  · exact hwritten'.trans (ByteArray.empty_append.trans (congrArg String.toUTF8 hplain))
  · exact hwritten.trans ByteArray.empty_append
  · intro key hkey
    exact if_neg (List.ne_of_not_mem_cons hkey)

/-! ## Records on the output -/

theorem place?_of_healthy {b : Logbook} {l : Location} {bytes : ByteArray}
    {records : List Json.Members} (h : b.Healthy l bytes (recordBytes records).size)
    (hne : records ≠ []) : (records.foldl Logbook.record b).flush.place? = some l := by
  obtain ⟨c, hc, hcarries⟩ :=
    (Logbook.Healthy.keeps_records (n := 0) h hne).flush_keeps.carries
  rw [Logbook.place?, hc, Option.map_some, hcarries.location]

theorem size_recordBytes_pos {records : List Json.Members} (hne : records ≠ []) :
    0 < (recordBytes records).size := by
  have hlast := getLast?_recordBytes hne ByteArray.empty
  rw [ByteArray.empty_append] at hlast
  refine Nat.pos_of_ne_zero fun hzero => ?_
  rw [ByteArray.size_eq_zero_iff.mp hzero] at hlast
  cases hlast

/-- **Records that go to the output are shown as well.** All that is written arrives there, so that
more is shown than the text of the batch and the summaries behind it. -/
theorem Start.play_with_records_on_output {s : Start} {base : UInt64} {played : List (List Turn)}
    {w : Surroundings} {l : Location} (hplan : s.options.plan.Valid) (hrules : s.rules.Valid)
    (hseed : s.options.plan.seed = some base)
    (hplayed : s.options.plan.played s.rules base = .ok played) (hpos : 0 < played.length)
    (hroom : w.output.room = none) (hmem : l ∈ w.outputPlaces)
    (hopens : Logbook.OpensAt { sink := .ofSetup s.setup, disk := w.disk } l)
    (htakes : ∀ n, w.disk.Takes l n) :
    (s.play w).status = 0 ∧ ∃ arrived : ByteArray,
      (s.play w).output.written =
        w.output.written ++ arrived ++ (s.summaryText (played.mapIdx (report base))).toUTF8 ∧
      (String.join (played.flatMap trajectoryLines)).toUTF8.size < arrived.size := by
  have hne := records_ne_nil base hpos
  have hplace : (s.finalLogbook w base played).place? = some l :=
    place?_of_healthy (.inl ⟨hopens, rfl, htakes _⟩) hne
  have hany : (s.finalLogbook w base played).place?.any w.outputPlaces.contains := by
    rw [hplace, Option.any_some]
    exact List.contains_iff_mem.mpr hmem
  obtain ⟨events, htranscript, htext, hrecords⟩ := transcript_of_played hplan hrules hplayed
  have hjoined : s.joinedOutput w =
      { w.output with written := w.output.written ++ joined events } := by
    rw [Start.joinedOutput, hseed, Option.getD_some, htranscript]
  obtain ⟨hstatus, hwritten, -⟩ := Start.play_of_output hplan hrules hseed hplayed hroom
    ((if_pos hany).trans hjoined)
  refine ⟨hstatus, joined events, hwritten, ?_⟩
  rw [size_joined, htext, hrecords]
  exact Nat.lt_add_of_pos_right (size_recordBytes_pos hne)

/-- Variables that lead the records to the output: more is shown than what is played. -/
theorem run_with_records_on_output :
    let words := ["--no-wait", "--seed", "77", "--max-iterations", "1", "--action-low", "4",
      "--action-high", "4"]
    let w : Surroundings := {
      lookup := fun key =>
        if key = Telemetry.Setup.modeKey then some "jsonl"
        else if key = Telemetry.Setup.pathKey then some "/dev/stdout" else none
      disk := { nodes := [(["dev"], .folder), (["dev", "stdout"], .file ByteArray.empty none)] }
      outputPlaces := [["dev", "stdout"]] }
    ∃ (start : Start) (text : String), prepare words w.lookup = .ok start ∧
      start.options.plan.seed = some 77 ∧ start.promptText = "" ∧
      (∀ summaries, start.summaryText summaries = "") ∧
      (∀ fresh b, (playBatch start.options.plan start.rules fresh {} b).output.written =
        text.toUTF8) ∧
      (run words w).status = 0 ∧ (run words w).output.written ≠ text.toUTF8 := by
  intro words w
  let plan : Plan := { iterations := 1, actionLow := 4, actionHigh := 4, seed := some 77 }
  let start : Start := ⟨{ plan := plan, noWait := true }, {}, .jsonl "/dev/stdout", []⟩
  have hstart : prepare words w.lookup = .ok start := rfl
  have hplan : plan.Valid := ⟨by decide, by decide, by decide⟩
  obtain ⟨played, -, hplayed, -, hlength, -⟩ :=
    played_of_le hplan Rules.valid_default (UInt32.le_refl plan.episodes) 77
  have hpos : 0 < played.length := hlength ▸ UInt32.le_iff_toNat_le.mp hplan.1
  have hdev : w.disk.find ⟨"/dev"⟩ = .ok (.named [] "dev") := by
    have hnames : (Path.mk "/dev").names = ["dev"] := rfl
    rw [Disk.find, hnames, if_neg (by simp)]
    rfl
  have hstdout : w.disk.find ⟨"/dev/stdout"⟩ = .ok (.named ["dev"] "stdout") := by
    have hnames : (Path.mk "/dev/stdout").names = ["dev", "stdout"] := rfl
    rw [Disk.find, hnames, if_neg (by simp)]
    rfl
  have hparents : w.disk.makeParents ⟨"/dev/stdout"⟩ = w.disk := by
    have hfolder : w.disk.makeFolder ⟨"/dev"⟩ = .error .alreadyExists := by
      rw [Disk.makeFolder, hdev]
      rfl
    have hparents : (Path.mk "/dev/stdout").parents = [⟨"/dev"⟩] := rfl
    rw [Disk.makeParents, hparents, Disk.makeFoldersAlong, hfolder]
  have hopen := Disk.openFile_of_file hstdout rfl (by decide) rfl false
  rw [← hparents] at hopen
  have hopens : Logbook.OpensAt { sink := .ofSetup start.setup, disk := w.disk }
      ["dev", "stdout"] := ⟨rfl, rfl, "/dev/stdout", _, _, rfl, hopen, rfl⟩
  have htakes : ∀ n, w.disk.Takes ["dev", "stdout"] n := by
    rintro n content room hfile
    cases hfile
    exact Disk.Fits.none n
  obtain ⟨hstatus, arrived, hwritten, hmore⟩ :=
    @Start.play_with_records_on_output start 77 played w ["dev", "stdout"] hplan
      Rules.valid_default rfl hplayed hpos rfl List.mem_cons_self hopens htakes
  have hrun : run words w = { start.play w with
      errors := start.preamble ++ (start.play w).errors } := by
    rw [run, hstart]
    rfl
  refine ⟨start, String.join (played.flatMap trajectoryLines), hstart, rfl, rfl, fun _ => rfl, ?_,
    ?_, ?_⟩
  · intro fresh b
    rw [playBatch_of_played hplan Rules.valid_default rfl hplayed rfl]
    exact ByteArray.empty_append
  · rw [hrun]
    exact hstatus
  · rw [hrun]
    intro heq
    have hsize := congrArg ByteArray.size (hwritten.symm.trans heq)
    rw [ByteArray.size_append, ByteArray.size_append] at hsize
    omega

end Console

end HiddenTarget
