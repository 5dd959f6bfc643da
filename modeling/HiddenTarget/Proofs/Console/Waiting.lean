import HiddenTarget.Proofs.Console.NoWait
import HiddenTarget.Proofs.Console.Presentation

/-!
# Waiting for Enter

A command that waits shows the prompt and reads a line. What is `typed` before Enter makes no
difference as long as it is text: the line that is read is text then, `isSome_line_iff`, and all
that follows is what the command does without waiting, `Start.exists_play_eq`. If it is no text,
nothing follows but an error. `run_waiting` is both, for the same command line with and without
the word that tells it not to wait.
-/

namespace HiddenTarget.Console

open Telemetry (newline)

/-! ## The line that is read -/

theorem toList_loop (bytes : ByteArray) (i : Nat) (before : List UInt8) :
    ByteArray.toList.loop bytes i before = before.reverse ++ bytes.data.toList.drop i := by
  fun_induction ByteArray.toList.loop bytes i before with
  | case1 i before hi ih =>
      have hi' : i < bytes.data.toList.length := hi
      have hget : bytes.get! i = bytes.data.toList[i] := getElem!_pos bytes.data i hi
      rw [ih, List.drop_eq_getElem_cons hi', hget, List.reverse_cons, List.append_assoc,
        List.singleton_append]
  | case2 i before hi =>
      rw [List.drop_eq_nil_of_le (Nat.not_lt.mp hi), List.append_nil]

theorem toList_eq (bytes : ByteArray) : bytes.toList = bytes.data.toList := toList_loop bytes 0 []

theorem lineLength_of_not_mem {front : List UInt8} (h : newline ∉ front) :
    lineLength front = front.length := by
  induction front with
  | nil => rfl
  | cons byte front ih =>
      obtain ⟨hne, hrest⟩ := List.ne_and_not_mem_of_not_mem_cons h
      rw [lineLength, if_neg (show ¬ byte = 10 from Ne.symm hne), ih hrest, List.length_cons]

theorem lineLength_append {front : List UInt8} (h : newline ∉ front) (rest : List UInt8) :
    lineLength (front ++ newline :: rest) = front.length + 1 := by
  induction front with
  | nil => rfl
  | cons byte front ih =>
      obtain ⟨hne, hrest⟩ := List.ne_and_not_mem_of_not_mem_cons h
      rw [List.cons_append, lineLength, if_neg (show ¬ byte = 10 from Ne.symm hne), ih hrest,
        List.length_cons]

/-- What is typed before Enter: the bytes of the input in front of its first newline, or all of
them if there is none. -/
def typed (input : ByteArray) : ByteArray :=
  ⟨(input.data.toList.takeWhile (· ≠ newline)).toArray⟩

theorem newline_not_mem_typed (input : ByteArray) : newline ∉ (typed input).data.toList := by
  intro hmem
  rw [typed, List.toList_toArray] at hmem
  have hne := List.mem_takeWhile_imp hmem
  simp at hne

theorem typed_cases (input : ByteArray) :
    input = typed input ∨ ∃ rest, input = typed input ++ "\n".toUTF8 ++ rest := by
  have hsplit := List.takeWhile_append_dropWhile (p := (· ≠ newline)) (l := input.data.toList)
  have heq : ∀ bytes : ByteArray, input.data.toList = bytes.data.toList → input = bytes :=
    fun bytes h => ByteArray.ext (Array.toList_inj.mp h)
  cases hrest : input.data.toList.dropWhile (· ≠ newline) with
  | nil =>
      rw [hrest, List.append_nil] at hsplit
      exact .inl (heq _ (hsplit.symm.trans (List.toList_toArray).symm))
  | cons byte rest =>
      have hhead := List.head?_dropWhile_not (· ≠ newline) input.data.toList
      rw [hrest] at hhead
      have hbyte : byte = newline := by simpa using hhead
      refine .inr ⟨⟨rest.toArray⟩, heq _ ?_⟩
      rw [ByteArray.toList_data_append, ByteArray.toList_data_append, List.append_assoc, ← hsplit,
        hrest, hbyte]
      rfl

theorem isSome_fromUTF8?_iff {bytes : ByteArray} :
    (String.fromUTF8? bytes).isSome = true ↔ ∃ text : String, bytes = text.toUTF8 := by
  rw [String.fromUTF8?]
  split
  · next h => exact iff_of_true rfl ⟨String.fromUTF8 bytes h, rfl⟩
  · next h =>
      refine iff_of_false Bool.false_ne_true ?_
      rintro ⟨text, rfl⟩
      exact h text.isValidUTF8

theorem exists_eq_toUTF8_append_newline_iff {bytes : ByteArray} :
    (∃ text : String, bytes ++ "\n".toUTF8 = text.toUTF8) ↔
      ∃ text : String, bytes = text.toUTF8 := by
  constructor
  · rintro ⟨text, htext⟩
    obtain hnil | ⟨front, c, hsplit⟩ := List.eq_nil_or_concat text.toList
    · have hempty : text = "" := String.toList_eq_nil_iff.mp hnil
      rw [hempty] at htext
      have hsize := congrArg ByteArray.size htext
      rw [ByteArray.size_append] at hsize
      cases hsize
    · rw [List.concat_eq_append] at hsplit
      have hc : c = '\n' := by
        refine @eq_newline_of_getLast? front c ?_
        rw [← hsplit, String.ofList_toList, ← htext, ByteArray.toList_data_append,
          List.getLast?_append]
        rfl
      have heq : text = String.ofList front ++ "\n" := by
        rw [← String.ofList_toList (s := text), hsplit, hc, String.ofList_append]
      refine ⟨String.ofList front, ?_⟩
      rw [heq, String.toUTF8_eq_toByteArray, String.toUTF8_eq_toByteArray,
        String.toByteArray_append] at htext
      exact (ByteArray.append_left_inj _).mp htext
  · rintro ⟨text, rfl⟩
    exact ⟨text ++ "\n", by simp⟩

theorem isSome_line_iff (input : ByteArray) :
    (String.fromUTF8? (input.extract 0 (lineLength input.toList))).isSome = true ↔
      ∃ text : String, typed input = text.toUTF8 := by
  have hnone := newline_not_mem_typed input
  have hcases := typed_cases input
  generalize typed input = front at hnone hcases ⊢
  obtain rfl | ⟨rest, rfl⟩ := hcases
  · have hlength : lineLength input.toList = input.size := by
      rw [toList_eq, lineLength_of_not_mem hnone]
      rfl
    rw [hlength, ByteArray.extract_zero_size, isSome_fromUTF8?_iff]
  · have hlength : lineLength (front ++ "\n".toUTF8 ++ rest).toList =
        (front ++ "\n".toUTF8).size := by
      rw [toList_eq, ByteArray.toList_data_append, ByteArray.toList_data_append, List.append_assoc,
        ByteArray.size_append]
      exact lineLength_append hnone _
    rw [hlength, ByteArray.extract_append_eq_left rfl, isSome_fromUTF8?_iff,
      exists_eq_toUTF8_append_newline_iff]

/-! ## Playing with something written before -/

/-- Whatever has been written and read before, a play ends well, shows the same behind it and leaves
the same errors and the same disk. -/
theorem Start.exists_play_eq {s : Start} {base : UInt64} (hplan : s.options.plan.Valid)
    (hrules : s.rules.Valid) (hseed : s.options.plan.seed = some base) (w : Surroundings) :
    ∃ (shown : ByteArray) (errors : String) (disk : Disk), ∀ (output : Output) (input : ByteArray),
      output.room = none →
      let report := s.play { w with output := output, input := input }
      report.status = 0 ∧ report.output.written = output.written ++ shown ∧
        report.errors = errors ∧ report.disk = disk := by
  obtain ⟨played, -, hplayed, -⟩ :=
    played_of_le hplan hrules (UInt32.le_refl s.options.plan.episodes) base
  obtain ⟨events, htranscript, -⟩ := transcript_of_played hplan hrules hplayed
  let b := s.finalLogbook w base played
  let shown := if b.place?.any w.outputPlaces.contains then joined events
    else (String.join (played.flatMap trajectoryLines)).toUTF8
  have houtput (output : Output) (input : ByteArray) :
      (if b.place?.any w.outputPlaces.contains
        then s.joinedOutput { w with output := output, input := input }
        else { output with
          written := output.written ++ (String.join (played.flatMap trajectoryLines)).toUTF8 }) =
        { output with written := output.written ++ shown } := by
    simp only [shown]
    split
    · rw [Start.joinedOutput, hseed, Option.getD_some, htranscript]
    · rfl
  have hplay (output : Output) (input : ByteArray) (hroom : output.room = none) :=
    @Start.play_of_output s base played { w with output := output, input := input } hplan hrules
      hseed hplayed hroom _ (houtput output input)
  let quiet := s.play { w with output := {} }
  refine ⟨shown ++ (s.summaryText (played.mapIdx (report base))).toUTF8, quiet.errors,
    b.close.disk, ?_⟩
  intro output input hroom
  obtain ⟨hstatus, hwritten, herrors⟩ := hplay output input hroom
  obtain ⟨-, -, hquiet⟩ := hplay {} w.input rfl
  refine ⟨hstatus, hwritten.trans ByteArray.append_assoc, herrors.trans hquiet.symm, ?_⟩
  rw [Start.disk_play, playBatch_of_played hplan hrules hseed hplayed hroom]
  rfl

theorem Start.status_play {s : Start} {w : Surroundings} {base : UInt64}
    (hplan : s.options.plan.Valid) (hrules : s.rules.Valid)
    (hseed : s.options.plan.seed = some base) (hroom : w.output.room = none) :
    (s.play w).status = 0 := by
  obtain ⟨_, _, _, hplay⟩ := Start.exists_play_eq hplan hrules hseed w
  exact (hplay w.output w.input hroom).1

/-! ## Runs that wait -/

def Start.quick (s : Start) : Start := { s with options := { s.options with noWait := true } }

variable {words words' : List String} {w : Surroundings} {start : Start}

theorem prepare_quick {lookup : String → Option String} (hstart : prepare words lookup = .ok start)
    (ho : Options.ofArguments words' = .ok start.quick.options) :
    prepare words' lookup = .ok start.quick := by
  obtain ⟨-, hoverride, hrules, hplan, hsetup⟩ := prepare_eq_ok hstart
  have hplan' : start.quick.options.plan.check = .ok () := hplan
  simp only [prepare, ho, hoverride, hrules, hplan']
  exact congrArg (fun setup => Except.ok { start.quick with setup := setup }) hsetup.symm

theorem run_of_prepare (hstart : prepare words w.lookup = .ok start) :
    run words w = { start.run w with errors := start.preamble ++ (start.run w).errors } := by
  rw [run, hstart]

theorem Start.run_quick (s : Start) (w : Surroundings) : s.quick.run w = s.play w := rfl

theorem Start.run_of_text {s : Start} (hwait : s.options.noWait = false)
    (hroom : w.output.room = none) {text : String} (htyped : typed w.input = text.toUTF8) :
    s.run w = s.play { w with
      output := { w.output with written := w.output.written ++ prompt.toUTF8 }
      input := w.input.extract (lineLength w.input.toList) w.input.size } :=
  Start.run_of_line hwait hroom ((isSome_line_iff w.input).mpr ⟨text, htyped⟩)

theorem Start.run_of_no_text {s : Start} (hwait : s.options.noWait = false)
    (hroom : w.output.room = none) (htyped : ∀ text : String, typed w.input ≠ text.toUTF8) :
    s.run w = {
      status := 1
      output := { w.output with written := w.output.written ++ prompt.toUTF8 }
      errors := errorText "reading start confirmation from stdin"
        (some "stream did not contain valid UTF-8")
      input := w.input.extract (lineLength w.input.toList) w.input.size
      disk := w.disk } := by
  have hline :
      ¬ (String.fromUTF8? (w.input.extract 0 (lineLength w.input.toList))).isSome = true := by
    intro hsome
    obtain ⟨text, htext⟩ := (isSome_line_iff w.input).mp hsome
    exact htyped text htext
  rw [Start.run, hwait, waitForEnter, Output.write_of_room_none hroom]
  simp only [if_neg hline]
  rfl

/-- **What waiting changes.** For a command line with a seed that is accepted and says nothing
about waiting, `--no-wait` can be put in front of it. Wherever it is accepted among the words, the
run ends well and reads nothing: what it shows, its errors and its disk are the same for every
input. Without the word the prompt comes first, and then it depends on what is typed up to the first
newline. If this is text, be it empty or without a newline at its end, the run ends as well, with
the same output behind the prompt, the same errors and the same disk. If it is no text, nothing is
played: the prompt is all that is written, and the error says why. -/
theorem run_waiting {base : UInt64} (hstart : prepare words w.lookup = .ok start)
    (hwait : start.options.noWait = false) (hseed : start.options.plan.seed = some base)
    (hroom : w.output.room = none) :
    Options.ofArguments ("--no-wait" :: words) = .ok { start.options with noWait := true } ∧
    ∃ (shown : ByteArray) (errors : String) (disk : Disk), ∀ input : ByteArray,
      (∀ before after o, before ++ after = words →
        Options.ofArguments (before ++ "--no-wait" :: after) = .ok o →
        let quick := run (before ++ "--no-wait" :: after) { w with input := input }
        quick.status = 0 ∧ quick.output.written = w.output.written ++ shown ∧
          quick.errors = errors ∧ quick.disk = disk) ∧
      let report := run words { w with input := input }
      ((∃ text : String, typed input = text.toUTF8) →
        report.status = 0 ∧
          report.output.written = w.output.written ++ prompt.toUTF8 ++ shown ∧
          report.errors = errors ∧ report.disk = disk) ∧
      ((∀ text : String, typed input ≠ text.toUTF8) →
        report.status = 1 ∧ report.output.written = w.output.written ++ prompt.toUTF8 ∧
          report.errors = start.preamble ++ errorText "reading start confirmation from stdin"
            (some "stream did not contain valid UTF-8") ∧
          report.disk = w.disk) := by
  obtain ⟨hoptions, -, hrules, hplan, -⟩ := prepare_eq_ok hstart
  rw [Rules.check_eq_ok_iff] at hrules
  rw [Plan.check_eq_ok_iff] at hplan
  obtain ⟨shown, errors, disk, hplay⟩ := Start.exists_play_eq hplan hrules hseed w
  refine ⟨ofArguments_cons_noWait hoptions hwait, shown, start.preamble ++ errors, disk, ?_⟩
  intro input
  let w' : Surroundings := { w with input := input }
  refine ⟨?_, ?_, ?_⟩
  · rintro before after o rfl ho quick
    obtain rfl := ofArguments_insert_noWait hoptions hwait ho
    have hquick : quick = _ := run_of_prepare (w := w') (prepare_quick hstart ho)
    obtain ⟨hstatus, hwritten, herrors, hdisk⟩ := hplay w.output input hroom
    rw [hquick, Start.run_quick]
    exact ⟨hstatus, hwritten, congrArg (start.preamble ++ ·) herrors, hdisk⟩
  · rintro ⟨text, htyped⟩
    obtain ⟨hstatus, hwritten, herrors, hdisk⟩ := hplay
      { w.output with written := w.output.written ++ prompt.toUTF8 }
      (input.extract (lineLength input.toList) input.size) hroom
    rw [run_of_prepare (w := w') hstart, Start.run_of_text (w := w') hwait hroom htyped]
    exact ⟨hstatus, hwritten, congrArg (start.preamble ++ ·) herrors, hdisk⟩
  · intro htyped
    rw [run_of_prepare (w := w') hstart, Start.run_of_no_text (w := w') hwait hroom htyped]
    exact ⟨rfl, rfl, rfl, rfl⟩

/-- One episode, with the word among the others, behind an input that ends without a newline, and
kept from being played by a single byte in front of the newline. -/
theorem run_waiting_for_one_episode :
    let words := ["--seed", "77", "--max-iterations", "1"]
    let quickWords := ["--seed", "77", "--no-wait", "--max-iterations", "1"]
    let w : Surroundings := { lookup := fun _ => none }
    let quick := run quickWords { w with input := "go".toUTF8 }
    let waited := run words { w with input := "go".toUTF8 }
    let failed := run words { w with input := ⟨#[0xff, 0x0a]⟩ }
    waited.status = quick.status ∧
      waited.output.written = prompt.toUTF8 ++ quick.output.written ∧
      failed.output.written = prompt.toUTF8 := by
  intro words quickWords w quick waited failed
  let start : Start := ⟨{ plan := { iterations := 1, seed := some 77 } }, {}, .off, []⟩
  have hstart : prepare words w.lookup = .ok start := rfl
  obtain ⟨-, shown, errors, disk, hruns⟩ := run_waiting hstart rfl rfl rfl
  obtain ⟨hquick, hplays, -⟩ := hruns "go".toUTF8
  obtain ⟨hstatus, hwritten, -⟩ :=
    hquick ["--seed", "77"] ["--max-iterations", "1"] start.quick.options rfl rfl
  obtain ⟨hstatus', hwritten', -⟩ := hplays ⟨"go", by decide +kernel⟩
  obtain ⟨-, -, hfails⟩ := hruns ⟨#[0xff, 0x0a]⟩
  have htyped : ∀ text : String, typed ⟨#[0xff, 0x0a]⟩ ≠ text.toUTF8 := by
    intro text htext
    exact absurd (isSome_fromUTF8?_iff.mpr ⟨text, htext⟩) (by decide +kernel)
  obtain ⟨-, hfailed, -⟩ := hfails htyped
  have hnone : w.output.written = ByteArray.empty := rfl
  rw [hnone, ByteArray.empty_append] at hwritten hwritten' hfailed
  simp only [List.cons_append, List.nil_append] at hstatus hwritten
  exact ⟨hstatus'.trans hstatus.symm, hwritten'.trans (congrArg _ hwritten.symm), hfailed⟩

/-- An input of one byte that is no text and a newline: the run fails where it ends well without
waiting. -/
theorem run_waiting_for_no_text :
    let words := ["--seed", "3", "--max-iterations", "1"]
    let w : Surroundings := { lookup := fun _ => none, input := ⟨#[0xff, 0x0a]⟩ }
    (run ("--no-wait" :: words) w).status = 0 ∧ (run words w).status = 1 ∧
      (run words w).output.written = prompt.toUTF8 := by
  intro words w
  let start : Start := ⟨{ plan := { iterations := 1, seed := some 3 } }, {}, .off, []⟩
  have hstart : prepare words w.lookup = .ok start := rfl
  have hquick : prepare ("--no-wait" :: words) w.lookup = .ok start.quick := rfl
  have hplan : start.options.plan.Valid := ⟨by decide, by decide, by decide⟩
  have hstatus : (start.play w).status = 0 := Start.status_play hplan Rules.valid_default rfl rfl
  have htyped : ∀ text : String, typed w.input ≠ text.toUTF8 := by
    intro text htext
    exact absurd (isSome_fromUTF8?_iff.mpr ⟨text, htext⟩) (by decide +kernel)
  have hrun := Start.run_of_no_text (s := start) rfl (w := w) rfl htyped
  rw [run_of_prepare hquick, run_of_prepare hstart, hrun, Start.run_quick]
  exact ⟨hstatus, rfl, ByteArray.empty_append⟩

end HiddenTarget.Console
