import HiddenTarget.Proofs.Console.Presentation

/-!
# A configuration that is refused

The rules that the variables describe and the plan that the options describe are looked at
before anything else happens, the rules first. If one of them cannot be played, the command
shows the complaint and leaves everything as it was: `run_of_complains`. If both can be played,
nothing that looks at them again complains, `playBatch_not_refused`. For every command line that
is accepted, `run_checks_first` says which of the two happens.
-/

namespace HiddenTarget

theorem playBatch_not_refused {plan : Plan} {rules : Rules} (hplan : plan.Valid)
    (hrules : rules.Valid) (fresh : UInt64) (output : Output) (logbook : Telemetry.Logbook)
    (c : Complaint) :
    (playBatch plan rules fresh output logbook).summaries ≠ .error (.refused c) := by
  obtain ⟨environment, player, hopen⟩ := openStage_of_valid hplan hrules (plan.seed.getD fresh)
  rw [playBatch]
  simp only [hopen plan hplan rfl rfl]
  split
  · simp
  · simp

theorem Output.write_empty (o : Output) : o.write "" = (none, o) := by
  have hempty : "".toUTF8 = ByteArray.empty := rfl
  rw [write, writeBytes, hempty, ByteArray.append_empty, ByteArray.size_empty]
  cases hroom : o.room with
  | none => simp only [← hroom]
  | some room => simp only [Nat.zero_le, if_true, Nat.sub_zero, ← hroom]

theorem exists_complaint {check : Except Complaint Unit} {valid : Prop}
    (hcheck : check = .ok () ↔ valid) (h : ¬ valid) : ∃ c, check = .error c := by
  cases check with
  | error c => exact ⟨c, rfl⟩
  | ok u => exact absurd (hcheck.mp rfl) h

namespace Console

variable {arguments : List String} {lookup : String → Option String} {options : Options}

/-- The complaint about a configuration: the rules come first. -/
def Complains (rules : Rules) (plan : Plan) (c : Complaint) : Prop :=
  rules.check = .error c ∨ rules.Valid ∧ plan.check = .error c

theorem exists_complains {rules : Rules} {plan : Plan} (h : ¬ rules.Valid ∨ ¬ plan.Valid) :
    ∃ c, Complains rules plan c := by
  by_cases hrules : rules.Valid
  · have hplan := h.resolve_left (not_not_intro hrules)
    obtain ⟨c, hc⟩ := exists_complaint (Plan.check_eq_ok_iff plan) hplan
    exact ⟨c, .inr ⟨hrules, hc⟩⟩
  · obtain ⟨c, hc⟩ := exists_complaint (Rules.check_eq_ok_iff rules) hrules
    exact ⟨c, .inl hc⟩

theorem prepare_of_complains {c : Complaint}
    (hoptions : Options.ofArguments arguments = .ok options)
    (h : Complains (({} : Rules).override lookup).1 options.plan c) :
    prepare arguments lookup = .error
      { status := 1
        errors := Override.report (({} : Rules).override lookup).2 ++ errorText c.text none } := by
  rcases h with hrules | ⟨hrules, hplan⟩
  · simp only [prepare, hoptions, hrules]
  · rw [← Rules.check_eq_ok_iff] at hrules
    simp only [prepare, hoptions, hrules, hplan]

theorem prepare_of_valid (hoptions : Options.ofArguments arguments = .ok options)
    (hrules : (({} : Rules).override lookup).1.Valid) (hplan : options.plan.Valid) :
    ∃ start, prepare arguments lookup = .ok start ∧ start.options = options ∧
      start.rules = (({} : Rules).override lookup).1 := by
  rw [← Rules.check_eq_ok_iff] at hrules
  rw [← Plan.check_eq_ok_iff] at hplan
  simp only [prepare, hoptions, hrules, hplan]
  exact ⟨_, rfl, rfl, rfl⟩

/-- **What is refused is left alone**: the complaint is shown, and no input is read, nothing is
written to the output, and the disk is as it was. -/
theorem run_of_complains {w : Surroundings} {c : Complaint}
    (hoptions : Options.ofArguments arguments = .ok options)
    (h : Complains (({} : Rules).override w.lookup).1 options.plan c) :
    run arguments w =
      { status := 1
        output := w.output
        errors := Override.report (({} : Rules).override w.lookup).2 ++ errorText c.text none
        input := w.input
        disk := w.disk } := by
  rw [run, prepare_of_complains hoptions h]
  simp only [Output.write_empty]

/-- **Everything is checked before anything happens.** For a command line that is accepted, rules
or a plan that cannot be played end the run with a complaint, the one about the rules if there are
two, and neither the input nor the output nor the disk is touched. Otherwise the run plays these
rules and this plan, and there is nothing left to complain about: the plan passes its second check,
the environment and the policy can be built from any seed, and no batch is refused. -/
theorem run_checks_first {w : Surroundings}
    (hoptions : Options.ofArguments arguments = .ok options) :
    let rules := (({} : Rules).override w.lookup).1
    let overrides := (({} : Rules).override w.lookup).2
    let report := run arguments w
    (¬ rules.Valid ∨ ¬ options.plan.Valid →
      ∃ c, Complains rules options.plan c ∧ report.status = 1 ∧
        report.errors = Override.report overrides ++ errorText c.text none ∧
        report.output = w.output ∧ report.input = w.input ∧ report.disk = w.disk) ∧
    (rules.Valid → options.plan.Valid →
      ∃ start, prepare arguments w.lookup = .ok start ∧
        start.options = options ∧ start.rules = rules ∧
        report = { start.run w with errors := start.preamble ++ (start.run w).errors } ∧
        options.plan.check = .ok () ∧
        (∀ base, (∃ e, Environment.ofSeed rules base = .ok e) ∧
          ∃ player, UniformPlayer.ofSeed options.plan.actionLow options.plan.actionHigh
            (playerSeed base) = .ok player) ∧
        ∀ fresh output logbook c,
          (playBatch options.plan rules fresh output logbook).summaries ≠ .error (.refused c)) := by
  intro rules overrides report
  constructor
  · intro hinvalid
    obtain ⟨c, hc⟩ := exists_complains hinvalid
    have hrun : report = _ := run_of_complains hoptions hc
    exact ⟨c, hc, by rw [hrun], by rw [hrun], by rw [hrun], by rw [hrun], by rw [hrun]⟩
  · intro hrules hplan
    obtain ⟨start, hstart, hsame, hsameRules⟩ := prepare_of_valid hoptions hrules hplan
    refine ⟨start, hstart, hsame, hsameRules, ?_, (Plan.check_eq_ok_iff _).mpr hplan, ?_, ?_⟩
    · simp only [report, run, hstart]
    · intro base
      exact ⟨⟨_, Environment.make_of_valid hrules _⟩, ⟨_, UniformPlayer.ofSeed_of_le hplan.2.2 _⟩⟩
    · exact playBatch_not_refused hplan hrules

/-- No steps and no episodes, with a line to read and a file to continue: the complaint is about
the steps, and the line and the file are still there. -/
theorem run_checks_first_steps :
    let words := ["--telemetry", "old.jsonl", "--episodes", "0"]
    let w : Surroundings := {
      lookup := fun key => if key = Rules.maxStepsKey then some "0" else none
      input := "go\n".toUTF8
      disk := { nodes := [(["old.jsonl"], .file "old\n".toUTF8 none)] } }
    Options.ofArguments words = .ok { plan := { episodes := 0 }, telemetry := some "old.jsonl" } ∧
      (run words w).status = 1 ∧
      (run words w).errors = "[config] SIMPLE_ENV_MAX_STEPS = 0 (overrode default)\n" ++
        "Error: Invalid configuration 'max_steps': must be >= 1\n" ∧
      (run words w).output = {} ∧ (run words w).input = "go\n".toUTF8 ∧
      (run words w).disk = w.disk ∧
      ∀ fresh output logbook c, (playBatch {} {} fresh output logbook).summaries ≠
        .error (.refused c) := by
  intro words w
  have hoptions : Options.ofArguments words =
      .ok { plan := { episodes := 0 }, telemetry := some "old.jsonl" } := rfl
  have hinvalid : ¬ (({} : Rules).override w.lookup).1.Valid := fun h => absurd h.2.1 (by decide)
  obtain ⟨c, hc, hstatus, herrors, houtput, hinput, hdisk⟩ :=
    (run_checks_first (w := w) hoptions).1 (.inl hinvalid)
  have hsteps : c = .noSteps := by
    rcases hc with hc | ⟨hvalid, -⟩
    · cases hc
      rfl
    · exact absurd hvalid hinvalid
  have hbare : Options.ofArguments [] = .ok {} := rfl
  obtain ⟨start, -, -, -, -, -, -, hplays⟩ :=
    (run_checks_first (w := { lookup := fun _ => none }) hbare).2
      Rules.valid_default ⟨by decide, by decide, by decide⟩
  refine ⟨hoptions, hstatus, ?_, houtput, hinput, hdisk, hplays⟩
  rw [herrors, hsteps]
  rfl

end Console

end HiddenTarget
