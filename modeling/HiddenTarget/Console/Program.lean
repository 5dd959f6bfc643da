import HiddenTarget.Console.Options
import HiddenTarget.Play.Joined
import HiddenTarget.Settings.Override

/-!
# The command

The command plays a batch and writes what happens. Its run has two parts. `prepare`
looks at the arguments and the variables and either has a reason to stop or knows what
to play; it touches neither input nor output nor disk. `Start.run` waits for a line of
input unless told not to, plays the batch, and writes the summaries if asked.

`run` is the whole: from the surroundings of the command to a `Report` of what it left
behind, the unread input and the disk included.

The output and the error stream may have places on the disk as well. A logbook that leads
to one of them writes between what the command itself writes there, as to a pipe or a terminal.
A regular file that is opened once more by its name would be written over instead.
-/

namespace HiddenTarget.Console

structure Surroundings where
  lookup : String → Option String
  input : ByteArray := ByteArray.empty
  output : Output := {}
  disk : Disk := {}
  /-- The base seed of a batch for which none is given. -/
  fresh : UInt64 := 0
  /-- The places where the output, if it has no limit, stands on the disk. It is a pipe, a
  terminal or a file that is appended to there, so that a record of a logbook which leads to one
  of them comes behind what has been written. -/
  outputPlaces : List Location := []
  /-- The same of the error stream. -/
  errorPlaces : List Location := []

structure Report where
  status : Nat
  output : Output
  errors : String
  /-- The input that was not read. -/
  input : ByteArray
  disk : Disk

/-! ## Before anything happens -/

/-- A reason to stop before anything happens: the exit status, and what is shown. -/
structure Refusal where
  status : Nat
  output : String := ""
  errors : String := ""
deriving DecidableEq, Repr

def errorText (text : String) (source : Option String) : String :=
  "Error: " ++ text ++ "\n" ++
    match source with
    | none => ""
    | some source => "\nCaused by:\n    " ++ source ++ "\n"

structure Start where
  options : Options
  rules : Rules
  setup : Telemetry.Setup
  overrides : List Override

def variableNames : List String := [
  Rules.maxStepsKey, Rules.numTargetsKey, Rules.hitRewardKey, Rules.missRewardKey,
  Telemetry.Setup.modeKey, Telemetry.Setup.pathKey, Telemetry.Setup.appendKey,
  noColourKey, forceColourKey]

/-- Make sense of the arguments and the variables. The rules are looked at before the
plan. -/
def prepare (arguments : List String) (lookup : String → Option String) :
    Except Refusal Start :=
  let coloured := wantsColour lookup
  match Options.ofArguments arguments with
  | .error .help => .error { status := 0, output := helpText.render coloured }
  | .error .version => .error { status := 0, output := versionText.render coloured }
  | .error (.usage e) => .error { status := 2, errors := e.text.render coloured }
  | .ok options =>
    let (rules, overrides) := Rules.override {} lookup
    let refuse (c : Complaint) : Refusal :=
      { status := 1, errors := Override.report overrides ++ errorText c.text none }
    match rules.check with
    | .error c => .error (refuse c)
    | .ok () =>
      match options.plan.check with
      | .error c => .error (refuse c)
      | .ok () =>
        let setup := match options.telemetry with
          | some path => Telemetry.Setup.jsonl path
          | none => Telemetry.Setup.ofLookup lookup
        .ok ⟨options, rules, setup, overrides⟩

namespace Start

def banner (s : Start) : String :=
  let plan := s.options.plan
  "[env_test] episodes=" ++ Decimal.naturalText plan.episodes.toNat ++
    " max_iterations=" ++ Decimal.naturalText plan.iterations.toNat ++
    " actions=" ++ Decimal.integerText plan.actionLow.toInt ++
    "..=" ++ Decimal.integerText plan.actionHigh.toInt ++
    " seed=" ++ (match plan.seed with
      | some seed => Decimal.naturalText seed.toNat
      | none => "none") ++
    " max_steps=" ++ Decimal.naturalText s.rules.maxSteps.toNat ++
    " num_targets=" ++ Decimal.integerText s.rules.numTargets.toInt ++
    " telemetry=" ++ s.setup.mode.name ++ "\n"

def preamble (s : Start) : String := Override.report s.overrides ++ s.banner

end Start

/-! ## Waiting -/

def prompt : String := "Press Enter to Start"

/-- The number of bytes up to the first newline, the newline included. -/
def lineLength : List UInt8 → Nat
  | [] => 0
  | b :: rest => if b = 10 then 1 else lineLength rest + 1

inductive WaitFault
  | output (fault : OutputFault)
  | notText
deriving DecidableEq, Repr

namespace WaitFault

def message : WaitFault → String
  | output fault => fault.message
  | notText => "stream did not contain valid UTF-8"

end WaitFault

/-- Ask for Enter and read a line; the end of the input counts as one. Whatever the line
holds is left aside, but it has to be text. -/
def waitForEnter (o : Output) (input : ByteArray) : Except WaitFault Unit × Output × ByteArray :=
  match o.write prompt with
  | (some fault, o) => (.error (.output fault), o, input)
  | (none, o) =>
    let n := lineLength input.toList
    let rest := input.extract n input.size
    if (String.fromUTF8? (input.extract 0 n)).isSome then (.ok (), o, rest)
    else (.error .notText, o, rest)

/-! ## Playing -/

def summaryLines (summaries : List Summary) : List String :=
  summaries.map fun s => s.toJson.print ++ "\n"

def doneLine (summaries : List Summary) : String :=
  "[env_test] done: " ++ Decimal.naturalText (summaries.countP (·.cleared)) ++ "/" ++
    Decimal.naturalText summaries.length ++ " episodes cleared\n"

namespace Start

/-- The output after a batch whose logbook leads to the output itself. -/
def joinedOutput (s : Start) (w : Surroundings) : Output :=
  match transcript s.options.plan s.rules (s.options.plan.seed.getD w.fresh) with
  | .error _ => w.output
  | .ok events => { w.output with written := w.output.written ++ joined events }

/-- Play the batch, write the summaries if asked, and finish with the logbook. The text
for the error stream is what follows the preamble. -/
def play (s : Start) (w : Surroundings) : Report :=
  let logbook : Telemetry.Logbook := { sink := .ofSetup s.setup, disk := w.disk }
  let result := playBatch s.options.plan s.rules w.fresh w.output logbook
  let logbook := result.logbook.close
  let place := result.logbook.place?
  let records := match place.filter w.errorPlaces.contains with
    | none => ""
    | some l => (String.fromUTF8? (logbook.disk.content l)).getD ""
  let report (status : Nat) (output : Output) (ending : String) : Report :=
    { status := status
      output := output
      errors := logbook.warningText ++ records ++ ending
      input := w.input
      disk := logbook.disk }
  match result.summaries with
  | .error e => report 1 result.output (errorText e.text (some e.source))
  | .ok summaries =>
    let output :=
      if place.any w.outputPlaces.contains then s.joinedOutput w else result.output
    let lines := if 0 < s.options.verbosity then summaryLines summaries else []
    match output.writeAll lines with
    | (some fault, output) => report 1 output (errorText fault.message none)
    | (none, output) => report 0 output (doneLine summaries)

def run (s : Start) (w : Surroundings) : Report :=
  if s.options.noWait then s.play w
  else match waitForEnter w.output w.input with
    | (.error fault, output, input) =>
      { status := 1
        output := output
        errors := errorText "reading start confirmation from stdin" (some fault.message)
        input := input
        disk := w.disk }
    | (.ok (), output, input) => s.play { w with output := output, input := input }

end Start

def run (arguments : List String) (w : Surroundings) : Report :=
  match prepare arguments w.lookup with
  | .error refusal =>
    { status := refusal.status
      output := (w.output.write refusal.output).2
      errors := refusal.errors
      input := w.input
      disk := w.disk }
  | .ok start =>
    let report := start.run w
    { report with errors := start.preamble ++ report.errors }

end HiddenTarget.Console
