import HiddenTarget.Decimal.Integer
import HiddenTarget.Text.Styled

/-!
# The command line and its texts

The options that the command knows, the messages about arguments that make no sense,
and the two texts that it shows on request. They are styled, and whether the styles show
is for the variables to say: `wantsColour` asks them.
-/

namespace HiddenTarget.Console

open HiddenTarget.Text

inductive Setting
  | episodes
  | maxIterations
  | actionLow
  | actionHigh
  | seed
  | telemetry
deriving DecidableEq, Repr

inductive Switch
  | noWait
  | verbose
  | help
  | version
deriving DecidableEq, Repr

namespace Setting

def name : Setting → String
  | episodes => "episodes"
  | maxIterations => "max-iterations"
  | actionLow => "action-low"
  | actionHigh => "action-high"
  | seed => "seed"
  | telemetry => "telemetry"

def label : Setting → String
  | episodes => "--episodes <EPISODES>"
  | maxIterations => "--max-iterations <MAX_ITERATIONS>"
  | actionLow => "--action-low <ACTION_LOW>"
  | actionHigh => "--action-high <ACTION_HIGH>"
  | seed => "--seed <SEED>"
  | telemetry => "--telemetry <TELEMETRY>"

def all : List Setting := [episodes, maxIterations, actionLow, actionHigh, seed, telemetry]

def ofName? (name : String) : Option Setting := all.find? (·.name = name)

/-- Whether the argument behind the option is its value even if it starts with a dash. -/
def takesDashes : Setting → Bool
  | actionLow | actionHigh => true
  | _ => false

end Setting

namespace Switch

def name : Switch → String
  | noWait => "no-wait"
  | verbose => "verbose"
  | help => "help"
  | version => "version"

def label : Switch → String
  | noWait => "--no-wait"
  | verbose => "--verbose..."
  | help => "--help"
  | version => "--version"

def all : List Switch := [noWait, verbose, help, version]

def ofName? (name : String) : Option Switch := all.find? (·.name = name)

def ofLetter? : Char → Option Switch
  | 'v' => some verbose
  | 'h' => some help
  | 'V' => some version
  | _ => none

end Switch

inductive ValueFault
  | unreadable (fault : Decimal.IntegerFault)
  | outOfRange (value : Int) (range : Decimal.IntegerRange)
deriving DecidableEq, Repr

namespace ValueFault

def message : ValueFault → String
  | unreadable fault => fault.message
  | outOfRange value range =>
    Decimal.integerText value ++ " is not in " ++
      Decimal.integerText (-(range.bottom.getD 0 : Int)) ++ "..=" ++
      Decimal.naturalText range.top

end ValueFault

inductive UsageError
  | unexpected (argument : String)
  | valueMissing (label : String)
  | valueUnneeded (value label : String)
  | valueInvalid (value label : String) (fault : ValueFault)
  | repeated (label : String)
deriving DecidableEq, Repr

namespace UsageError

def message : UsageError → Styled
  | unexpected argument =>
    [normal "unexpected argument '", ⟨argument, .doubt⟩, normal "' found"]
  | valueMissing label =>
    [normal "a value is required for '", ⟨label, .doubt⟩, normal "' but none was supplied"]
  | valueUnneeded value label =>
    [normal "unexpected value '", ⟨value, .doubt⟩, normal "' for '", strong label,
      normal "' found; no more were expected"]
  | valueInvalid value label fault =>
    [normal "invalid value '", ⟨value, .doubt⟩, normal "' for '", strong label,
      normal ("': " ++ fault.message)]
  | repeated label =>
    [normal "the argument '", ⟨label, .doubt⟩, normal "' cannot be used multiple times"]

def text (e : UsageError) : Styled :=
  [⟨"error:", .alarm⟩, normal " "] ++ e.message ++ [normal "\n"]

end UsageError

def entry (names : Styled) (description : String) : Styled :=
  names ++ [normal ("\n          " ++ description ++ "\n")]

def settingEntry (s : Setting) (placeholder description : String) : Styled :=
  entry [normal "      ", strong ("--" ++ s.name), normal (" <" ++ placeholder ++ ">")] description

def letterEntry (letter : String) (s : Switch) (mark description : String) : Styled :=
  entry [normal "  ", strong letter, normal ", ", strong ("--" ++ s.name), normal mark] description

def helpText : Styled :=
  [normal "Smoke-test the guess-the-target environment with random actions\n\n",
    ⟨"Usage:", .heading⟩, normal " ", strong "env_test", normal " [OPTIONS]\n\n",
    ⟨"Options:", .heading⟩, normal "\n"] ++
  settingEntry .episodes "EPISODES" "Number of episodes to run [default: 1]" ++
  settingEntry .maxIterations "MAX_ITERATIONS" "Iteration budget per episode [default: 100]" ++
  settingEntry .actionLow "ACTION_LOW" "Lowest random action (inclusive) [default: 0]" ++
  settingEntry .actionHigh "ACTION_HIGH" "Highest random action (inclusive) [default: 10]" ++
  settingEntry .seed "SEED" "Base seed. If omitted, seeds from OS entropy" ++
  entry [normal "      ", strong "--no-wait"] "Start immediately instead of waiting for Enter" ++
  settingEntry .telemetry "TELEMETRY" ("Write JSONL telemetry to this path. If omitted, uses " ++
    "SIMPLE_ENV_TELEMETRY_MODE / SIMPLE_ENV_TELEMETRY_PATH") ++
  letterEntry "-v" .verbose "..." "Verbosity: -v prints episode summaries as JSON" ++
  letterEntry "-h" .help "" "Print help" ++
  letterEntry "-V" .version "" "Print version"

def versionText : Styled := [normal "env_test 0.1.0\n"]

/-! ## Colours -/

/-- The variable that forbids colours, unless it is empty. -/
def noColourKey : String := "NO_COLOR"

/-- The variable that asks for colours, unless it is empty. -/
def forceColourKey : String := "CLICOLOR_FORCE"

def wantsColour (lookup : String → Option String) : Bool :=
  (lookup noColourKey).getD "" = "" && (lookup forceColourKey).getD "" ≠ ""

end HiddenTarget.Console
