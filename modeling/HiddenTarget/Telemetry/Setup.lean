import HiddenTarget.Text.Blank

/-!
# How telemetry is set up

A `Setup` says whether records are written, where to, and whether an existing file is
kept. It comes from three variables, read by `Setup.ofLookup`. The mode is read
without the blanks around it and without regard to letter case, and everything but
`jsonl` is off. The append variable is compared in lower case and with its blanks.
-/

namespace HiddenTarget.Telemetry

inductive Mode
  | off
  /-- One JSON object a line. -/
  | jsonl
deriving DecidableEq, Repr

namespace Mode

def ofString (raw : String) : Mode :=
  if (Text.trim raw.toList).map Char.toLower = ['j', 's', 'o', 'n', 'l'] then jsonl else off

def name : Mode → String
  | off => "off"
  | jsonl => "jsonl"

end Mode

structure Setup where
  mode : Mode := .off
  path : Option String := none
  append : Bool := false
deriving DecidableEq, Repr

namespace Setup

def off : Setup := {}

def jsonl (path : String) : Setup := { mode := .jsonl, path := some path }

def modeKey : String := "SIMPLE_ENV_TELEMETRY_MODE"

def pathKey : String := "SIMPLE_ENV_TELEMETRY_PATH"

def appendKey : String := "SIMPLE_ENV_TELEMETRY_APPEND"

def isYes (raw : String) : Bool :=
  let lower := raw.toList.map Char.toLower
  lower == ['1'] || lower == ['t', 'r', 'u', 'e'] || lower == ['y', 'e', 's']

/-- The setup that the variables describe. A path without the mode that wants one is
left aside. -/
def ofLookup (lookup : String → Option String) : Setup :=
  let mode := ((lookup modeKey).map Mode.ofString).getD .off
  { mode := mode
    path := if mode = .jsonl then lookup pathKey else none
    append := ((lookup appendKey).map isYes).getD false }

end Setup

end HiddenTarget.Telemetry
