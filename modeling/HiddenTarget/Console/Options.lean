import HiddenTarget.Console.Usage
import HiddenTarget.Play.Plan

/-!
# Reading the command line

`Options.ofArguments` reads the arguments from the left. An option whose value is the
next argument holds that value back until the next option acts, so a bad value is
noticed only then; an argument that nothing knows is noticed at once and wins over a
value that is held back. Help and version end the reading as soon as they act.

Behind a lone `--` no argument is an option any more, and since the command takes no
other arguments, nothing may follow.
-/

namespace HiddenTarget.Console

structure Options where
  plan : Plan := {}
  noWait : Bool := false
  telemetry : Option String := none
  verbosity : Nat := 0
deriving DecidableEq, Repr

inductive Halt
  | help
  | version
  | usage (e : UsageError)
deriving DecidableEq, Repr

/-- An option that still has something to do. -/
inductive Pending
  | nothing
  | awaiting (s : Setting)
  | holding (s : Setting) (value : String)
deriving DecidableEq, Repr

structure Progress where
  options : Options := {}
  given : List Setting := []
  pending : Pending := .nothing
  /-- Whether a lone `--` went by. -/
  closed : Bool := false
deriving DecidableEq, Repr

def readBounded (range : Decimal.IntegerRange) (value : String) : Except ValueFault Int :=
  match Decimal.IntegerRange.int64.read value.toList with
  | .error fault => .error (.unreadable fault)
  | .ok i => if range.Contains i then .ok i else .error (.outOfRange i range)

def readSeed (value : String) : Except ValueFault UInt64 :=
  match Decimal.IntegerRange.uint64.read value.toList with
  | .error fault => .error (.unreadable fault)
  | .ok i => .ok (UInt64.ofNat i.toNat)

namespace Options

def assign (o : Options) (s : Setting) (value : String) : Except UsageError Options :=
  let invalid {α : Type} : Except ValueFault α → Except UsageError α
    | .ok a => .ok a
    | .error fault => .error (.valueInvalid value s.label fault)
  match s with
  | .episodes => (invalid (readBounded .uint32 value)).map fun i =>
      { o with plan := { o.plan with episodes := UInt32.ofNat i.toNat } }
  | .maxIterations => (invalid (readBounded .uint32 value)).map fun i =>
      { o with plan := { o.plan with iterations := UInt32.ofNat i.toNat } }
  | .actionLow => (invalid (readBounded .int32 value)).map fun i =>
      { o with plan := { o.plan with actionLow := Int32.ofInt i } }
  | .actionHigh => (invalid (readBounded .int32 value)).map fun i =>
      { o with plan := { o.plan with actionHigh := Int32.ofInt i } }
  | .seed => (invalid (readSeed value)).map fun seed =>
      { o with plan := { o.plan with seed := some seed } }
  | .telemetry =>
    if value = "" then .error (.valueMissing s.label) else .ok { o with telemetry := some value }

end Options

namespace Progress

def give (p : Progress) (s : Setting) (value : String) : Except UsageError Progress :=
  if s ∈ p.given then .error (.repeated s.label)
  else (p.options.assign s value).map fun o => { p with options := o, given := s :: p.given }

def settle (p : Progress) : Except UsageError Progress :=
  match p.pending with
  | .nothing => .ok p
  | .awaiting s => .error (.valueMissing s.label)
  | .holding s value => { p with pending := .nothing }.give s value

def act (p : Progress) (s : Switch) : Except Halt Progress :=
  match p.settle with
  | .error e => .error (.usage e)
  | .ok p =>
    match s with
    | .help => .error .help
    | .version => .error .version
    | .verbose => .ok { p with options := { p.options with
        verbosity := min (p.options.verbosity + 1) 255 } }
    | .noWait =>
      if p.options.noWait then .error (.usage (.repeated s.label))
      else .ok { p with options := { p.options with noWait := true } }

def readLong (p : Progress) (name : String) (value : Option String) : Except Halt Progress :=
  match Setting.ofName? name, Switch.ofName? name, value with
  | some s, _, some value =>
    match p.settle.bind fun p => p.give s value with
    | .ok p => .ok p
    | .error e => .error (.usage e)
  | some s, _, none =>
    match p.settle with
    | .ok p => .ok { p with pending := .awaiting s }
    | .error e => .error (.usage e)
  | none, some s, none => p.act s
  | none, some s, some value => .error (.usage (.valueUnneeded value s.label))
  | none, none, _ => .error (.usage (.unexpected ("--" ++ name)))

def readLetters (p : Progress) : List Char → Except Halt Progress
  | [] => .ok p
  | c :: rest =>
    match Switch.ofLetter? c with
    | none => .error (.usage (.unexpected (String.ofList ['-', c])))
    | some s =>
      match p.act s with
      | .error h => .error h
      | .ok p => p.readLetters rest

/-- Read an argument that is no option: the value of the option in front of it, or
nothing that the command knows. -/
def readValue (p : Progress) (argument : String) : Except Halt Progress :=
  match p.pending with
  | .awaiting s => .ok { p with pending := .holding s argument }
  | _ => .error (.usage (.unexpected argument))

/-- The option in front, if whatever follows is its value. -/
def takesAnything (p : Progress) : Bool :=
  match p.pending with
  | .awaiting s => s.takesDashes
  | _ => false

def splitAttached (s : List Char) : String × Option String :=
  match s.span (· ≠ '=') with
  | (name, _ :: value) => (String.ofList name, some (String.ofList value))
  | (name, []) => (String.ofList name, none)

def read (p : Progress) (argument : String) : Except Halt Progress :=
  if p.closed then .error (.usage (.unexpected argument))
  else if p.takesAnything then p.readValue argument
  else match argument.toList with
    | ['-', '-'] => .ok { p with closed := true }
    | '-' :: '-' :: rest => let (name, value) := splitAttached rest; p.readLong name value
    | '-' :: c :: rest => p.readLetters (c :: rest)
    | _ => p.readValue argument

def readAll (p : Progress) : List String → Except Halt Progress
  | [] =>
    match p.settle with
    | .ok p => .ok p
    | .error e => .error (.usage e)
  | argument :: rest =>
    match p.read argument with
    | .ok p => p.readAll rest
    | .error h => .error h

end Progress

def Options.ofArguments (arguments : List String) : Except Halt Options :=
  (Progress.readAll {} arguments).map (·.options)

end HiddenTarget.Console
