import HiddenTarget.Telemetry.Channel
import HiddenTarget.Telemetry.Record
import HiddenTarget.Telemetry.Setup

/-!
# The telemetry sink

A `Sink` writes records to the file of its setup. The file is opened at the first
record, in folders that are made for it as far as possible. If it cannot be opened, or
does not take a record, the sink turns itself off for good; it never fails its caller.

A `Logbook` is a sink with the disk it writes to and the warnings it has given. Records
are members of an object by type; `record?` takes any value, and has no answer for one
that is no object while the sink is on.
-/

namespace HiddenTarget.Telemetry

structure Warning where
  path : String
  fault : PathFault
deriving DecidableEq, Repr

namespace Warning

def text (w : Warning) : String :=
  "[telemetry] WARN: cannot open " ++ w.path ++ ": " ++ w.fault.message ++
    "; telemetry disabled\n"

end Warning

structure Sink where
  mode : Mode := .off
  path : Option String := none
  append : Bool := false
  /-- The way to the file, once it is open. -/
  channel : Option Channel := none

namespace Sink

def ofSetup (s : Setup) : Sink := { mode := s.mode, path := s.path, append := s.append }

def off : Sink := ofSetup .off

def isEnabled (s : Sink) : Bool := s.mode == .jsonl

end Sink

/-- A sink, the disk it writes to and the warnings it has given. -/
structure Logbook where
  sink : Sink := {}
  disk : Disk := {}
  warnings : List Warning := []

namespace Logbook

def disable (b : Logbook) : Logbook := { b with sink := { b.sink with mode := .off } }

/-- The way to the file of a sink that is on: the one that is open, or a new one. A
sink without a path, or one whose file cannot be opened, is off afterwards. The warning is
always said, as the error stream is taken to work. -/
def openChannel (b : Logbook) : Option Channel × Logbook :=
  match b.sink.channel, b.sink.path with
  | some c, _ => (some c, b)
  | none, none => (none, b.disable)
  | none, some text =>
    let path : Path := ⟨text⟩
    let d := b.disk.makeParents path
    match d.openFile path b.sink.append with
    | .ok (handle, d) =>
      let c : Channel := { handle := handle }
      (some c, { b with disk := d, sink := { b.sink with channel := some c } })
    | .error fault =>
      let warning : Warning := ⟨text, fault⟩
      (none, { b with disk := d, warnings := b.warnings ++ [warning] }.disable)

/-- Hand on what waits in the buffer. Whether the file takes it makes no difference to
the sink. -/
def flush (b : Logbook) : Logbook :=
  match b.sink.channel with
  | none => b
  | some c =>
    let (_, c, d) := c.flush b.disk
    { b with disk := d, sink := { b.sink with channel := some c } }

/-- Write a line. If the file does not take it, what waits in the buffer is handed on
once more, and the sink is off. -/
def writeLine (b : Logbook) (text : String) : Logbook :=
  match b.openChannel with
  | (none, b) => b
  | (some c, b) =>
    match c.writeLine text b.disk with
    | (true, c, d) => { b with disk := d, sink := { b.sink with channel := some c } }
    | (false, c, d) =>
      let (_, _, d) := c.flush d
      { b with disk := d, sink := { b.sink with channel := none } }.disable

/-- Write a record with the schema version, if the sink is on. -/
def record (b : Logbook) (members : Json.Members) : Logbook :=
  if b.sink.isEnabled then b.writeLine (recordText (stamp members)) else b

/-- Write a value as a record. A sink that is on takes objects only. -/
def record? (b : Logbook) (value : Json) : Option Logbook :=
  if b.sink.isEnabled then (stamped? value).map fun ms => b.writeLine (recordText ms)
  else some b

def recordStep (b : Logbook) (episode : UInt32) (action : Action) (o : Outcome) : Logbook :=
  b.record (stepRecord episode action o)

def recordEpisode (b : Logbook) (s : Summary) : Logbook := b.record (episodeRecord s)

def replace (b : Logbook) (s : Sink) : Logbook := { b.flush with sink := s }

def close (b : Logbook) : Logbook := b.replace .off

/-- Where the open file of the sink stands. -/
def place? (b : Logbook) : Option Location := b.sink.channel.map (·.handle.location)

def warningText (b : Logbook) : String := String.join (b.warnings.map Warning.text)

end Logbook

end HiddenTarget.Telemetry
