import HiddenTarget.Console.Program

/-!
# The program

Runs the command on the machine. What the command makes of its arguments, its input and
the disk is decided by `Console.prepare` and `Console.Start.run`; here the surroundings
are gathered and the report is carried out.

Of the disk only the way to the telemetry file is looked at, since the command touches
nothing else.
-/

namespace HiddenTarget.Machine

partial def readLine (input : IO.FS.Stream) (line : ByteArray) : IO ByteArray := do
  let byte ← input.read 1
  if byte.isEmpty then return line
  else if byte.toList == [10] then return line ++ byte
  else readLine input (line ++ byte)

def locationText (l : Location) : String := "/" ++ "/".intercalate l

/-- What stands at a location. A device counts as an empty file. -/
def inspect (l : Location) : IO (Option Node) := do
  let path := (← IO.currentDir) / locationText l
  try
    match (← path.metadata).type with
    | .dir => return some .folder
    | .file => return some (.file (← IO.FS.readBinFile path) none)
    | _ => return some (.file ByteArray.empty none)
  catch _ => return none

def look (d : Disk) (l : Location) : List String → IO Disk
  | [] => return d
  | "." :: rest => look d l rest
  | ".." :: rest => look d l.dropLast rest
  | name :: rest => do
    let l := l ++ [name]
    match ← inspect l with
    | none => look d l rest
    | some node => look (d.put l node) l rest

def streamPlaces (name number : String) : List Location := [
  ["dev", name], ["dev", "fd", number], ["proc", "self", "fd", number]]

def outputPlaces : List Location := streamPlaces "stdout" "1"

def errorPlaces : List Location := streamPlaces "stderr" "2"

def isStream (l : Location) : Bool := (outputPlaces ++ errorPlaces).contains l

/-- The part of the disk that a command with the given telemetry path can see. A stream
counts as an empty file. -/
def diskAround (path : Option String) : IO Disk := do
  let home := (Path.mk (← IO.currentDir).toString).names
  let d ← look { home := home } [] home
  let d ← match path.map Path.mk with
    | none => pure d
    | some p => look d (if p.absolute then [] else home) p.names
  return { d with nodes := d.nodes.map fun (l, node) =>
    (l, if isStream l then .file ByteArray.empty none else node) }

def update (l : Location) (old : Option Node) (new : Node) : IO Unit := do
  match old, new with
  | none, .folder => IO.FS.createDir (locationText l)
  | some (.file before _), .file content _ =>
    if content != before then
      if content.extract 0 before.size == before then
        let handle ← IO.FS.Handle.mk (locationText l) .append
        handle.write (content.extract before.size content.size)
      else IO.FS.writeBinFile (locationText l) content
  | none, .file content _ => IO.FS.writeBinFile (locationText l) content
  | _, _ => return ()

/-- Bring the disk from one state to another, folders before what they hold. What goes
to a stream is written with the rest of it. -/
def commit (old new : Disk) : IO Unit :=
  new.nodes.forM fun (l, node) => unless isStream l do update l (old.node? l) node

def freshSeed : IO UInt64 := do
  let bytes ← IO.getRandomBytes 8
  return bytes.toList.foldl (fun n b => n * 256 + b.toUInt64) 0

/-- Carry out the report of a command whose first `shown` bytes of output are there
already. -/
def carryOut (old : Disk) (shown : Nat) (report : Console.Report) : IO UInt32 := do
  commit old report.disk
  let output ← IO.getStdout
  output.write (report.output.written.extract shown report.output.written.size)
  output.flush
  (← IO.getStderr).putStr report.errors
  return UInt32.ofNat report.status

def play (start : Console.Start) (lookup : String → Option String) : IO UInt32 := do
  (← IO.getStderr).putStr start.preamble
  let shown := if start.options.noWait then 0 else Console.prompt.utf8ByteSize
  let input ←
    if start.options.noWait then pure ByteArray.empty
    else do
      let output ← IO.getStdout
      output.putStr Console.prompt
      output.flush
      readLine (← IO.getStdin) ByteArray.empty
  let disk ← diskAround start.setup.path
  let report := start.run
    { lookup := lookup
      input := input
      disk := disk
      fresh := ← freshSeed
      outputPlaces := outputPlaces
      errorPlaces := errorPlaces }
  carryOut disk shown report

def run (arguments : List String) : IO UInt32 := do
  let values ← Console.variableNames.mapM fun name => return (name, ← IO.getEnv name)
  let lookup (name : String) : Option String := (values.lookup name).join
  match Console.prepare arguments lookup with
  | .ok start => play start lookup
  | .error refusal =>
    (← IO.getStdout).putStr refusal.output
    (← IO.getStderr).putStr refusal.errors
    return UInt32.ofNat refusal.status

end HiddenTarget.Machine

def main (arguments : List String) : IO UInt32 := HiddenTarget.Machine.run arguments
