import HiddenTarget.Disk.Basic

/-!
# Buffered writing

A `Channel` writes to an open file through a buffer of `capacity` bytes. A piece that
does not fit into what is left of the buffer empties it first, and a piece as large as
the whole buffer goes past it. What the file does not take stays in the buffer, and the
answer of each operation says whether everything that was handed on was taken.
-/

namespace HiddenTarget.Telemetry

structure Channel where
  handle : Handle
  pending : ByteArray := ByteArray.empty

namespace Channel

/-- The size of the buffer in bytes. -/
def capacity : Nat := 8192

def flush (c : Channel) (d : Disk) : Bool × Channel × Disk :=
  if c.pending.isEmpty then (true, c, d)
  else
    let (rest, handle, d) := d.write c.handle c.pending
    (rest.isEmpty, ⟨handle, rest⟩, d)

/-- Put a piece behind the waiting bytes, or past the buffer if it is too large for
it. The waiting bytes must leave room for it. -/
def add (c : Channel) (piece : ByteArray) (d : Disk) : Bool × Channel × Disk :=
  if piece.size < capacity then (true, { c with pending := c.pending ++ piece }, d)
  else
    let (rest, handle, d) := d.write c.handle piece
    (rest.isEmpty, { c with handle := handle }, d)

def write (c : Channel) (piece : ByteArray) (d : Disk) : Bool × Channel × Disk :=
  if c.pending.size + piece.size ≤ capacity then c.add piece d
  else match c.flush d with
    | (false, c, d) => (false, c, d)
    | (true, c, d) => c.add piece d

/-- Write a text and a newline, as two pieces. -/
def writeLine (c : Channel) (text : String) (d : Disk) : Bool × Channel × Disk :=
  match c.write text.toUTF8 d with
  | (false, c, d) => (false, c, d)
  | (true, c, d) => c.write "\n".toUTF8 d

end Channel

end HiddenTarget.Telemetry
