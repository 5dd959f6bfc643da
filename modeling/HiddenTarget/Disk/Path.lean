/-!
# Paths

A `Path` is the text of a path. What stands between its slashes are its pieces, and the
pieces that are not empty its names; `.` and `..` are names like others and mean what
they do only when the path is followed.

A name is a step of its own unless it is a `.` behind a slash. `Path.stages` are the
paths that end behind each step in turn, and `Path.parents` those before the last step.
They are prefixes of the text, so what is redundant inside a path counts for the size
of its parents as well.
-/

namespace HiddenTarget

structure Path where
  text : String
deriving DecidableEq, Repr

namespace Path

def pieces (p : Path) : List String := (p.text.toList.splitOn '/').map String.ofList

/-- The names on the way; between two slashes in a row there is none. -/
def names (p : Path) : List String := p.pieces.filter (· ≠ "")

def absolute (p : Path) : Bool := p.text.toList.head? == some '/'

def slashAtEnd (p : Path) : Bool := p.text.toList.getLast? == some '/'

def size (p : Path) : Nat := p.text.utf8ByteSize

/-- The paths that end behind each step among some pieces, a text being in front of
them. -/
def stagesFrom (front : String) : List String → List Path
  | [] => []
  | piece :: rest =>
    let text := front ++ "/" ++ piece
    if piece = "" ∨ piece = "." then stagesFrom text rest else ⟨text⟩ :: stagesFrom text rest

/-- The paths that end behind each step, the shortest first. -/
def stages (p : Path) : List Path :=
  match p.pieces with
  | [] => []
  | first :: rest => if first = "" then stagesFrom first rest else ⟨first⟩ :: stagesFrom first rest

/-- The paths that end behind each step before the last one, the longest first. -/
def parents (p : Path) : List Path := p.stages.dropLast.reverse

end Path

end HiddenTarget
