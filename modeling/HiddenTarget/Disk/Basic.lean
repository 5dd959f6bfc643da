import HiddenTarget.Disk.Path

/-!
# A disk of folders and files

A `Disk` maps locations to folders and files; a location is the list of names from
the root. Paths are followed name by name, and every way in which that can fail is a
`PathFault`. The operations are those that a program writes files with:
`makeFolder`, `makeFolders` for a whole path, `openFile`, and `write` through a
`Handle`.

A file may have limited room, as a device has; the room of an ordinary file has no
end. `write` says what the file did not take.
-/

namespace HiddenTarget

abbrev Location := List String

inductive Node
  | folder
  /-- A file, and the number of bytes that it still takes; any number if absent. -/
  | file (content : ByteArray) (room : Option Nat)

inductive PathFault
  | notFound
  | alreadyExists
  | notDirectory
  | isDirectory
  | nameTooLong
  | embeddedNul
deriving DecidableEq, Repr

namespace PathFault

def message : PathFault → String
  | notFound => "No such file or directory (os error 2)"
  | alreadyExists => "File exists (os error 17)"
  | notDirectory => "Not a directory (os error 20)"
  | isDirectory => "Is a directory (os error 21)"
  | nameTooLong => "File name too long (os error 36)"
  | embeddedNul => "file name contained an unexpected NUL byte"

end PathFault

/-- Folders and files, and the folder that relative paths start from. -/
structure Disk where
  nodes : List (Location × Node) := []
  home : Location := []

structure Handle where
  location : Location
  /-- Where the next byte goes; behind the last one if absent. -/
  position : Option Nat
deriving DecidableEq, Repr

namespace Disk

/-! ## Locations -/

/-- What stands at a location. The root is always a folder. -/
def node? (d : Disk) (l : Location) : Option Node :=
  if l = [] then some .folder else d.nodes.lookup l

/-- Replace what a list has for a location, or add it at the end. -/
def replace (l : Location) (n : Node) : List (Location × Node) → List (Location × Node)
  | [] => [(l, n)]
  | (k, m) :: rest => if k = l then (l, n) :: rest else (k, m) :: replace l n rest

def put (d : Disk) (l : Location) (n : Node) : Disk := { d with nodes := replace l n d.nodes }

theorem lookup_replace (l k : Location) (n : Node) (ns : List (Location × Node)) :
    (replace l n ns).lookup k = if k = l then some n else ns.lookup k := by
  induction ns with
  | nil =>
    by_cases h : k = l
    · simp [replace, h]
    · simp [replace, List.lookup_cons, beq_false_of_ne h, h]
  | cons p rest ih =>
    obtain ⟨l', m⟩ := p
    by_cases hl : l' = l
    · subst hl
      by_cases h : k = l'
      · simp [replace, h]
      · simp [replace, List.lookup_cons, beq_false_of_ne h, h]
    · by_cases h : k = l'
      · subst h
        simp [replace, hl]
      · simp [replace, List.lookup_cons, beq_false_of_ne h, hl, ih]

theorem node?_put {l : Location} (hl : l ≠ []) (d : Disk) (n : Node) (k : Location) :
    (d.put l n).node? k = if k = l then some n else d.node? k := by
  by_cases hk : k = []
  · subst hk
    simp [node?, Ne.symm hl]
  · simp [node?, hk, put, lookup_replace]

/-! ## Following a path -/

/-- The longest name that a folder can hold, in bytes. -/
def longestName : Nat := 255

def longestPath : Nat := 4095

def enter (d : Disk) (at_ : Location) (name : String) : Except PathFault Location :=
  if name = "." then .ok at_
  else if name = ".." then .ok at_.dropLast
  else if longestName < name.utf8ByteSize then .error .nameTooLong
  else match d.node? (at_ ++ [name]) with
    | none => .error .notFound
    | some (.file _ _) => .error .notDirectory
    | some .folder => .ok (at_ ++ [name])

def walk (d : Disk) : Location → List String → Except PathFault Location
  | l, [] => .ok l
  | l, name :: rest =>
    match d.enter l name with
    | .error e => .error e
    | .ok l => walk d l rest

/-- The place that a path names: a name in an existing folder, or an existing
folder itself. -/
inductive Place
  | named (folder : Location) (name : String)
  | folder (l : Location)
deriving DecidableEq, Repr

def find (d : Disk) (p : Path) : Except PathFault Place :=
  if p.names.any (·.contains '\x00') then .error .embeddedNul
  else if p.size = 0 then .error .notFound
  else if longestPath < p.size then .error .nameTooLong
  else
    let start := if p.absolute then [] else d.home
    match p.names.reverse with
    | [] => .ok (.folder start)
    | last :: before =>
      match d.walk start before.reverse with
      | .error e => .error e
      | .ok l =>
        if last = "." then .ok (.folder l)
        else if last = ".." then .ok (.folder l.dropLast)
        else .ok (.named l last)

def named? (d : Disk) (l : Location) (name : String) : Except PathFault (Option Node) :=
  if longestName < name.utf8ByteSize then .error .nameTooLong else .ok (d.node? (l ++ [name]))

def isFolder (d : Disk) (p : Path) : Bool :=
  match d.find p with
  | .ok (.folder _) => true
  | .ok (.named l name) =>
    match d.node? (l ++ [name]) with
    | some .folder => true
    | _ => false
  | .error _ => false

/-! ## Folders -/

def makeFolder (d : Disk) (p : Path) : Except PathFault Disk :=
  match d.find p with
  | .error e => .error e
  | .ok (.folder _) => .error .alreadyExists
  | .ok (.named l name) =>
    match d.named? l name with
    | .error e => .error e
    | .ok (some _) => .error .alreadyExists
    | .ok none => .ok (d.put (l ++ [name]) .folder)

/-- Make a folder and those it lies in, the longest path first. The answer says whether
the folder is there afterwards; what has been made on the way stays. -/
def makeFoldersAlong : List Path → Disk → Bool × Disk
  | [], d => (true, d)
  | p :: parents, d =>
    match d.makeFolder p with
    | .ok d => (true, d)
    | .error .notFound =>
      match makeFoldersAlong parents d with
      | (false, d) => (false, d)
      | (true, d) =>
        match d.makeFolder p with
        | .ok d => (true, d)
        | .error _ => (d.isFolder p, d)
    | .error _ => (d.isFolder p, d)

def makeFolders (d : Disk) (p : Path) : Disk :=
  (makeFoldersAlong (p :: p.parents) d).2

def makeParents (d : Disk) (p : Path) : Disk := (makeFoldersAlong p.parents d).2

/-! ## Files -/

/-- Open a file for writing, made if it is not there: at its end if `append`, else
emptied. -/
def openFile (d : Disk) (p : Path) (append : Bool) : Except PathFault (Handle × Disk) :=
  match d.find p with
  | .error e => .error e
  | .ok (.folder _) => .error .isDirectory
  | .ok (.named l name) =>
    if p.slashAtEnd then .error .isDirectory
    else
      let file := l ++ [name]
      let handle : Handle := ⟨file, if append then none else some 0⟩
      match d.named? l name with
      | .error e => .error e
      | .ok (some .folder) => .error .isDirectory
      | .ok (some (.file _ room)) =>
        .ok (handle, if append then d else d.put file (.file ByteArray.empty room))
      | .ok none => .ok (handle, d.put file (.file ByteArray.empty none))

/-- Put bytes into a file at a position, behind zeros if the file ends before it. -/
def splice (content : ByteArray) (position : Nat) (bytes : ByteArray) : ByteArray :=
  content.extract 0 position ++
    ByteArray.mk (Array.replicate (position - content.size) 0) ++
    bytes ++ content.extract (position + bytes.size) content.size

/-- Write through a handle as many bytes as the file takes. The first part of the
answer is what it did not take. -/
def write (d : Disk) (h : Handle) (bytes : ByteArray) : ByteArray × Handle × Disk :=
  match d.node? h.location with
  | some (.file content room) =>
    let count := match room with
      | none => bytes.size
      | some room => min room bytes.size
    let taken := bytes.extract 0 count
    let position := h.position.getD content.size
    let room := room.map (· - count)
    (bytes.extract count bytes.size,
     { h with position := h.position.map (· + count) },
     d.put h.location (.file (splice content position taken) room))
  | _ => (bytes, h, d)

def content (d : Disk) (l : Location) : ByteArray :=
  match d.node? l with
  | some (.file content _) => content
  | _ => ByteArray.empty

/-- Store a file with the folders it lies in; nothing happens if the path does not
lead to a file. -/
def store (d : Disk) (p : Path) (content : ByteArray) : Disk :=
  let d := d.makeParents p
  match d.openFile p false with
  | .ok (h, d) => (d.write h content).2.2
  | .error _ => d

def below (d : Disk) (l : Location) : List (Location × Node) :=
  d.nodes.filterMap fun (k, n) =>
    if l.isPrefixOf k && k.length != l.length then some (k.drop l.length, n) else none

end Disk

end HiddenTarget
