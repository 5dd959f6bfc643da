/-!
# Output that may run full

An `Output` collects bytes up to a limit. `Output.write` takes as much of a text as
there is room for; if something is left over, it ends in the output's fault. Nothing
is taken after that, because there is no room left.
-/

namespace HiddenTarget

inductive OutputFault
  | outOfRoom
  /-- The receiver takes nothing more and does not say why. -/
  | takesNothing
  | deviceFull
  | custom (message : String)
deriving DecidableEq, Repr

namespace OutputFault

def message : OutputFault → String
  | outOfRoom => "out of room"
  | takesNothing => "failed to write whole buffer"
  | deviceFull => "No space left on device (os error 28)"
  | custom message => message

end OutputFault

/-- What has been written, and how much more is taken. -/
structure Output where
  written : ByteArray := ByteArray.empty
  /-- The number of bytes still taken; any number if absent. -/
  room : Option Nat := none
  /-- What a text that does not fit ends in. -/
  fault : OutputFault := .outOfRoom

namespace Output

def writeBytes (o : Output) (bytes : ByteArray) : Option OutputFault × Output :=
  match o.room with
  | none => (none, { o with written := o.written ++ bytes })
  | some room =>
    if bytes.size ≤ room then
      (none, { o with written := o.written ++ bytes, room := some (room - bytes.size) })
    else
      (some o.fault, { o with written := o.written ++ bytes.extract 0 room, room := some 0 })

def write (o : Output) (text : String) : Option OutputFault × Output := o.writeBytes text.toUTF8

theorem write_of_room_none {o : Output} (h : o.room = none) (text : String) :
    o.write text = (none, { o with written := o.written ++ text.toUTF8 }) := by
  simp [write, writeBytes, h]

end Output

end HiddenTarget
