import HiddenTarget.Play.Transcript

/-!
# Records and lines in one place

The logbook may lead to the very place that the lines of the output go to. A line
arrives there at once, but a record waits in the buffer of its channel, so it may arrive
behind lines that were written after it. `joined` is what arrives there of a transcript.
-/

namespace HiddenTarget

namespace Telemetry.Channel

def placeOfArrival : Location := ["arrival"]

def toPlaceOfArrival : Channel := { handle := ⟨placeOfArrival, none⟩ }

/-- What leaves a channel, and what becomes of it, when something is done with it that
may hand bytes on. -/
def handedOn (c : Channel) (act : Channel → Disk → Bool × Channel × Disk) :
    ByteArray × Channel :=
  let (_, c, d) := act c { nodes := [(placeOfArrival, .file ByteArray.empty none)] }
  (d.content placeOfArrival, c)

end Telemetry.Channel

open Telemetry

/-- Let what an event writes arrive behind what has arrived before. -/
def Event.arrive : ByteArray × Channel → Event → ByteArray × Channel
  | (arrived, c), .line text => (arrived ++ text.toUTF8, c)
  | (arrived, c), .record members =>
    let (bytes, c) := c.handedOn fun c => c.writeLine (recordText (stamp members))
    (arrived ++ bytes, c)

/-- What arrives where the records and the lines of a transcript go to one place. The
channel is flushed at the end. -/
def joined (events : List Event) : ByteArray :=
  let (arrived, c) := events.foldl Event.arrive (ByteArray.empty, .toPlaceOfArrival)
  arrived ++ (c.handedOn Channel.flush).1

end HiddenTarget
