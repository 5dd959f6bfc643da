import HiddenTarget.Telemetry.Channel

/-!
# What the writes of a channel keep

A channel touches its file by writes through its handle, and by nothing else. So whatever each of
them keeps of the handle and the disk is kept by all that is done with the channel: by a flush,
`PreservedByWrites.flush`, and by a line, `PreservedByWrites.writeLine`, be it taken or not.
-/

namespace HiddenTarget.Telemetry.Channel

def PreservedByWrites (P : Handle → Disk → Prop) : Prop :=
  ∀ h d bytes, P h d → P (d.write h bytes).2.1 (d.write h bytes).2.2

namespace PreservedByWrites

variable {P : Handle → Disk → Prop} {c : Channel} {d : Disk}

theorem flush (hP : PreservedByWrites P) (h : P c.handle d) :
    P (c.flush d).2.1.handle (c.flush d).2.2 := by
  rw [Channel.flush]
  split
  · exact h
  · exact hP c.handle d c.pending h

theorem add (hP : PreservedByWrites P) (h : P c.handle d) (piece : ByteArray) :
    P (c.add piece d).2.1.handle (c.add piece d).2.2 := by
  rw [Channel.add]
  split
  · exact h
  · exact hP c.handle d piece h

theorem write (hP : PreservedByWrites P) (h : P c.handle d) (piece : ByteArray) :
    P (c.write piece d).2.1.handle (c.write piece d).2.2 := by
  have hflush := hP.flush h
  rw [Channel.write]
  split
  · exact hP.add h piece
  · split
    · next heq => rwa [heq] at hflush
    · next heq =>
        rw [heq] at hflush
        exact hP.add hflush piece

theorem writeLine (hP : PreservedByWrites P) (h : P c.handle d) (text : String) :
    P (c.writeLine text d).2.1.handle (c.writeLine text d).2.2 := by
  have htext := hP.write h text.toUTF8
  rw [Channel.writeLine]
  split
  · next heq => rwa [heq] at htext
  · next heq =>
      rw [heq] at htext
      exact hP.write htext "\n".toUTF8

end PreservedByWrites

end HiddenTarget.Telemetry.Channel
