import HiddenTarget.Proofs.Disk.Location
import HiddenTarget.Proofs.Telemetry.Faults
import HiddenTarget.Proofs.Telemetry.Writes

/-!
# What a sink does to a disk

A sink does three things to a disk: it makes the folders of its path, it opens the file that
the path leads to, and it writes to this file. A `Footprint` is a property of disks that all
three keep. It holds after whatever is asked of the sink, `Within.call?`, and so do the place
of the open file and the path. That the home folder stays is such a property,
`footprint_home`.
-/

namespace HiddenTarget.Telemetry

/-- What a sink for the path `p` does to a disk keeps `P`, and `p` is opened at `l`. -/
structure Footprint (p : Path) (l : Location) (P : Disk → Prop) : Prop where
  parents : ∀ d, P d → P (d.makeParents p)
  opening : ∀ d append h d', P d → d.openFile p append = .ok (h, d') → P d' ∧ h.location = l
  writing : ∀ d h bytes, P d → h.location = l → P (d.write h bytes).2.2

theorem footprint_home (p : Path) (home : Location) :
    Footprint p (p.location home) fun d => d.home = home where
  parents d hd := (Disk.home_makeParents d p).trans hd
  opening _ _ _ _ hd hopen :=
    ⟨(Disk.home_openFile hopen).trans hd, hd ▸ Disk.location_of_openFile hopen⟩
  writing d h bytes hd _ := (Disk.home_write d h bytes).trans hd

variable {p : Path} {l : Location} {P : Disk → Prop}

theorem Footprint.preserved (hP : Footprint p l P) :
    Channel.PreservedByWrites fun h d => h.location = l ∧ P d := by
  rintro h d bytes ⟨hlocation, hd⟩
  exact ⟨(Disk.location_write d h bytes).trans hlocation, hP.writing d h bytes hd hlocation⟩

namespace Logbook

/-- The sink is one for the path `p`, the file that it has open is at `l`, and `P` holds of
the disk. -/
structure Within (b : Logbook) (p : Path) (l : Location) (P : Disk → Prop) : Prop where
  path : b.sink.path = some p.text
  channel : ∀ c, b.sink.channel = some c → c.handle.location = l
  disk : P b.disk

variable {b b' : Logbook}

theorem Within.flush (hP : Footprint p l P) (h : b.Within p l P) : b.flush.Within p l P := by
  rw [Logbook.flush]
  split
  · exact h
  · next c hc =>
      obtain ⟨hlocation, hdisk⟩ := hP.preserved.flush ⟨h.channel c hc, h.disk⟩
      refine ⟨h.path, ?_, hdisk⟩
      rintro _ ⟨⟩
      exact hlocation

theorem Within.openChannel (hP : Footprint p l P) (h : b.Within p l P) :
    b.openChannel.2.Within p l P ∧ ∀ c, b.openChannel.1 = some c → c.handle.location = l := by
  rw [Logbook.openChannel]
  split
  · next c hc => exact ⟨h, by rintro _ ⟨⟩; exact h.channel c hc⟩
  · next hpath =>
      rw [h.path] at hpath
      cases hpath
  · next text hclosed hpath =>
      obtain rfl : p.text = text := Option.some.inj (h.path.symm.trans hpath)
      have hparents := hP.parents b.disk h.disk
      dsimp only
      split
      · next handle d hopen =>
          obtain ⟨hdisk, hlocation⟩ := hP.opening _ _ _ _ hparents hopen
          refine ⟨⟨h.path, ?_, hdisk⟩, ?_⟩
          · rintro _ ⟨⟩
            exact hlocation
          · rintro _ ⟨⟩
            exact hlocation
      · exact ⟨⟨h.path, h.channel, hparents⟩, by rintro _ ⟨⟩⟩

theorem Within.record (hP : Footprint p l P) (h : b.Within p l P) (members : Json.Members) :
    (b.record members).Within p l P := by
  rw [Logbook.record]
  split
  · obtain ⟨hopened, hlocation⟩ := h.openChannel hP
    rw [Logbook.writeLine]
    split
    · next hopen => rwa [hopen] at hopened
    · next c b₁ hopen =>
        rw [hopen] at hopened hlocation
        have hline := hP.preserved.writeLine ⟨hlocation c rfl, hopened.disk⟩
          (recordText (stamp members))
        split
        · next heq =>
            rw [heq] at hline
            refine ⟨hopened.path, ?_, hline.2⟩
            rintro _ ⟨⟩
            exact hline.1
        · next heq =>
            rw [heq] at hline
            exact ⟨hopened.path, by rintro _ ⟨⟩, (hP.preserved.flush hline).2⟩
  · exact h

theorem Within.call? (hP : Footprint p l P) (h : b.Within p l P) {c : Call}
    (hcall : b.call? c = some b') : b'.Within p l P := by
  cases c with
  | value v =>
      rw [Logbook.call?, record?] at hcall
      split at hcall
      · next hon =>
          cases v with
          | object members =>
              have hrecord := h.record hP members
              rw [Logbook.record, if_pos hon] at hrecord
              exact Option.some.inj hcall ▸ hrecord
          | _ => cases hcall
      · exact Option.some.inj hcall ▸ h
  | step episode action outcome =>
      rw [call?_step] at hcall
      exact Option.some.inj hcall ▸ h.record hP _
  | episode summary =>
      rw [call?_episode] at hcall
      exact Option.some.inj hcall ▸ h.record hP _
  | flush => exact Option.some.inj hcall ▸ h.flush hP

@[simp] theorem home_flush (b : Logbook) : b.flush.disk.home = b.disk.home := by
  rw [Logbook.flush]
  split
  · rfl
  · next c _ =>
      have hhome : Channel.PreservedByWrites fun _ d => d.home = b.disk.home :=
        fun h d bytes hd => (Disk.home_write d h bytes).trans hd
      exact hhome.flush rfl

end Logbook

end HiddenTarget.Telemetry
