import HiddenTarget.Proofs.Telemetry.Lifetime

/-!
# Sinks that keep what is there

A disk `Extends` another one if every file of that one is still there, with what it held in
front. Making folders and writing through a handle without a position extend a disk, and so
does opening a file that is kept; opening one that is emptied does not.

`Logbook.Appending` is a sink that keeps the file it opens, and whose channel writes behind the
last byte. It stays so whatever happens, and whatever it is asked for extends the disk:
`Appending.happen` is the step, and `Appending.live` and `Appending.callAll?` are the runs.
-/

namespace HiddenTarget

namespace Disk

def Extends (d d' : Disk) : Prop :=
  ∀ l content room, d.file? l = some (content, room) →
    ∃ more room', d'.file? l = some (content ++ more, room')

variable {d d' : Disk}

theorem extends_of_file? (h : ∀ l, d'.file? l = d.file? l) : d.Extends d' := by
  intro l content room hfile
  refine ⟨ByteArray.empty, room, ?_⟩
  rw [h, hfile, ByteArray.append_empty]

theorem Extends.refl (d : Disk) : d.Extends d := extends_of_file? fun _ => rfl

theorem Extends.trans {d'' : Disk} (h : d.Extends d') (h' : d'.Extends d'') : d.Extends d'' := by
  intro l content room hfile
  obtain ⟨more, room', hfile'⟩ := h l content room hfile
  obtain ⟨more', room'', hfile''⟩ := h' l _ room' hfile'
  exact ⟨more ++ more', room'', by rw [← ByteArray.append_assoc, hfile'']⟩

theorem extends_makeParents (d : Disk) (p : Path) : d.Extends (d.makeParents p) :=
  extends_of_file? fun l => file?_makeParents d p l

theorem extends_openFile {p : Path} {h : Handle} (hopen : d.openFile p true = .ok (h, d')) :
    d.Extends d' ∧ h.position = none := by
  obtain ⟨hroot, hposition, ⟨content, room, -, rfl⟩ | ⟨hnone, rfl⟩⟩ := openFile_eq_ok hopen
  · exact ⟨.refl _, hposition⟩
  · refine ⟨?_, hposition⟩
    intro l content room hfile
    have hl : l ≠ h.location := by
      rintro rfl
      rw [file?, hnone] at hfile
      cases hfile
    refine ⟨ByteArray.empty, room, ?_⟩
    rw [ByteArray.append_empty, ← hfile, file?, file?, node?_put hroot, if_neg hl]

theorem extends_write {h : Handle} (hposition : h.position = none) (d : Disk)
    (bytes : ByteArray) : d.Extends (d.write h bytes).2.2 := by
  cases hnode : d.node? h.location with
  | none =>
      rw [write, hnode]
      exact .refl d
  | some node =>
      cases node with
      | folder =>
          rw [write, hnode]
          exact .refl d
      | file content room =>
          have hend : d.FileAt h content room := ⟨hnode, by rw [hposition, Option.getD_none]⟩
          obtain ⟨h', d', hwrite, hlocation, hend', hothers⟩ := hend.write bytes
          rw [hwrite]
          intro l content₁ room₁ hl
          by_cases heq : l = h.location
          · subst heq
            rw [file?_of_node? hnode, Option.some.injEq, Prod.mk.injEq] at hl
            obtain ⟨rfl, rfl⟩ := hl
            exact ⟨_, _, file?_of_node? (hlocation ▸ hend'.node)⟩
          · refine ⟨ByteArray.empty, room₁, ?_⟩
            rw [ByteArray.append_empty, ← hl, file?, file?, hothers l heq]

end Disk

namespace Telemetry

/-! ## A channel that writes behind the last byte -/

namespace Channel

/-- The handle writes behind the last byte, and all that was on the disk still is. -/
structure Appending (before : Disk) (h : Handle) (d : Disk) : Prop where
  atEnd : h.position = none
  kept : before.Extends d

theorem preserved_appending (before : Disk) : PreservedByWrites (Appending before) := by
  rintro h d bytes ⟨hatEnd, hkept⟩
  exact ⟨(congrArg Handle.position (Disk.handle_write hatEnd d bytes)).trans hatEnd,
    hkept.trans (Disk.extends_write hatEnd d bytes)⟩

end Channel

/-! ## A sink that keeps its file -/

namespace Logbook

/-- The sink keeps the file that it opens, and writes behind the last byte of an open one. -/
structure Appending (b : Logbook) : Prop where
  append : b.sink.append = true
  atEnd : ∀ c, b.sink.channel = some c → c.handle.position = none

theorem appending_ofSetup {setup : Setup} (h : setup.append = true) (disk : Disk) :
    Appending { sink := .ofSetup setup, disk := disk } :=
  ⟨h, nofun⟩

variable {b b' : Logbook}

theorem Appending.flush (h : b.Appending) : b.flush.Appending ∧ b.disk.Extends b.flush.disk := by
  obtain heq | ⟨c, hc, heq⟩ := b.flush_cases
  · rw [heq]
    exact ⟨h, .refl b.disk⟩
  · obtain ⟨hatEnd, hkept⟩ :=
      (Channel.preserved_appending b.disk).flush ⟨h.atEnd c hc, .refl b.disk⟩
    rw [heq]
    exact ⟨⟨h.append, by rintro _ ⟨⟩; exact hatEnd⟩, hkept⟩

theorem Appending.writeLine {c : Channel} (hopen : b.openChannel = (some c, b'))
    (happend : b'.sink.append = true) (hc : Channel.Appending b.disk c.handle b'.disk)
    (text : String) :
    (b.writeLine text).Appending ∧ b.disk.Extends (b.writeLine text).disk := by
  have hline := (Channel.preserved_appending b.disk).writeLine hc text
  obtain heq | heq := writeLine_cases hopen text
  · rw [heq]
    exact ⟨⟨happend, by rintro _ ⟨⟩; exact hline.atEnd⟩, hline.kept⟩
  · rw [heq]
    exact ⟨⟨happend, nofun⟩, ((Channel.preserved_appending b.disk).flush hline).kept⟩

theorem Appending.record (h : b.Appending) (members : Json.Members) :
    (b.record members).Appending ∧ b.disk.Extends (b.record members).disk := by
  rw [Logbook.record]
  split
  · obtain ⟨c, hc, hopen⟩ | ⟨-, -, hopen⟩ |
      ⟨text, hc, -, ⟨handle, d, hfile, hopen⟩ | ⟨fault, -, hopen⟩⟩ := b.openChannel_cases
    · exact writeLine hopen h.append ⟨h.atEnd c hc, .refl b.disk⟩ _
    · rw [Logbook.writeLine, hopen]
      exact ⟨⟨h.append, h.atEnd⟩, .refl b.disk⟩
    · rw [h.append] at hfile
      obtain ⟨hkept, hatEnd⟩ := Disk.extends_openFile hfile
      exact writeLine hopen h.append
        ⟨hatEnd, (Disk.extends_makeParents b.disk ⟨text⟩).trans hkept⟩ _
    · rw [Logbook.writeLine, hopen]
      exact ⟨⟨h.append, h.atEnd⟩, Disk.extends_makeParents b.disk ⟨text⟩⟩
  · exact ⟨h, .refl b.disk⟩

/-- **Whatever such a sink is asked for extends the disk.** -/
theorem Appending.call (h : b.Appending) (c : Call) :
    (b.happen (.call c)).Appending ∧ b.disk.Extends (b.happen (.call c)).disk := by
  obtain heq | heq | ⟨members, heq⟩ := b.happen_call_cases c
  · rw [heq]
    exact ⟨h, .refl b.disk⟩
  · rw [heq]
    exact h.flush
  · rw [heq]
    exact h.record members

theorem Appending.live (h : b.Appending) (life : List Happening) : (b.live life).Appending := by
  induction life generalizing b with
  | nil => exact h
  | cons happening rest ih =>
      rw [live_cons]
      cases happening with
      | call c => exact ih (h.call c).1
      | change d => exact ih (b := { b with disk := d }) ⟨h.append, h.atEnd⟩

theorem Appending.callAll? (h : b.Appending) {calls : List Call}
    (hcalls : b.callAll? calls = some b') : b'.Appending ∧ b.disk.Extends b'.disk := by
  induction calls generalizing b with
  | nil =>
      obtain rfl := Option.some.inj hcalls
      exact ⟨h, .refl b.disk⟩
  | cons c rest ih =>
      rw [callAll?_cons, Option.bind_eq_some_iff] at hcalls
      obtain ⟨b₁, hcall, hrest⟩ := hcalls
      have hstep := h.call c
      rw [happen, hcall, Option.getD_some] at hstep
      obtain ⟨hend, hkept⟩ := ih hstep.1 hrest
      exact ⟨hend, hstep.2.trans hkept⟩

theorem Appending.close (h : b.Appending) : b.disk.Extends b.close.disk := h.flush.2

end Logbook

end Telemetry

end HiddenTarget
