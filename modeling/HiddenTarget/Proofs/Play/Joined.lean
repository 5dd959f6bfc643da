import HiddenTarget.Play.Joined
import HiddenTarget.Proofs.Play.Prefix
import HiddenTarget.Proofs.Telemetry.Writes

/-!
# What arrives where records and lines go to one place

A record may arrive behind lines that were written after it, but nothing gets lost:
`size_joined` counts what arrives of some events. The channel writes behind what is there and the
place takes everything, so that what leaves the channel and what waits in it are together what was
put into it.
-/

namespace HiddenTarget

namespace Telemetry.Channel

/-- A channel to the place that takes everything, with no more waiting than fits its buffer. -/
structure Arrives (c : Channel) : Prop where
  handle : c.handle = ⟨placeOfArrival, none⟩
  small : c.pending.size ≤ capacity

theorem arrives_toPlaceOfArrival : toPlaceOfArrival.Arrives := ⟨rfl, Nat.zero_le _⟩

variable {c : Channel}

theorem handle_writeLine (hposition : c.handle.position = none) (text : String) (d : Disk) :
    (c.writeLine text d).2.1.handle = c.handle := by
  have hsame : PreservedByWrites fun h _ => h = c.handle := by
    rintro _ d bytes rfl
    exact Disk.handle_write hposition d bytes
  exact hsame.writeLine rfl text

theorem Arrives.carries (h : c.Arrives) (n : Nat) :
    c.Carries { nodes := [(placeOfArrival, .file ByteArray.empty none)] } placeOfArrival
      c.pending n where
  location := by rw [h.handle]
  small := h.small
  file := by
    refine ⟨ByteArray.empty, none, ⟨?_, ?_⟩, ByteArray.empty_append, Disk.Fits.none _⟩
    · rw [h.handle]
      rfl
    · rw [h.handle]
      rfl

theorem Carries.handedOn {c' : Channel} {d : Disk} {bytes : ByteArray} {n : Nat}
    (h : c'.Carries d placeOfArrival bytes n) :
    (d.content placeOfArrival).size + c'.pending.size = bytes.size := by
  obtain ⟨content, room, hfile, rfl, -⟩ := h.file
  rw [← h.location, hfile.content_eq, ByteArray.size_append]

theorem Arrives.writeLine (h : c.Arrives) (text : String) :
    let handed := c.handedOn fun c => c.writeLine text
    handed.2.Arrives ∧
      handed.1.size + handed.2.pending.size = c.pending.size + (text ++ "\n").toUTF8.size := by
  have hposition : c.handle.position = none := by rw [h.handle]
  obtain ⟨c', d', hline, hcarries⟩ := (h.carries ((text ++ "\n").toUTF8.size + 0)).writeLine
  have hhandle := handle_writeLine hposition text
    { nodes := [(placeOfArrival, .file ByteArray.empty none)] }
  rw [hline] at hhandle
  simp only [Channel.handedOn, hline]
  refine ⟨⟨hhandle.trans h.handle, hcarries.small⟩, ?_⟩
  rw [hcarries.handedOn, ByteArray.size_append]

theorem Arrives.flush (h : c.Arrives) : (c.handedOn Channel.flush).1.size = c.pending.size := by
  obtain ⟨c', d', hflush, hcarries, hnone⟩ := (h.carries 0).flush
  have hsize := hcarries.handedOn
  rw [hnone, ByteArray.size_empty, Nat.add_zero] at hsize
  simp only [Channel.handedOn, hflush, hsize]

end Telemetry.Channel

open Telemetry

theorem Event.size_arrive (events : List Event) (arrived : ByteArray) {c : Channel}
    (h : c.Arrives) :
    let result := events.foldl Event.arrive (arrived, c)
    result.2.Arrives ∧
      result.1.size + result.2.pending.size = arrived.size + c.pending.size +
        (Event.text events).toUTF8.size + (recordBytes (Event.records events)).size := by
  induction events generalizing arrived c with
  | nil => exact ⟨h, rfl⟩
  | cons event rest ih =>
      cases event with
      | line text =>
          obtain ⟨hrest, hsize⟩ := ih (arrived ++ text.toUTF8) h
          refine ⟨hrest, hsize.trans ?_⟩
          have htext : (Event.text (.line text :: rest)).toUTF8 =
              text.toUTF8 ++ (Event.text rest).toUTF8 := by
            rw [← List.singleton_append, Event.text_append]
            simp [Event.text, Event.line?]
          have hrecords : Event.records (.line text :: rest) = Event.records rest := rfl
          rw [htext, hrecords, ByteArray.size_append, ByteArray.size_append]
          omega
      | record members =>
          obtain ⟨harrives, hline⟩ := h.writeLine (recordText (stamp members))
          obtain ⟨hrest, hsize⟩ :=
            ih (arrived ++ (c.handedOn fun c => c.writeLine (recordText (stamp members))).1)
              harrives
          refine ⟨hrest, hsize.trans ?_⟩
          have htext : Event.text (.record members :: rest) = Event.text rest := rfl
          have hrecords : Event.records (.record members :: rest) = members :: Event.records rest :=
            rfl
          have hbytes : (recordText (stamp members) ++ "\n").toUTF8.size =
              (recordLine members).toUTF8.size := rfl
          rw [htext, hrecords, recordBytes_cons, ByteArray.size_append, ByteArray.size_append]
          omega

/-- **Nothing gets lost** where lines and records go to one place. -/
theorem size_joined (events : List Event) :
    (joined events).size =
      (Event.text events).toUTF8.size + (recordBytes (Event.records events)).size := by
  obtain ⟨harrives, hsize⟩ :=
    Event.size_arrive events ByteArray.empty Channel.arrives_toPlaceOfArrival
  rw [joined, ByteArray.size_append, harrives.flush, hsize]
  simp [Channel.toPlaceOfArrival]

theorem transcript_of_played {plan : Plan} {rules : Rules} {base : UInt64}
    {played : List (List Turn)} (hplan : plan.Valid) (hrules : rules.Valid)
    (hplayed : plan.played rules base = .ok played) :
    ∃ events, transcript plan rules base = .ok events ∧
      Event.text events = String.join (played.flatMap trajectoryLines) ∧
      Event.records events = (played.mapIdx (trajectoryRecords base)).flatten := by
  obtain ⟨environment, player, hopen⟩ := openStage_of_valid hplan hrules base
  have hstage := hopen plan hplan rfl rfl {} {}
  obtain rfl := Except.ok.inj (hplayed.symm.trans (played_eq hstage))
  have hbound : 0 + plan.episodes.toNat ≤ UInt32.size := by
    rw [Nat.zero_add]
    exact Nat.le_of_lt plan.episodes.toNat_lt
  obtain ⟨-, htext, hrecords⟩ := @Stage.playEpisodes_eq_trajectories base plan.iterations
    environment plan.episodes.toNat 0 hbound { environment := environment, player := player }
    rfl rfl rfl
  simp only [Nat.zero_add] at hrecords
  exact ⟨_, by rw [transcript, hstage]; rfl, htext, hrecords⟩

end HiddenTarget
