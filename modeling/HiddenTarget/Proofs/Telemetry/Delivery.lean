import HiddenTarget.Proofs.Disk.Append
import HiddenTarget.Proofs.Telemetry.Faults

/-!
# Records arrive in their file

What a file holds and what waits for it in the buffer of a channel are together the bytes
that have been written, in order: `Channel.Holds`. A flush keeps this whether or not the
file takes everything, and every other operation of a channel `Appends` its piece to these
bytes, if it succeeds. It does succeed if the file has room for the piece, and
`Channel.Carries` follows this room; `Logbook.Keeps.record` and `Logbook.Keeps.records`
carry it over to records. A sink that has not opened its file yet starts with the file as it
is opened, and a flush leaves nothing waiting: `Logbook.OpensAt.flush_records`.
-/

namespace HiddenTarget.Telemetry

open Disk (Fits)

namespace Channel

/-- The channel leads to the file at `l`, which has `room` for more. What the file holds and
what waits for it are together `bytes`. -/
structure Holds (c : Channel) (d : Disk) (l : Location) (bytes : ByteArray)
    (room : Option Nat) : Prop where
  location : c.handle.location = l
  small : c.pending.size ≤ capacity
  file : ∃ content, d.FileAt c.handle content room ∧ content ++ c.pending = bytes

/-- How an operation may end that writes a piece: if it succeeds, the piece is behind the
bytes and has taken its part of the room, and it succeeds if there is room for it. -/
structure Appends (c : Channel) (l : Location) (bytes piece : ByteArray) (room : Option Nat)
    (result : Bool × Channel × Disk) : Prop where
  holds : result.1 = true → ∃ room', result.2.1.Holds result.2.2 l (bytes ++ piece) room' ∧
    ∀ n, Fits room (c.pending.size + piece.size + n) →
      Fits room' (result.2.1.pending.size + n)
  succeeds : Fits room (c.pending.size + piece.size) → result.1 = true

section Holds

variable {c : Channel} {d : Disk} {l : Location} {bytes : ByteArray} {room : Option Nat}

theorem Holds.content_eq (h : c.Holds d l bytes room) (hnone : c.pending = ByteArray.empty) :
    d.content l = bytes := by
  obtain ⟨content, hfile, hbytes⟩ := h.file
  rw [hnone, ByteArray.append_empty] at hbytes
  rw [← h.location, hfile.content_eq, hbytes]

theorem Holds.flush (h : c.Holds d l bytes room) :
    ∃ c' d' room', c.flush d = (c'.pending.isEmpty, c', d') ∧ c'.Holds d' l bytes room' ∧
      ∀ n, Fits room (c.pending.size + n) →
        c'.pending = ByteArray.empty ∧ Fits room' n := by
  by_cases hempty : c.pending.isEmpty = true
  · have hnone : c.pending = ByteArray.empty :=
      ByteArray.size_eq_zero_iff.mp (eq_of_beq hempty)
    refine ⟨c, d, room, by rw [Channel.flush, if_pos hempty, hempty], h, ?_⟩
    intro n hfits
    rw [hnone, ByteArray.size_empty, Nat.zero_add] at hfits
    exact ⟨hnone, hfits⟩
  · obtain ⟨content, hfile, rfl⟩ := h.file
    obtain ⟨handle, d', hwrite, hlocation, hfile', -⟩ := hfile.write c.pending
    have hle := Disk.taken_le room c.pending.size
    refine ⟨⟨handle, _⟩, d', _, by rw [Channel.flush, if_neg hempty, hwrite],
      ⟨hlocation.trans h.location, ?_, _, hfile', ?_⟩, ?_⟩
    · have hsmall := h.small
      simp only [ByteArray.size_extract]
      omega
    · rw [ByteArray.append_assoc, ByteArray.extract_append_extract, Nat.zero_min,
        Nat.max_eq_right hle, ByteArray.extract_zero_size]
    · intro n hfits
      rw [Disk.taken_of_fits (hfits.mono (Nat.le_add_right _ n))]
      exact ⟨ByteArray.extract_eq_empty_iff.mpr (Nat.min_le_left _ _), hfits.sub⟩

/-- A piece is put behind the bytes, past the buffer only if nothing waits in it. -/
theorem Holds.add (h : c.Holds d l bytes room) {piece : ByteArray}
    (hroom : c.pending.size + piece.size ≤ capacity ∨ c.pending = ByteArray.empty) :
    c.Appends l bytes piece room (c.add piece d) := by
  obtain ⟨content, hfile, rfl⟩ := h.file
  rw [Channel.add]
  by_cases hsmall : piece.size < capacity
  · rw [if_pos hsmall]
    refine ⟨fun _ => ⟨room, ⟨h.location, ?_, content, hfile, ByteArray.append_assoc.symm⟩, ?_⟩,
      fun _ => rfl⟩
    · rw [ByteArray.size_append]
      rcases hroom with hroom | hnone
      · exact hroom
      · rw [hnone]
        simpa using Nat.le_of_lt hsmall
    · intro n hfits
      rw [ByteArray.size_append]
      exact hfits
  · -- The buffer is as large as the piece at most, so nothing waits in it.
    have hnone : c.pending = ByteArray.empty := by
      rcases hroom with hroom | hnone
      · exact ByteArray.size_eq_zero_iff.mp (by omega)
      · exact hnone
    have hzero : c.pending.size = 0 := by rw [hnone, ByteArray.size_empty]
    rw [if_neg hsmall]
    by_cases hfits : Fits room piece.size
    · obtain ⟨handle, d', hwrite, hlocation, hfile'⟩ := hfile.write_of_fits hfits
      simp only [hwrite]
      refine ⟨fun _ => ⟨_, ⟨hlocation.trans h.location, h.small, _, hfile', ?_⟩, ?_⟩,
        fun _ => rfl⟩
      · rw [hnone, ByteArray.append_empty, ByteArray.append_empty]
      · intro n hfits'
        rw [hzero, Nat.zero_add] at hfits' ⊢
        exact hfits'.sub
    · obtain ⟨handle, d', hwrite, -⟩ := hfile.write piece
      have hrest : (piece.extract (Disk.taken room piece.size) piece.size).isEmpty = false := by
        rw [ByteArray.isEmpty, beq_eq_false_iff_ne, ne_eq, ByteArray.size_eq_zero_iff,
          ByteArray.extract_eq_empty_iff, Nat.min_self]
        exact fun hle => hfits (Disk.fits_of_le_taken hle)
      simp only [hwrite, hrest]
      refine ⟨fun h => (by cases h), fun hfits' => absurd ?_ hfits⟩
      rwa [hzero, Nat.zero_add] at hfits'

theorem Holds.write (h : c.Holds d l bytes room) (piece : ByteArray) :
    c.Appends l bytes piece room (c.write piece d) := by
  rw [Channel.write]
  by_cases hroom : c.pending.size + piece.size ≤ capacity
  · rw [if_pos hroom]
    exact h.add (.inl hroom)
  · obtain ⟨c', d', room', hflush, h', hfits'⟩ := h.flush
    rw [if_neg hroom, hflush]
    cases hempty : c'.pending.isEmpty with
    | false =>
        refine ⟨fun h => (by cases h), fun hfits => ?_⟩
        rw [(hfits' piece.size hfits).1] at hempty
        cases hempty
    | true =>
        have hnone : c'.pending = ByteArray.empty :=
          ByteArray.size_eq_zero_iff.mp (eq_of_beq hempty)
        have hzero : c'.pending.size = 0 := by rw [hnone, ByteArray.size_empty]
        have hadd : c'.Appends l bytes piece room' (c'.add piece d') := h'.add (.inr hnone)
        refine ⟨fun hok => ?_, fun hfits => hadd.succeeds ?_⟩
        · obtain ⟨room'', hholds, hrest⟩ := hadd.holds hok
          refine ⟨room'', hholds, fun n hfits => hrest n ?_⟩
          rw [hzero, Nat.zero_add]
          exact (hfits' _ (by rwa [Nat.add_assoc] at hfits)).2
        · rw [hzero, Nat.zero_add]
          exact (hfits' _ hfits).2

theorem Holds.writeLine (h : c.Holds d l bytes room) (text : String) :
    c.Appends l bytes (text ++ "\n").toUTF8 room (c.writeLine text d) := by
  have hline : (text ++ "\n").toUTF8 = text.toUTF8 ++ "\n".toUTF8 := by
    simp only [String.toUTF8_eq_toByteArray, String.toByteArray_append]
  have htext := h.write text.toUTF8
  rw [Channel.writeLine]
  rcases hresult : c.write text.toUTF8 d with ⟨ok, c', d'⟩
  rw [hresult] at htext
  cases ok with
  | false =>
      refine ⟨fun h => (by cases h), fun hfits => htext.succeeds ?_⟩
      rw [hline, ByteArray.size_append] at hfits
      exact hfits.mono (by omega)
  | true =>
      obtain ⟨room', h', hrest⟩ := htext.holds rfl
      have hnewline := h'.write "\n".toUTF8
      refine ⟨fun hok => ?_, fun hfits => hnewline.succeeds (hrest _ ?_)⟩
      · obtain ⟨room'', h'', hrest'⟩ := hnewline.holds hok
        refine ⟨room'', ?_, fun n hfits => hrest' n ?_⟩
        · rw [hline, ← ByteArray.append_assoc]
          exact h''
        · rw [hline, ByteArray.size_append] at hfits
          rw [Nat.add_assoc]
          exact hrest _ (by rwa [← Nat.add_assoc, Nat.add_assoc c.pending.size])
      · rwa [hline, ByteArray.size_append, ← Nat.add_assoc] at hfits

end Holds

/-- The channel leads to the file at `l`. What the file holds and what waits for it are
together `bytes`, and the file has room for what waits and for `n` bytes more. -/
structure Carries (c : Channel) (d : Disk) (l : Location) (bytes : ByteArray) (n : Nat) :
    Prop where
  location : c.handle.location = l
  small : c.pending.size ≤ capacity
  file : ∃ content room, d.FileAt c.handle content room ∧ content ++ c.pending = bytes ∧
    Fits room (c.pending.size + n)

variable {c : Channel} {d : Disk} {l : Location} {bytes : ByteArray} {n : Nat}

theorem carries_iff :
    c.Carries d l bytes n ↔
      ∃ room, c.Holds d l bytes room ∧ Fits room (c.pending.size + n) := by
  constructor
  · rintro ⟨hlocation, hsmall, content, room, hfile, hbytes, hfits⟩
    exact ⟨room, ⟨hlocation, hsmall, content, hfile, hbytes⟩, hfits⟩
  · rintro ⟨room, ⟨hlocation, hsmall, content, hfile, hbytes⟩, hfits⟩
    exact ⟨hlocation, hsmall, content, room, hfile, hbytes, hfits⟩

theorem Carries.flush (h : c.Carries d l bytes n) :
    ∃ c' d', c.flush d = (true, c', d') ∧ c'.Carries d' l bytes n ∧
      c'.pending = ByteArray.empty := by
  obtain ⟨room, hholds, hfits⟩ := carries_iff.mp h
  obtain ⟨c', d', room', hflush, hholds', hrest⟩ := hholds.flush
  obtain ⟨hnone, hfits'⟩ := hrest n hfits
  refine ⟨c', d', ?_, carries_iff.mpr ⟨room', hholds', ?_⟩, hnone⟩
  · rw [hflush, hnone]
    rfl
  · rwa [hnone, ByteArray.size_empty, Nat.zero_add]

theorem Carries.writeLine {text : String}
    (h : c.Carries d l bytes ((text ++ "\n").toUTF8.size + n)) :
    ∃ c' d', c.writeLine text d = (true, c', d') ∧
      c'.Carries d' l (bytes ++ (text ++ "\n").toUTF8) n := by
  obtain ⟨room, hholds, hfits⟩ := carries_iff.mp h
  have happends := hholds.writeLine text
  rw [← Nat.add_assoc] at hfits
  have hok := happends.succeeds (hfits.mono (Nat.le_add_right _ n))
  obtain ⟨room', hholds', hrest⟩ := happends.holds hok
  exact ⟨_, _, Prod.ext hok rfl, carries_iff.mpr ⟨room', hholds', hrest n hfits⟩⟩

end Channel

/-! ## Records -/

def recordLine (members : Json.Members) : String := recordText (stamp members) ++ "\n"

def recordBytes (records : List Json.Members) : ByteArray :=
  (String.join (records.map recordLine)).toUTF8

theorem recordBytes_cons (members : Json.Members) (rest : List Json.Members) :
    recordBytes (members :: rest) = (recordLine members).toUTF8 ++ recordBytes rest := by
  simp only [recordBytes, List.map_cons, String.join_cons, String.toUTF8_eq_toByteArray,
    String.toByteArray_append]

theorem recordBytes_append (before after : List Json.Members) :
    recordBytes (before ++ after) = recordBytes before ++ recordBytes after := by
  simp only [recordBytes, List.map_append, String.join_append, String.toUTF8_eq_toByteArray,
    String.toByteArray_append]

theorem recordBytes_append_singleton (records : List Json.Members) (members : Json.Members) :
    recordBytes (records ++ [members]) = recordBytes records ++ (recordLine members).toUTF8 := by
  rw [recordBytes_append, recordBytes_cons]
  exact congrArg (recordBytes records ++ ·) ByteArray.append_empty

namespace Logbook

/-- The logbook is on and has its file open at `l`: the bytes written are `bytes`, and the
file has room for `n` more. -/
structure Keeps (b : Logbook) (l : Location) (bytes : ByteArray) (n : Nat) : Prop where
  enabled : b.sink.isEnabled = true
  carries : ∃ c, b.sink.channel = some c ∧ c.Carries b.disk l bytes n

variable {b : Logbook} {l : Location} {bytes : ByteArray} {n : Nat}

theorem Keeps.record {members : Json.Members}
    (h : b.Keeps l bytes ((recordLine members).toUTF8.size + n)) :
    (b.record members).Keeps l (bytes ++ (recordLine members).toUTF8) n := by
  obtain ⟨c, hc, hcarries⟩ := h.carries
  obtain ⟨c', d', hline, hcarries'⟩ := hcarries.writeLine
  rw [Logbook.record, if_pos h.enabled, Logbook.writeLine, openChannel_of_open hc]
  simp only [hline]
  exact ⟨h.enabled, c', rfl, hcarries'⟩

theorem Keeps.records {records : List Json.Members}
    (h : b.Keeps l bytes ((recordBytes records).size + n)) :
    (records.foldl Logbook.record b).Keeps l (bytes ++ recordBytes records) n := by
  induction records generalizing b bytes with
  | nil => simpa [recordBytes] using h
  | cons members rest ih =>
      rw [recordBytes_cons, ByteArray.size_append, Nat.add_assoc] at h
      rw [List.foldl_cons, recordBytes_cons, ← ByteArray.append_assoc]
      exact ih h.record

theorem Keeps.flush (h : b.Keeps l bytes n) :
    b.flush.disk.content l = bytes ∧ b.flush.sink.isEnabled = true := by
  obtain ⟨c, hc, hcarries⟩ := h.carries
  obtain ⟨c', d', hflush, hcarries', hnone⟩ := hcarries.flush
  rw [Logbook.flush, hc]
  simp only [hflush]
  obtain ⟨room, hholds, -⟩ := Channel.carries_iff.mp hcarries'
  exact ⟨hholds.content_eq hnone, h.enabled⟩

/-! ## A sink that has not opened its file yet -/

/-- The logbook is on and has not opened its file yet, and the file it is set up with can
be opened at `l`, in the folders that are made for it. -/
structure OpensAt (b : Logbook) (l : Location) : Prop where
  enabled : b.sink.isEnabled = true
  closed : b.sink.channel = none
  opens : ∃ path handle d, b.sink.path = some path ∧
    (b.disk.makeParents ⟨path⟩).openFile ⟨path⟩ b.sink.append = .ok (handle, d) ∧
    handle.location = l

/-- What stays of the file at `l` when it is opened. -/
def kept (b : Logbook) (l : Location) : ByteArray :=
  if b.sink.append then b.disk.content l else ByteArray.empty

theorem OpensAt.openChannel_eq (h : b.OpensAt l) :
    ∃ c b' room, b.openChannel = (some c, b') ∧ b'.sink.isEnabled = true ∧
      b'.sink.channel = some c ∧ c.pending = ByteArray.empty ∧
      c.Holds b'.disk l (b.kept l) room ∧ ∀ n, b.disk.Takes l n → Fits room n := by
  obtain ⟨path, handle, d, hpath, hopen, rfl⟩ := h.opens
  obtain ⟨room, hfile, hfits⟩ := Disk.fileAt_of_openFile hopen
  let c : Channel := { handle := handle }
  let b' : Logbook := { b with disk := d, sink := { b.sink with channel := some c } }
  have hchannel := openChannel_of_openFile h.closed hpath hopen
  refine ⟨c, b', room, hchannel, h.enabled, rfl, rfl,
    ⟨rfl, Nat.zero_le _, b.kept handle.location, ?_, ByteArray.append_empty⟩, ?_⟩
  · rw [Disk.content_eq, Disk.file?_makeParents, ← Disk.content_eq] at hfile
    exact hfile
  · intro n htakes
    refine hfits n ?_
    intro content room hnode
    rw [Disk.file?_makeParents] at hnode
    exact htakes content room hnode

theorem OpensAt.record_eq (h : b.OpensAt l) (htakes : b.disk.Takes l n) :
    ∃ b' : Logbook, b'.Keeps l (b.kept l) n ∧
      ∀ members, b.record members = b'.record members := by
  obtain ⟨c, b', room, hopen, hon, hc, hnone, hholds, hfits⟩ := h.openChannel_eq
  refine ⟨b', ⟨hon, c, hc, Channel.carries_iff.mpr ⟨room, hholds, ?_⟩⟩,
    record_of_openChannel hopen h.enabled⟩
  rw [hnone, ByteArray.size_empty, Nat.zero_add]
  exact hfits n htakes

/-- **Records arrive.** When some records have been written and the sink is flushed, the
file holds what was kept of it and their lines behind that, and the sink is still on. -/
theorem OpensAt.flush_records (h : b.OpensAt l) {records : List Json.Members}
    (hne : records ≠ []) (htakes : b.disk.Takes l (recordBytes records).size) :
    let result := (records.foldl Logbook.record b).flush
    result.disk.content l = b.kept l ++ recordBytes records ∧
      result.sink.isEnabled = true := by
  intro result
  obtain ⟨b', hkeeps, hrecord⟩ := h.record_eq htakes
  have hfold : records.foldl Logbook.record b = records.foldl Logbook.record b' := by
    cases records with
    | nil => exact absurd rfl hne
    | cons members rest => rw [List.foldl_cons, List.foldl_cons, hrecord]
  have hresult : result = (records.foldl Logbook.record b').flush :=
    congrArg Logbook.flush hfold
  rw [hresult]
  exact (Keeps.records (n := 0) hkeeps).flush

end Logbook

end HiddenTarget.Telemetry
