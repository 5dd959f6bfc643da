import Mathlib.Data.List.Forall2
import HiddenTarget.Proofs.Json.Printable
import HiddenTarget.Proofs.Json.ReadBack
import HiddenTarget.Proofs.Telemetry.Delivery

/-!
# One record a line

No byte of a record's text is below the space, as none of its characters is, so the only
newlines of a file are those that end its lines: `splitOn_recordBytes`. Each line is read back
as the record with the version of the schema, up to its doubles, `Line.of_wellFormed`, and with
them if each is what its own text reads as. The records that the program makes itself bring no
version along, so that they are read back with the current one, whatever their numbers are.
-/

namespace HiddenTarget

/-! ## Bytes -/

theorem space_le_of_mem_utf8EncodeChar {c : Char} (hc : 0x20 ≤ c.toNat) {byte : UInt8}
    (h : byte ∈ String.utf8EncodeChar c) : 0x20 ≤ byte := by
  have hval : c.val.toNat = c.toNat := rfl
  rw [UInt8.le_iff_toNat_le]
  simp only [String.utf8EncodeChar, hval] at h
  split_ifs at h
  all_goals
    simp only [List.mem_cons, List.not_mem_nil, or_false] at h
    rcases h with rfl | rfl | rfl | rfl
    all_goals
      rw [UInt8.toNat_ofNat']
      simp only [UInt8.reduceToNat]
      omega

theorem space_le_of_mem_toUTF8 {text : String} (htext : ∀ c ∈ text.toList, 0x20 ≤ c.toNat)
    {byte : UInt8} (h : byte ∈ text.toUTF8.data.toList) : 0x20 ≤ byte := by
  rw [String.toUTF8_eq_toByteArray, ← String.utf8Encode_toList, List.utf8Encode,
    List.data_toByteArray] at h
  obtain ⟨c, hc, hbyte⟩ := List.mem_flatMap.mp h
  exact space_le_of_mem_utf8EncodeChar (htext c hc) hbyte

namespace Telemetry

open Json (Members)

/-! ## Lines of a file -/

def newline : UInt8 := 10

def lineBytes (line : String) : List UInt8 := line.toUTF8.data.toList

theorem space_le_of_mem_lineBytes {members : Members} {byte : UInt8}
    (h : byte ∈ lineBytes (recordText members)) : 0x20 ≤ byte := by
  refine space_le_of_mem_toUTF8 (fun c hc => ?_) h
  rw [recordText, Json.print, String.toList_ofList] at hc
  exact Json.space_le_of_mem_chars hc

/-- **A file of records is split at its newlines into the records' texts.** -/
theorem splitOn_recordBytes (records : List Members) :
    (recordBytes records).data.toList.splitOn newline =
      (records.map fun members => lineBytes (recordText (stamp members))) ++ [[]] := by
  induction records with
  | nil => exact List.splitOn_nil newline
  | cons members records ih =>
      have hnone : newline ∉ lineBytes (recordText (stamp members)) := fun hmem =>
        absurd (space_le_of_mem_lineBytes hmem) (by decide)
      have hline : (recordLine members).toUTF8.data.toList =
          lineBytes (recordText (stamp members)) ++ [newline] := by
        rw [recordLine, String.toUTF8_eq_toByteArray, String.toByteArray_append,
          ByteArray.toList_data_append]
        rfl
      rw [recordBytes_cons, ByteArray.toList_data_append, hline, List.append_assoc,
        List.singleton_append, List.splitOn_append_cons_self_of_not_mem hnone, ih]
      rfl

/-! ## Lines that are read back -/

/-- The line is read as the record with the version of the schema: its own one, or the current
one if it brings none along. Every value is in it as `f` has it, and nothing else. -/
def Line (f : Json → Json) (line : String) (members : Members) : Prop :=
  ∃ read : Members, Json.read line = .ok (.object read) ∧
    (Json.object read).narrow = .object read ∧ read.Sorted ∧
    ∀ key, read.get? key =
      Option.map f
        (if key = schemaKey then some ((members.get? schemaKey).getD (.integer 1))
          else members.get? key)

theorem wellFormed_stamp {members : Members} (h : (Json.object members).WellFormed) :
    (Json.object (stamp members)).WellFormed := by
  rw [stamp, Members.insertNew]
  split
  · exact h
  · exact h.insert (.integer (by decide)) schemaKey

theorem Line.of_wellFormed {members : Members} (h : (Json.object members).WellFormed) :
    Line Json.reread (recordText (stamp members)) members := by
  have hstamp := wellFormed_stamp h
  have hsorted : (stamp members).Sorted := by
    cases hstamp with
    | object hsorted _ => exact hsorted
  refine ⟨Json.rereadMembers (stamp members), hstamp.read_print, hstamp.narrow_reread,
    hsorted.rereadMembers, fun key => ?_⟩
  rw [Json.get?_rereadMembers, stamp, Members.get?_insertNew]
  rfl

theorem Line.of_legible {line : String} {members : Members} (h : Line Json.reread line members)
    (hlegible : (Json.object members).Legible) : Line id line members := by
  have hmembers : Json.rereadMembers members = members := Json.object.inj hlegible
  have hget : ∀ key, (members.get? key).map Json.reread = members.get? key := fun key => by
    rw [← Json.get?_rereadMembers, hmembers]
  obtain ⟨read, hread, hnarrow, hsorted, hkeys⟩ := h
  refine ⟨read, hread, hnarrow, hsorted, fun key => ?_⟩
  rw [hkeys key, Option.map_id_apply]
  split
  · have hversion := hget schemaKey
    cases hown : members.get? schemaKey with
    | none => rfl
    | some v =>
        rw [hown] at hversion
        exact hversion
  · exact hget key

theorem Line.get?_schemaKey {line : String} {members : Members}
    (h : Line Json.reread line members) (hnone : members.get? schemaKey = none) :
    ∃ read : Members, Json.read line = .ok (.object read) ∧
      read.get? schemaKey = some (.integer 1) := by
  obtain ⟨read, hread, -, -, hget⟩ := h
  refine ⟨read, hread, ?_⟩
  rw [hget, if_pos rfl, hnone, Option.getD_none]
  rfl

/-! ## The records of steps and episodes -/

theorem wellFormed_of_lt {n : Nat} (h : n < UInt64.size) : (Json.integer n).WellFormed := by
  rw [UInt64.size] at h
  refine .integer (.inr ⟨?_, ?_⟩)
  all_goals simp only [Decimal.IntegerRange.uint64, Option.getD_none]; omega

theorem wellFormed_uint32 (n : UInt32) : (Json.integer n.toNat).WellFormed :=
  wellFormed_of_lt (Nat.lt_trans n.toNat_lt (by decide))

theorem wellFormed_uint64 (n : UInt64) : (Json.integer n.toNat).WellFormed :=
  wellFormed_of_lt n.toNat_lt_size

theorem wellFormed_int32 (n : Int32) : (Json.integer n.toInt).WellFormed := by
  have hlow := n.le_toInt
  have hhigh := n.toInt_lt
  refine .integer (.inl ⟨?_, ?_⟩)
  all_goals simp only [Decimal.IntegerRange.int64, Option.getD_some]; omega

theorem wellFormed_stepRecord (number : UInt32) (action : Action) (o : Outcome) :
    (Json.object (stepRecord number action o)).WellFormed := by
  refine Json.WellFormed.ofList ?_
  simp only [List.forall_mem_cons, List.not_mem_nil, false_implies, implies_true, and_true]
  exact ⟨.string _, wellFormed_uint32 _, wellFormed_uint32 _, wellFormed_uint64 _,
    wellFormed_int32 _, wellFormed_uint32 _, .ofFloat _, .bool _, .bool _,
    .ofOption (fun e => .string _) _⟩

theorem wellFormed_episodeRecord (s : Summary) : (Json.object (episodeRecord s)).WellFormed := by
  have hmembers : (Json.object (Members.ofList s.members)).WellFormed := by
    refine Json.WellFormed.ofList ?_
    simp only [Summary.members, List.forall_mem_cons, List.not_mem_nil, false_implies,
      implies_true, and_true]
    exact ⟨wellFormed_uint32 _, wellFormed_uint64 _, wellFormed_uint32 _, .ofFloat _, .bool _,
      .ofOption (fun e => .string _) _⟩
  exact hmembers.insert (.string "episode") "kind"

theorem get?_stepRecord_schemaKey (number : UInt32) (action : Action) (o : Outcome) :
    (stepRecord number action o).get? schemaKey = none := by
  refine Members.get?_ofList_eq_none ?_
  simp only [List.forall_mem_cons]
  decide

theorem get?_episodeRecord_schemaKey (s : Summary) :
    (episodeRecord s).get? schemaKey = none := by
  rw [episodeRecord, Members.get?_insert_of_ne (by decide)]
  refine Members.get?_ofList_eq_none ?_
  simp only [Summary.members, List.forall_mem_cons]
  decide

/-! ## Calls on a file that takes everything -/

/-- What the call records, if anything, is an object. -/
def Call.OfObject : Call → Prop
  | .value v => ∃ members, v = .object members
  | .step _ _ _ => True
  | .episode _ => True
  | .flush => True

theorem Call.OfObject.eq_flush {c : Call} (h : c.OfObject) (hc : c.members? = none) :
    c = .flush := by
  cases c with
  | value v =>
      obtain ⟨members, rfl⟩ := h
      cases hc
  | step number action outcome => cases hc
  | episode summary => cases hc
  | flush => rfl

namespace Logbook

variable {b : Logbook} {l : Location} {bytes : ByteArray} {n : Nat}

theorem Keeps.flush_keeps (h : b.Keeps l bytes n) : b.flush.Keeps l bytes n := by
  obtain ⟨c, hc, hcarries⟩ := h.carries
  obtain ⟨c', d', hflush, hcarries', -⟩ := hcarries.flush
  refine ⟨h.flush.2, c', ?_, ?_⟩
  all_goals
    rw [Logbook.flush, hc]
    simp only [hflush]
  exact hcarries'

theorem Keeps.callAll? {calls : List Call} (hcalls : ∀ c ∈ calls, c.OfObject)
    (h : b.Keeps l bytes ((recordBytes (calls.filterMap Call.members?)).size + n)) :
    ∃ b', b.callAll? calls = some b' ∧
      b'.Keeps l (bytes ++ recordBytes (calls.filterMap Call.members?)) n := by
  induction calls generalizing b bytes with
  | nil =>
      refine ⟨b, rfl, ?_⟩
      simpa [recordBytes] using h
  | cons c calls ih =>
      have hrest : ∀ c' ∈ calls, c'.OfObject := fun c' hc' => hcalls c' (List.mem_cons_of_mem c hc')
      cases hc : c.members? with
      | none =>
          obtain rfl := (hcalls c List.mem_cons_self).eq_flush hc
          rw [List.filterMap_cons_none hc] at h ⊢
          exact ih hrest h.flush_keeps
      | some members =>
          rw [List.filterMap_cons_some hc, recordBytes_cons] at h ⊢
          rw [ByteArray.size_append, Nat.add_assoc] at h
          rw [callAll?_cons, call?_of_members? hc, Option.bind_some, ← ByteArray.append_assoc]
          exact ih hrest h.record

/-- A file that can be opened gets the records of the calls, and is not opened without any. -/
theorem OpensAt.callAll? (h : b.OpensAt l) {calls : List Call}
    (hcalls : ∀ c ∈ calls, c.OfObject)
    (htakes : b.disk.Takes l (recordBytes (calls.filterMap Call.members?)).size) :
    ∃ b', b.callAll? calls = some b' ∧
      ((calls.filterMap Call.members? = [] ∧ b' = b) ∨
        b'.Keeps l (b.kept l ++ recordBytes (calls.filterMap Call.members?)) 0) := by
  induction calls with
  | nil => exact ⟨b, rfl, .inl ⟨rfl, rfl⟩⟩
  | cons c calls ih =>
      have hrest : ∀ c' ∈ calls, c'.OfObject := fun c' hc' => hcalls c' (List.mem_cons_of_mem c hc')
      cases hc : c.members? with
      | none =>
          obtain rfl := (hcalls c List.mem_cons_self).eq_flush hc
          have hflush : b.flush = b := by rw [Logbook.flush, h.closed]
          rw [List.filterMap_cons_none hc] at htakes ⊢
          rw [callAll?_cons, call?, hflush]
          exact ih hrest htakes
      | some members =>
          obtain ⟨b₁, hkeeps, hrecord⟩ := h.record_eq htakes
          have hopen := Keeps.callAll? (n := 0) hcalls hkeeps
          rw [callAll?_cons, call?_of_members? hc, ← hrecord] at hopen
          obtain ⟨b', hcall, hkeeps'⟩ := hopen
          rw [callAll?_cons, call?_of_members? hc]
          exact ⟨b', hcall, .inr hkeeps'⟩

/-- **Records are read back line by line.** When objects have been recorded, in any number, to
a file that was empty and takes them all, the file is at its end made of one line for each, and
none of them has a byte below the space. Each is read as its record with the version of the
schema, every double as the one that its text reads as, so that the record comes back as it was
if each double is what its own text reads as. The records of steps and episodes are read with the
current version, whatever numbers are in them. -/
theorem lines_read_back :
    (∀ (b : Logbook) (l : Location) (calls : List Call), b.OpensAt l →
      b.disk.content l = ByteArray.empty →
      b.disk.Takes l (recordBytes (calls.filterMap Call.members?)).size →
      (∀ c ∈ calls, c.OfObject) →
      ∃ (b' : Logbook) (lines : List String), b.callAll? calls = some b' ∧
        (b'.close.disk.content l).data.toList.splitOn newline = lines.map lineBytes ++ [[]] ∧
        (∀ line ∈ lines, ∀ byte ∈ lineBytes line, 0x20 ≤ byte) ∧
        List.Forall₂ (fun line members => (Json.object members).WellFormed →
          Line Json.reread line members ∧
            ((Json.object members).Legible → Line id line members))
          lines (calls.filterMap Call.members?)) ∧
    (∀ number action outcome, ∃ read : Members,
      Json.read (recordText (stamp (stepRecord number action outcome))) = .ok (.object read) ∧
        read.get? schemaKey = some (.integer 1)) ∧
    ∀ summary : Summary, ∃ read : Members,
      Json.read (recordText (stamp (episodeRecord summary))) = .ok (.object read) ∧
        read.get? schemaKey = some (.integer 1) := by
  refine ⟨?_, ?_, ?_⟩
  · intro b l calls hopens hempty htakes hcalls
    obtain ⟨b', hcall, hend⟩ := hopens.callAll? hcalls htakes
    have hkept : b.kept l = ByteArray.empty := by
      rw [kept, hempty, ite_self]
    have hcontent : b'.close.disk.content l = recordBytes (calls.filterMap Call.members?) := by
      rcases hend with ⟨hnone, rfl⟩ | hkeeps
      · rw [close, replace, Logbook.flush, hopens.closed, hnone]
        exact hempty
      · rw [hkept, ByteArray.empty_append] at hkeeps
        exact hkeeps.flush.1
    refine ⟨b', (calls.filterMap Call.members?).map fun members => recordText (stamp members),
      hcall, ?_, ?_, ?_⟩
    · rw [hcontent, splitOn_recordBytes, List.map_map]
      rfl
    · intro line hline byte hbyte
      obtain ⟨members, -, rfl⟩ := List.mem_map.mp hline
      exact space_le_of_mem_lineBytes hbyte
    · rw [List.forall₂_map_left_iff, List.forall₂_same]
      intro members _ hmembers
      exact ⟨.of_wellFormed hmembers, (Line.of_wellFormed hmembers).of_legible⟩
  · intro number action outcome
    exact (Line.of_wellFormed (wellFormed_stepRecord number action outcome)).get?_schemaKey
      (get?_stepRecord_schemaKey number action outcome)
  · intro summary
    exact (Line.of_wellFormed (wellFormed_episodeRecord summary)).get?_schemaKey
      (get?_episodeRecord_schemaKey summary)

/-! ## A file that is made -/

/-- A sink that makes its file, on a disk that has none yet. -/
def making : Logbook := { sink := .ofSetup (.jsonl "game.jsonl") }

theorem opensAt_making : making.OpensAt ["game.jsonl"] := by
  have hfind : making.disk.find ⟨"game.jsonl"⟩ = .ok (.named [] "game.jsonl") := by
    have hnames : (Path.mk "game.jsonl").names = ["game.jsonl"] := rfl
    rw [Disk.find, hnames, if_neg (by simp)]
    rfl
  refine ⟨rfl, rfl, "game.jsonl", ⟨["game.jsonl"], some 0⟩,
    { nodes := [(["game.jsonl"], .file ByteArray.empty none)] }, rfl, ?_, rfl⟩
  change making.disk.openFile ⟨"game.jsonl"⟩ false = _
  rw [Disk.openFile, hfind]
  rfl

theorem takes_making (n : Nat) : making.disk.Takes ["game.jsonl"] n := by
  intro content room hfile
  cases hfile

/-- Control characters in a string, a version that a record brings along, a step, and an episode
with a total that is read as its neighbour. -/
theorem lines_read_back_special :
    let note : Members := [("note", .string "a\n\r\t\x01\"\\z")]
    let versioned : Members :=
      [("a", .array [.null, .integer (-5)]), ("schema_version", .integer 7)]
    let outcome : Outcome := ⟨1, 1.0, true, ⟨1, some .targetHit, true, 77⟩⟩
    let summary : Summary := ⟨1, 77, 91, 0.10000000000000009, true, some .targetHit⟩
    let calls : List Call :=
      [.value (.object note), .flush, .value (.object versioned), .step 1 4 outcome,
        .episode summary]
    (∃ (b' : Logbook) (l₁ l₂ l₃ l₄ : String), making.callAll? calls = some b' ∧
        (b'.close.disk.content ["game.jsonl"]).data.toList.splitOn newline =
          [lineBytes l₁, lineBytes l₂, lineBytes l₃, lineBytes l₄, []] ∧
        (∀ line ∈ [l₁, l₂, l₃, l₄], ∀ byte ∈ lineBytes line, 0x20 ≤ byte) ∧
        Line id l₁ note ∧ Line id l₂ versioned ∧ Line Json.reread l₄ (episodeRecord summary)) ∧
      Json.rereadDouble summary.total ≠ summary.total ∧
      ∃ read : Members, Json.read (recordText (stamp (episodeRecord summary))) =
          .ok (.object read) ∧ read.get? schemaKey = some (.integer 1) := by
  intro note versioned outcome summary calls
  have hcalls : ∀ c ∈ calls, c.OfObject := by
    simp only [calls, List.forall_mem_cons, List.not_mem_nil, false_implies, implies_true,
      and_true]
    exact ⟨⟨note, rfl⟩, trivial, ⟨versioned, rfl⟩, trivial, trivial⟩
  have hnote : (Json.object note).WellFormed :=
    .object (List.pairwise_singleton _ _) (List.forall_mem_singleton.mpr (.string _))
  have hversioned : (Json.object versioned).WellFormed := by
    refine .object (List.pairwise_pair.mpr (by decide)) ?_
    simp only [versioned, List.forall_mem_cons, List.not_mem_nil, false_implies, implies_true,
      and_true]
    refine ⟨.array ?_, .integer (by decide)⟩
    simp only [List.forall_mem_cons, List.not_mem_nil, false_implies, implies_true, and_true]
    exact ⟨.null, .integer (by decide)⟩
  obtain ⟨b', lines, hcall, hsplit, hbytes, hlines⟩ :=
    lines_read_back.1 making _ calls opensAt_making rfl (takes_making _) hcalls
  have hrecords : calls.filterMap Call.members? =
      [note, versioned, stepRecord 1 4 outcome, episodeRecord summary] := rfl
  rw [hrecords] at hlines
  obtain ⟨l₁, _, h₁, hrest₁, rfl⟩ := List.forall₂_cons_right_iff.mp hlines
  obtain ⟨l₂, _, h₂, hrest₂, rfl⟩ := List.forall₂_cons_right_iff.mp hrest₁
  obtain ⟨l₃, _, -, hrest₃, rfl⟩ := List.forall₂_cons_right_iff.mp hrest₂
  obtain ⟨l₄, _, h₄, hrest₄, rfl⟩ := List.forall₂_cons_right_iff.mp hrest₃
  obtain rfl := List.forall₂_nil_right_iff.mp hrest₄
  exact ⟨⟨b', l₁, l₂, l₃, l₄, hcall, hsplit, hbytes, (h₁ hnote).2 rfl, (h₂ hversioned).2 rfl,
      (h₄ (wellFormed_episodeRecord summary)).1⟩,
    by decide +kernel, lines_read_back.2.2 summary⟩

end Logbook

end Telemetry

end HiddenTarget
