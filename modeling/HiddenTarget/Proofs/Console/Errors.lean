import HiddenTarget.Console.Program
import HiddenTarget.Proofs.Play.Limited
import HiddenTarget.Proofs.Telemetry.Place

/-!
# Whole lines

What the command writes to the error stream comes in whole lines: the line about what is going to
be played, the warnings of the logbook and, if they go there, its records. So what is written next
is on a line of its own, `WholeLines.exists_eq`.
-/

namespace HiddenTarget

open Telemetry (Logbook newline recordBytes recordLine)

/-- In UTF-8 only a newline ends in the byte of one. -/
theorem eq_newline_of_getLast? {front : List Char} {c : Char}
    (h : (String.ofList (front ++ [c])).toUTF8.data.toList.getLast? = some newline) : c = '\n' := by
  rw [String.toUTF8_eq_toByteArray, ← String.utf8Encode_toList, List.utf8Encode,
    List.data_toByteArray, String.toList_ofList, List.flatMap_append, List.flatMap_singleton,
    List.getLast?_append] at h
  have hmem : newline ∈ String.utf8EncodeChar c := by
    cases hlast : (String.utf8EncodeChar c).getLast? with
    | none => exact absurd (List.getLast?_eq_none_iff.mp hlast) String.utf8EncodeChar_ne_nil
    | some byte =>
        rw [hlast, Option.some_or] at h
        cases h
        exact List.mem_of_getLast? hlast
  have hlow : c.toNat < 0x20 := by
    by_contra hle
    exact absurd (space_le_of_mem_utf8EncodeChar (Nat.not_lt.mp hle) hmem) (by decide)
  have hval : c.val.toNat = c.toNat := rfl
  have hsingle : c.toNat ≤ 0x7f := by omega
  simp only [String.utf8EncodeChar, hval, hsingle, if_true, List.mem_singleton] at hmem
  have hbyte := congrArg UInt8.toNat hmem
  rw [UInt8.toNat_ofNat', Nat.mod_eq_of_lt (by omega)] at hbyte
  exact Char.toNat_inj.mp hbyte.symm

theorem getLast?_recordBytes {records : List Json.Members} (hne : records ≠ []) (kept : ByteArray) :
    (kept ++ recordBytes records).data.toList.getLast? = some newline := by
  obtain ⟨front, members, rfl⟩ := (List.eq_nil_or_concat records).resolve_left hne
  rw [List.concat_eq_append, Telemetry.recordBytes_append_singleton, recordLine,
    String.toUTF8_eq_toByteArray, String.toByteArray_append, ByteArray.toList_data_append,
    ByteArray.toList_data_append, ByteArray.toList_data_append, ← List.append_assoc,
    ← List.append_assoc, List.getLast?_append]
  rfl

namespace Console

/-- A text in which every line is ended. -/
def WholeLines (text : String) : Prop := ∀ c ∈ text.toList.getLast?, c = '\n'

theorem wholeLines_empty : WholeLines "" := nofun

theorem wholeLines_of_getLast? {text : String} (h : text.toList.getLast? = some '\n') :
    WholeLines text :=
  fun _ hc => (Option.some.inj (h.symm.trans hc)).symm

theorem WholeLines.append {text text' : String} (h : WholeLines text) (h' : WholeLines text') :
    WholeLines (text ++ text') := by
  intro c hc
  rw [String.toList_append, List.getLast?_append, Option.mem_def, Option.or_eq_some_iff] at hc
  rcases hc with hc | ⟨-, hc⟩
  · exact h' c hc
  · exact h c hc

theorem wholeLines_join {texts : List String} (h : ∀ text ∈ texts, WholeLines text) :
    WholeLines (String.join texts) := by
  induction texts with
  | nil => exact wholeLines_empty
  | cons text rest ih =>
      rw [String.join_cons]
      exact (h text List.mem_cons_self).append (ih fun t ht => h t (List.mem_cons_of_mem _ ht))

theorem getLast?_append_line (text : String) {line : String}
    (h : line.toList.getLast? = some '\n') : (text ++ line).toList.getLast? = some '\n' := by
  rw [String.toList_append, List.getLast?_append, h, Option.some_or]

/-- What is written behind whole lines that begin with one is on a line of its own. -/
theorem WholeLines.exists_eq {line text : String} (h : WholeLines text)
    (hline : line.toList.getLast? = some '\n') : ∃ before, line ++ text = before ++ "\n" := by
  have hlast : (line ++ text).toList.getLast? = some '\n' := by
    rw [String.toList_append, List.getLast?_append]
    cases htext : text.toList.getLast? with
    | none => rw [Option.none_or, hline]
    | some c => rw [Option.some_or, h c htext]
  obtain ⟨front, hfront⟩ := List.getLast?_eq_some_iff.mp hlast
  refine ⟨String.ofList front, ?_⟩
  rw [← String.ofList_toList (s := line ++ text), hfront, String.ofList_append]

/-! ## What is written to the error stream -/

theorem Start.getLast?_preamble (s : Start) : s.preamble.toList.getLast? = some '\n' :=
  getLast?_append_line _ (getLast?_append_line _ rfl)

theorem wholeLines_warningText (b : Logbook) : WholeLines b.warningText := by
  refine wholeLines_join fun text htext => ?_
  obtain ⟨warning, -, rfl⟩ := List.mem_map.mp htext
  exact wholeLines_of_getLast? (getLast?_append_line _ rfl)

theorem wholeLines_fromUTF8? {bytes : ByteArray} (h : bytes.data.toList.getLast? = some newline) :
    WholeLines ((String.fromUTF8? bytes).getD "") := by
  rw [String.fromUTF8?]
  split
  · next hvalid =>
      intro c hc
      obtain ⟨front, hfront⟩ := List.getLast?_eq_some_iff.mp hc
      refine @eq_newline_of_getLast? front c ?_
      rw [← hfront, String.ofList_toList]
      exact h
  · exact wholeLines_empty

theorem wholeLines_records {setup : Telemetry.Setup} {disk : Disk} {records : List Json.Members}
    {places : List Location} (hne : records ≠ [])
    (htakes : ∀ l ∈ places, ∀ n, disk.Takes l n) :
    let b := (records.foldl Logbook.record { sink := .ofSetup setup, disk := disk }).flush
    WholeLines (match b.place?.filter places.contains with
      | none => ""
      | some l => (String.fromUTF8? (b.close.disk.content l)).getD "") := by
  intro b
  cases hplace : b.place?.filter places.contains with
  | none => exact wholeLines_empty
  | some l =>
      obtain ⟨hl, hmem⟩ := Option.filter_eq_some_iff.mp hplace
      obtain ⟨hopens, -⟩ := Logbook.opensAt_of_place? hl
      have htaken := htakes l (List.contains_iff_mem.mp hmem) (recordBytes (records ++ [])).size
      have hcontent := (Logbook.Healthy.content_close (.inl ⟨hopens, rfl, htaken⟩) hne).2
      rw [List.append_nil] at hcontent
      dsimp only
      rw [hcontent]
      exact wholeLines_fromUTF8? (getLast?_recordBytes hne _)

end Console

end HiddenTarget
