import HiddenTarget.Proofs.Console.Presentation
import HiddenTarget.Proofs.Settings.Override
import HiddenTarget.Proofs.Telemetry.Appending
import HiddenTarget.Proofs.Telemetry.Sessions

/-!
# How the variables of telemetry may be spelt

A text `Respelt` has its ASCII letters in other cases and blanks around it. The mode is the same
for every spelling, `ofString_of_respelt`. The append variable says yes in every case too, but
not with blanks around it, `isYes_of_respelt`: a sink whose variable is spelt so empties its
file.
-/

namespace HiddenTarget

/-! ## Letter case and blanks -/

namespace Text

/-- The text written another way: its letters in other cases, and blanks around it. -/
def Respelt (t raw : List Char) : Prop :=
  ∃ u : List Char, u.map Char.toLower = t.map Char.toLower ∧ Padded u raw

@[simp] theorem isBlank_toLower (c : Char) : isBlank c.toLower = isBlank c := by
  by_cases h : c.val ≥ 'A'.val ∧ c.val ≤ 'Z'.val
  · have hlow : 65 ≤ c.toNat := UInt32.le_iff_toNat_le.mp h.1
    have hhigh : c.toNat ≤ 90 := UInt32.le_iff_toNat_le.mp h.2
    have hlower : c.toLower.toNat = c.toNat + 32 :=
      (congrArg Char.toNat (dif_pos h)).trans
        (Nat.mod_eq_of_lt (by omega : c.toNat + 32 < 2 ^ 32))
    rw [isBlank_eq_false (by omega) (by omega), isBlank_eq_false (by omega) (by omega)]
  · exact congrArg isBlank (dif_neg h)

theorem isBlank_comp_toLower : isBlank ∘ Char.toLower = isBlank := funext isBlank_toLower

theorem trim_map_toLower (s : List Char) :
    trim (s.map Char.toLower) = (trim s).map Char.toLower := by
  rw [trim, trim, trimEnd, trimEnd, List.dropWhile_map, isBlank_comp_toLower, ← List.map_reverse,
    List.dropWhile_map, isBlank_comp_toLower, List.map_reverse]

variable {t raw : List Char}

/-- Trimmed and in lower case, all spellings are the same. -/
theorem Respelt.map_toLower_trim (h : Respelt t raw) :
    (trim raw).map Char.toLower = (trim t).map Char.toLower := by
  obtain ⟨u, hcase, l, r, rfl, hl, hr⟩ := h
  rw [trim_pad hl hr, ← trim_map_toLower, hcase, trim_map_toLower]

/-- A spelling of the same length has other cases only; any other one starts or ends with a
blank. -/
theorem Respelt.cases_length (h : Respelt t raw) :
    (raw.length = t.length ∧ raw.map Char.toLower = t.map Char.toLower) ∨
      (raw.length ≠ t.length ∧ ∃ c ∈ raw.map Char.toLower, isBlank c = true) := by
  obtain ⟨u, hcase, l, r, rfl, hl, hr⟩ := h
  have hlength : u.length = t.length := by
    rw [← List.length_map (f := Char.toLower), hcase, List.length_map]
  have hblank : ∀ c ∈ l ++ u ++ r, isBlank c = true →
      ∃ c ∈ (l ++ u ++ r).map Char.toLower, isBlank c = true := fun c hc h =>
    ⟨c.toLower, List.mem_map_of_mem hc, (isBlank_toLower c).trans h⟩
  rw [List.length_append, List.length_append, hlength]
  cases l with
  | cons c l =>
      refine .inr ⟨by rw [List.length_cons]; omega, hblank c ?_ (hl c List.mem_cons_self)⟩
      simp
  | nil =>
      cases r with
      | cons c r =>
          refine .inr ⟨by rw [List.length_cons]; omega, hblank c ?_ (hr c List.mem_cons_self)⟩
          simp
      | nil => exact .inl ⟨by simp, by simpa using hcase⟩

end Text

open Text Telemetry

namespace Telemetry

theorem Mode.ofString_of_respelt {raw raw' : String} (h : Respelt raw.toList raw'.toList) :
    Mode.ofString raw' = Mode.ofString raw := by
  rw [Mode.ofString, Mode.ofString, h.map_toLower_trim]

namespace Setup

def yesWords : List String := ["1", "true", "yes"]

theorem isYes_iff {raw : String} :
    isYes raw = true ↔ ∃ word ∈ yesWords, raw.toList.map Char.toLower = word.toList := by
  have hone : "1".toList = ['1'] := rfl
  have htrue : "true".toList = ['t', 'r', 'u', 'e'] := rfl
  have hyes : "yes".toList = ['y', 'e', 's'] := rfl
  simp only [isYes, Bool.or_eq_true, beq_iff_eq, yesWords, List.mem_cons, List.not_mem_nil,
    or_false, exists_eq_or_imp, exists_eq_left, hone, htrue, hyes, or_assoc]

theorem isYes_of_respelt {raw raw' : String} (h : Respelt raw.toList raw'.toList) :
    isYes raw' = true ↔ isYes raw = true ∧ raw'.length = raw.length := by
  rw [← String.length_toList, ← String.length_toList, isYes_iff, isYes_iff]
  obtain ⟨hlength, hcase⟩ | ⟨hlength, c, hc, hblank⟩ := h.cases_length
  · rw [hcase]
    exact (and_iff_left hlength).symm
  · refine iff_of_false ?_ fun hboth => hlength hboth.2
    rintro ⟨word, hword, heq⟩
    have hnone : (yesWords.flatMap String.toList).any isBlank = false := by decide
    exact List.any_eq_false.mp hnone c (List.mem_flatMap.mpr ⟨word, hword, heq ▸ hc⟩) hblank

/-- Two lookups that differ in how the mode and the append variable are spelt, and in variables
that are not of telemetry. -/
structure Respells (lookup lookup' : String → Option String) : Prop where
  mode : Option.Rel (fun raw raw' => Respelt raw.toList raw'.toList)
    (lookup modeKey) (lookup' modeKey)
  path : lookup' pathKey = lookup pathKey
  append : Option.Rel (fun raw raw' => Respelt raw.toList raw'.toList)
    (lookup appendKey) (lookup' appendKey)

variable {lookup lookup' : String → Option String}

theorem Respells.mode_eq (h : Respells lookup lookup') :
    (ofLookup lookup').mode = (ofLookup lookup).mode := by
  obtain ⟨hmode, -, -⟩ := h
  simp only [ofLookup]
  generalize lookup modeKey = raw, lookup' modeKey = raw' at hmode ⊢
  cases hmode with
  | none => rfl
  | some hraw => exact Mode.ofString_of_respelt hraw

theorem Respells.path_eq (h : Respells lookup lookup') :
    (ofLookup lookup').path = (ofLookup lookup).path := by
  have hmode := h.mode_eq
  simp only [ofLookup] at hmode ⊢
  rw [hmode, h.path]

theorem Respells.append_iff (h : Respells lookup lookup') :
    (ofLookup lookup').append = true ↔ (ofLookup lookup).append = true ∧
      (lookup' appendKey).map String.length = (lookup appendKey).map String.length := by
  obtain ⟨-, -, happend⟩ := h
  simp only [ofLookup]
  generalize lookup appendKey = raw, lookup' appendKey = raw' at happend ⊢
  cases happend with
  | none => simp
  | some hraw =>
      simp only [Option.map_some, Option.getD_some, Option.some.injEq]
      exact isYes_of_respelt hraw

theorem append_iff :
    (ofLookup lookup).append = true ↔
      ∃ raw ∈ lookup appendKey, ∃ word ∈ yesWords, raw.toList.map Char.toLower = word.toList := by
  simp only [ofLookup]
  cases lookup appendKey with
  | none => simp
  | some raw => simpa using isYes_iff

/-- A sink that has a path and does not keep its file leaves its own records in it. -/
theorem content_of_emptied {path : String} (hpath : (ofLookup lookup).path = some path)
    (happend : (ofLookup lookup).append = false) {disk : Disk} {calls : List Call} {b : Logbook}
    (hsome : calls.filterMap Call.members? ≠ [])
    (hrun : Logbook.Runs { sink := .ofSetup (ofLookup lookup), disk := disk } calls b)
    (hflush : b.flushFails = false) :
    b.close.disk.content ((Path.mk path).location disk.home) =
      recordBytes (calls.filterMap Call.members?) := by
  have hsetup : ofLookup lookup = Session.setup ⟨false, calls⟩ path := by
    have hmode : (ofLookup lookup).mode = .jsonl := by
      simp only [ofLookup] at hpath ⊢
      by_contra hoff
      rw [if_neg hoff] at hpath
      cases hpath
    rcases hlookup : ofLookup lookup with ⟨mode, path', append⟩
    rw [hlookup] at hmode hpath happend
    obtain rfl : mode = .jsonl := hmode
    obtain rfl : path' = some path := hpath
    obtain rfl : append = false := happend
    rfl
  let s : Session := ⟨false, calls⟩
  have hcontent := Logbook.Runs.content_flush (s := s) (congrArg Sink.ofSetup hsetup) hrun hflush
  rw [s.leave_of_records_ne_nil hsome] at hcontent
  exact hcontent.trans ByteArray.empty_append

end Setup

end Telemetry

/-! ## Runs that keep the file -/

namespace Console

open Telemetry.Setup

theorem Start.extends_play {s : Start} (h : s.setup.append = true) (w : Surroundings) :
    w.disk.Extends (s.play w).disk := by
  obtain ⟨summaries, written, calls, hcourse⟩ :=
    playBatch_oblivious s.options.plan s.rules w.fresh w.output
  obtain ⟨b, hcalls, hplay⟩ := hcourse { sink := .ofSetup s.setup, disk := w.disk }
  obtain ⟨hend, hkept⟩ := (Logbook.appending_ofSetup h w.disk).callAll? hcalls
  rw [Start.disk_play, hplay]
  exact hkept.trans hend.close

theorem extends_run {words : List String} {w : Surroundings}
    (hwords : ∀ o, Options.ofArguments words = .ok o → o.telemetry = none)
    (happend : (ofLookup w.lookup).append = true) : w.disk.Extends (run words w).disk := by
  rw [run]
  split
  · exact .refl w.disk
  · next start hstart =>
      obtain ⟨hoptions, -, -, -, hsetup⟩ := prepare_eq_ok hstart
      rw [hwords _ hoptions] at hsetup
      have hyes : start.setup.append = true := hsetup ▸ happend
      simp only [Start.run]
      split
      · exact Start.extends_play hyes w
      · split
        · exact .refl w.disk
        · next output input _ =>
            exact Start.extends_play hyes { w with output := output, input := input }

/-- **How the variables of telemetry are spelt.** Letter case and the blanks around them change
neither the mode nor the path. Letter case does not change whether the file is kept either, but
blanks around the append variable do: spelt so, it never says yes. If it says yes as it is spelt,
whatever the sink is asked for extends the disk, and so does every run that has no other place
for its records. If it does not, the records take the place of what was in the file. -/
theorem setup_of_respelt {lookup lookup' : String → Option String}
    (h : Respells lookup lookup') :
    let setup := ofLookup lookup
    let setup' := ofLookup lookup'
    setup'.mode = setup.mode ∧ setup'.path = setup.path ∧
    (setup.append = true ↔ ∃ raw ∈ lookup appendKey, ∃ word ∈ yesWords,
      raw.toList.map Char.toLower = word.toList) ∧
    (setup'.append = true ↔ setup.append = true ∧
      (lookup' appendKey).map String.length = (lookup appendKey).map String.length) ∧
    (setup'.append = true →
      (∀ disk life, let b := ({ sink := .ofSetup setup', disk := disk } : Logbook).live life
        (∀ c, b.disk.Extends (b.happen (.call c)).disk) ∧ b.disk.Extends b.close.disk) ∧
      ∀ words (w : Surroundings), w.lookup = lookup' →
        (∀ o, Options.ofArguments words = .ok o → o.telemetry = none) →
        w.disk.Extends (run words w).disk) ∧
    (setup'.append = false → ∀ path, setup'.path = some path → ∀ disk calls b,
      calls.filterMap Call.members? ≠ [] →
      Logbook.Runs { sink := .ofSetup setup', disk := disk } calls b → b.flushFails = false →
      b.close.disk.content ((Path.mk path).location disk.home) =
        recordBytes (calls.filterMap Call.members?)) := by
  intro setup setup'
  refine ⟨h.mode_eq, h.path_eq, append_iff, h.append_iff, ?_, ?_⟩
  · intro happend
    refine ⟨fun disk life => ?_, ?_⟩
    · have hlive := (Logbook.appending_ofSetup happend disk).live life
      exact ⟨fun c => (hlive.call c).2, hlive.close⟩
    · rintro words w rfl hwords
      exact extends_run hwords happend
  · intro happend path hpath disk calls b hsome hrun hflush
    exact content_of_emptied hpath happend hsome hrun hflush

def telemetryLookup (mode append : String) (key : String) : Option String :=
  if key = modeKey then some mode
  else if key = pathKey then some "t.jsonl"
  else if key = appendKey then some append
  else none

/-- Blanks around the mode and capital letters in both variables change nothing, and no run
without words empties a file. -/
theorem setup_of_respelt_capitals :
    Respells (telemetryLookup "jsonl" "yes") (telemetryLookup " JsonL\t" "YES") ∧
      (ofLookup (telemetryLookup " JsonL\t" "YES")).mode = .jsonl ∧
      ∀ w : Surroundings, w.lookup = telemetryLookup " JsonL\t" "YES" →
        w.disk.Extends (run [] w).disk := by
  have hrespells : Respells (telemetryLookup "jsonl" "yes") (telemetryLookup " JsonL\t" "YES") :=
    { mode := .some ⟨"JsonL".toList, by decide, [' '], ['\t'], by decide,
        List.forall_mem_singleton.mpr rfl, List.forall_mem_singleton.mpr rfl⟩
      path := rfl
      append := .some ⟨"YES".toList, by decide, [], [], by decide, nofun, nofun⟩ }
  obtain ⟨hmode, -, -, happend, hkeeps, -⟩ := setup_of_respelt hrespells
  have hyes : (ofLookup (telemetryLookup " JsonL\t" "YES")).append = true :=
    happend.mpr ⟨by decide, by decide⟩
  refine ⟨hrespells, hmode, fun w hw => (hkeeps hyes).2 [] w hw ?_⟩
  intro o ho
  have hnone : Options.ofArguments [] = .ok {} := by decide
  rw [hnone] at ho
  cases ho
  rfl

/-- A blank in front of the append variable, which says yes without it, and a record costs the
file what it held. -/
theorem setup_of_respelt_blank :
    let disk : Disk := { nodes := [(["t.jsonl"], .file "old".toUTF8 none)] }
    let start : Logbook :=
      { sink := .ofSetup (ofLookup (telemetryLookup "jsonl" " yes")), disk := disk }
    Respells (telemetryLookup "jsonl" "yes") (telemetryLookup "jsonl" " yes") ∧
      (ofLookup (telemetryLookup "jsonl" "yes")).append = true ∧
      (ofLookup (telemetryLookup "jsonl" " yes")).append = false ∧
      ¬ disk.Extends (start.record []).disk := by
  intro disk start
  have hrespells : Respells (telemetryLookup "jsonl" "yes") (telemetryLookup "jsonl" " yes") :=
    { mode := .some ⟨"jsonl".toList, rfl, [], [], by decide, nofun, nofun⟩
      path := rfl
      append := .some
        ⟨"yes".toList, rfl, [' '], [], by decide, List.forall_mem_singleton.mpr rfl, nofun⟩ }
  refine ⟨hrespells, by decide, by decide, ?_⟩
  have hfind : disk.find ⟨"t.jsonl"⟩ = .ok (.named [] "t.jsonl") :=
    Disk.find_of_names_eq_singleton _ rfl (by decide) (by decide) (by decide) (by decide)
      (by decide)
  have hopen := Disk.openFile_of_file hfind rfl (by decide) rfl false
  have hrecord := Logbook.record_of_openChannel (b := start)
    (Logbook.openChannel_of_openFile rfl rfl hopen) rfl []
  have hempty : ((start.record []).disk.content ["t.jsonl"]).size = 0 := by
    rw [hrecord]
    decide +kernel
  intro hkept
  obtain ⟨more, room, hfile⟩ := hkept ["t.jsonl"] "old".toUTF8 none rfl
  rw [Disk.content_eq, hfile, Option.map_some, Option.getD_some, ByteArray.size_append] at hempty
  have hold : "old".toUTF8.size = 3 := by decide
  omega

end Console

end HiddenTarget
