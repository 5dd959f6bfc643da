import HiddenTarget.Proofs.Play.Performance
import HiddenTarget.Proofs.Play.Prefix

/-!
# Batches whose output runs full

A batch with a limited output performs the events of its trajectories up to the line that the
output has no room for. Performing succeeds if the whole text fits, `performAll_of_fits`, and
else it fails with the text cut at the limit, `performAll_of_not_fits`. A record never fails, so
it is one turn of one episode at which the batch stops: `exists_cut_turn`. This turn has been
recorded, and nothing that comes after it has.
-/

namespace HiddenTarget

open Disk (Fits)
open Event (performAll)
open Telemetry (Logbook recordBytes stepRecord)

/-! ## Texts that fit -/

namespace Output

def take (o : Output) (bytes : ByteArray) : Output :=
  { o with written := o.written ++ bytes, room := o.room.map (· - bytes.size) }

theorem take_empty (o : Output) : o.take ByteArray.empty = o := by
  rcases o with ⟨written, _ | room, fault⟩
  · simp [take]
  · simp [take]

theorem take_append (o : Output) (front back : ByteArray) :
    o.take (front ++ back) = (o.take front).take back := by
  rcases o with ⟨written, _ | room, fault⟩
  · simp [take, ByteArray.append_assoc]
  · simp [take, ByteArray.append_assoc, ByteArray.size_append, Nat.sub_sub]

theorem fits_add {o : Output} {front : ByteArray} {n : Nat} (hfront : Fits o.room front.size)
    (h : Fits (o.take front).room n) : Fits o.room (front.size + n) := by
  intro room hroom
  have hn : n ≤ room - front.size := h _ (by rw [take, hroom, Option.map_some])
  have hle := hfront room hroom
  omega

theorem write_of_fits {o : Output} {text : String} (h : Fits o.room text.toUTF8.size) :
    o.write text = (none, o.take text.toUTF8) := by
  cases hroom : o.room with
  | none =>
      rw [write_of_room_none hroom, take, hroom]
      rfl
  | some room =>
      simp only [write, writeBytes, take, hroom, if_pos (h room hroom), Option.map_some]

theorem write_of_not_fits {o : Output} {room : Nat} (hroom : o.room = some room)
    {text : String} (h : room < text.toUTF8.size) :
    o.write text = (some o.fault,
      { o with written := o.written ++ text.toUTF8.extract 0 room, room := some 0 }) := by
  simp only [write, writeBytes, hroom, if_neg (Nat.not_le.mpr h)]

end Output

namespace Event

variable {o o' : Output} {b b' : Logbook} {events : List Event} {fault : OutputFault}

def bytes (events : List Event) : ByteArray := (text events).toUTF8

theorem bytes_append (before after : List Event) :
    bytes (before ++ after) = bytes before ++ bytes after := by
  simp only [bytes, text_append, String.toUTF8_eq_toByteArray, String.toByteArray_append]

theorem bytes_line_cons (line : String) (rest : List Event) :
    bytes (.line line :: rest) = line.toUTF8 ++ bytes rest := by
  have hline : text (.line line :: rest) = line ++ text rest := String.join_cons
  simp only [bytes, hline, String.toUTF8_eq_toByteArray, String.toByteArray_append]

theorem performAll_of_fits (h : Fits o.room (bytes events).size) :
    performAll o b events =
      (none, o.take (bytes events), (records events).foldl Logbook.record b) := by
  induction events generalizing o b with
  | nil => exact congrArg (fun o => (none, o, b)) o.take_empty.symm
  | cons event events ih =>
      cases event with
      | record members => exact ih h
      | line line =>
          rw [bytes_line_cons, ByteArray.size_append] at h
          rw [performAll, Output.write_of_fits (h.mono (Nat.le_add_right _ _)), bytes_line_cons,
            Output.take_append]
          exact ih h.sub

theorem performAll_of_not_fits {room : Nat} (hroom : o.room = some room)
    (h : room < (bytes events).size) :
    ∃ b', performAll o b events = (some o.fault,
      { o with written := o.written ++ (bytes events).extract 0 room, room := some 0 }, b') := by
  induction events generalizing o b room with
  | nil => exact absurd h (Nat.not_lt_zero room)
  | cons event events ih =>
      cases event with
      | record members => exact ih hroom h
      | line line =>
          rw [bytes_line_cons, ByteArray.size_append] at h
          rw [performAll, bytes_line_cons, ByteArray.extract_append]
          by_cases hline : line.toUTF8.size ≤ room
          · have hfits : Fits o.room line.toUTF8.size := by
              intro r hr
              rw [hroom] at hr
              exact Option.some.inj hr ▸ hline
            have htaken : (o.take line.toUTF8).room = some (room - line.toUTF8.size) := by
              rw [Output.take, hroom, Option.map_some]
            have hwhole : line.toUTF8.extract 0 room = line.toUTF8 := by
              rw [ByteArray.extract_eq_extract_append_extract _ (Nat.zero_le _) hline,
                ByteArray.extract_zero_size,
                ByteArray.extract_eq_empty_iff.mpr (Nat.min_le_right _ _), ByteArray.append_empty]
            obtain ⟨b', hrest⟩ := ih htaken (b := b) (by omega)
            rw [Output.write_of_fits hfits, hwhole, Nat.zero_sub, ← ByteArray.append_assoc]
            exact ⟨b', hrest⟩
          · have hnone : (bytes events).extract (0 - line.toUTF8.size) (room - line.toUTF8.size) =
                ByteArray.empty :=
              ByteArray.extract_eq_empty_iff.mpr (Nat.le_trans (Nat.min_le_left _ _) (by omega))
            rw [Output.write_of_not_fits hroom (by omega), hnone, ByteArray.append_empty]
            exact ⟨b, rfl⟩

theorem eq_of_performAll_done (h : performAll o b events = (none, o', b')) :
    Fits o.room (bytes events).size ∧ o' = o.take (bytes events) ∧
      b' = (records events).foldl Logbook.record b := by
  have hfits : Fits o.room (bytes events).size := by
    intro room hroom
    by_contra hlt
    obtain ⟨b'', hcut⟩ := performAll_of_not_fits (b := b) hroom (Nat.not_le.mp hlt)
    rw [h] at hcut
    cases hcut
  rw [performAll_of_fits hfits] at h
  cases h
  exact ⟨hfits, rfl, rfl⟩

theorem not_fits_of_performAll_cut (h : performAll o b events = (some fault, o', b')) :
    ¬ Fits o.room (bytes events).size := by
  intro hfits
  rw [performAll_of_fits hfits] at h
  cases h

/-- A performance of some parts, one after the other, that fails does so in one of them. -/
theorem exists_cut_flatten {parts : List (List Event)}
    (h : performAll o b parts.flatten = (some fault, o', b')) :
    ∃ before part after, parts = before ++ part :: after ∧
      Fits o.room (bytes before.flatten).size ∧
      performAll (o.take (bytes before.flatten))
        ((records before.flatten).foldl Logbook.record b) part = (some fault, o', b') := by
  induction parts generalizing o b with
  | nil => cases h
  | cons first parts ih =>
      rw [List.flatten_cons, performAll_append] at h
      rcases hfirst : performAll o b first with ⟨_ | fault', o₁, b₁⟩
      · rw [hfirst] at h
        obtain ⟨hfits, rfl, rfl⟩ := eq_of_performAll_done hfirst
        obtain ⟨before, part, after, rfl, hfits', hpart⟩ := ih h
        refine ⟨first :: before, part, after, rfl, ?_, ?_⟩
        · rw [List.flatten_cons, bytes_append, ByteArray.size_append]
          exact Output.fits_add hfits hfits'
        · rw [List.flatten_cons, bytes_append, Output.take_append, records_append,
            List.foldl_append]
          exact hpart
      · rw [hfirst] at h
        cases h
        refine ⟨[], first, parts, rfl, ?_, ?_⟩
        · exact fun room _ => Nat.zero_le room
        · rw [List.flatten_nil]
          exact (congrArg (fun o => performAll o b first) o.take_empty).trans hfirst

end Event

/-! ## Trajectories that are cut -/

def turnsText (turns : List Turn) : String :=
  String.join (turns.flatMap fun t => outcomeLines t.action t.outcome)

theorem turnsText_append (before after : List Turn) :
    turnsText (before ++ after) = turnsText before ++ turnsText after := by
  rw [turnsText, List.flatMap_append, String.join_append, turnsText, turnsText]

theorem size_turnsText_append (before after : List Turn) :
    (turnsText (before ++ after)).toUTF8.size =
      (turnsText before).toUTF8.size + (turnsText after).toUTF8.size := by
  rw [turnsText_append, String.toUTF8_eq_toByteArray, String.toByteArray_append,
    ByteArray.size_append]
  rfl

theorem text_turns (episode : UInt32) (turns : List Turn) :
    Event.text (turns.flatMap (Turn.events episode)) = turnsText turns := by
  rw [Event.text, List.filterMap_flatMap, turnsText]
  simp only [Event.filterMap_line?_events]

theorem records_turns (episode : UInt32) (turns : List Turn) :
    Event.records (turns.flatMap (Turn.events episode)) =
      turns.map fun t => stepRecord episode t.action t.outcome := by
  rw [Event.records, List.filterMap_flatMap, List.map_eq_flatMap]
  exact congrArg turns.flatMap (funext (Event.records_events episode))

theorem text_trajectories (base : UInt64) (i : Nat) (played : List (List Turn)) :
    Event.text (played.mapIdx fun k => trajectoryEvents base (i + k)).flatten =
      turnsText played.flatten := by
  induction played generalizing i with
  | nil => rfl
  | cons turns played ih =>
      rw [mapIdx_from_cons (trajectoryEvents base), List.flatten_cons, List.flatten_cons,
        Event.text_append, ih, turnsText_append, trajectoryEvents, episodeEvents, Event.text_append,
        text_turns, Event.text_record, String.append_empty]

theorem records_trajectories (base : UInt64) (i : Nat) {played : List (List Turn)}
    (h : ∀ turns ∈ played, EpisodeTurns turns) :
    Event.records (played.mapIdx fun k => trajectoryEvents base (i + k)).flatten =
      (played.mapIdx fun k => trajectoryRecords base (i + k)).flatten := by
  induction played generalizing i with
  | nil => rfl
  | cons turns played ih =>
      rw [mapIdx_from_cons (trajectoryEvents base), mapIdx_from_cons (trajectoryRecords base),
        List.flatten_cons, List.flatten_cons, Event.records_append,
        ih (i + 1) fun turns' hmem => h turns' (List.mem_cons_of_mem turns hmem), trajectoryEvents,
        records_episodeEvents base i (h turns List.mem_cons_self)]

section Cut

variable {o o' : Output} {b b' : Logbook} {fault : OutputFault}

/-- The record at the end of an episode takes no room. -/
theorem cut_turns_of_cut_episode {start : Summary} {turns : List Turn}
    (h : performAll o b (episodeEvents start turns) = (some fault, o', b')) :
    performAll o b (turns.flatMap (Turn.events start.episode)) = (some fault, o', b') := by
  rw [episodeEvents, Event.performAll_append] at h
  rcases hturns : performAll o b (turns.flatMap (Turn.events start.episode))
    with ⟨_ | fault', o₁, b₁⟩
  · rw [hturns] at h
    cases h
  · rw [hturns] at h
    exact h

theorem exists_cut_turn (episode : UInt32) {turns : List Turn}
    (h : performAll o b (turns.flatMap (Turn.events episode)) = (some fault, o', b')) :
    ∃ earlier t later, turns = earlier ++ t :: later ∧
      Fits o.room (turnsText earlier).toUTF8.size ∧
      ¬ Fits o.room (turnsText (earlier ++ [t])).toUTF8.size ∧
      b' = ((earlier ++ [t]).map fun t => stepRecord episode t.action t.outcome).foldl
        Logbook.record b := by
  have hbytes : ∀ ts : List Turn, Event.bytes (ts.flatMap (Turn.events episode)) =
      (turnsText ts).toUTF8 := fun ts => congrArg String.toUTF8 (text_turns episode ts)
  rw [List.flatMap_def] at h
  obtain ⟨before, part, after, hparts, hfits, hpart⟩ := Event.exists_cut_flatten h
  obtain ⟨earlier, rest, rfl, rfl, hrest⟩ := List.map_eq_append_iff.mp hparts
  obtain ⟨t, later, rfl, rfl, -⟩ := List.map_eq_cons_iff.mp hrest
  rw [← List.flatMap_def] at hfits hpart
  -- The turns up to this one fail as they are, without those that come later.
  have hcut : performAll o b ((earlier ++ [t]).flatMap (Turn.events episode)) =
      (some fault, o', b') := by
    rw [List.flatMap_append, List.flatMap_singleton, Event.performAll_append,
      Event.performAll_of_fits hfits]
    exact hpart
  have hnot := Event.not_fits_of_performAll_cut hcut
  rw [hbytes] at hfits hnot
  refine ⟨earlier, t, later, rfl, hfits, hnot, ?_⟩
  rw [Event.performAll_events, Prod.mk.injEq, Prod.mk.injEq] at hpart
  rw [List.map_append, List.foldl_append, ← records_turns]
  exact hpart.2.2.symm

/-- The turn at which the episodes of a batch stop: what comes before it fits, and what goes up
to it does not. The episodes before it have been recorded as a whole, and of its own episode the
turns up to it and nothing else. -/
theorem exists_cut_trajectory (base : UInt64) {played : List (List Turn)}
    (hplayed : ∀ turns ∈ played, EpisodeTurns turns)
    (h : performAll o b (played.mapIdx (trajectoryEvents base)).flatten = (some fault, o', b')) :
    ∃ before earlier t later after, played = before ++ (earlier ++ t :: later) :: after ∧
      Fits o.room (turnsText (before.flatten ++ earlier)).toUTF8.size ∧
      ¬ Fits o.room (turnsText (before.flatten ++ (earlier ++ [t]))).toUTF8.size ∧
      b' = ((before.mapIdx (trajectoryRecords base)).flatten ++
        (earlier ++ [t]).map fun t =>
          stepRecord (UInt32.ofNat before.length) t.action t.outcome).foldl Logbook.record b := by
  obtain ⟨front, part, back, hparts, hfits, hpart⟩ := Event.exists_cut_flatten h
  obtain ⟨before, rest, rfl, rfl, hrest⟩ := List.mapIdx_eq_append_iff.mp hparts
  obtain ⟨turns, after, rfl, rfl, -⟩ := List.mapIdx_eq_cons_iff.mp hrest
  have hbefore := text_trajectories base 0 before
  have hrecords := records_trajectories base 0 fun turns hmem =>
    hplayed turns (List.mem_append_left _ hmem)
  simp only [Nat.zero_add] at hbefore hrecords hpart
  have hbytes : Event.bytes (before.mapIdx (trajectoryEvents base)).flatten =
      (turnsText before.flatten).toUTF8 := congrArg String.toUTF8 hbefore
  rw [hbytes, hrecords] at hpart
  rw [hbytes] at hfits
  obtain ⟨earlier, t, later, rfl, hearlier, hnot, rfl⟩ :=
    exists_cut_turn _ (cut_turns_of_cut_episode hpart)
  refine ⟨before, earlier, t, later, after, rfl, ?_, ?_, ?_⟩
  · rw [size_turnsText_append]
    exact Output.fits_add hfits hearlier
  · rw [size_turnsText_append]
    exact fun hall => hnot hall.sub
  · rw [List.foldl_append]

end Cut

/-! ## Healthy sinks -/

namespace Telemetry.Logbook

/-- Records arrive in the file at `l` behind `bytes`, and there is room for `n` bytes of them.
Either the file is open already, or it can be opened and `bytes` are what is kept of it. -/
def Healthy (b : Logbook) (l : Location) (bytes : ByteArray) (n : Nat) : Prop :=
  (b.OpensAt l ∧ b.kept l = bytes ∧ b.disk.Takes l n) ∨ b.Keeps l bytes n

variable {b : Logbook} {l : Location} {bytes : ByteArray} {records : List Json.Members} {n : Nat}

theorem Healthy.keeps_records (h : b.Healthy l bytes ((recordBytes records).size + n))
    (hne : records ≠ []) :
    (records.foldl Logbook.record b).Keeps l (bytes ++ recordBytes records) n := by
  rcases h with ⟨hopens, rfl, htakes⟩ | hkeeps
  · obtain ⟨b', hkeeps, hrecord⟩ := hopens.record_eq htakes
    have hfold : records.foldl Logbook.record b = records.foldl Logbook.record b' := by
      cases records with
      | nil => exact absurd rfl hne
      | cons members rest => rw [List.foldl_cons, List.foldl_cons, hrecord]
    rw [hfold]
    exact hkeeps.records
  · exact hkeeps.records

/-- What is in the file at the end if the records stop somewhere, and if they do not. -/
theorem Healthy.content_close {rest : List Json.Members}
    (h : b.Healthy l bytes (recordBytes (records ++ rest)).size) (hne : records ≠ []) :
    (records.foldl Logbook.record b).close.disk.content l = bytes ++ recordBytes records ∧
      ((records ++ rest).foldl Logbook.record b).flush.close.disk.content l =
        bytes ++ recordBytes (records ++ rest) := by
  constructor
  · rw [recordBytes_append, ByteArray.size_append] at h
    exact (h.keeps_records hne).flush.1
  · have hall : records ++ rest ≠ [] := List.append_ne_nil_of_left_ne_nil hne rest
    exact (Healthy.keeps_records (n := 0) h hall).flush_keeps.flush.1

end Telemetry.Logbook

/-! ## The batch -/

section Batch

variable {plan : Plan} {rules : Rules} {base : UInt64} {played : List (List Turn)}

theorem episodeTurns_of_mem_played (hplayed : plan.played rules base = .ok played)
    {turns : List Turn} (h : turns ∈ played) : EpisodeTurns turns := by
  rw [Plan.played] at hplayed
  cases hopen : openStage plan rules base {} {} with
  | error c =>
      rw [hopen] at hplayed
      cases hplayed
  | ok s =>
      rw [hopen] at hplayed
      cases hplayed
      obtain ⟨e, guesses, rfl⟩ := exists_of_mem_trajectories h
      exact Environment.episodeTurns_trajectory _ guesses e

/-- **A batch performs the events of its trajectories**, whatever its output. -/
theorem playBatch_performs (hplan : plan.Valid) (hrules : rules.Valid)
    (hseed : plan.seed = some base) (hplayed : plan.played rules base = .ok played)
    (fresh : UInt64) (o : Output) (b : Logbook) :
    let events := (played.mapIdx (trajectoryEvents base)).flatten
    (∀ o' b', performAll o b events = (none, o', b') →
      playBatch plan rules fresh o b = ⟨.ok (played.mapIdx (report base)), o', b'.flush⟩) ∧
    ∀ fault o' b', performAll o b events = (some fault, o', b') →
      playBatch plan rules fresh o b = ⟨.error (.output fault), o', b'⟩ := by
  obtain ⟨environment, player, hopen⟩ := openStage_of_valid hplan hrules base
  obtain rfl := Except.ok.inj (hplayed.symm.trans (played_eq (hopen plan hplan rfl rfl {} {})))
  have hbound : 0 + plan.episodes.toNat ≤ UInt32.size := by
    rw [Nat.zero_add]
    exact Nat.le_of_lt plan.episodes.toNat_lt
  obtain ⟨environment', player', hperforms⟩ :=
    @Stage.playEpisodes_performs base plan.iterations environment plan.episodes.toNat 0 hbound
      environment player rfl rfl
  simp only [Nat.zero_add] at hperforms
  have hstage := hopen plan hplan rfl rfl o b
  constructor
  · intro o' b' h
    exact playBatch_of_open hseed hstage (hperforms.done h) fresh
  · intro fault o' b' h
    obtain ⟨e, p, hplay⟩ := hperforms.cut h
    have hzero : UInt32.ofNat 0 = 0 := rfl
    rw [hzero] at hplay
    rw [playBatch, hseed]
    simp only [Option.getD_some, hstage, hplay]

theorem playBatch_of_check_error {c : Complaint} (h : plan.check = .error c) (fresh : UInt64)
    (o : Output) (b : Logbook) :
    playBatch plan rules fresh o b = ⟨.error (.refused c), o, b⟩ := by
  rw [playBatch, openStage, h]
  rfl

theorem playBatch_of_rules_check_error {c : Complaint} (hplan : plan.check = .ok ())
    (h : rules.check = .error c) (fresh : UInt64) (o : Output) (b : Logbook) :
    playBatch plan rules fresh o b = ⟨.error (.refused c), o, b⟩ := by
  rw [playBatch, openStage, hplan]
  simp only [Environment.ofSeed, Environment.make, h]
  rfl

/-- The records up to a turn are where all records of the batch begin. -/
theorem recorded_prefix (base : UInt64) (before after : List (List Turn))
    (front later : List Turn) :
    (before.mapIdx (trajectoryRecords base)).flatten ++
        front.map (fun t => stepRecord (UInt32.ofNat before.length) t.action t.outcome) <+:
      ((before ++ (front ++ later) :: after).mapIdx (trajectoryRecords base)).flatten := by
  rw [List.mapIdx_append, List.mapIdx_cons, List.flatten_append, List.flatten_cons, Nat.zero_add,
    List.prefix_append_right_inj, trajectoryRecords, List.map_append, List.append_assoc,
    List.append_assoc]
  exact List.prefix_append _ _

/-- **A batch whose output may run full.** A plan or rules that cannot be played are refused, the
plan first, and nothing has happened then. Otherwise everything is as with an output without a
limit if the text fits. If it does not, the batch ends in the fault of the output, which has taken
as much of the text as there was room for. The records are those up to the step at whose lines the
limit is: of its episode only the steps so far, and of the episodes before it all. A healthy
sink leaves them in its file. -/
theorem playBatch_limited (hseed : plan.seed = some base) (fresh : UInt64) (limit : Nat)
    (fault : OutputFault) (b : Logbook) :
    let output : Output := { room := some limit, fault := fault }
    let cut := playBatch plan rules fresh output b
    let full := playBatch plan rules fresh {} b
    (∀ c, plan.check = .error c → cut = ⟨.error (.refused c), output, b⟩) ∧
    (∀ c, plan.check = .ok () → rules.check = .error c →
      cut = ⟨.error (.refused c), output, b⟩) ∧
    (plan.check = .ok () → rules.check = .ok () →
      ∃ played, plan.played rules base = .ok played ∧
        let records := (played.mapIdx (trajectoryRecords base)).flatten
        full.summaries = .ok (played.mapIdx (report base)) ∧
        full.output.written = (turnsText played.flatten).toUTF8 ∧
        full.logbook = (records.foldl Logbook.record b).flush ∧
        (full.output.written.size ≤ limit →
          cut.summaries = full.summaries ∧ cut.output.written = full.output.written ∧
          cut.logbook = full.logbook) ∧
        (limit < full.output.written.size →
          cut.summaries = .error (.output fault) ∧
          cut.output.written = full.output.written.extract 0 limit ∧
          ∃ before earlier t later after, played = before ++ (earlier ++ t :: later) :: after ∧
            (turnsText (before.flatten ++ earlier)).toUTF8.size ≤ limit ∧
            limit < (turnsText (before.flatten ++ (earlier ++ [t]))).toUTF8.size ∧
            let recorded := (before.mapIdx (trajectoryRecords base)).flatten ++
              (earlier ++ [t]).map fun t =>
                stepRecord (UInt32.ofNat before.length) t.action t.outcome
            recorded <+: records ∧ cut.logbook = recorded.foldl Logbook.record b ∧
            ∀ l bytes, b.Healthy l bytes (recordBytes records).size →
              cut.logbook.close.disk.content l = bytes ++ recordBytes recorded ∧
              full.logbook.close.disk.content l = bytes ++ recordBytes records)) := by
  intro output cut full
  refine ⟨fun c h => playBatch_of_check_error h fresh output b,
    fun c hplan h => playBatch_of_rules_check_error hplan h fresh output b, fun hplan hrules => ?_⟩
  rw [Plan.check_eq_ok_iff] at hplan
  rw [Rules.check_eq_ok_iff] at hrules
  obtain ⟨played, -, hplayed, -⟩ := played_of_le hplan hrules (UInt32.le_refl plan.episodes) base
  obtain ⟨hdone, hcut⟩ := playBatch_performs hplan hrules hseed hplayed fresh output b
  refine ⟨played, hplayed, ?_⟩
  intro records
  have hepisodes : ∀ turns ∈ played, EpisodeTurns turns :=
    fun turns hmem => episodeTurns_of_mem_played hplayed hmem
  have htext := text_trajectories base 0 played
  have hrecords := records_trajectories base 0 hepisodes
  simp only [Nat.zero_add] at htext hrecords
  have hbytes : Event.bytes (played.mapIdx (trajectoryEvents base)).flatten =
      (turnsText played.flatten).toUTF8 := congrArg String.toUTF8 htext
  have hperform : ∀ o : Output, Fits o.room (turnsText played.flatten).toUTF8.size →
      performAll o b (played.mapIdx (trajectoryEvents base)).flatten =
        (none, o.take (turnsText played.flatten).toUTF8, records.foldl Logbook.record b) := by
    intro o hfits
    rw [← hbytes] at hfits
    rw [Event.performAll_of_fits hfits, hbytes, hrecords]
  have hfull : full = _ :=
    (playBatch_performs hplan hrules hseed hplayed fresh {} b).1 _ _ (hperform {} (Fits.none _))
  have hwritten : full.output.written = (turnsText played.flatten).toUTF8 := by
    rw [hfull]
    exact ByteArray.empty_append
  refine ⟨by rw [hfull], hwritten, by rw [hfull], fun hle => ?_, fun hlt => ?_⟩
  · rw [hwritten] at hle
    have hfits : Fits output.room (turnsText played.flatten).toUTF8.size := by
      rintro _ ⟨⟩
      exact hle
    have hcutEq : cut = _ := hdone _ _ (hperform output hfits)
    rw [hcutEq, hfull]
    exact ⟨rfl, rfl, rfl⟩
  · rw [hwritten] at hlt ⊢
    rw [← hbytes] at hlt
    obtain ⟨b', hfails⟩ := Event.performAll_of_not_fits (o := output) (b := b) rfl hlt
    have hcutEq : cut = _ := hcut _ _ _ hfails
    obtain ⟨before, earlier, t, later, after, rfl, hfits, hnot, rfl⟩ :=
      exists_cut_trajectory base hepisodes hfails
    have hover : limit < (turnsText (before.flatten ++ (earlier ++ [t]))).toUTF8.size := by
      by_contra hle
      refine hnot ?_
      rintro _ ⟨⟩
      exact Nat.not_lt.mp hle
    let recorded := (before.mapIdx (trajectoryRecords base)).flatten ++
      (earlier ++ [t]).map fun t => stepRecord (UInt32.ofNat before.length) t.action t.outcome
    have hrecorded : cut.logbook = recorded.foldl Logbook.record b := by rw [hcutEq]
    obtain ⟨rest, hrest⟩ : recorded <+: records := by
      have hprefix := recorded_prefix base before after (earlier ++ [t]) later
      rwa [List.append_assoc, List.singleton_append] at hprefix
    refine ⟨by rw [hcutEq], ?_, before, earlier, t, later, after, rfl, hfits limit rfl, hover,
      ⟨rest, hrest⟩, hrecorded, fun l bytes hhealthy => ?_⟩
    · rw [hcutEq, hbytes]
      exact ByteArray.empty_append
    · rw [← hrest] at hhealthy
      have hcontent := hhealthy.content_close (by simp [recorded])
      rw [hrest] at hcontent
      rw [hrecorded, hfull]
      exact hcontent

/-- An output that takes nothing more in the middle of the closing line of an episode. -/
theorem playBatch_limited_in_clear :
    let plan : Plan := { iterations := 1, actionLow := 4, actionHigh := 4, seed := some 77 }
    let cut := playBatch plan {} 0 { room := some 24, fault := .takesNothing } Logbook.making
    let full := playBatch plan {} 0 {} Logbook.making
    cut.summaries = .error (.output .takesNothing) ∧
      cut.output.written = "Choice: 4\t Answer: 1\nCle".toUTF8 ∧
      ∃ recorded records : List Json.Members, recorded <+: records ∧
        cut.logbook.close.disk.content ["game.jsonl"] = recordBytes recorded ∧
        full.logbook.close.disk.content ["game.jsonl"] = recordBytes records := by
  intro plan
  have hwritten : (playBatch plan {} 0 {} Logbook.making).output.written =
      "Choice: 4\t Answer: 1\nClear!\n".toUTF8 := by decide +kernel
  have hplan : plan.check = .ok () := by decide
  have hrules : ({} : Rules).check = .ok () := (Rules.check_eq_ok_iff {}).mpr Rules.valid_default
  obtain ⟨-, -, hplayable⟩ := @playBatch_limited plan {} 77 rfl 0 24 .takesNothing Logbook.making
  obtain ⟨played, -, -, -, -, -, hover⟩ := hplayable hplan hrules
  rw [hwritten] at hover
  obtain ⟨hsummaries, htaken, before, earlier, t, later, after, -, -, -, hprefix, -, htelemetry⟩ :=
    hover (by decide +kernel)
  have htext : "Choice: 4\t Answer: 1\nClear!\n".toUTF8.extract 0 24 =
      "Choice: 4\t Answer: 1\nCle".toUTF8 := by decide +kernel
  have hhealthy := htelemetry ["game.jsonl"] ByteArray.empty
    (.inl ⟨Logbook.opensAt_making, rfl, Logbook.takes_making _⟩)
  rw [ByteArray.empty_append, ByteArray.empty_append] at hhealthy
  exact ⟨hsummaries, htaken.trans htext, _, _, hprefix, hhealthy⟩

end Batch

end HiddenTarget
