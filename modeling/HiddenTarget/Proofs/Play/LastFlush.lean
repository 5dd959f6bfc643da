import HiddenTarget.Proofs.Play.Agreement
import HiddenTarget.Proofs.Play.Oblivious

/-!
# The last flush of a batch

A batch ends with a flush, and a batch that is small enough has all its records wait for
it. `off_after_fault_iff` says which faults turn a sink off: those of a record do, and those
of a flush do not. So a batch can end with a sink that is on and a file that has not taken
a single byte, as `flush_of_full_device` shows.
-/

namespace HiddenTarget

open Telemetry (Call Logbook)

theorem playBatch_eq_records {plan : Plan} {rules : Rules} {base : UInt64} {output : Output}
    (hplan : plan.Valid) (hseed : plan.seed = some base) (hrules : rules.Valid)
    (houtput : output.room = none) (fresh : UInt64) :
    ∃ records : List Json.Members, records ≠ [] ∧
      ∀ b, (playBatch plan rules fresh output b).logbook =
        (records.foldl Logbook.record b).flush := by
  obtain ⟨environment, henvironment⟩ : ∃ e, Environment.ofSeed rules base = .ok e :=
    ⟨_, Environment.make_of_valid hrules _⟩
  obtain ⟨player, hplayer⟩ : ∃ p,
      UniformPlayer.ofSeed plan.actionLow plan.actionHigh (playerSeed base) = .ok p :=
    ⟨_, UniformPlayer.ofSeed_of_le hplan.2.2 _⟩
  have hbound : 0 + plan.episodes.toNat ≤ UInt32.size := by
    rw [Nat.zero_add]
    exact Nat.le_of_lt plan.episodes.toNat_lt
  have hplayed := fun b : Logbook =>
    Stage.playEpisodes_eq_trajectories base plan.iterations environment plan.episodes.toNat 0
      hbound (s := { environment := environment, player := player, output, logbook := b })
      houtput rfl rfl
  refine ⟨Event.records (episodesEvents base plan.iterations plan.episodes.toNat (UInt32.ofNat 0)
    environment player), ?_, ?_⟩
  · obtain ⟨-, -, hrecords⟩ := hplayed {}
    simp only [Nat.zero_add] at hrecords
    have hlength : (trajectories plan.iterations.toNat player.guess
        (batchStarts environment base 0 plan.episodes.toNat)).length = plan.episodes.toNat := by
      rw [length_trajectories, batchStarts, List.length_map, List.length_range']
    rw [hrecords]
    refine records_ne_nil base ?_
    rw [hlength]
    exact UInt32.le_iff_toNat_le.mp hplan.1
  · intro b
    obtain ⟨⟨environment', player', hplay⟩, -⟩ := hplayed b
    rw [playBatch_of_open hseed (openStage_eq_ok hplan henvironment hplayer) hplay fresh]
    rfl

/-- **Which faults turn a sink off.** After a call that fails the sink is off for good,
except after a flush of a sink that is on. The last flush of a batch is no different: the
sink is then what it was before. -/
theorem off_after_fault_iff (b : Logbook) :
    (∀ c, b.fails c = true →
      ((∀ after, ∃ b', b.callAll? (c :: after) = some b' ∧ b'.sink.isEnabled = false) ↔
        (c = .flush → b.sink.isEnabled = false))) ∧
    ∀ plan rules fresh output,
      let result := playBatch plan rules fresh output b
      ∃ calls b', b.callAll? calls = some b' ∧
        result.logbook = (if result.summaries.isOk then b'.flush else b') ∧
        result.logbook.sink.isEnabled = b'.sink.isEnabled := by
  constructor
  · intro c hfails
    constructor
    · rintro hoff rfl
      obtain ⟨b', hcalls, hb'⟩ := hoff []
      obtain rfl : b.flush = b' := Option.some.inj hcalls
      rwa [Logbook.isEnabled_flush] at hb'
    · intro hflush after
      obtain ⟨b₁, hcall, hoff⟩ : ∃ b₁, b.call? c = some b₁ ∧ b₁.sink.isEnabled = false := by
        by_cases hc : c = .flush
        · exact Logbook.call?_of_off (hflush hc) c
        · exact Logbook.call?_of_fails hfails hc
      obtain ⟨b₂, hcalls, hoff'⟩ := Logbook.callAll?_of_off hoff after
      exact ⟨b₂, by rw [Logbook.callAll?_cons, hcall, Option.bind_some, hcalls], hoff'⟩
  · intro plan rules fresh output result
    obtain ⟨summaries, written, calls, hcourse⟩ := playBatch_eq_calls plan rules fresh output
    obtain ⟨b', hcalls, hplay⟩ := hcourse b
    have hlogbook : result.logbook = if result.summaries.isOk then b'.flush else b' := by
      rw [show result = _ from hplay]
    refine ⟨calls, b', hcalls, hlogbook, ?_⟩
    rw [hlogbook]
    split
    · exact Logbook.isEnabled_flush b'
    · rfl

/-- The root folder cannot be opened as a file, and the first record finds that out. -/
theorem off_after_record_to_root :
    let b : Logbook := { sink := .ofSetup (.jsonl "/") }
    let c : Call := .value (.object [])
    b.fails c = true ∧
      ∀ after, ∃ b', b.callAll? (c :: after) = some b' ∧ b'.sink.isEnabled = false := by
  intro b c
  have hfails : b.fails c = true := by decide
  exact ⟨hfails, ((off_after_fault_iff b).1 c hfails).mpr (by simp [c])⟩

/-- A device that takes no bytes, and a sink that is to write to it. What is recorded fits
into the buffer, so nothing fails before the flush, which leaves the sink on. -/
theorem flush_of_full_device :
    let device : Location := ["dev", "full"]
    let b : Logbook :=
      { sink := .ofSetup (.jsonl "/dev/full")
        disk := { nodes := [(["dev"], .folder), (device, .file ByteArray.empty (some 0))] } }
    let plan : Plan := { iterations := 1, actionLow := 4, actionHigh := 4, seed := some 77 }
    let result := playBatch plan {} 0 {} b
    ((b.record []).fails .flush = true ∧ (b.record []).flush.sink.isEnabled = true) ∧
      ∃ records : List Json.Members,
        result.logbook = (records.foldl Logbook.record b).flush ∧
        (records.foldl Logbook.record b).fails .flush = true ∧
        result.logbook.sink.isEnabled = true := by
  intro device b plan result
  let c : Telemetry.Channel := { handle := ⟨device, some 0⟩ }
  let opened : Logbook := { b with sink := { b.sink with channel := some c } }
  have hfolder : b.disk.find ⟨"/dev"⟩ = .ok (.named [] "dev") := by
    have hnames : (Path.mk "/dev").names = ["dev"] := rfl
    rw [Disk.find, hnames, if_neg (by simp)]
    rfl
  have hfile : b.disk.find ⟨"/dev/full"⟩ = .ok (.named ["dev"] "full") := by
    have hnames : (Path.mk "/dev/full").names = ["dev", "full"] := rfl
    rw [Disk.find, hnames, if_neg (by simp)]
    rfl
  have hparents : b.disk.makeParents ⟨"/dev/full"⟩ = b.disk := by
    have hparents : (Path.mk "/dev/full").parents = [⟨"/dev"⟩] := rfl
    rw [Disk.makeParents, hparents, Disk.makeFoldersAlong, Disk.makeFolder, hfolder]
    rfl
  have hopenFile : (b.disk.makeParents ⟨"/dev/full"⟩).openFile ⟨"/dev/full"⟩ b.sink.append =
      .ok (c.handle, b.disk) := by
    rw [hparents, Disk.openFile, hfile]
    rfl
  have hopen : b.openChannel = (some c, opened) :=
    Logbook.openChannel_of_openFile rfl rfl hopenFile
  have hrecord : ∀ members, b.record members = opened.record members :=
    Logbook.record_of_openChannel hopen rfl
  have hplan : plan.Valid := ⟨by decide, by decide, by decide⟩
  obtain ⟨records, hne, hrecords⟩ := playBatch_eq_records hplan rfl Rules.valid_default
    (show ({} : Output).room = none from rfl) 0
  have hfold : records.foldl Logbook.record b = records.foldl Logbook.record opened := by
    cases records with
    | nil => exact absurd rfl hne
    | cons members rest => rw [List.foldl_cons, List.foldl_cons, hrecord]
  have hlogbook : result.logbook = (playBatch plan {} 0 {} opened).logbook := by
    rw [show result.logbook = _ from hrecords b, hrecords opened, hfold]
  have hopened : (playBatch plan {} 0 {} opened).logbook.flushFails = true ∧
      (playBatch plan {} 0 {} opened).logbook.sink.isEnabled = true := by
    decide +kernel
  refine ⟨?_, records, hrecords b, ?_, ?_⟩
  · rw [hrecord]
    decide +kernel
  · refine Logbook.flushFails_of_flush ?_
    rw [← hrecords b, show (playBatch plan {} 0 {} b).logbook = _ from hlogbook]
    exact hopened.1
  · rw [hlogbook]
    exact hopened.2

end HiddenTarget
