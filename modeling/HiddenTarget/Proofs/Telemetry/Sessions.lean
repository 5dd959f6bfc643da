import HiddenTarget.Proofs.Telemetry.Delivery
import HiddenTarget.Proofs.Telemetry.Footprint

/-!
# Sinks that take turns at a file

`Logbook.Runs` says that some calls have been made and that none of the requests failed
that were made for them. What a sink has logged by then is in its file or waits for it: a
call adds its record, `Logged.call?`, the first record opens the file, and the whole run is
`Unopened.logged`.

A `Session` is the life of one sink. It leaves its records behind what was in the file, or
alone in the file if it `empties` it, and one that records nothing leaves the file as it is:
`Runs.content_flush`. So what some sessions leave on one path, `Session.leaveAll`, is what they
recorded since the file was emptied last.
-/

namespace HiddenTarget.Telemetry

/-! ## What sessions leave in a file -/

/-- What the life of a sink is: its setting and what it is called for. -/
structure Session where
  append : Bool
  calls : List Call

namespace Session

def setup (s : Session) (path : String) : Setup :=
  { mode := .jsonl, path := some path, append := s.append }

def records (s : Session) : List Json.Members := s.calls.filterMap Call.members?

def empties (s : Session) : Bool := !s.append && !s.records.isEmpty

theorem empties_eq_true_iff {s : Session} :
    s.empties = true ↔ s.records ≠ [] ∧ s.append = false := by
  rw [empties, Bool.and_eq_true, Bool.not_eq_true', Bool.not_eq_true', List.isEmpty_eq_false_iff,
    and_comm]

theorem empties_eq_false_iff {s : Session} :
    s.empties = false ↔ (s.records ≠ [] → s.append = true) := by
  rw [← Bool.not_eq_true, empties_eq_true_iff, not_and, Bool.not_eq_false]

/-- What a file holds after a session. -/
def leave (content : ByteArray) (s : Session) : ByteArray :=
  (if s.empties then ByteArray.empty else content) ++ recordBytes s.records

def leaveAll (content : ByteArray) (sessions : List Session) : ByteArray :=
  sessions.foldl leave content

theorem leaveAll_cons (content : ByteArray) (s : Session) (rest : List Session) :
    leaveAll content (s :: rest) = leaveAll (leave content s) rest := rfl

theorem leave_of_records_eq_nil {s : Session} (h : s.records = []) (content : ByteArray) :
    leave content s = content := by
  have hkeeps : s.empties = false := by rw [empties, h, List.isEmpty_nil, Bool.not_true,
    Bool.and_false]
  rw [leave, hkeeps, h]
  exact ByteArray.append_empty

theorem leave_of_records_ne_nil {s : Session} (h : s.records ≠ []) (content : ByteArray) :
    leave content s =
      (if s.append then content else ByteArray.empty) ++ recordBytes s.records := by
  have hempties : s.empties = !s.append := by
    rw [empties, List.isEmpty_eq_false_iff.mpr h, Bool.not_false, Bool.and_true]
  rw [leave, hempties]
  cases s.append with
  | true => rfl
  | false => rfl

theorem leaveAll_eq_append {sessions : List Session}
    (h : ∀ s ∈ sessions, s.empties = false) (content : ByteArray) :
    leaveAll content sessions = content ++ recordBytes (sessions.flatMap records) := by
  induction sessions generalizing content with
  | nil => exact ByteArray.append_empty.symm
  | cons s rest ih =>
      have hs : leave content s = content ++ recordBytes s.records := by
        rw [leave, h s List.mem_cons_self]
        rfl
      rw [leaveAll_cons, ih (fun t ht => h t (List.mem_cons_of_mem s ht)), hs,
        List.flatMap_cons, recordBytes_append, ByteArray.append_assoc]

theorem exists_leaveAll_eq {sessions : List Session} (h : ∃ s ∈ sessions, s.empties = true)
    (content : ByteArray) :
    ∃ before s after, sessions = before ++ s :: after ∧ s.empties = true ∧
      (∀ t ∈ after, t.empties = false) ∧
      leaveAll content sessions = recordBytes ((s :: after).flatMap records) := by
  induction sessions generalizing content with
  | nil =>
      obtain ⟨s, hs, -⟩ := h
      cases hs
  | cons s rest ih =>
      by_cases hrest : ∃ t ∈ rest, t.empties = true
      · obtain ⟨before, t, after, rfl, ht, hafter, heq⟩ := ih hrest (leave content s)
        exact ⟨s :: before, t, after, rfl, ht, hafter, heq⟩
      · have hkeep : ∀ t ∈ rest, t.empties = false := by
          intro t ht
          exact Bool.eq_false_iff.mpr fun htrue => hrest ⟨t, ht, htrue⟩
        have hs : s.empties = true := by
          obtain ⟨t, ht, htrue⟩ := h
          rcases List.mem_cons.mp ht with rfl | ht
          · exact htrue
          · exact absurd ⟨t, ht, htrue⟩ hrest
        have hleave : leave content s = recordBytes s.records := by
          rw [leave, hs]
          exact ByteArray.empty_append
        refine ⟨[], s, rest, rfl, hs, hkeep, ?_⟩
        rw [leaveAll_cons, leaveAll_eq_append hkeep, hleave, List.flatMap_cons,
          recordBytes_append]

end Session

namespace Logbook

/-! ## What has been logged -/

/-- The bytes that wait in the buffer of the sink. -/
def waiting (b : Logbook) : ByteArray :=
  match b.sink.channel with
  | none => ByteArray.empty
  | some c => c.pending

/-- The sink is on and has its file open at `l`. What the file holds and what waits for it
are together `bytes`. -/
structure Holds (b : Logbook) (l : Location) (bytes : ByteArray) : Prop where
  enabled : b.sink.isEnabled = true
  channel : ∃ c room, b.sink.channel = some c ∧ c.Holds b.disk l bytes room

variable {b b' : Logbook} {l : Location} {bytes : ByteArray} {members : Json.Members}

theorem Holds.content_append_waiting (h : b.Holds l bytes) :
    b.disk.content l ++ b.waiting = bytes ∧ b.waiting.size ≤ Channel.capacity := by
  obtain ⟨c, room, hc, hholds⟩ := h.channel
  obtain ⟨content, hfile, hbytes⟩ := hholds.file
  rw [waiting, hc, ← hholds.location, hfile.content_eq]
  exact ⟨hbytes, hholds.small⟩

theorem Holds.flush (h : b.Holds l bytes) : b.flush.Holds l bytes := by
  obtain ⟨c, room, hc, hholds⟩ := h.channel
  obtain ⟨c', d', room', hflush, hholds', -⟩ := hholds.flush
  rw [Logbook.flush, hc]
  simp only [hflush]
  exact ⟨h.enabled, c', room', rfl, hholds'⟩

theorem waiting_flush (h : b.flushFails = false) : b.flush.waiting = ByteArray.empty := by
  cases hc : b.sink.channel with
  | none => simp only [Logbook.flush, waiting, hc]
  | some c =>
      rcases hflush : c.flush b.disk with ⟨ok, c', d'⟩
      simp only [flushFails, hc, hflush, Bool.not_eq_false'] at h
      subst h
      simp only [Logbook.flush, waiting, hc, hflush]
      exact ByteArray.size_eq_zero_iff.mp (eq_of_beq (Channel.isEmpty_of_flush hflush))

theorem Holds.content_flush (h : b.Holds l bytes) (hflush : b.flushFails = false) :
    b.flush.disk.content l = bytes := by
  have hcontent := h.flush.content_append_waiting.1
  rwa [waiting_flush hflush, ByteArray.append_empty] at hcontent

theorem Holds.record (h : b.Holds l bytes) (hrecord : b.recordFails members = false) :
    (b.record members).Holds l (bytes ++ (recordLine members).toUTF8) := by
  obtain ⟨c, room, hc, hholds⟩ := h.channel
  have happends := hholds.writeLine (recordText (stamp members))
  simp only [recordFails, openChannel_of_open hc, Bool.not_eq_false'] at hrecord
  obtain ⟨room', hholds', -⟩ := happends.holds hrecord
  rw [Logbook.record, if_pos h.enabled, Logbook.writeLine, openChannel_of_open hc]
  rcases hline : c.writeLine (recordText (stamp members)) b.disk with ⟨ok, c', d'⟩
  rw [hline] at hrecord hholds'
  obtain rfl : ok = true := hrecord
  simp only [hline]
  exact ⟨h.enabled, c', room', rfl, hholds'⟩

/-- The sink is on and has not opened its file yet, which is the one at this path. -/
structure Unopened (b : Logbook) (path : String) : Prop where
  enabled : b.sink.isEnabled = true
  closed : b.sink.channel = none
  path : b.sink.path = some path

theorem Unopened.opensAt {path : String} (h : b.Unopened path)
    (hrecord : b.recordFails members = false) :
    b.OpensAt ((Path.mk path).location b.disk.home) := by
  refine ⟨h.enabled, h.closed, ?_⟩
  rcases hopen : (b.disk.makeParents ⟨path⟩).openFile ⟨path⟩ b.sink.append with
    fault | ⟨handle, d⟩
  · simp only [recordFails, openChannel, h.closed, h.path, hopen, Option.isSome_some] at hrecord
    cases hrecord
  · refine ⟨path, handle, d, h.path, hopen, ?_⟩
    rw [Disk.location_of_openFile hopen, Disk.home_makeParents]

theorem OpensAt.record (h : b.OpensAt l) (hrecord : b.recordFails members = false) :
    (b.record members).Holds l (b.kept l ++ (recordLine members).toUTF8) := by
  obtain ⟨c, b₁, room, hopen, hon, hc, -, hholds, -⟩ := h.openChannel_eq
  rw [recordFails_of_openChannel hopen] at hrecord
  rw [record_of_openChannel hopen h.enabled]
  exact Holds.record ⟨hon, c, room, hc, hholds⟩ hrecord

/-! ## Runs without a fault -/

/-- The calls have been made in turn. Each had an answer, and no request failed that was made
for one of them. -/
inductive Runs : Logbook → List Call → Logbook → Prop
  | nil (b : Logbook) : Runs b [] b
  | cons {b b₁ b₂ : Logbook} {c : Call} {rest : List Call} : b.fails c = false →
      b.call? c = some b₁ → Runs b₁ rest b₂ → Runs b (c :: rest) b₂

theorem Runs.within {p : Path} {P : Disk → Prop} (hP : Footprint p l P) {calls : List Call}
    (hrun : b.Runs calls b') (h : b.Within p l P) : b'.Within p l P := by
  induction hrun with
  | nil => exact h
  | cons _ hcall _ ih => exact ih (h.call? hP hcall)

theorem eq_flush_of_call? {c : Call} (hon : b.sink.isEnabled = true) (hc : c.members? = none)
    (hcall : b.call? c = some b') : b' = b.flush := by
  cases c with
  | value v =>
      rw [call?, record?, if_pos hon] at hcall
      cases v with
      | object ms => cases hc
      | _ => cases hcall
  | step number action outcome => cases hc
  | episode summary => cases hc
  | flush => exact (Option.some.inj hcall).symm

def Logged (start : Logbook) (l : Location) (records : List Json.Members) (b : Logbook) :
    Prop :=
  (records = [] ∧ b = start) ∨ (records ≠ [] ∧ b.Holds l (start.kept l ++ recordBytes records))

theorem Logged.enabled {start : Logbook} {records : List Json.Members}
    (h : Logged start l records b) (hon : start.sink.isEnabled = true) :
    b.sink.isEnabled = true := by
  obtain ⟨-, rfl⟩ | ⟨-, hholds⟩ := h
  · exact hon
  · exact hholds.enabled

theorem Logged.call? {start : Logbook} {path : String} (hstart : start.Unopened path)
    {records : List Json.Members} {c : Call}
    (h : Logged start ((Path.mk path).location start.disk.home) records b)
    (hfails : b.fails c = false) (hcall : b.call? c = some b') :
    Logged start ((Path.mk path).location start.disk.home) (records ++ c.members?.toList) b' := by
  have hon := h.enabled hstart.enabled
  cases hc : c.members? with
  | none =>
      obtain rfl := eq_flush_of_call? hon hc hcall
      rw [Option.toList_none, List.append_nil]
      obtain ⟨hnone, rfl⟩ | ⟨hsome, hholds⟩ := h
      · refine .inl ⟨hnone, ?_⟩
        rw [Logbook.flush, hstart.closed]
      · exact .inr ⟨hsome, hholds.flush⟩
  | some members =>
      rw [fails_of_members? hc, hon, Bool.true_and] at hfails
      obtain rfl : b.record members = b' :=
        Option.some.inj ((call?_of_members? hc b).symm.trans hcall)
      rw [Option.toList_some]
      refine .inr ⟨by simp, ?_⟩
      rw [recordBytes_append_singleton, ← ByteArray.append_assoc]
      obtain ⟨rfl, rfl⟩ | ⟨-, hholds⟩ := h
      · have hrecord := (hstart.opensAt hfails).record hfails
        rwa [← ByteArray.append_empty (b := b.kept _)] at hrecord
      · exact hholds.record hfails

theorem Logged.run {start : Logbook} {path : String} (hstart : start.Unopened path)
    {records : List Json.Members} {calls : List Call}
    (h : Logged start ((Path.mk path).location start.disk.home) records b)
    (hrun : b.Runs calls b') :
    Logged start ((Path.mk path).location start.disk.home)
      (records ++ calls.filterMap Call.members?) b' := by
  induction hrun generalizing records with
  | nil b =>
      rw [List.filterMap_nil, List.append_nil]
      exact h
  | @cons b b₁ b₂ c rest hfails hcall _ ih =>
      have hsplit : (c :: rest).filterMap Call.members? =
          c.members?.toList ++ rest.filterMap Call.members? := by
        cases hc : c.members? with
        | none => exact List.filterMap_cons_none hc
        | some members => exact List.filterMap_cons_some hc
      rw [hsplit, ← List.append_assoc]
      exact ih (h.call? hstart hfails hcall)

/-- What the life of a sink comes to before its end. -/
theorem Unopened.logged {start : Logbook} {path : String} (hstart : start.Unopened path)
    {calls : List Call} (hrun : start.Runs calls b) :
    Logged start ((Path.mk path).location start.disk.home) (calls.filterMap Call.members?) b :=
  Logged.run hstart (.inl ⟨rfl, rfl⟩) hrun

/-! ## Sessions -/

theorem unopened_ofSetup {path : String} {s : Session} (h : b.sink = .ofSetup (s.setup path)) :
    b.Unopened path := by
  constructor
  all_goals rw [h]
  · rfl
  · rfl
  · rfl

theorem Runs.content_flush {path : String} {s : Session}
    (hsink : b.sink = .ofSetup (s.setup path)) (hrun : b.Runs s.calls b')
    (hflush : b'.flushFails = false) :
    b'.flush.disk.content ((Path.mk path).location b.disk.home) =
      Session.leave (b.disk.content ((Path.mk path).location b.disk.home)) s := by
  have hstart := unopened_ofSetup hsink
  obtain ⟨hnone, rfl⟩ | ⟨hsome, hholds⟩ := hstart.logged hrun
  · rw [Session.leave_of_records_eq_nil hnone, Logbook.flush, hstart.closed]
  · rw [hholds.content_flush hflush, Session.leave_of_records_ne_nil hsome, kept, hsink]
    rfl

theorem Runs.home_eq {path : String} {s : Session} (hsink : b.sink = .ofSetup (s.setup path))
    (hrun : b.Runs s.calls b') : b'.disk.home = b.disk.home := by
  have hstart := unopened_ofSetup hsink
  have hwithin : b.Within ⟨path⟩ ((Path.mk path).location b.disk.home)
      fun d => d.home = b.disk.home :=
    ⟨hstart.path, by rw [hstart.closed]; rintro _ ⟨⟩, rfl⟩
  exact (hrun.within (footprint_home ⟨path⟩ b.disk.home) hwithin).disk

/-- Sinks for one path that are used one after another. Each takes the place of the one
before, which is finished then, and the last one is finished as well. -/
inductive Sessions (path : String) : Logbook → List Session → Logbook → Prop
  | nil (b : Logbook) : Sessions path b [] b.close
  | cons {b b₁ b₂ : Logbook} {s : Session} {rest : List Session} :
      (b.replace (.ofSetup (s.setup path))).Runs s.calls b₁ → b₁.flushFails = false →
      Sessions path b₁ rest b₂ → Sessions path b (s :: rest) b₂

theorem Sessions.content_eq {path : String} {sessions : List Session}
    (h : b.Sessions path sessions b') :
    b'.disk.content ((Path.mk path).location b.disk.home) =
      Session.leaveAll (b.flush.disk.content ((Path.mk path).location b.disk.home)) sessions := by
  induction h with
  | nil b => rfl
  | @cons b b₁ b₂ s rest hrun hflush _ ih =>
      have hsink : (b.replace (.ofSetup (s.setup path))).sink = .ofSetup (s.setup path) := rfl
      have hdisk : (b.replace (.ofSetup (s.setup path))).disk = b.flush.disk := rfl
      have hhome := hrun.home_eq hsink
      have hcontent := hrun.content_flush hsink hflush
      rw [hdisk, home_flush] at hhome hcontent
      rw [hhome] at ih
      rw [ih, hcontent, Session.leaveAll_cons]

/-- **Records are neither lost nor doubled, and stay in order.** For a sink that has not
opened its file and whose requests succeed: nothing happens before the first record, and from
then on what was kept of the file and the records so far are in the file or wait for it, and
are all in the file after a flush or at the end. So sinks that take turns at the file leave
their records behind what was there, or, if some of them empty it, those recorded since the
last of these did. -/
theorem sessions_arrive (path : String) :
    (∀ (b b' : Logbook) (s : Session), b.sink = .ofSetup (s.setup path) → b.Runs s.calls b' →
      let l := (Path.mk path).location b.disk.home
      let logged := b.kept l ++ recordBytes s.records
      (s.records = [] → b'.disk = b.disk ∧ b'.close.disk = b.disk) ∧
      (s.records ≠ [] →
        b'.disk.content l ++ b'.waiting = logged ∧ b'.waiting.size ≤ Channel.capacity ∧
        (b'.flushFails = false →
          b'.flush.disk.content l = logged ∧ b'.close.disk.content l = logged))) ∧
    (∀ (b b' : Logbook) (sessions : List Session), b.Sessions path sessions b' →
      let l := (Path.mk path).location b.disk.home
      ((∀ s ∈ sessions, s.records ≠ [] → s.append = true) →
        b'.disk.content l =
          b.flush.disk.content l ++ recordBytes (sessions.flatMap Session.records)) ∧
      ((∃ s ∈ sessions, s.records ≠ [] ∧ s.append = false) →
        ∃ before s after, sessions = before ++ s :: after ∧ s.records ≠ [] ∧
          s.append = false ∧ (∀ t ∈ after, t.records ≠ [] → t.append = true) ∧
          b'.disk.content l = recordBytes ((s :: after).flatMap Session.records))) := by
  constructor
  · intro b b' s hsink hrun l logged
    have hstart := unopened_ofSetup hsink
    obtain ⟨hnone, rfl⟩ | ⟨hsome, hholds⟩ := hstart.logged hrun
    · have hclose : b'.close.disk = b'.disk := by
        rw [close, replace, Logbook.flush, hstart.closed]
      exact ⟨fun _ => ⟨rfl, hclose⟩, fun hsome => absurd hnone hsome⟩
    · obtain ⟨hcontent, hsmall⟩ := hholds.content_append_waiting
      refine ⟨fun hnone => absurd hnone hsome, fun _ => ⟨hcontent, hsmall, fun hflush => ?_⟩⟩
      have hflushed := hholds.content_flush hflush
      exact ⟨hflushed, hflushed⟩
  · intro b b' sessions hsessions l
    have hcontent := hsessions.content_eq
    constructor
    · intro happend
      rw [hcontent]
      refine Session.leaveAll_eq_append ?_ _
      intro s hs
      exact Session.empties_eq_false_iff.mpr (happend s hs)
    · rintro ⟨s, hs, hempties⟩
      obtain ⟨before, t, after, hsplit, ht, hafter, heq⟩ := Session.exists_leaveAll_eq
        ⟨s, hs, Session.empties_eq_true_iff.mpr hempties⟩ (b.flush.disk.content l)
      obtain ⟨hrecords, happend⟩ := Session.empties_eq_true_iff.mp ht
      exact ⟨before, t, after, hsplit, hrecords, happend,
        fun u hu => Session.empties_eq_false_iff.mp (hafter u hu), hcontent.trans heq⟩

/-- A sink that empties the file, one that adds to it and one that records nothing. -/
theorem sessions_arrive_after_old :
    let old : Logbook :=
      { disk := { nodes := [(["game.jsonl"], .file "old".toUTF8 none)] } }
    let fresh : Session := ⟨false, [.value (.object []), .flush]⟩
    let more : Session := ⟨true, [.value (.object [])]⟩
    let idle : Session := ⟨false, [.flush]⟩
    (∃ b, (old.replace (.ofSetup (fresh.setup "game.jsonl"))).Runs fresh.calls b ∧
        b.disk.content ["game.jsonl"] ++ b.waiting = recordBytes [[]]) ∧
      (∃ b, old.Sessions "game.jsonl" [fresh, more, idle] b ∧
        b.disk.content ["game.jsonl"] = recordBytes [[], []]) ∧
      recordBytes [[], []] =
        ("\x7b\"schema_version\":1\x7d\n" ++ "\x7b\"schema_version\":1\x7d\n").toUTF8 := by
  intro old fresh more idle
  have hfind : ∀ d : Disk, d.home = [] →
      d.find ⟨"game.jsonl"⟩ = .ok (.named [] "game.jsonl") := by
    intro d hhome
    have hnames : (Path.mk "game.jsonl").names = ["game.jsonl"] := rfl
    rw [Disk.find, hnames, if_neg (by simp), hhome]
    rfl
  have hopen : ∀ (b : Logbook) (s : Session) (content : ByteArray) (room : Option Nat),
      b.sink = .ofSetup (s.setup "game.jsonl") → b.disk.home = [] →
      b.disk.node? ["game.jsonl"] = some (.file content room) →
      let c : Channel := { handle := ⟨["game.jsonl"], if s.append then none else some 0⟩ }
      b.openChannel = (some c,
        { b with
          disk := if s.append then b.disk
            else b.disk.put ["game.jsonl"] (.file ByteArray.empty room)
          sink := { b.sink with channel := some c } }) := by
    intro b s content room hsink hhome hnode c
    have hfile := Disk.openFile_of_file (hfind b.disk hhome) rfl (by decide) hnode s.append
    have hparents : b.disk.makeParents ⟨"game.jsonl"⟩ = b.disk := rfl
    refine openChannel_of_openFile (by rw [hsink]; rfl) (by rw [hsink]; rfl) ?_
    rw [hparents, hsink]
    exact hfile
  let b₀ := old.replace (.ofSetup (fresh.setup "game.jsonl"))
  let c₀ : Channel := { handle := ⟨["game.jsonl"], some 0⟩ }
  let opened₀ : Logbook :=
    { b₀ with
      disk := { nodes := [(["game.jsonl"], .file ByteArray.empty none)] }
      sink := { b₀.sink with channel := some c₀ } }
  have hopen₀ : b₀.openChannel = (some c₀, opened₀) := hopen b₀ fresh _ none rfl rfl rfl
  have hmembers : Call.members? (.value (.object [])) = some [] := rfl
  have hrun₀ : b₀.Runs fresh.calls (opened₀.record []).flush := by
    have hfails : b₀.fails (.value (.object [])) = false := by
      rw [fails_of_members? hmembers, recordFails_of_openChannel hopen₀]
      decide +kernel
    have hcall : b₀.call? (.value (.object [])) = some (opened₀.record []) := by
      rw [call?_of_members? hmembers, record_of_openChannel hopen₀ rfl]
    exact .cons hfails hcall (.cons (by decide +kernel) rfl (.nil _))
  let b₁ := (opened₀.record []).flush.replace (.ofSetup (more.setup "game.jsonl"))
  let c₁ : Channel := { handle := ⟨["game.jsonl"], none⟩ }
  let opened₁ : Logbook := { b₁ with sink := { b₁.sink with channel := some c₁ } }
  have hopen₁ : b₁.openChannel = (some c₁, opened₁) := by
    have hfile : (b₁.disk.file? ["game.jsonl"]).isSome = true := by decide +kernel
    have hhome : b₁.disk.home = [] := by decide +kernel
    rw [Disk.file?] at hfile
    split at hfile
    · next content room hnode => exact hopen b₁ more content room rfl hhome hnode
    · cases hfile
  have hrun₁ : b₁.Runs more.calls (opened₁.record []) := by
    have hfails : b₁.fails (.value (.object [])) = false := by
      rw [fails_of_members? hmembers, recordFails_of_openChannel hopen₁]
      decide +kernel
    have hcall : b₁.call? (.value (.object [])) = some (opened₁.record []) := by
      rw [call?_of_members? hmembers, record_of_openChannel hopen₁ rfl]
    exact .cons hfails hcall (.nil _)
  let b₂ := (opened₁.record []).replace (.ofSetup (idle.setup "game.jsonl"))
  have hrun₂ : b₂.Runs idle.calls b₂.flush := .cons rfl rfl (.nil _)
  have hsessions : old.Sessions "game.jsonl" [fresh, more, idle] b₂.flush.close :=
    .cons hrun₀ (by decide +kernel) (.cons hrun₁ (by decide +kernel)
      (.cons hrun₂ rfl (.nil _)))
  have hlocation : (Path.mk "game.jsonl").location old.disk.home = ["game.jsonl"] := rfl
  obtain ⟨hsingle, hall⟩ := sessions_arrive "game.jsonl"
  refine ⟨⟨_, hrun₀, ?_⟩, ⟨_, hsessions, ?_⟩, by decide +kernel⟩
  · have hlogged := ((hsingle b₀ _ fresh rfl hrun₀).2 (by decide)).1
    rw [show b₀.disk.home = old.disk.home from rfl, hlocation] at hlogged
    exact hlogged
  · have hempties : fresh.records ≠ [] ∧ fresh.append = false :=
      ⟨List.cons_ne_nil _ _, rfl⟩
    obtain ⟨before, s, after, hsplit, hrecords, happend, -, hcontent⟩ :=
      (hall old _ _ hsessions).2 ⟨fresh, List.mem_cons_self, hempties⟩
    -- Only the first of the sessions empties the file.
    have hlast : s :: after = [fresh, more, idle] := by
      rcases before with _ | ⟨x, _ | ⟨y, _ | ⟨z, rest⟩⟩⟩
      · exact hsplit.symm
      · cases hsplit
        cases happend
      · cases hsplit
        exact absurd rfl hrecords
      · simp at hsplit
    rw [hlast, hlocation] at hcontent
    exact hcontent

end Logbook

end HiddenTarget.Telemetry
