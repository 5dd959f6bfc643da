import HiddenTarget.Proofs.Telemetry.Calls

/-!
# Faults of a logbook

A logbook makes requests to the system: to open its file, and to write to it. Not all of
them are made when a record is; a record that fits waits for a later one or for a flush.
`Logbook.fails` says of a call whether one of its requests fails. A record of which this is
so turns the sink off, `isEnabled_record_of_fails`, and a sink that is off stays off
whatever is asked of it, `callAll?_of_off`. A flush leaves the sink as it was.
-/

namespace HiddenTarget.Telemetry

theorem Channel.isEmpty_of_flush {c c' : Channel} {d d' : Disk}
    (h : c.flush d = (true, c', d')) : c'.pending.isEmpty = true := by
  rw [Channel.flush] at h
  split at h
  · next hempty =>
      cases h
      exact hempty
  · simp only [Prod.mk.injEq] at h
    rw [← h.2.1]
    exact h.1

def Call.members? : Call → Option Json.Members
  | .value (.object members) => some members
  | .value _ => none
  | .step number action outcome => some (stepRecord number action outcome)
  | .episode summary => some (episodeRecord summary)
  | .flush => none

namespace Logbook

/-- Whether a request fails that is made for a record: the file cannot be opened, or does not
take what is handed on to it. Without a path there is no request. -/
def recordFails (b : Logbook) (members : Json.Members) : Bool :=
  match b.openChannel with
  | (none, _) => b.sink.path.isSome
  | (some c, b) => !(c.writeLine (recordText (stamp members)) b.disk).1

def flushFails (b : Logbook) : Bool :=
  match b.sink.channel with
  | none => false
  | some c => !(c.flush b.disk).1

/-- Whether a request fails that a call makes to the system. -/
def fails (b : Logbook) (c : Call) : Bool :=
  match c, c.members? with
  | .flush, _ => b.flushFails
  | _, some members => b.sink.isEnabled && b.recordFails members
  | _, none => false

variable {b b' : Logbook} {c : Call} {members : Json.Members}

theorem call?_of_members? (h : c.members? = some members) (b : Logbook) :
    b.call? c = some (b.record members) := by
  cases c with
  | value v =>
      cases v with
      | object ms =>
          obtain rfl := Option.some.inj h
          exact record?_object b ms
      | _ => cases h
  | step episode action outcome =>
      obtain rfl := Option.some.inj h
      exact call?_step b episode action outcome
  | episode summary =>
      obtain rfl := Option.some.inj h
      exact call?_episode b summary
  | flush => cases h

theorem fails_of_members? (h : c.members? = some members) (b : Logbook) :
    b.fails c = (b.sink.isEnabled && b.recordFails members) := by
  cases c with
  | flush => cases h
  | _ => simp only [fails, h]

/-! ## Opening the file -/

theorem openChannel_of_open {c : Channel} (h : b.sink.channel = some c) :
    b.openChannel = (some c, b) := by
  rw [openChannel, h]

theorem openChannel_of_openFile {path : String} {handle : Handle} {d : Disk}
    (hclosed : b.sink.channel = none) (hpath : b.sink.path = some path)
    (hopen : (b.disk.makeParents ⟨path⟩).openFile ⟨path⟩ b.sink.append = .ok (handle, d)) :
    b.openChannel =
      (some { handle := handle },
        { b with disk := d, sink := { b.sink with channel := some { handle := handle } } }) := by
  rw [openChannel, hclosed, hpath]
  simp only [hopen]

theorem openChannel_of_fault {path : String} {fault : PathFault} (hclosed : b.sink.channel = none)
    (hpath : b.sink.path = some path)
    (hfault : (b.disk.makeParents ⟨path⟩).openFile ⟨path⟩ b.sink.append = .error fault) :
    b.openChannel =
      (none, { b with
        disk := b.disk.makeParents ⟨path⟩
        warnings := b.warnings ++ [Warning.mk path fault] }.disable) := by
  rw [openChannel, hclosed, hpath]
  simp only [hfault]

theorem openChannel_eq_none (h : b.openChannel = (none, b')) : b'.sink.isEnabled = false := by
  rw [openChannel] at h
  split at h
  · cases h
  · cases h
    rfl
  · dsimp only at h
    split at h
    · cases h
    · cases h
      rfl

theorem openChannel_eq_some {c : Channel} (h : b.openChannel = (some c, b')) :
    b'.sink = { b.sink with channel := some c } := by
  rw [openChannel] at h
  split at h
  · next hopen =>
      cases h
      rw [← hopen]
  · cases h
  · dsimp only at h
    split at h
    · cases h
      rfl
    · cases h

theorem record_of_openChannel {c : Channel} (hopen : b.openChannel = (some c, b'))
    (hon : b.sink.isEnabled = true) (members : Json.Members) :
    b.record members = b'.record members := by
  have hsink := openChannel_eq_some hopen
  have hon' : b'.sink.isEnabled = true := by
    rw [hsink]
    exact hon
  have hchannel : b'.sink.channel = some c := by rw [hsink]
  rw [record, record, if_pos hon, if_pos hon', writeLine, writeLine, hopen,
    openChannel_of_open hchannel]

theorem record_of_fault {path : String} {fault : PathFault} (hclosed : b.sink.channel = none)
    (hpath : b.sink.path = some path)
    (hfault : (b.disk.makeParents ⟨path⟩).openFile ⟨path⟩ b.sink.append = .error fault)
    (hon : b.sink.isEnabled = true) (members : Json.Members) :
    b.record members = { b with
      disk := b.disk.makeParents ⟨path⟩
      warnings := b.warnings ++ [Warning.mk path fault] }.disable := by
  rw [record, if_pos hon, writeLine, openChannel_of_fault hclosed hpath hfault]

theorem recordFails_of_openChannel {c : Channel} (hopen : b.openChannel = (some c, b'))
    (members : Json.Members) : b.recordFails members = b'.recordFails members := by
  have hchannel : b'.sink.channel = some c := by rw [openChannel_eq_some hopen]
  rw [recordFails, recordFails, hopen, openChannel_of_open hchannel]

/-! ## Turning off -/

theorem record_of_off (h : b.sink.isEnabled = false) (members : Json.Members) :
    b.record members = b := by
  rw [record, h]
  rfl

/-- A flush does not turn the sink off, whether or not it fails. -/
@[simp] theorem isEnabled_flush (b : Logbook) : b.flush.sink.isEnabled = b.sink.isEnabled := by
  rw [flush]
  split
  · rfl
  · rfl

/-- What a flush has failed to hand on is there to fail again. -/
theorem flushFails_of_flush (h : b.flush.flushFails = true) : b.flushFails = true := by
  cases hc : b.sink.channel with
  | none =>
      simp only [flush, flushFails, hc] at h
      cases h
  | some c =>
      rcases hflush : c.flush b.disk with ⟨ok, c', d'⟩
      simp only [flush, flushFails, hc, hflush] at h ⊢
      cases ok with
      | false => rfl
      | true =>
          rw [Channel.flush, if_pos (Channel.isEmpty_of_flush hflush)] at h
          cases h

theorem isEnabled_record_of_fails (h : b.recordFails members = true) :
    (b.record members).sink.isEnabled = false := by
  cases hon : b.sink.isEnabled with
  | false => rw [record_of_off hon, hon]
  | true =>
      rw [record, hon, if_pos rfl, writeLine]
      rcases hopen : b.openChannel with ⟨_ | c, b'⟩
      · exact openChannel_eq_none hopen
      · rw [recordFails, hopen] at h
        rcases hwrite : c.writeLine (recordText (stamp members)) b'.disk with ⟨ok, c', d'⟩
        simp only [hwrite, Bool.not_eq_true'] at h
        subst h
        simp only [hwrite]
        rfl

theorem call?_of_off (h : b.sink.isEnabled = false) (c : Call) :
    ∃ b', b.call? c = some b' ∧ b'.sink.isEnabled = false := by
  cases c with
  | value v =>
      refine ⟨b, ?_, h⟩
      rw [call?, record?, h]
      rfl
  | step episode action outcome =>
      refine ⟨b, ?_, h⟩
      rw [call?_step, recordStep, record_of_off h]
  | episode summary =>
      refine ⟨b, ?_, h⟩
      rw [call?_episode, recordEpisode, record_of_off h]
  | flush => exact ⟨b.flush, rfl, (isEnabled_flush b).trans h⟩

theorem callAll?_of_off (h : b.sink.isEnabled = false) (calls : List Call) :
    ∃ b', b.callAll? calls = some b' ∧ b'.sink.isEnabled = false := by
  induction calls generalizing b with
  | nil => exact ⟨b, rfl, h⟩
  | cons c rest ih =>
      obtain ⟨b₁, hcall, hoff⟩ := call?_of_off h c
      obtain ⟨b₂, hrest, hoff'⟩ := ih hoff
      exact ⟨b₂, by rw [callAll?_cons, hcall, Option.bind_some, hrest], hoff'⟩

/-- A call that fails turns the sink off unless it is a flush. -/
theorem call?_of_fails (h : b.fails c = true) (hc : c ≠ .flush) :
    ∃ b', b.call? c = some b' ∧ b'.sink.isEnabled = false := by
  cases hmembers : c.members? with
  | none =>
      cases c with
      | flush => exact absurd rfl hc
      | _ => simp only [fails, hmembers, Bool.false_eq_true] at h
  | some members =>
      rw [fails_of_members? hmembers, Bool.and_eq_true] at h
      exact ⟨_, call?_of_members? hmembers b, isEnabled_record_of_fails h.2⟩

end Logbook

end HiddenTarget.Telemetry
