import HiddenTarget.Console.Options

/-!
# Options that have no say in the play

Whether to wait for Enter, how much to tell and where the records go has nothing to do with what
is played. `Bare` takes words that say such things out of a command line, and a command line that
is accepted is accepted without them, with the same plan: `Bare.ofArguments`.

Two readings `Agree` if they will have the same plan. An option that is read late looks different
in two readings of which one has gone past it already, so that they are compared either with the
same option in front of them or when both are settled.
-/

namespace HiddenTarget.Console

/-- The second list is the first one with some options left out that have no say in the play. -/
inductive Bare : List String → List String → Prop
  | nil : Bare [] []
  | keep (word : String) {words bare : List String} : Bare words bare →
      Bare (word :: words) (word :: bare)
  | noWait {words bare : List String} : Bare words bare → Bare ("--no-wait" :: words) bare
  | verbose {words bare : List String} : Bare words bare → Bare ("--verbose" :: words) bare
  | letters (n : Nat) {words bare : List String} : Bare words bare →
      Bare (String.ofList ('-' :: List.replicate (n + 1) 'v') :: words) bare
  | telemetry (path : String) {words bare : List String} : Bare words bare →
      Bare ("--telemetry" :: path :: words) bare
  | attached (path : String) {words bare : List String} : Bare words bare →
      Bare (("--telemetry=" ++ path) :: words) bare

namespace Progress

variable {p p₀ p₁ p₂ q q₀ : Progress} {s : Setting} {word value : String}

/-! ## Settling -/

theorem settle_of_nothing (h : p.pending = .nothing) : p.settle = .ok p := by
  rw [settle, h]

theorem settle_of_awaiting (h : p.pending = .awaiting s) :
    p.settle = .error (.valueMissing s.label) := by
  rw [settle, h]

theorem settle_of_holding (h : p.pending = .holding s value) :
    p.settle = { p with pending := .nothing }.give s value := by
  rw [settle, h]

theorem give_eq_ok (h : p.give s value = .ok p₁) :
    s ∉ p.given ∧ ∃ o, p.options.assign s value = .ok o ∧
      p₁ = { p with options := o, given := s :: p.given } := by
  rw [give] at h
  split at h
  · cases h
  · next hs =>
      cases ho : p.options.assign s value with
      | error e =>
          rw [ho] at h
          cases h
      | ok o =>
          rw [ho] at h
          cases h
          exact ⟨hs, o, rfl, rfl⟩

theorem settle_eq_ok (h : p.settle = .ok p₀) :
    p₀.pending = .nothing ∧ p₀.closed = p.closed ∧ ∀ s, p.pending ≠ .awaiting s := by
  cases hp : p.pending with
  | nothing =>
      rw [settle_of_nothing hp] at h
      cases h
      exact ⟨hp, rfl, fun s => by simp⟩
  | awaiting s =>
      rw [settle_of_awaiting hp] at h
      cases h
  | holding s value =>
      rw [settle_of_holding hp] at h
      obtain ⟨-, o, -, rfl⟩ := give_eq_ok h
      exact ⟨rfl, rfl, fun s => by simp⟩

/-! ## Readings with the same plan -/

/-- What is read of two command lines comes to the same plan, and nothing stands in the way of the
second one that does not stand in the way of the first. -/
structure Alike (p q : Progress) : Prop where
  plan : q.options.plan = p.options.plan
  given : q.given ⊆ p.given
  noWait : q.options.noWait = true → p.options.noWait = true
  closed : q.closed = p.closed

/-- Two readings have the same option in front of them, or are alike when they are settled. -/
inductive Agree (p q : Progress) : Prop
  | same : q.pending = p.pending → p.Alike q → Agree p q
  | settled {p₀ q₀ : Progress} : p.settle = .ok p₀ → q.settle = .ok q₀ → p₀.Alike q₀ → Agree p q

end Progress

theorem Options.assign_eq_ok {o o' o₁ : Options} {s : Setting} {value : String}
    (h : o.assign s value = .ok o₁) (hplan : o'.plan = o.plan) :
    o₁.noWait = o.noWait ∧ (s = .telemetry → o₁.plan = o.plan) ∧
      ∃ o₁', o'.assign s value = .ok o₁' ∧ o₁'.plan = o₁.plan ∧ o₁'.noWait = o'.noWait := by
  cases s with
  | telemetry =>
      rw [assign] at h
      split at h
      · cases h
      · next hvalue =>
          cases h
          exact ⟨rfl, fun _ => rfl, _, if_neg hvalue, hplan, rfl⟩
  | _ =>
      simp only [assign, hplan] at h ⊢
      split at h
      · cases h
        exact ⟨rfl, nofun, _, rfl, rfl, rfl⟩
      · cases h

namespace Progress

variable {p p₀ p₁ p₂ q q₀ : Progress} {s : Setting} {word value name : String}

/-! ## One step of two readings -/

theorem Alike.give (h : p.Alike q) (hgive : p.give s value = .ok p₁) :
    p₁.pending = p.pending ∧ ∃ q₁, q.give s value = .ok q₁ ∧ q₁.pending = q.pending ∧
      p₁.Alike q₁ := by
  obtain ⟨hnew, o, ho, rfl⟩ := give_eq_ok hgive
  obtain ⟨hwait, -, o', ho', hplan, hwait'⟩ := Options.assign_eq_ok ho h.plan
  have hnew' : s ∉ q.given := fun hs => hnew (h.given hs)
  refine ⟨rfl, { q with options := o', given := s :: q.given }, ?_, rfl, ?_⟩
  · rw [Progress.give, if_neg hnew', ho']
    rfl
  · exact {
      plan := hplan
      given := List.cons_subset_cons s h.given
      noWait := fun hq => hwait.trans (h.noWait (hwait'.symm.trans hq))
      closed := h.closed }

theorem Agree.settle (h : p.Agree q) (hsettle : p.settle = .ok p₀) :
    ∃ q₀, q.settle = .ok q₀ ∧ p₀.Alike q₀ := by
  cases h with
  | settled hp hq halike =>
      obtain rfl := Except.ok.inj (hp.symm.trans hsettle)
      exact ⟨_, hq, halike⟩
  | same hpending halike =>
      cases hp : p.pending with
      | nothing =>
          rw [settle_of_nothing hp] at hsettle
          cases hsettle
          exact ⟨q, settle_of_nothing (hpending.trans hp), halike⟩
      | awaiting s =>
          rw [settle_of_awaiting hp] at hsettle
          cases hsettle
      | holding s value =>
          rw [settle_of_holding hp] at hsettle
          rw [settle_of_holding (hpending.trans hp)]
          have hreset : Alike { p with pending := .nothing } { q with pending := .nothing } :=
            ⟨halike.plan, halike.given, halike.noWait, halike.closed⟩
          obtain ⟨-, q₀, hq, -, hq₀⟩ := hreset.give hsettle
          exact ⟨q₀, hq, hq₀⟩

theorem Agree.closed (h : p.Agree q) : q.closed = p.closed := by
  cases h with
  | same _ halike => exact halike.closed
  | settled hp hq halike =>
      rw [← (settle_eq_ok hp).2.1, ← (settle_eq_ok hq).2.1, halike.closed]

theorem Agree.awaiting (h : p.Agree q) (s : Setting) :
    p.pending = .awaiting s ↔ q.pending = .awaiting s := by
  cases h with
  | same hpending _ => rw [hpending]
  | settled hp hq _ => exact iff_of_false ((settle_eq_ok hp).2.2 s) ((settle_eq_ok hq).2.2 s)

theorem takesAnything_eq_true_iff :
    p.takesAnything = true ↔ ∃ s, p.pending = .awaiting s ∧ s.takesDashes = true := by
  rw [takesAnything]
  cases p.pending with
  | awaiting s => simp
  | _ => simp

theorem Agree.takesAnything (h : p.Agree q) : q.takesAnything = p.takesAnything := by
  rw [Bool.eq_iff_iff, takesAnything_eq_true_iff, takesAnything_eq_true_iff]
  simp only [h.awaiting]

theorem settle_closed (p : Progress) :
    { p with closed := true }.settle = p.settle.map fun p => { p with closed := true } := by
  cases hp : p.pending with
  | nothing => simp only [Progress.settle, hp, Except.map]
  | awaiting s => simp only [Progress.settle, hp, Except.map]
  | holding s value =>
      simp only [Progress.settle, hp, give]
      split
      · rfl
      · cases p.options.assign s value with
        | error e => rfl
        | ok o => rfl

theorem Agree.close (h : p.Agree q) :
    { p with closed := true }.Agree { q with closed := true } := by
  cases h with
  | same hpending halike =>
      exact .same hpending ⟨halike.plan, halike.given, halike.noWait, rfl⟩
  | settled hp hq halike =>
      refine .settled (by rw [settle_closed, hp, Except.map])
        (by rw [settle_closed, hq, Except.map]) ?_
      exact ⟨halike.plan, halike.given, halike.noWait, rfl⟩

theorem act_eq_ok {s : Switch} (h : p.act s = .ok p₁) :
    ∃ p₀, p.settle = .ok p₀ ∧
      ((s = .verbose ∧ p₁ = { p₀ with options := { p₀.options with
          verbosity := min (p₀.options.verbosity + 1) 255 } }) ∨
        (s = .noWait ∧ p₀.options.noWait = false ∧
          p₁ = { p₀ with options := { p₀.options with noWait := true } })) := by
  rw [act] at h
  split at h
  · cases h
  · next p₀ hsettle =>
      refine ⟨p₀, hsettle, ?_⟩
      cases s with
      | help => cases h
      | version => cases h
      | verbose =>
          cases h
          exact .inl ⟨rfl, rfl⟩
      | noWait =>
          simp only at h
          split at h
          · cases h
          · next hwait =>
              cases h
              exact .inr ⟨rfl, Bool.eq_false_iff.mpr hwait, rfl⟩

theorem Agree.act {s : Switch} (h : p.Agree q) (hact : p.act s = .ok p₁) :
    ∃ q₁, q.act s = .ok q₁ ∧ p₁.Agree q₁ := by
  obtain ⟨p₀, hp, hcases⟩ := act_eq_ok hact
  obtain ⟨q₀, hq, halike⟩ := h.settle hp
  have hpending : q₀.pending = p₀.pending := by
    rw [(settle_eq_ok hp).1, (settle_eq_ok hq).1]
  obtain ⟨rfl, rfl⟩ | ⟨rfl, hwait, rfl⟩ := hcases
  · refine ⟨{ q₀ with options := { q₀.options with
      verbosity := min (q₀.options.verbosity + 1) 255 } }, ?_, .same hpending ?_⟩
    · simp only [Progress.act, hq]
    · exact ⟨halike.plan, halike.given, halike.noWait, halike.closed⟩
  · have hwait' : q₀.options.noWait ≠ true := fun htrue => by
      rw [halike.noWait htrue] at hwait
      cases hwait
    refine ⟨{ q₀ with options := { q₀.options with noWait := true } }, ?_, .same hpending ?_⟩
    · simp only [Progress.act, hq, if_neg hwait']
    · exact ⟨halike.plan, halike.given, fun _ => rfl, halike.closed⟩

theorem readLong_eq_ok {attached : Option String} (h : p.readLong name attached = .ok p₁) :
    (∃ s value p₀, Setting.ofName? name = some s ∧ attached = some value ∧ p.settle = .ok p₀ ∧
        p₀.give s value = .ok p₁) ∨
      (∃ s p₀, Setting.ofName? name = some s ∧ attached = none ∧ p.settle = .ok p₀ ∧
        p₁ = { p₀ with pending := .awaiting s }) ∨
      ∃ s, Setting.ofName? name = none ∧ Switch.ofName? name = some s ∧ attached = none ∧
        p.act s = .ok p₁ := by
  unfold readLong at h
  split at h
  · next s value hs =>
      cases hp : p.settle with
      | error e =>
          rw [hp] at h
          cases h
      | ok p₀ =>
          simp only [hp, Except.bind] at h
          cases hgive : p₀.give s value with
          | error e =>
              rw [hgive] at h
              cases h
          | ok p₂ =>
              rw [hgive] at h
              cases h
              exact .inl ⟨s, value, p₀, hs, rfl, rfl, hgive⟩
  · next s hs =>
      cases hp : p.settle with
      | error e =>
          rw [hp] at h
          cases h
      | ok p₀ =>
          rw [hp] at h
          cases h
          exact .inr (.inl ⟨s, p₀, hs, rfl, rfl, rfl⟩)
  · next s hs hswitch => exact .inr (.inr ⟨s, hs, hswitch, rfl, h⟩)
  · cases h
  · cases h

theorem Agree.readLong {attached : Option String} (h : p.Agree q)
    (hread : p.readLong name attached = .ok p₁) :
    ∃ q₁, q.readLong name attached = .ok q₁ ∧ p₁.Agree q₁ := by
  obtain ⟨s, value, p₀, hs, rfl, hp, hgive⟩ | ⟨s, p₀, hs, rfl, hp, rfl⟩ |
      ⟨s, hs, hswitch, rfl, hact⟩ := readLong_eq_ok hread
  · obtain ⟨q₀, hq, halike⟩ := h.settle hp
    obtain ⟨hpending, q₁, hq₁, hpending', halike'⟩ := halike.give hgive
    refine ⟨q₁, by simp only [Progress.readLong, hs, hq, Except.bind, hq₁], .same ?_ halike'⟩
    rw [hpending, hpending', (settle_eq_ok hp).1, (settle_eq_ok hq).1]
  · obtain ⟨q₀, hq, halike⟩ := h.settle hp
    refine ⟨{ q₀ with pending := .awaiting s }, by simp only [Progress.readLong, hs, hq],
      .same rfl ?_⟩
    exact ⟨halike.plan, halike.given, halike.noWait, halike.closed⟩
  · obtain ⟨q₁, hq₁, hagree⟩ := h.act hact
    exact ⟨q₁, by simp only [Progress.readLong, hs, hswitch, hq₁], hagree⟩

theorem Agree.readLetters {letters : List Char} (h : p.Agree q)
    (hread : p.readLetters letters = .ok p₁) :
    ∃ q₁, q.readLetters letters = .ok q₁ ∧ p₁.Agree q₁ := by
  induction letters generalizing p q with
  | nil =>
      cases hread
      exact ⟨q, rfl, h⟩
  | cons c rest ih =>
      rw [Progress.readLetters] at hread ⊢
      split at hread
      · cases hread
      · next s _ =>
          split at hread
          · cases hread
          · next p₂ hact =>
              obtain ⟨q₂, hq, h₂⟩ := h.act hact
              simp only [hq]
              exact ih h₂ hread

theorem Agree.readValue (h : p.Agree q) (hread : p.readValue word = .ok p₁) :
    ∃ q₁, q.readValue word = .ok q₁ ∧ p₁.Agree q₁ := by
  rw [Progress.readValue] at hread
  split at hread
  · next s hp =>
      cases hread
      refine ⟨{ q with pending := .holding s word }, ?_, ?_⟩
      · rw [Progress.readValue, (h.awaiting s).mp hp]
      · cases h with
        | same _ halike =>
            exact .same rfl ⟨halike.plan, halike.given, halike.noWait, halike.closed⟩
        | settled hsettle _ _ => exact absurd hp ((settle_eq_ok hsettle).2.2 s)
  · cases hread

/-- What one reading takes, the other one takes as well, and they go on to agree. -/
theorem Agree.read (h : p.Agree q) (hread : p.read word = .ok p₁) :
    ∃ q₁, q.read word = .ok q₁ ∧ p₁.Agree q₁ := by
  rw [Progress.read] at hread ⊢
  rw [h.closed, h.takesAnything]
  split at hread
  · cases hread
  · next hopen =>
      rw [if_neg hopen]
      split at hread
      · next hany =>
          rw [if_pos hany]
          exact h.readValue hread
      · next hany =>
          rw [if_neg hany]
          split at hread
          · cases hread
            exact ⟨_, rfl, h.close⟩
          · exact h.readLong hread
          · exact h.readLetters hread
          · exact h.readValue hread

/-! ## Words that are left out -/

theorem Agree.act_left {s : Switch} (h : p.Agree q) (hact : p.act s = .ok p₁) : p₁.Agree q := by
  obtain ⟨p₀, hp, hcases⟩ := act_eq_ok hact
  obtain ⟨q₀, hq, halike⟩ := h.settle hp
  have hpending := (settle_eq_ok hp).1
  obtain ⟨-, rfl⟩ | ⟨-, -, rfl⟩ := hcases
  · exact .settled (settle_of_nothing hpending) hq
      ⟨halike.plan, halike.given, halike.noWait, halike.closed⟩
  · exact .settled (settle_of_nothing hpending) hq
      ⟨halike.plan, halike.given, fun _ => rfl, halike.closed⟩

theorem Agree.readLetters_left {letters : List Char} (h : p.Agree q)
    (hread : p.readLetters letters = .ok p₁) : p₁.Agree q := by
  induction letters generalizing p with
  | nil =>
      cases hread
      exact h
  | cons c rest ih =>
      rw [Progress.readLetters] at hread
      split at hread
      · cases hread
      · split at hread
        · cases hread
        · next hact => exact ih (h.act_left hact) hread

theorem read_eq_ok (hany : p.takesAnything = false) (h : p.read word = .ok p₁) :
    p.closed = false ∧
      (p₁ = { p with closed := true } ∨
        (∃ s, p.pending = .awaiting s ∧ p₁ = { p with pending := .holding s word }) ∨
        ∃ p₀, p.settle = .ok p₀) := by
  have hlong : ∀ name attached, p.readLong name attached = .ok p₁ → ∃ p₀, p.settle = .ok p₀ := by
    intro name attached hlong
    obtain ⟨-, -, p₀, -, -, hp, -⟩ | ⟨-, p₀, -, -, hp, -⟩ | ⟨s, -, -, -, hact⟩ :=
      readLong_eq_ok hlong
    · exact ⟨p₀, hp⟩
    · exact ⟨p₀, hp⟩
    · obtain ⟨p₀, hp, -⟩ := act_eq_ok hact
      exact ⟨p₀, hp⟩
  have hletters : ∀ c rest, p.readLetters (c :: rest) = .ok p₁ → ∃ p₀, p.settle = .ok p₀ := by
    intro c rest hletters
    rw [readLetters] at hletters
    split at hletters
    · cases hletters
    · split at hletters
      · cases hletters
      · next hact =>
          obtain ⟨p₀, hp, -⟩ := act_eq_ok hact
          exact ⟨p₀, hp⟩
  have hvalue : p.readValue word = .ok p₁ →
      ∃ s, p.pending = .awaiting s ∧ p₁ = { p with pending := .holding s word } := by
    intro hvalue
    rw [readValue] at hvalue
    split at hvalue
    · next s hp =>
        cases hvalue
        exact ⟨s, hp, rfl⟩
    · cases hvalue
  rw [read, hany] at h
  split at h
  · cases h
  · next hopen =>
      refine ⟨Bool.eq_false_iff.mpr hopen, ?_⟩
      simp only [Bool.false_eq_true, if_false] at h
      split at h
      · cases h
        exact .inl rfl
      · exact .inr (.inr (hlong _ _ h))
      · exact .inr (.inr (hletters _ _ h))
      · exact .inr (.inl (hvalue h))

theorem readAll_cons_of_read {words : List String} (h : p.read word = .ok p₁) :
    p.readAll (word :: words) = p₁.readAll words := by
  rw [readAll, h]

theorem readAll_cons_eq_ok {words : List String} (h : p.readAll (word :: words) = .ok p₁) :
    ∃ p₂, p.read word = .ok p₂ ∧ p₂.readAll words = .ok p₁ := by
  rw [readAll] at h
  split at h
  · next p₂ hread => exact ⟨p₂, hread, h⟩
  · cases h

theorem readAll_nil_eq_ok (h : p.readAll [] = .ok p₁) : p.settle = .ok p₁ := by
  rw [readAll] at h
  split at h
  · next hp =>
      cases h
      exact hp
  · cases h

theorem readAll_of_closed {words : List String} (hclosed : p.closed = true)
    (h : p.readAll words = .ok p₁) : p.settle = .ok p₁ := by
  cases words with
  | nil => exact readAll_nil_eq_ok h
  | cons word rest =>
      obtain ⟨p₂, hread, -⟩ := readAll_cons_eq_ok h
      rw [read, if_pos hclosed] at hread
      cases hread

/-- A value that is held back is looked at in the end. -/
theorem settle_of_readAll {words : List String} (hp : p.pending = .holding s value)
    (h : p.readAll words = .ok p₁) : ∃ p₀, p.settle = .ok p₀ := by
  cases words with
  | nil => exact ⟨p₁, readAll_nil_eq_ok h⟩
  | cons word rest =>
      have hany : p.takesAnything = false := by rw [takesAnything, hp]
      obtain ⟨p₂, hread, hrest⟩ := readAll_cons_eq_ok h
      obtain ⟨-, rfl | ⟨s', hs', -⟩ | hsettle⟩ := read_eq_ok hany hread
      · have hsettle := readAll_of_closed rfl hrest
        rw [settle_closed] at hsettle
        cases hp₀ : p.settle with
        | error e =>
            rw [hp₀] at hsettle
            cases hsettle
        | ok p₀ => exact ⟨p₀, rfl⟩
      · rw [hp] at hs'
        cases hs'
      · exact hsettle

theorem assign_of_dash {o : Options} {c : Char} {rest : List Char} (hs : s.takesDashes = true)
    (hword : word.toList = '-' :: c :: rest) (hc : Decimal.digit? c = none) :
    ∃ e, o.assign s word = .error e := by
  have hread : Decimal.IntegerRange.int64.read word.toList = .error .badDigit := by
    simp only [hword, Decimal.IntegerRange.int64, Decimal.IntegerRange.read, Decimal.readDigits, hc]
    rfl
  have hbounded : ∀ range, readBounded range word = .error (.unreadable .badDigit) := by
    intro range
    rw [readBounded, hread]
  cases s with
  | actionLow => exact ⟨_, by rw [Options.assign, hbounded]; rfl⟩
  | actionHigh => exact ⟨_, by rw [Options.assign, hbounded]; rfl⟩
  | _ => cases hs

theorem takesAnything_eq_false {words : List String} {c : Char} {rest : List Char}
    (hword : word.toList = '-' :: c :: rest) (hc : Decimal.digit? c = none)
    (hread : p.read word = .ok p₂) (hrest : p₂.readAll words = .ok p₁) :
    p.takesAnything = false := by
  rw [Bool.eq_false_iff]
  intro hany
  obtain ⟨s, hp, hs⟩ := takesAnything_eq_true_iff.mp hany
  rw [read, if_pos hany, readValue, hp] at hread
  split at hread
  · cases hread
  · cases hread
    obtain ⟨p₀, hp₀⟩ := settle_of_readAll rfl hrest
    obtain ⟨-, o, ho, -⟩ := give_eq_ok ((settle_of_holding rfl).symm.trans hp₀)
    obtain ⟨e, he⟩ := assign_of_dash (o := p.options) hs hword hc
    rw [he] at ho
    cases ho

theorem read_of_long {c : Char} {rest : List Char} {attached : Option String}
    (hword : word.toList = '-' :: '-' :: c :: rest)
    (hsplit : splitAttached (c :: rest) = (name, attached)) (hany : p.takesAnything = false)
    (hread : p.read word = .ok p₁) : p.readLong name attached = .ok p₁ := by
  have hopen := (read_eq_ok hany hread).1
  rw [read, hopen, hany, hword] at hread
  simp only [Bool.false_eq_true, if_false, hsplit] at hread
  exact hread

theorem Agree.read_switch {words : List String} {c : Char} {rest : List Char} (h : p.Agree q)
    (hword : word.toList = '-' :: '-' :: c :: rest)
    (hsplit : splitAttached (c :: rest) = (name, none)) (hname : Setting.ofName? name = none)
    (hread : p.read word = .ok p₂) (hrest : p₂.readAll words = .ok p₁) : p₂.Agree q := by
  have hany := takesAnything_eq_false hword rfl hread hrest
  obtain ⟨s, value, p₀, hs, -⟩ | ⟨s, p₀, hs, -⟩ | ⟨s, -, -, -, hact⟩ :=
    readLong_eq_ok (read_of_long hword hsplit hany hread)
  · rw [hname] at hs
    cases hs
  · rw [hname] at hs
    cases hs
  · exact h.act_left hact

theorem Agree.read_letters {words : List String} {n : Nat} (h : p.Agree q)
    (hread : p.read (String.ofList ('-' :: List.replicate (n + 1) 'v')) = .ok p₂)
    (hrest : p₂.readAll words = .ok p₁) : p₂.Agree q := by
  have hword : (String.ofList ('-' :: List.replicate (n + 1) 'v')).toList =
      '-' :: 'v' :: List.replicate n 'v' := String.toList_ofList
  have hany := takesAnything_eq_false hword rfl hread hrest
  have hopen := (read_eq_ok hany hread).1
  rw [Progress.read, hopen, hany, hword] at hread
  simp only [Bool.false_eq_true, if_false] at hread
  exact h.readLetters_left hread

theorem Alike.give_telemetry_left (h : p.Alike q) (hgive : p.give .telemetry value = .ok p₁) :
    p₁.Alike q := by
  obtain ⟨-, o, ho, rfl⟩ := give_eq_ok hgive
  obtain ⟨hwait, hplan, -⟩ := Options.assign_eq_ok ho rfl
  exact {
    plan := h.plan.trans (hplan rfl).symm
    given := fun s hs => List.mem_cons_of_mem _ (h.given hs)
    noWait := fun hq => hwait.trans (h.noWait hq)
    closed := h.closed }

theorem Agree.read_attached {words : List String} {path : String} (h : p.Agree q)
    (hread : p.read ("--telemetry=" ++ path) = .ok p₂) (hrest : p₂.readAll words = .ok p₁) :
    p₂.Agree q := by
  have hword : ("--telemetry=" ++ path).toList =
      '-' :: '-' :: 't' :: ("elemetry=".toList ++ path.toList) := String.toList_append
  have hany := takesAnything_eq_false hword rfl hread hrest
  have hsplit : splitAttached ('t' :: ("elemetry=".toList ++ path.toList)) =
      ("telemetry", some (String.ofList path.toList)) := rfl
  obtain ⟨s, value, p₀, hs, hvalue, hp, hgive⟩ | ⟨s, p₀, -, hnone, -⟩ | ⟨s, hnone, -⟩ :=
    readLong_eq_ok (read_of_long hword hsplit hany hread)
  · obtain rfl : Setting.telemetry = s := Option.some.inj hs
    obtain ⟨q₀, hq, halike⟩ := h.settle hp
    have hpending : p₂.pending = .nothing := (halike.give hgive).1.trans (settle_eq_ok hp).1
    exact .settled (settle_of_nothing hpending) hq (halike.give_telemetry_left hgive)
  · cases hnone
  · cases hnone

theorem Agree.read_telemetry {words : List String} {path : String} {p₃ : Progress} (h : p.Agree q)
    (hread : p.read "--telemetry" = .ok p₂) (hpath : p₂.read path = .ok p₃)
    (hrest : p₃.readAll words = .ok p₁) : p₃.Agree q := by
  have hword : "--telemetry".toList = '-' :: '-' :: 't' :: "elemetry".toList := rfl
  have hsplit : splitAttached ('t' :: "elemetry".toList) = ("telemetry", none) := by decide
  have hall : p₂.readAll (path :: words) = .ok p₁ := (readAll_cons_of_read hpath).trans hrest
  have hany := takesAnything_eq_false hword rfl hread hall
  obtain ⟨s, value, p₀, -, hnone, -⟩ | ⟨s, p₀, hs, -, hp, rfl⟩ | ⟨s, hnone, -⟩ :=
    readLong_eq_ok (read_of_long hword hsplit hany hread)
  · cases hnone
  · obtain rfl : Setting.telemetry = s := Option.some.inj hs
    obtain ⟨q₀, hq, halike⟩ := h.settle hp
    obtain ⟨-, rfl | ⟨s, hs', rfl⟩ | ⟨p', hp'⟩⟩ := read_eq_ok rfl hpath
    · cases readAll_of_closed rfl hrest
    · cases hs'
      obtain ⟨p₄, hsettle⟩ := settle_of_readAll rfl hrest
      refine .settled hsettle hq (Alike.give_telemetry_left ?_ hsettle)
      exact ⟨halike.plan, halike.given, halike.noWait, halike.closed⟩
    · cases hp'
  · cases hnone

end Progress

open Progress in
theorem Bare.readAll {words bare : List String} (h : Bare words bare) {p p₁ q : Progress}
    (hagree : p.Agree q) (hread : p.readAll words = .ok p₁) :
    ∃ q₁, q.readAll bare = .ok q₁ ∧ q₁.options.plan = p₁.options.plan := by
  induction h generalizing p q with
  | nil =>
      obtain ⟨q₁, hq, halike⟩ := hagree.settle (readAll_nil_eq_ok hread)
      exact ⟨q₁, by rw [Progress.readAll, hq], halike.plan⟩
  | keep word _ ih =>
      obtain ⟨p₂, hword, hrest⟩ := readAll_cons_eq_ok hread
      obtain ⟨q₂, hq, hagree'⟩ := hagree.read hword
      obtain ⟨q₁, hq₁, hplan⟩ := ih hagree' hrest
      exact ⟨q₁, (readAll_cons_of_read hq).trans hq₁, hplan⟩
  | noWait _ ih =>
      obtain ⟨p₂, hword, hrest⟩ := readAll_cons_eq_ok hread
      have hchars : "--no-wait".toList = '-' :: '-' :: 'n' :: "o-wait".toList := rfl
      exact ih (hagree.read_switch hchars rfl rfl hword hrest) hrest
  | verbose _ ih =>
      obtain ⟨p₂, hword, hrest⟩ := readAll_cons_eq_ok hread
      have hchars : "--verbose".toList = '-' :: '-' :: 'v' :: "erbose".toList := rfl
      exact ih (hagree.read_switch hchars rfl rfl hword hrest) hrest
  | letters n _ ih =>
      obtain ⟨p₂, hword, hrest⟩ := readAll_cons_eq_ok hread
      exact ih (hagree.read_letters hword hrest) hrest
  | telemetry path _ ih =>
      obtain ⟨p₂, hword, hpath⟩ := readAll_cons_eq_ok hread
      obtain ⟨p₃, hpath, hrest⟩ := readAll_cons_eq_ok hpath
      exact ih (hagree.read_telemetry hword hpath hrest) hrest
  | attached path _ ih =>
      obtain ⟨p₂, hword, hrest⟩ := readAll_cons_eq_ok hread
      exact ih (hagree.read_attached hword hrest) hrest

theorem readAll_of_ofArguments {words : List String} {o : Options}
    (ho : Options.ofArguments words = .ok o) :
    ∃ p, Progress.readAll {} words = .ok p ∧ p.options = o := by
  rw [Options.ofArguments] at ho
  cases hread : Progress.readAll {} words with
  | error e =>
      rw [hread] at ho
      cases ho
  | ok p =>
      rw [hread] at ho
      exact ⟨p, rfl, Except.ok.inj ho⟩

/-- **A command line that is accepted is accepted without the words that only present the play**,
and the plan is the same. -/
theorem Bare.ofArguments {words bare : List String} (h : Bare words bare) {o : Options}
    (ho : Options.ofArguments words = .ok o) :
    ∃ o', Options.ofArguments bare = .ok o' ∧ o'.plan = o.plan := by
  obtain ⟨p₁, hread, rfl⟩ := readAll_of_ofArguments ho
  have hagree : Progress.Agree {} {} := .same rfl ⟨rfl, List.Subset.refl _, id, rfl⟩
  obtain ⟨q₁, hq, hplan⟩ := h.readAll hagree hread
  exact ⟨q₁.options, by rw [Options.ofArguments, hq]; rfl, hplan⟩

/-- Two command lines differ in options only that have no say in the play. -/
def SamePlay (words words' : List String) : Prop := ∃ bare, Bare words bare ∧ Bare words' bare

theorem Bare.refl (words : List String) : Bare words words := by
  induction words with
  | nil => exact .nil
  | cons word _ ih => exact .keep word ih

theorem SamePlay.refl (words : List String) : SamePlay words words :=
  ⟨words, .refl words, .refl words⟩

theorem SamePlay.plan_eq {words words' : List String} (h : SamePlay words words') {o o' : Options}
    (ho : Options.ofArguments words = .ok o) (ho' : Options.ofArguments words' = .ok o') :
    o'.plan = o.plan := by
  obtain ⟨bare, hbare, hbare'⟩ := h
  obtain ⟨o₁, ho₁, hplan⟩ := hbare.ofArguments ho
  obtain ⟨o₂, ho₂, hplan'⟩ := hbare'.ofArguments ho'
  obtain rfl := Except.ok.inj (ho₁.symm.trans ho₂)
  exact hplan'.symm.trans hplan

end HiddenTarget.Console
