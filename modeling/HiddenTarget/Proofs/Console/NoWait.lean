import HiddenTarget.Proofs.Console.CommandLine

/-!
# A command line that says not to wait

`--no-wait` can be put in front of every command line that is accepted without it,
`ofArguments_cons_noWait`. Wherever it is put, if the command line is accepted then, that there
is no wait is all that it changes: `ofArguments_insert_noWait`.

For this each part of the reading is `Steady`: what has been said about waiting before makes no
difference to it, unless it says something about that itself. The word settles the option in
front of it, which would have been settled later without it; that makes no difference either,
`Progress.readAll_of_settle`.
-/

namespace HiddenTarget.Console

namespace Progress

/-- The same progress, after it has been said that nothing is to be waited for. -/
def quick (p : Progress) : Progress := { p with options := { p.options with noWait := true } }

/-- A part of the reading, after which nothing has been said about waiting, starts like that, and
it does the same if something has been said before. -/
def Steady {ε : Type} (step : Progress → Except ε Progress) : Prop :=
  ∀ p p₁, step p = .ok p₁ → p₁.options.noWait = false →
    p.options.noWait = false ∧ step p.quick = .ok p₁.quick

end Progress

theorem Options.assign_noWait (o : Options) (s : Setting) (value : String) :
    { o with noWait := true }.assign s value =
      (o.assign s value).map fun o => { o with noWait := true } := by
  cases s with
  | telemetry =>
      simp only [assign]
      split
      · rfl
      · rfl
  | _ =>
      simp only [assign]
      split
      · rfl
      · rfl

namespace Progress

variable {p p₀ p₁ p₁' : Progress}

theorem steady_give (s : Setting) (value : String) : Steady fun p => p.give s value := by
  intro p p₁ hgive hwait
  obtain ⟨hnew, o, ho, rfl⟩ := give_eq_ok hgive
  refine ⟨(Options.assign_eq_ok ho rfl).1.symm.trans hwait, ?_⟩
  have hassign : p.quick.options.assign s value = .ok { o with noWait := true } := by
    rw [quick, Options.assign_noWait, ho]
    rfl
  have hnew' : s ∉ p.quick.given := hnew
  simp only [give, if_neg hnew', hassign]
  rfl

theorem steady_settle : Steady settle := by
  intro p p₁ hsettle hwait
  cases hp : p.pending with
  | nothing =>
      obtain rfl := Except.ok.inj ((settle_of_nothing hp).symm.trans hsettle)
      exact ⟨hwait, settle_of_nothing hp⟩
  | awaiting s =>
      rw [settle_of_awaiting hp] at hsettle
      cases hsettle
  | holding s value =>
      rw [settle_of_holding hp] at hsettle
      rw [settle_of_holding (p := p.quick) hp]
      exact steady_give s value _ p₁ hsettle hwait

theorem steady_act (s : Switch) : Steady fun p => p.act s := by
  intro p p₁ hact hwait
  obtain ⟨p₀, hp, ⟨rfl, rfl⟩ | ⟨-, -, rfl⟩⟩ := act_eq_ok hact
  · obtain ⟨hbefore, hquick⟩ := steady_settle p p₀ hp hwait
    refine ⟨hbefore, ?_⟩
    simp only [act, hquick]
    rfl
  · cases hwait

theorem steady_readLong (name : String) (attached : Option String) :
    Steady fun p => p.readLong name attached := by
  intro p p₁ hread hwait
  obtain ⟨s, value, p₀, hs, rfl, hp, hgive⟩ | ⟨s, p₀, hs, rfl, hp, rfl⟩ |
    ⟨s, hs, hswitch, rfl, hact⟩ := readLong_eq_ok hread
  · obtain ⟨hmiddle, hgive'⟩ := steady_give s value p₀ p₁ hgive hwait
    obtain ⟨hbefore, hsettle'⟩ := steady_settle p p₀ hp hmiddle
    exact ⟨hbefore, by simp only [readLong, hs, hsettle', Except.bind, hgive']⟩
  · obtain ⟨hbefore, hsettle'⟩ := steady_settle p p₀ hp hwait
    refine ⟨hbefore, ?_⟩
    simp only [readLong, hs, hsettle']
    rfl
  · obtain ⟨hbefore, hact'⟩ := steady_act s p p₁ hact hwait
    exact ⟨hbefore, by simp only [readLong, hs, hswitch, hact']⟩

theorem steady_readLetters (letters : List Char) : Steady fun p => p.readLetters letters := by
  induction letters with
  | nil =>
      intro p p₁ hread hwait
      obtain rfl := Except.ok.inj hread
      exact ⟨hwait, rfl⟩
  | cons c rest ih =>
      intro p p₁ hread hwait
      simp only [readLetters] at hread ⊢
      split at hread
      · cases hread
      · next s _ =>
          split at hread
          · cases hread
          · next p₂ hact =>
              obtain ⟨hmiddle, hrest⟩ := ih p₂ p₁ hread hwait
              obtain ⟨hbefore, hact'⟩ := steady_act s p p₂ hact hmiddle
              exact ⟨hbefore, by simpa only [hact'] using hrest⟩

theorem steady_readValue (word : String) : Steady fun p => p.readValue word := by
  intro p p₁ hread hwait
  simp only [readValue] at hread
  split at hread
  · next s hp =>
      obtain rfl := Except.ok.inj hread
      have hp' : p.quick.pending = .awaiting s := hp
      refine ⟨hwait, ?_⟩
      simp only [readValue, hp']
      rfl
  · cases hread

theorem steady_read (word : String) : Steady fun p => p.read word := by
  intro p p₁ hread hwait
  have hclosed : p.quick.closed = p.closed := rfl
  have hany : p.quick.takesAnything = p.takesAnything := rfl
  simp only [read, hclosed, hany] at hread ⊢
  split at hread
  · cases hread
  · next hopen =>
      rw [if_neg hopen]
      split at hread
      · next htakes =>
          rw [if_pos htakes]
          exact steady_readValue word p p₁ hread hwait
      · next htakes =>
          rw [if_neg htakes]
          split at hread
          · obtain rfl := Except.ok.inj hread
            exact ⟨hwait, rfl⟩
          · exact steady_readLong _ _ p p₁ hread hwait
          · exact steady_readLetters _ p p₁ hread hwait
          · exact steady_readValue word p p₁ hread hwait

theorem steady_readAll (words : List String) : Steady fun p => p.readAll words := by
  induction words with
  | nil =>
      intro p p₁ hread hwait
      obtain ⟨hbefore, hsettle⟩ := steady_settle p p₁ (readAll_nil_eq_ok hread) hwait
      exact ⟨hbefore, by simp only [readAll, hsettle]⟩
  | cons word rest ih =>
      intro p p₁ hread hwait
      obtain ⟨p₂, hword, hrest⟩ := readAll_cons_eq_ok hread
      obtain ⟨hmiddle, hrest'⟩ := ih p₂ p₁ hrest hwait
      obtain ⟨hbefore, hword'⟩ := steady_read word p p₂ hword hmiddle
      exact ⟨hbefore, (readAll_cons_of_read hword').trans hrest'⟩

/-! ### Settling early -/

theorem settle_settle (hsettle : p.settle = .ok p₀) : p₀.settle = .ok p₀ :=
  settle_of_nothing (settle_eq_ok hsettle).1

theorem takesAnything_of_settle (hsettle : p.settle = .ok p₀) : p.takesAnything = false := by
  rw [Bool.eq_false_iff]
  intro htakes
  obtain ⟨s, hs, -⟩ := takesAnything_eq_true_iff.mp htakes
  exact (settle_eq_ok hsettle).2.2 s hs

theorem readValue_of_settle (hsettle : p.settle = .ok p₀) (word : String) :
    p.readValue word = .error (.usage (.unexpected word)) := by
  rw [readValue]
  split
  · next s hs => exact absurd hs ((settle_eq_ok hsettle).2.2 s)
  · rfl

theorem act_of_settle (hsettle : p.settle = .ok p₀) (s : Switch) : p.act s = p₀.act s := by
  rw [act, act, hsettle, settle_settle hsettle]

theorem readLong_of_settle (hsettle : p.settle = .ok p₀) (name : String)
    (attached : Option String) : p.readLong name attached = p₀.readLong name attached := by
  simp only [readLong, hsettle, settle_settle hsettle, act_of_settle hsettle]

theorem readLetters_of_settle (hsettle : p.settle = .ok p₀) (c : Char) (rest : List Char) :
    p.readLetters (c :: rest) = p₀.readLetters (c :: rest) := by
  simp only [readLetters, act_of_settle hsettle]

/-- A word settles what is pending, or ends the options and leaves it pending. -/
theorem read_of_settle (hsettle : p.settle = .ok p₀) (word : String) :
    p.read word = p₀.read word ∨
      (p.read word = .ok { p with closed := true } ∧
        p₀.read word = .ok { p₀ with closed := true }) := by
  have hsettle₀ := settle_settle hsettle
  simp only [read, (settle_eq_ok hsettle).2.1, takesAnything_of_settle hsettle,
    takesAnything_of_settle hsettle₀, Bool.false_eq_true, if_false, readLong_of_settle hsettle,
    readLetters_of_settle hsettle, readValue_of_settle hsettle, readValue_of_settle hsettle₀]
  split
  · exact .inl rfl
  · split
    · exact .inr ⟨rfl, rfl⟩
    · exact .inl rfl
    · exact .inl rfl
    · exact .inl rfl

/-- An option that is settled early is read as if it were settled in its time. -/
theorem readAll_of_settle (hsettle : p.settle = .ok p₀) (words : List String) :
    p.readAll words = p₀.readAll words := by
  induction words generalizing p p₀ with
  | nil => rw [readAll, readAll, hsettle, settle_of_nothing (settle_eq_ok hsettle).1]
  | cons word rest ih =>
      obtain heq | ⟨hword, hword₀⟩ := read_of_settle hsettle word
      · rw [readAll, readAll, heq]
      · rw [readAll_cons_of_read hword, readAll_cons_of_read hword₀]
        exact ih (by rw [settle_closed, hsettle, Except.map])

/-! ### The word among others -/

theorem readAll_insert_noWait {before after : List String}
    (hread : p.readAll (before ++ after) = .ok p₁) (hwait : p₁.options.noWait = false)
    (hread' : p.readAll (before ++ "--no-wait" :: after) = .ok p₁') : p₁' = p₁.quick := by
  induction before generalizing p with
  | nil =>
      obtain ⟨p₂, hword, hrest⟩ := readAll_cons_eq_ok hread'
      have hchars : "--no-wait".toList = '-' :: '-' :: 'n' :: "o-wait".toList := rfl
      have hsplit : splitAttached ('n' :: "o-wait".toList) = ("no-wait", none) := by decide
      have hany := takesAnything_eq_false hchars rfl hword hrest
      have hact : p.act .noWait = .ok p₂ := read_of_long hchars hsplit hany hword
      obtain ⟨p₀, hsettle, ⟨hs, -⟩ | ⟨-, -, rfl⟩⟩ := act_eq_ok hact
      · cases hs
      · have hlater : p₀.readAll after = .ok p₁ :=
          (readAll_of_settle hsettle after).symm.trans hread
        have hquick := (steady_readAll after p₀ p₁ hlater hwait).2
        exact Except.ok.inj (hrest.symm.trans hquick)
  | cons word rest ih =>
      obtain ⟨p₂, hword, hrest⟩ := readAll_cons_eq_ok hread
      rw [List.cons_append, readAll_cons_of_read hword] at hread'
      exact ih hrest hread'

end Progress

section Words

variable {words before after : List String} {o o' : Options}

/-- The word can be put in front of every command line that is accepted without it. -/
theorem ofArguments_cons_noWait (ho : Options.ofArguments words = .ok o)
    (hwait : o.noWait = false) :
    Options.ofArguments ("--no-wait" :: words) = .ok { o with noWait := true } := by
  obtain ⟨p, hread, rfl⟩ := readAll_of_ofArguments ho
  have hword : Progress.read {} "--no-wait" = .ok (Progress.quick {}) := rfl
  have hquick : (Progress.quick {}).readAll words = .ok p.quick :=
    (Progress.steady_readAll words {} p hread hwait).2
  rw [Options.ofArguments, Progress.readAll_cons_of_read hword, hquick]
  rfl

theorem ofArguments_insert_noWait (ho : Options.ofArguments (before ++ after) = .ok o)
    (hwait : o.noWait = false)
    (ho' : Options.ofArguments (before ++ "--no-wait" :: after) = .ok o') :
    o' = { o with noWait := true } := by
  obtain ⟨p, hread, rfl⟩ := readAll_of_ofArguments ho
  obtain ⟨p', hread', rfl⟩ := readAll_of_ofArguments ho'
  rw [Progress.readAll_insert_noWait hread hwait hread']
  rfl

end Words

end HiddenTarget.Console
