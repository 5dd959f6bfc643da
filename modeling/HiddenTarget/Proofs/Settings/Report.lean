import HiddenTarget.Proofs.Decimal.Characters
import HiddenTarget.Settings.Override

/-!
# The report of the variables

A variable that is set is reported on a line, and what it holds cannot end that line: a text is
quoted with all its control characters escaped, `noControl_quote`, and numbers have none. So the
report is one line for each variable that is set, `report_lines`, and a warning stands there for
the variables whose texts are no values, and for no others.
-/

namespace HiddenTarget

/-! ## Text without control characters -/

namespace Text

def NoControl (s : List Char) : Prop := ∀ c ∈ s, isControl c = false

instance (s : List Char) : Decidable (NoControl s) :=
  s.decidableBAll (isControl · = false)

variable {s t : List Char}

theorem NoControl.append (hs : NoControl s) (ht : NoControl t) : NoControl (s ++ t) := by
  intro c hc
  rcases List.mem_append.mp hc with hc | hc
  · exact hs c hc
  · exact ht c hc

theorem isControl_of_inNumber {c : Char} (h : Decimal.InNumber c) : isControl c = false := by
  obtain ⟨hlow, hhigh⟩ := h.visible
  simp only [isControl, Bool.or_eq_false_iff, Bool.and_eq_false_imp, decide_eq_true_eq,
    decide_eq_false_iff_not]
  omega

theorem noControl_hexDigits (n : Nat) : NoControl (hexDigits n) := by
  have hdigit : ∀ k < 16, isControl (Nat.digitChar k) = false := by decide
  induction n using Nat.strongRecOn with
  | ind n ih =>
      rw [hexDigits, Nat.toDigits_eq_if (by decide)]
      split
      · next hn => exact List.forall_mem_singleton.mpr (hdigit n hn)
      · next hn =>
          have hlast := hdigit (n % 16) (Nat.mod_lt n (by decide))
          exact (ih (n / 16) (by omega)).append (List.forall_mem_singleton.mpr hlast)

theorem noControl_codeEscape (c : Char) : NoControl (codeEscape c) := by
  have hfront : NoControl ['\\', 'u', '\x7b'] := by decide
  have hback : NoControl ['\x7d'] := by decide
  exact (hfront.append (noControl_hexDigits c.toNat)).append hback

theorem noControl_quoteChar (c : Char) : NoControl (quoteChar c) := by
  rw [quoteChar]
  split_ifs with h1 h2 h3 h4 h5 h6 h7
  · decide
  · decide
  · decide
  · decide
  · decide
  · decide
  · exact noControl_codeEscape c
  · simp only [Bool.or_eq_true, not_or, Bool.not_eq_true] at h7
    exact List.forall_mem_singleton.mpr h7.1

/-- **A quoted text has no control character**, whatever it is. -/
theorem noControl_quote (s : List Char) : NoControl (quote s) := by
  have hquote : NoControl ['"'] := by decide
  have htext : NoControl (s.flatMap quoteChar) := by
    intro c hc
    obtain ⟨d, -, hc⟩ := List.mem_flatMap.mp hc
    exact noControl_quoteChar d c hc
  exact (hquote.append htext).append hquote

end Text

open Text

/-! ## Settings -/

/-- A rule with a variable of its own. The variables have names with a common front, and neither
the names nor the written values have control characters. -/
structure Setting where
  Value : Type
  numeral : Numeral Value
  key : String
  get : Rules → Value
  named : "SIMPLE_ENV_".toList <+: key.toList
  noControl_key : NoControl key.toList
  noControl_write : ∀ v, NoControl (numeral.write v)

namespace Setting

def maxSteps : Setting where
  Value := UInt32
  numeral := .uint32
  key := Rules.maxStepsKey
  get := Rules.maxSteps
  named := by decide
  noControl_key := by decide
  noControl_write _ _ hc := isControl_of_inNumber (Decimal.inNumber_of_mem_natural hc)

def numTargets : Setting where
  Value := Int32
  numeral := .int32
  key := Rules.numTargetsKey
  get := Rules.numTargets
  named := by decide
  noControl_key := by decide
  noControl_write _ _ hc := isControl_of_inNumber (Decimal.inNumber_of_mem_integer hc)

theorem noControl_write_real (x : Float) : NoControl (Numeral.real.write x) := by
  have hnan : NoControl Decimal.Layout.plain.nan.toList := by decide
  have hinfinity : NoControl Decimal.Layout.plain.infinity.toList := by decide
  intro c hc
  rcases Decimal.Layout.mem_render hc with hc | hc | hc
  · exact isControl_of_inNumber hc
  · exact hnan c hc
  · exact hinfinity c hc

def hitReward : Setting where
  Value := Float
  numeral := .real
  key := Rules.hitRewardKey
  get := Rules.hitReward
  named := by decide
  noControl_key := by decide
  noControl_write := noControl_write_real

def missReward : Setting where
  Value := Float
  numeral := .real
  key := Rules.missRewardKey
  get := Rules.missReward
  named := by decide
  noControl_key := by decide
  noControl_write := noControl_write_real

def all : List Setting := [maxSteps, numTargets, hitReward, missReward]

def override (s : Setting) (lookup : String → Option String) (r : Rules) :
    s.Value × List Override :=
  s.numeral.override s.key (lookup s.key) (s.get r)

theorem get_override {s : Setting} (hs : s ∈ all) (r : Rules) (lookup : String → Option String) :
    s.get (r.override lookup).1 = (s.override lookup r).1 := by
  simp only [all, List.mem_cons, List.not_mem_nil, or_false] at hs
  rcases hs with rfl | rfl | rfl | rfl
  · rfl
  · rfl
  · rfl
  · rfl

theorem override_snd (r : Rules) (lookup : String → Option String) :
    (r.override lookup).2 = all.flatMap fun s => (s.override lookup r).2 := by
  simp only [all, List.flatMap_cons, List.flatMap_nil, List.append_nil, ← List.append_assoc]
  rfl

/-! ## Lines -/

/-- What stands on the line of a setting whose variable holds the given text: which variable it
is, and a warning in front of it exactly if the text is no value, so that the rule is what it
was. -/
structure Reported (s : Setting) (raw : String) (before after : Rules) (line : List Char) :
    Prop where
  front : "[config] ".toList <+: line
  noControl : NoControl line
  warns_iff : "[config] WARN: ".toList <+: line ↔
    s.numeral.override? raw = none ∧ s.get after = s.get before
  taken : ∀ v, s.numeral.override? raw = some v →
    "[config] ".toList ++ s.key.toList ++ " = ".toList <+: line
  ignored : s.numeral.override? raw = none →
    "[config] WARN: could not parse ".toList ++ s.key.toList ++ " = ".toList <+: line

theorem not_warning (s : Setting) (rest : List Char) :
    ¬ "[config] WARN: ".toList <+: "[config] ".toList ++ s.key.toList ++ rest := by
  obtain ⟨name, hname⟩ := s.named
  rintro ⟨more, hmore⟩
  have hletter := congrArg (·[9]?) hmore
  rw [← hname] at hletter
  simp at hletter

theorem override_of_none {s : Setting} {lookup : String → Option String}
    (h : lookup s.key = none) (r : Rules) : (s.override lookup r).2 = [] := by
  rw [override, h]
  rfl

theorem line_taken (key : String) (value : List Char) :
    (Override.taken key value).line =
      "[config] ".toList ++ key.toList ++ " = ".toList ++ value ++
        " (overrode default)\n".toList := rfl

theorem line_ignored (key raw : String) (value : List Char) :
    (Override.ignored key raw value).line =
      "[config] WARN: could not parse ".toList ++ key.toList ++ " = ".toList ++
        quote raw.toList ++ "; using default ".toList ++ value ++ ['\n'] := rfl

theorem reported_taken {s : Setting} {raw : String} {v : s.Value}
    (hread : s.numeral.override? raw = some v) (before after : Rules) :
    ∃ line, (Override.taken s.key (s.numeral.write v)).line = line ++ ['\n'] ∧
      s.Reported raw before after line := by
  let rest := " = ".toList ++ (s.numeral.write v ++ " (overrode default)".toList)
  have hend : " (overrode default)\n".toList = " (overrode default)".toList ++ ['\n'] := by decide
  have hfront : NoControl "[config] ".toList := by decide
  have hrest : NoControl rest :=
    NoControl.append (by decide) ((s.noControl_write v).append (by decide))
  refine ⟨"[config] ".toList ++ s.key.toList ++ rest, ?_, ?_⟩
  · rw [line_taken, hend]
    simp only [rest, List.append_assoc]
  · constructor
    · exact ⟨s.key.toList ++ rest, (List.append_assoc _ _ _).symm⟩
    · exact (hfront.append s.noControl_key).append hrest
    · rw [hread]
      exact iff_of_false (s.not_warning rest) fun hnone => nomatch hnone.1
    · intro w _
      exact ⟨s.numeral.write v ++ " (overrode default)".toList, by
        simp only [rest, List.append_assoc]⟩
    · intro hnone
      rw [hread] at hnone
      cases hnone

theorem reported_ignored {s : Setting} {raw : String} (hread : s.numeral.override? raw = none)
    {before after : Rules} (hkept : s.get after = s.get before) :
    ∃ line, (Override.ignored s.key raw (s.numeral.write (s.get before))).line = line ++ ['\n'] ∧
      s.Reported raw before after line := by
  let front := "[config] WARN: could not parse ".toList
  let rest := Text.quote raw.toList ++
    ("; using default ".toList ++ s.numeral.write (s.get before))
  have hconfig : front = "[config] ".toList ++ "WARN: could not parse ".toList := by decide
  have hwarn : front = "[config] WARN: ".toList ++ "could not parse ".toList := by decide
  have hrest : NoControl rest :=
    (noControl_quote _).append (NoControl.append (by decide) (s.noControl_write _))
  have hname : NoControl (front ++ s.key.toList) :=
    NoControl.append (by decide) s.noControl_key
  refine ⟨front ++ s.key.toList ++ " = ".toList ++ rest, ?_, ?_⟩
  · rw [line_ignored]
    simp only [front, rest, List.append_assoc]
  · constructor
    · refine ⟨"WARN: could not parse ".toList ++ s.key.toList ++ " = ".toList ++ rest, ?_⟩
      rw [hconfig]
      simp only [List.append_assoc]
    · exact (hname.append (by decide)).append hrest
    · refine iff_of_true ?_ ⟨hread, hkept⟩
      refine ⟨"could not parse ".toList ++ s.key.toList ++ " = ".toList ++ rest, ?_⟩
      rw [hwarn]
      simp only [List.append_assoc]
    · intro v hv
      rw [hread] at hv
      cases hv
    · intro _
      exact ⟨rest, rfl⟩

theorem override_of_some {s : Setting} (hs : s ∈ all) {lookup : String → Option String}
    {raw : String} (h : lookup s.key = some raw) (r : Rules) :
    ∃ o line, (s.override lookup r).2 = [o] ∧ o.line = line ++ ['\n'] ∧
      s.Reported raw r (r.override lookup).1 line := by
  have hget := get_override hs r lookup
  cases hread : s.numeral.override? raw with
  | some v =>
      obtain ⟨line, hline, hreported⟩ := reported_taken hread r (r.override lookup).1
      refine ⟨_, line, ?_, hline, hreported⟩
      simp only [override, h, Numeral.override, hread]
  | none =>
      have hkept : s.get (r.override lookup).1 = s.get r := by
        simpa only [override, h, Numeral.override, hread] using hget
      obtain ⟨line, hline, hreported⟩ := reported_ignored hread hkept
      refine ⟨_, line, ?_, hline, hreported⟩
      simp only [override, h, Numeral.override, hread]

end Setting

/-! ## The report -/

theorem exists_lines (r : Rules) (lookup : String → Option String) {settings : List Setting}
    (h : ∀ s ∈ settings, s ∈ Setting.all) :
    ∃ lines : List (List Char),
      (settings.flatMap fun s => (s.override lookup r).2).flatMap Override.line =
        lines.flatMap (· ++ ['\n']) ∧
      List.Forall₂
        (fun s line => ∃ raw, lookup s.key = some raw ∧
          s.Reported raw r (r.override lookup).1 line)
        (settings.filter fun s => (lookup s.key).isSome) lines := by
  induction settings with
  | nil => exact ⟨[], rfl, .nil⟩
  | cons s rest ih =>
      obtain ⟨lines, htext, hlines⟩ := ih fun t ht => h t (List.mem_cons_of_mem s ht)
      rw [List.flatMap_cons, List.flatMap_append, htext]
      cases hraw : lookup s.key with
      | none =>
          refine ⟨lines, ?_, ?_⟩
          · rw [Setting.override_of_none hraw]
            rfl
          · rwa [List.filter_cons_of_neg (by simp [hraw])]
      | some raw =>
          obtain ⟨o, line, hreport, hline, hreported⟩ :=
            Setting.override_of_some (h s List.mem_cons_self) hraw r
          refine ⟨line :: lines, ?_, ?_⟩
          · rw [hreport, List.flatMap_singleton, hline, List.flatMap_cons]
          · rw [List.filter_cons_of_pos (by simp [hraw])]
            exact .cons ⟨raw, hraw, hreported⟩ hlines

/-- **The report has one line for each variable that is set**, in the order in which they are
read, whatever text they hold. Each line has its newline at the end and no control character
before that, starts with the name of the component and names its variable. It is a warning
exactly if the rule has been kept because the text is none of its values. -/
theorem report_lines (r : Rules) (lookup : String → Option String) :
    Setting.all.map Setting.key = ["SIMPLE_ENV_MAX_STEPS", "SIMPLE_ENV_NUM_TARGETS",
      "SIMPLE_ENV_HIT_REWARD", "SIMPLE_ENV_MISS_REWARD"] ∧
    ∃ lines : List (List Char),
      (Override.report (r.override lookup).2).toList = lines.flatMap (· ++ ['\n']) ∧
      List.Forall₂
        (fun s line => ∃ raw, lookup s.key = some raw ∧
          s.Reported raw r (r.override lookup).1 line)
        (Setting.all.filter fun s => (lookup s.key).isSome) lines := by
  obtain ⟨lines, htext, hlines⟩ := @exists_lines r lookup Setting.all fun _ h => h
  refine ⟨rfl, lines, ?_, hlines⟩
  rw [Override.report, String.toList_ofList, Setting.override_snd, htext]

end HiddenTarget
