import HiddenTarget.Proofs.Scripting.FleetSession

/-!
# Integers from a host

A host hands over integers of any size. Two things can be wrong with one of them: it is outside
the range of its parameter, or it is inside and the library has a complaint. Each has an exception
of its own, and the range is looked at first. `Ends` says so of one call, and
`integers_end_calls` of making an object and of every call of a session on it.
-/

namespace HiddenTarget.Scripting

open HiddenTarget.Random

/-- How a call ends: `fits` says that its integers are in the ranges of their parameters, and
`accepted` that the library has no complaint about them. -/
inductive Ends {α : Type} (fits accepted : Prop) : Except Exception α → Prop
  | succeeds {a : α} : fits → accepted → Ends fits accepted (.ok a)
  | overflows : ¬ fits → Ends fits accepted (.error .overflowError)
  | refused {c : Complaint} : fits → ¬ accepted → Ends fits accepted (.error (refuse c))

namespace Ends

variable {α β : Type} {fits fits' accepted accepted' : Prop} {x : Except Exception α}

theorem exists_ok_iff (h : Ends fits accepted x) : (∃ a, x = .ok a) ↔ fits ∧ accepted := by
  cases h with
  | succeeds hfits haccepted => exact ⟨fun _ => ⟨hfits, haccepted⟩, fun _ => ⟨_, rfl⟩⟩
  | overflows hout => exact ⟨fun ⟨_, h⟩ => (nomatch h), fun h => (hout h.1).elim⟩
  | refused _ hnot => exact ⟨fun ⟨_, h⟩ => (nomatch h), fun h => (hnot h.2).elim⟩

theorem eq_overflow (h : Ends fits accepted x) (hout : ¬ fits) : x = .error .overflowError := by
  cases h with
  | overflows _ => rfl
  | _ hfits _ => exact (hout hfits).elim

theorem exists_refuse (h : Ends fits accepted x) (hfits : fits) (hnot : ¬ accepted) :
    ∃ c, x = .error (refuse c) := by
  cases h with
  | succeeds _ haccepted => exact (hnot haccepted).elim
  | overflows hout => exact (hout hfits).elim
  | refused _ _ => exact ⟨_, rfl⟩

theorem congr (h : Ends fits accepted x) (hfits : fits ↔ fits')
    (haccepted : accepted ↔ accepted') : Ends fits' accepted' x := by
  rw [← propext hfits, ← propext haccepted]
  exact h

/-- A conversion comes before everything that can be complained about. -/
theorem bind {next : α → Except Exception β} (h : Ends fits True x)
    (hnext : ∀ a, x = .ok a → Ends fits' accepted' (next a)) :
    Ends (fits ∧ fits') accepted' (x >>= next) := by
  cases h with
  | succeeds hfits _ => exact (hnext _ rfl).congr (and_iff_right hfits).symm .rfl
  | overflows hout => exact .overflows fun h => hout h.1
  | refused _ hnot => exact (hnot trivial).elim

/-- A check comes after all conversions. -/
theorem check {next : α → Except Exception β} (h : Ends True accepted x)
    (hnext : ∀ a, x = .ok a → Ends True accepted' (next a)) :
    Ends True (accepted ∧ accepted') (x >>= next) := by
  cases h with
  | succeeds _ haccepted => exact (hnext _ rfl).congr .rfl (and_iff_right haccepted).symm
  | overflows hout => exact (hout trivial).elim
  | refused _ hnot => exact .refused trivial fun h => hnot h.1

theorem map (h : Ends fits accepted x) (f : α → β) : Ends fits accepted (x.map f) := by
  cases h with
  | succeeds hfits haccepted => exact .succeeds hfits haccepted
  | overflows hout => exact .overflows hout
  | refused hfits hnot => exact .refused hfits hnot

theorem settle {σ : Type} {r : Except Exception (α × σ)} (h : Ends fits accepted r) (s : σ) :
    Ends fits accepted (settle s r).1 := by
  cases h with
  | succeeds hfits haccepted => exact .succeeds hfits haccepted
  | overflows hout => exact .overflows hout
  | refused hfits hnot => exact .refused hfits hnot

end Ends

/-! ## Conversions -/

section Conversions

variable {v : Value} {i : Int}

theorem Ends.ite {α : Type} {P : Prop} {_ : Decidable P} {a : α} :
    Ends P True (if P then .ok a else .error .overflowError) := by
  split
  · next hin => exact .succeeds hin trivial
  · next hout => exact .overflows hout

theorem seedOf_ends (i : Int) : Ends (0 ≤ i ∧ i < 2 ^ 64) True (seedOf i) := .ite

theorem actionOf_ends (i : Int) : Ends (-2 ^ 31 ≤ i ∧ i < 2 ^ 31) True (actionOf i) := .ite

theorem eq_of_map_toBounded {α : Type} {f : Int → α} {range : Decimal.IntegerRange} {a : α}
    (h : v.toInt? = some i) (ha : (v.toBounded range).map f = .ok a) :
    range.Contains i ∧ a = f i := by
  rw [map_toBounded f h Iff.rfl] at ha
  split at ha
  · next hin => exact ⟨hin, (Except.ok.inj ha).symm⟩
  · cases ha

theorem mapM_ends {α : Type} {P : Int → Prop} {g : Int → Except Exception α}
    (h : ∀ i, Ends (P i) True (g i)) (is : List Int) : Ends (∀ i ∈ is, P i) True (is.mapM g) := by
  induction is with
  | nil => exact .succeeds (fun i hi => (nomatch hi)) trivial
  | cons i rest ih =>
      rw [List.mapM_cons]
      refine ((h i).bind fun a _ => ih.bind fun as _ => ?_).congr
        (and_congr_right' (and_iff_left trivial) |>.trans List.forall_mem_cons.symm) .rfl
      exact .succeeds trivial trivial

theorem toUInt32_ends (h : v.toInt? = some i) : Ends (0 ≤ i ∧ i < 2 ^ 32) True v.toUInt32 := by
  rw [Value.toUInt32, map_toBounded _ h uint32_contains_iff]
  exact .ite

theorem toCount_ends (h : v.toInt? = some i) : Ends (0 ≤ i ∧ i < 2 ^ 64) True v.toCount := by
  rw [Value.toCount, map_toBounded _ h uint64_contains_iff]
  exact .ite

theorem toInt32_ends (h : v.toInt? = some i) : Ends (-2 ^ 31 ≤ i ∧ i < 2 ^ 31) True v.toInt32 := by
  rw [toInt32_eq_actionOf h]
  exact actionOf_ends i

theorem toNat_of_toUInt32 (h : v.toInt? = some i) {n : UInt32} (hn : v.toUInt32 = .ok n) :
    (n.toNat : Int) = i := by
  obtain ⟨hin, rfl⟩ := eq_of_map_toBounded h hn
  rw [uint32_contains_iff] at hin
  rw [UInt32.toNat_ofNat']
  omega

theorem of_toCount (h : v.toInt? = some i) {n : Nat} (hn : v.toCount = .ok n) : (n : Int) = i := by
  obtain ⟨hin, rfl⟩ := eq_of_map_toBounded h hn
  exact Int.toNat_of_nonneg (uint64_contains_iff.mp hin).1

theorem toInt_of_toInt32 (h : v.toInt? = some i) {n : Int32} (hn : v.toInt32 = .ok n) :
    n.toInt = i := by
  obtain ⟨hin, rfl⟩ := eq_of_map_toBounded h hn
  rw [int32_contains_iff] at hin
  exact Int32.toInt_ofInt_of_le hin.1 hin.2

end Conversions

def Value.Optionally (v : Value) : Option Int → Prop
  | .some i => v.toInt? = .some i
  | .none => v = .none

theorem toOptional_ends {v : Value} {seed : Option Int} (h : v.Optionally seed) :
    Ends (∀ i ∈ seed, 0 ≤ i ∧ i < 2 ^ 64) True (v.toOptional Value.toUInt64) := by
  cases seed with
  | none =>
      obtain rfl : v = .none := h
      exact .succeeds (fun i hi => (nomatch hi)) trivial
  | some i =>
      rw [toOptional_of_int _ h, toUInt64_eq_seedOf h]
      exact ((seedOf_ends i).map some).congr (by simp) .rfl

/-! ## Making an object -/

theorem rulesOf_ends {maxSteps : UInt32} {numTargets : Int32} :
    Ends True (1 ≤ numTargets.toInt ∧ 1 ≤ maxSteps.toNat) (rulesOf maxSteps numTargets) := by
  have hnum : 1 ≤ numTargets ↔ 1 ≤ numTargets.toInt := Int32.le_iff_toInt_le
  have hsteps : 1 ≤ maxSteps ↔ 1 ≤ maxSteps.toNat := UInt32.le_iff_toNat_le
  have hhit : Decimal.isFinite 1.0 := by decide
  have hmiss : Decimal.isFinite (-0.1) := by decide
  have hvalid : ({ maxSteps := maxSteps, numTargets := numTargets } : Rules).Valid ↔
      1 ≤ numTargets.toInt ∧ 1 ≤ maxSteps.toNat := by
    rw [Rules.Valid, hnum, hsteps]
    exact ⟨fun h => ⟨h.1, h.2.1⟩, fun h => ⟨h.1, h.2, hhit, hmiss⟩⟩
  rw [← hvalid, ← Rules.check_eq_ok_iff, rulesOf]
  split
  · next c hcheck =>
      refine .refused trivial fun h => ?_
      rw [h] at hcheck
      cases hcheck
  · next hcheck => exact .succeeds trivial hcheck

theorem valid_of_rulesOf {maxSteps : UInt32} {numTargets : Int32} {rules : Rules}
    (h : rulesOf maxSteps numTargets = .ok rules) : rules.Valid := by
  rw [rulesOf] at h
  split at h
  · cases h
  · next hcheck =>
      cases h
      exact (Rules.check_eq_ok_iff _).mp hcheck

section Making

variable {a : Arguments} {u v w : Value} {n maxSteps numTargets : Int}

theorem construct_single_ends {seed : Option Int}
    (hbind : a.bind Class.single.parameters = .ok [v, w, u]) (hv : v.toInt? = some maxSteps)
    (hw : w.toInt? = some numTargets) (hu : u.Optionally seed) (fresh : Nat → Generator) :
    Ends ((0 ≤ maxSteps ∧ maxSteps < 2 ^ 32) ∧ (-2 ^ 31 ≤ numTargets ∧ numTargets < 2 ^ 31) ∧
        ∀ i ∈ seed, 0 ≤ i ∧ i < 2 ^ 64)
      (1 ≤ numTargets ∧ 1 ≤ maxSteps) (Class.single.construct fresh a) := by
  rw [Class.construct, hbind]
  refine (toUInt32_ends hv).bind fun s hs => (toInt32_ends hw).bind fun t ht => ?_
  refine ((toOptional_ends hu).bind fun seed _ => ?_).congr (and_iff_left trivial) .rfl
  rw [← toNat_of_toUInt32 hv hs, ← toInt_of_toInt32 hw ht]
  refine (rulesOf_ends.check fun rules hrules => ?_).congr .rfl
    ((and_iff_left trivial).trans (and_congr_right' (by omega)))
  dsimp only
  rw [Environment.make_of_valid (valid_of_rulesOf hrules)]
  exact .succeeds trivial trivial

theorem construct_fleet_ends (hbind : a.bind Class.fleet.parameters = .ok [u, v, w])
    (hu : u.toInt? = some n) (hv : v.toInt? = some maxSteps) (hw : w.toInt? = some numTargets)
    (fresh : Nat → Generator) :
    Ends ((0 ≤ n ∧ n < 2 ^ 64) ∧ (0 ≤ maxSteps ∧ maxSteps < 2 ^ 32) ∧
        (-2 ^ 31 ≤ numTargets ∧ numTargets < 2 ^ 31))
      ((1 ≤ numTargets ∧ 1 ≤ maxSteps) ∧ 1 ≤ n) (Class.fleet.construct fresh a) := by
  rw [Class.construct, hbind]
  refine (toCount_ends hu).bind fun m hm => (toUInt32_ends hv).bind fun s hs => ?_
  refine ((toInt32_ends hw).bind fun t ht => ?_).congr (and_iff_left trivial) .rfl
  rw [← of_toCount hu hm, ← toNat_of_toUInt32 hv hs, ← toInt_of_toInt32 hw ht]
  refine (rulesOf_ends.check fun rules hrules => ?_).congr .rfl
    (and_congr_left' (and_congr_right' (by omega)))
  rcases Nat.eq_zero_or_pos m with rfl | hpos
  · exact .refused trivial (by decide)
  · have hne : (List.range m).map fresh ≠ [] := by
      simp only [ne_eq, List.map_eq_nil_iff, List.range_eq_nil]
      omega
    obtain ⟨f, hmake, -⟩ := Fleet.exists_make_of_valid (valid_of_rulesOf hrules) hne
    rw [hmake]
    exact .succeeds trivial (by omega)

end Making

/-! ## Calls -/

namespace SingleCall

/-- The integers of a call are in the ranges of their parameters. -/
def Fits : SingleCall → Prop
  | .reset given => ∀ i ∈ given, 0 ≤ i ∧ i < 2 ^ 64
  | .step i | .stepWithInfo i => -2 ^ 31 ≤ i ∧ i < 2 ^ 31
  | _ => True

theorem answer_ends (e : Environment) (c : SingleCall) : Ends c.Fits True (c.answer e) := by
  cases c with
  | reset given =>
      cases given with
      | none => exact .succeeds (fun i hi => (nomatch hi)) trivial
      | some i =>
          exact ((seedOf_ends i).bind fun seed _ => .succeeds trivial trivial).congr
            (by simp [Fits]) .rfl
  | step i =>
      exact ((actionOf_ends i).bind fun action _ => .succeeds trivial trivial).congr
        (and_iff_left trivial) .rfl
  | stepWithInfo i =>
      exact ((actionOf_ends i).bind fun action _ => .succeeds trivial trivial).congr
        (and_iff_left trivial) .rfl
  | _ => exact .succeeds trivial trivial

end SingleCall

namespace FleetCall

def Fits : FleetCall → Prop
  | .resetAll given => ∀ is ∈ given, ∀ i ∈ is, 0 ≤ i ∧ i < 2 ^ 64
  | .step is => ∀ i ∈ is, -2 ^ 31 ≤ i ∧ i < 2 ^ 31
  | _ => True

def Suits (n : Nat) : FleetCall → Prop
  | .step is => is.length = n
  | _ => True

theorem answer_ends (f : Fleet) (c : FleetCall) : Ends c.Fits (c.Suits f.size) (c.answer f) := by
  cases c with
  | resetAll given =>
      cases given with
      | none => exact .succeeds (fun is his => (nomatch his)) trivial
      | some is =>
          exact ((mapM_ends seedOf_ends is).bind fun seeds _ => .succeeds trivial trivial).congr
            (by simp [Fits]) .rfl
  | step is =>
      refine ((mapM_ends actionOf_ends is).bind fun actions hactions => ?_).congr
        (and_iff_left trivial) .rfl
      have hlength := length_of_mapM hactions
      by_cases h : actions.length = f.size
      · rw [Fleet.step_of_length_eq h]
        exact .succeeds trivial (hlength.symm.trans h)
      · rw [Fleet.step_of_length_ne h]
        exact .refused trivial fun heq => h (hlength.trans heq)
  | _ => exact .succeeds trivial trivial

end FleetCall

theorem forall₂_replay {σ κ : Type} {answer : σ → κ → Except Exception (Value × σ)}
    {P : κ → Except Exception Value → Prop} (inv : σ → Prop)
    (hanswer : ∀ s c, inv s → P c (settle s (answer s c)).1)
    (hinv : ∀ s c, inv s → inv (settle s (answer s c)).2) {s : σ} (hs : inv s) (calls : List κ) :
    List.Forall₂ P calls (replay answer s calls).1 := by
  induction calls generalizing s with
  | nil => exact .nil
  | cons c rest ih => exact .cons (hanswer s c hs) (ih (hinv s c hs))

/-- **How calls with integers end.** An integer outside the range of its parameter overflows,
whatever else is wrong. If all are inside, the call succeeds or is refused with a complaint, and
says which by the integers alone: an environment needs a step and a target, a fleet a lane
besides, and a step of a fleet one action for each lane. A session on an object adds nothing to
this, as no call changes how a later one ends. -/
theorem integers_end_calls (fresh : Nat → Generator) (e : Environment) (f : Fleet) :
    (∀ (a : Arguments) (v w u : Value) (maxSteps numTargets : Int) (seed : Option Int),
      a.bind Class.single.parameters = .ok [v, w, u] →
      v.toInt? = some maxSteps → w.toInt? = some numTargets → u.Optionally seed →
      ((∃ o, Class.single.construct fresh a = .ok o) ↔
        1 ≤ maxSteps ∧ maxSteps < 2 ^ 32 ∧ 1 ≤ numTargets ∧ numTargets < 2 ^ 31 ∧
          ∀ i ∈ seed, 0 ≤ i ∧ i < 2 ^ 64) ∧
      Ends ((0 ≤ maxSteps ∧ maxSteps < 2 ^ 32) ∧ (-2 ^ 31 ≤ numTargets ∧ numTargets < 2 ^ 31) ∧
          ∀ i ∈ seed, 0 ≤ i ∧ i < 2 ^ 64)
        (1 ≤ numTargets ∧ 1 ≤ maxSteps) (Class.single.construct fresh a)) ∧
    (∀ (a : Arguments) (u v w : Value) (n maxSteps numTargets : Int),
      a.bind Class.fleet.parameters = .ok [u, v, w] →
      u.toInt? = some n → v.toInt? = some maxSteps → w.toInt? = some numTargets →
      ((∃ o, Class.fleet.construct fresh a = .ok o) ↔
        1 ≤ n ∧ n < 2 ^ 64 ∧ 1 ≤ maxSteps ∧ maxSteps < 2 ^ 32 ∧
          1 ≤ numTargets ∧ numTargets < 2 ^ 31) ∧
      Ends ((0 ≤ n ∧ n < 2 ^ 64) ∧ (0 ≤ maxSteps ∧ maxSteps < 2 ^ 32) ∧
          (-2 ^ 31 ≤ numTargets ∧ numTargets < 2 ^ 31))
        ((1 ≤ numTargets ∧ 1 ≤ maxSteps) ∧ 1 ≤ n) (Class.fleet.construct fresh a)) ∧
    (∀ (calls : List SingleCall) (requests : List Request),
      List.Forall₂ SingleCall.Asks calls requests →
      List.Forall₂ (fun c r => Ends c.Fits True r) calls
        ((Object.single e).session requests).1) ∧
    (∀ (calls : List FleetCall) (requests : List Request),
      List.Forall₂ FleetCall.Asks calls requests →
      List.Forall₂ (fun c r => Ends c.Fits (c.Suits f.size) r) calls
        ((Object.fleet f).session requests).1) := by
  refine ⟨?_, ?_, ?_, ?_⟩
  · intro a v w u maxSteps numTargets seed hbind hv hw hu
    have hends := construct_single_ends hbind hv hw hu fresh
    refine ⟨hends.exists_ok_iff.trans ?_, hends⟩
    constructor
    · rintro ⟨⟨⟨-, hs⟩, ⟨-, ht⟩, hseed⟩, ht', hs'⟩
      exact ⟨hs', hs, ht', ht, hseed⟩
    · rintro ⟨hs', hs, ht', ht, hseed⟩
      exact ⟨⟨⟨by omega, hs⟩, ⟨by omega, ht⟩, hseed⟩, ht', hs'⟩
  · intro a u v w n maxSteps numTargets hbind hu hv hw
    have hends := construct_fleet_ends hbind hu hv hw fresh
    exact ⟨hends.exists_ok_iff.trans (by omega), hends⟩
  · intro calls requests hasks
    rw [session_eq_replay SingleCall.perform_of_asks hasks e]
    exact forall₂_replay (fun _ => True) (fun e c _ => (c.answer_ends e).settle e)
      (fun _ _ _ => trivial) trivial calls
  · intro calls requests hasks
    rw [session_eq_replay FleetCall.perform_of_asks hasks f]
    refine forall₂_replay (fun g : Fleet => g.size = f.size) ?_ ?_ rfl calls
    · intro g c hsize
      rw [← hsize]
      exact (c.answer_ends g).settle g
    · intro g c hsize
      exact (FleetCall.size_settle g c).trans hsize

/-- The largest numbers that a constructor takes and the numbers next to them, a fleet of none,
and steps of two environments with too few actions, in the range and out of it. -/
theorem integers_end_calls_largest :
    let fresh := fun _ : Nat => Generator.ofSeed 0
    let single (maxSteps numTargets seed : Int) := Class.single.construct fresh
      { places := [.int maxSteps, .int numTargets, .int seed] }
    let fleet (n : Int) := Class.fleet.construct fresh { names := [("n", .int n)] }
    let e : Environment := ⟨{}, Generator.ofSeed 0, 4, 0, false, 77⟩
    let step (action : Int) := Request.call "step" { places := [.list [.int action]] }
    (∃ o, single (2 ^ 32 - 1) (2 ^ 31 - 1) (2 ^ 64 - 1) = .ok o) ∧
    single (2 ^ 32 - 1) (2 ^ 31 - 1) (2 ^ 64) = .error .overflowError ∧
    single (2 ^ 32) (-5) 0 = .error .overflowError ∧
    (∃ c, single 1 (-5) 0 = .error (refuse c)) ∧
    (∃ c, fleet 0 = .error (refuse c)) ∧
    ∃ c, ((Object.fleet ⟨[e, e]⟩).session [step (2 ^ 31), step (2 ^ 31 - 1)]).1 =
      [.error .overflowError, .error (refuse c)] := by
  intro fresh single fleet e step
  obtain ⟨hsingle, hfleet, -, hsession⟩ := integers_end_calls fresh e ⟨[e, e]⟩
  have hall (maxSteps numTargets seed : Int) := hsingle
    { places := [.int maxSteps, .int numTargets, .int seed] } _ _ _ maxSteps numTargets (some seed)
    rfl rfl rfl rfl
  have hnone := hfleet { names := [("n", .int 0)] } _ _ _ 0 100 10 rfl rfl rfl rfl
  have hsteps := hsession [.step [2 ^ 31], .step [2 ^ 31 - 1]]
    [step (2 ^ 31), step (2 ^ 31 - 1)]
    (.cons (.step rfl ⟨_, .inl rfl, .cons rfl .nil⟩)
      (.cons (.step rfl ⟨_, .inl rfl, .cons rfl .nil⟩) .nil))
  refine ⟨?_, ?_, ?_, ?_, ?_, ?_⟩
  · exact (hall _ _ _).1.mpr ⟨by decide, by decide, by decide, by decide, by simp⟩
  · refine (hall _ _ _).2.eq_overflow fun ⟨_, _, hseed⟩ => ?_
    exact absurd (hseed _ rfl).2 (by decide)
  · exact (hall _ _ _).2.eq_overflow fun ⟨⟨_, h⟩, _⟩ => absurd h (by decide)
  · exact (hall _ _ _).2.exists_refuse ⟨by decide, by decide, by simp⟩ (by decide)
  · exact hnone.2.exists_refuse ⟨by decide, by decide, by decide⟩ (by decide)
  · generalize ((Object.fleet ⟨[e, e]⟩).session [step (2 ^ 31), step (2 ^ 31 - 1)]).1 = answers
      at hsteps ⊢
    rcases hsteps with _ | ⟨hout, _ | ⟨hfew, _ | _⟩⟩
    rw [hout.eq_overflow fun h => absurd (h _ List.mem_cons_self).2 (by decide)]
    have hfits : (FleetCall.step [2 ^ 31 - 1]).Fits := by simp [FleetCall.Fits]
    have hnot : ¬ (FleetCall.step [2 ^ 31 - 1]).Suits 2 := by simp [FleetCall.Suits]
    obtain ⟨c, hc⟩ := hfew.exists_refuse hfits hnot
    exact ⟨c, by rw [hc]⟩

/-- A negative number of steps is no number of steps, as little as none at all, and is refused
in another way. -/
theorem negative_steps_overflow :
    let construct (maxSteps : Int) := Class.single.construct (fun _ => Generator.ofSeed 0)
      { names := [("max_steps", .int maxSteps)] }
    construct 0 = .error (.valueError "Invalid configuration 'max_steps': must be >= 1") ∧
    construct (-1) = .error .overflowError ∧
    ¬ ∀ maxSteps, (∃ o, construct maxSteps = .ok o) ∨
      ∃ message, construct maxSteps = .error (.valueError message) := by
  intro construct
  have hzero : construct 0 =
      .error (.valueError "Invalid configuration 'max_steps': must be >= 1") := rfl
  have hnegative : construct (-1) = .error .overflowError := rfl
  refine ⟨hzero, hnegative, fun h => ?_⟩
  rcases h (-1) with ⟨o, ho⟩ | ⟨message, hmessage⟩
  · cases hnegative.symm.trans ho
  · cases hnegative.symm.trans hmessage

end HiddenTarget.Scripting
