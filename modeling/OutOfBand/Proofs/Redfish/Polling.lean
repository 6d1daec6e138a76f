import OutOfBand.Proofs.Redfish.Bounds
import OutOfBand.Proofs.Remote.Pauses
import OutOfBand.Proofs.Remote.Rounds
import OutOfBand.Rehearsal

namespace OutOfBand

variable {τ : Type}

namespace Round

/-- A look after which there may be another one: the state is not there yet, or the look failed in a
way that may pass. -/
def Missed (c : Round τ Bool) : Prop :=
  c.outcome = .ok false ∨ ∃ e, c.outcome = .error e ∧ e.isTransient = true

/-- The moment at which a look is over: one that failed leaves a line in the log. -/
def told (action : String) (b : Budget τ) (c : Round τ Bool) : Timeline τ :=
  match c.outcome with
  | .ok _ => c.after
  | .error e =>
    c.after.record (.noted (.wrote (.log ⟨.debug, Run.pollLine action b c.number e⟩)))

variable {action : String} {b : Budget τ} {c : Round τ Bool}

theorem now_told : (c.told action b).now = c.after.now := by
  rw [told]
  cases c.outcome <;> rfl

variable [Seconds τ] {reached : Run τ Bool}

theorem again_iff_missed : (Run.looks action b reached).again c.outcome = true ↔ c.Missed := by
  rw [Missed]
  cases c.outcome with
  | ok seen => simp [Run.looks]
  | error e => simp [Run.looks]

theorem run_tell_looks :
    ((Run.looks action b reached).tell c.number c.outcome).run c.after =
      (.ok (), c.told action b) := by
  rw [told]
  cases c.outcome <;> rfl

theorem run_turn_looks :
    ((Run.looks action b reached).turn c.number c.outcome).run c.after =
      (Run.sleep b.delay (some action)).run (c.told action b) := by
  rw [Rounds.turn, Run.run_bind, run_tell_looks]
  rfl

theorem missed_concat {k : Nat} {t : Timeline τ} {before : List (Round τ Bool)}
    (h : (Run.looks action b reached).Course k t (before ++ [c]))
    (hc : (Run.looks action b reached).again c.outcome = true) : ∀ d ∈ before ++ [c], d.Missed :=
  fun d hd => again_iff_missed.mp (h.retried_concat hc d hd)

end Round

namespace Redfish.System

/-- The ways in which a poll ends. -/
inductive PollEnding where
  | reached
  | raised (e : Failure)
  | exhausted
  | stopped
  deriving DecidableEq

namespace PollEnding

/-- What the looks come to that lead to an end: a last one, and those before it. -/
def Shown (retries : Int) (before : List (Round τ Bool)) (last : Round τ Bool) : PollEnding → Prop
  | reached => (∀ c ∈ before, c.Missed) ∧ last.outcome = .ok true
  | raised e => (∀ c ∈ before, c.Missed) ∧ last.outcome = .error e ∧ e.isTransient = false
  | exhausted => (∀ c ∈ before ++ [last], c.Missed) ∧ (before ++ [last]).length = retries + 1
  | stopped => (∀ c ∈ before ++ [last], c.Missed) ∧ (before ++ [last]).length ≤ retries

/-- The end that looks lead to. -/
def ofLooks (retries : Int) (before : List (Round τ Bool)) (last : Round τ Bool) : PollEnding :=
  let missed := if (before ++ [last]).length = retries + 1 then exhausted else stopped
  match last.outcome with
  | .ok true => reached
  | .ok false => missed
  | .error e => if e.isTransient then missed else raised e

variable {retries : Int} {before : List (Round τ Bool)} {last : Round τ Bool}

theorem ofLooks_of_missed (h : last.Missed) :
    ofLooks retries before last =
      if (before ++ [last]).length = retries + 1 then exhausted else stopped := by
  rcases h with h | ⟨e, h, he⟩
  · rw [ofLooks, h]
  · rw [ofLooks, h]
    simp only [he, if_true]

theorem Shown.eq_ofLooks {e : PollEnding} (h : e.Shown retries before last) :
    e = ofLooks retries before last := by
  cases e with
  | reached =>
    obtain ⟨-, hlast⟩ := h
    rw [ofLooks, hlast]
  | raised f =>
    obtain ⟨-, hlast, hf⟩ := h
    rw [ofLooks, hlast]
    simp only [hf, Bool.false_eq_true, if_false]
  | exhausted =>
    obtain ⟨hall, hlength⟩ := h
    rw [ofLooks_of_missed (hall last (by simp)), if_pos hlength]
  | stopped =>
    obtain ⟨hall, hlength⟩ := h
    have hfew : ((before ++ [last]).length : Int) ≠ retries + 1 := by omega
    rw [ofLooks_of_missed (hall last (by simp)), if_neg hfew]

variable [Seconds τ]

/-- What a poll comes to at its end, and the moment at which it ends. -/
def Leaves (s : System τ) (action : String) (last : Round τ Bool) (o : Except Failure Unit)
    (t' : Timeline τ) : PollEnding → Prop
  | reached => o = .ok () ∧ t' = last.after
  | raised e => o = .error e ∧ t' = last.after
  | exhausted =>
    o = .error (.remote ⟨.exhausted s.given (s.retries + 1), some action, none⟩) ∧
      t' = last.told action s.budget
  | stopped =>
    ∃ cause, t'.limits.fault? t'.now = some cause ∧
      o = .error (.remote ⟨cause, some action, none⟩) ∧
      (Run.sleep s.delay (some action)).run (last.told action s.budget) = (o, t')

end PollEnding

variable [Seconds τ] {s : System τ} {action : String} {reached : Run τ Bool}

/-- One pause passes between two looks, and nothing else. -/
def OnePause (s : System τ) (action : String) (c d : Round τ Bool) : Prop :=
  (Run.sleep s.delay (some action)).run (c.told action s.budget) = (.ok (), d.before)

theorem exists_shown {t t' : Timeline τ} {looks : List (Round τ Bool)} {o : Except Failure Bool}
    (hretries : 0 ≤ s.retries)
    (hcourse : (Run.looks action s.budget reached).Course 1 t looks)
    (hends : (Run.looks action s.budget reached).Ends s.budget.attempts.toNat t looks o t') :
    ∃ before last, looks = before ++ [last] ∧ ∃ e : PollEnding,
      e.Shown s.retries before last ∧ e.Leaves s action last (o.map fun _ => ()) t' := by
  have hattempts : s.budget.attempts = s.retries + 1 := rfl
  cases hends with
  | @settled before last final =>
    have hbefore : ∀ c ∈ before, c.Missed :=
      fun c hc => Round.again_iff_missed.mp (hcourse.retried c hc)
    refine ⟨before, last, rfl, ?_⟩
    cases hlast : last.outcome with
    | ok seen =>
      rw [hlast] at final
      have hseen : seen = true := by simpa [Run.looks] using final
      rw [hseen] at hlast
      exact ⟨.reached, ⟨hbefore, hlast⟩, rfl, rfl⟩
    | error e =>
      rw [hlast] at final
      exact ⟨.raised e, ⟨hbefore, hlast, final⟩, rfl, rfl⟩
  | @spent before last _ all final told =>
    have hmissed := Round.missed_concat hcourse final
    have hlength : ((before ++ [last]).length : Int) = s.retries + 1 := by
      rw [List.length_append, List.length_singleton]
      omega
    refine ⟨before, last, rfl, .exhausted, ⟨hmissed, hlength⟩, rfl, ?_⟩
    cases Round.run_tell_looks.symm.trans told
    rfl
  | barred bar => cases bar
  | @stopped before last f _ few final stop =>
    have hmissed := Round.missed_concat hcourse final
    have hlength : ((before ++ [last]).length : Int) ≤ s.retries := by
      rw [List.length_append, List.length_singleton]
      omega
    have hpause := Round.run_turn_looks.symm.trans stop
    refine ⟨before, last, rfl, .stopped, ⟨hmissed, hlength⟩, ?_⟩
    rcases Run.run_sleep_cases s.delay action (last.told action s.budget) with
      ⟨t'', hpasses, -⟩ | ⟨cause, t'', hfails, hfault⟩
    · cases hpasses.symm.trans hpause
    · cases hfails.symm.trans hpause
      exact ⟨cause, hfault, rfl, hfails⟩

/-- A poll looks at most once more often than it has retries, with one pause between two looks and
none after the last, unless that pause is what stops it. Its looks lead to exactly one end, and in
that it ends: the state is seen at the last look; or that fails for good, which is the failure of the
poll; or as many looks as there may be have missed; or fewer have, and the call is over in the pause
after them. -/
theorem poll_ends_by_looks (hretries : 0 ≤ s.retries) (action : String) (reached : Run τ Bool)
    (t : Timeline τ) :
    let final := (s.poll action reached).run t
    ∃ before last, (Run.looks action s.budget reached).Course 1 t (before ++ [last]) ∧
      (before ++ [last]).IsChain (s.OnePause action) ∧
      (before ++ [last]).length ≤ s.retries + 1 ∧
      (∃! e : PollEnding, e.Shown s.retries before last) ∧
      ∀ e : PollEnding, e.Shown s.retries before last →
        e.Leaves s action last final.1 final.2 := by
  intro final
  have hattempts : s.budget.attempts = s.retries + 1 := rfl
  have htell : ∀ k out t,
      (((Run.looks action s.budget reached).tell k out).run t).1 = .ok () := by
    intro k out t
    cases out <;> rfl
  obtain ⟨looks, hcourse, hlength, hends⟩ :=
    Rounds.exists_course htell (fun _ _ _ => rfl) (by omega : 0 < s.budget.attempts.toNat) 1 t
  obtain ⟨before, last, rfl, e, hshown, hleaves⟩ := exists_shown hretries hcourse hends
  have hfinal : final = _ := Run.run_pollFrom action s.budget reached s.budget.attempts.toNat 1 t
  have hunique : ∀ e' : PollEnding, e'.Shown s.retries before last → e' = e :=
    fun e' h => h.eq_ofLooks.trans hshown.eq_ofLooks.symm
  refine ⟨before, last, hcourse, hcourse.follows.imp fun c d h => ?_, by omega,
    ⟨e, hshown, hunique⟩, fun e' h => ?_⟩
  · exact Round.run_turn_looks.symm.trans h.between
  · rw [hunique e' h, hfinal]
    exact hleaves

section Exact

variable [LinearOrder τ] [AddCommGroup τ] [Seconds.Exact τ] [IsOrderedAddMonoid τ]

theorem OnePause.in_full {c d : Round τ Bool} (h : s.OnePause action c d) :
    d.before.now = c.after.now + max s.delay 0 ∧
      d.before.trace = (c.told action s.budget).trace ++ Run.waits s.delay := by
  obtain ⟨hend, hallows⟩ := Run.isEnd_of_run_sleep h
  have hnow : (c.told action s.budget).now = c.after.now := Round.now_told
  obtain ⟨ws, htrace, -, hfull⟩ := hend.waited
  refine ⟨?_, ?_⟩
  · rw [hend.inFull hallows, hnow]
  · rw [htrace, hfull hallows]

end Exact

end Redfish.System

namespace Sample

/-- Not answered for two seconds at first, then not there yet, and there from then on. -/
def thirdLook : Run Int Bool := do
  let lost := Failure.remote ⟨.timedOut .get "http://bmc/power", some "power_status", none⟩
  let cues := [.act (some 2) false (.error lost), .value (.bool false), .value (.bool true)]
  return (← Rehearsal.call 0 "look" [] cues (pure ())) matches .bool true

end Sample

open Sample Redfish.System in
/-- The last look that two retries allow sees the state, after two pauses of a second. -/
theorem poll_ends_at_third_look :
    let final := (system.poll "power_on" thirdLook).run Timeline.start
    0 ≤ system.retries ∧ ∃ before last,
      (Run.looks "power_on" system.budget thirdLook).Course 1 Timeline.start (before ++ [last]) ∧
      (before ++ [last]).IsChain (fun c d => d.before.now = c.after.now + 1) ∧
      (before ++ [last]).length ≤ 3 ∧ PollEnding.reached.Shown system.retries before last ∧
      final = (.ok (), last.after) ∧ final.2.now = 4 ∧
      final.2.trace.filterMap Effect.wait? = [1, 1] := by
  intro final
  have hretries : 0 ≤ system.retries := by decide
  have hthree : system.retries + 1 = 3 := rfl
  have hok : final.1 = .ok () := by rfl
  obtain ⟨before, last, hcourse, hpauses, hlength, ⟨e, hshown, -⟩, hleaves⟩ :=
    poll_ends_by_looks hretries "power_on" thirdLook Timeline.start
  have hend : e.Leaves system "power_on" last final.1 final.2 := hleaves e hshown
  refine ⟨hretries, before, last, hcourse, hpauses.imp fun _ _ h => h.in_full.1, by omega, ?_⟩
  rw [hok] at hend
  cases e with
  | reached => exact ⟨hshown, Prod.ext hok hend.2, by rfl, by rfl⟩
  | raised => cases hend.1
  | exhausted => cases hend.1
  | stopped =>
    obtain ⟨_, -, ho, -⟩ := hend
    cases ho

end OutOfBand
