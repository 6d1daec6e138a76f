import OutOfBand.Proofs.Exact
import OutOfBand.Proofs.Remote.Ensures
import OutOfBand.Rehearsal
import Mathlib.Data.List.Chain
import Mathlib.Logic.ExistsUnique

namespace OutOfBand

variable {τ α γ : Type}

/-- Something that is done again. -/
structure Rounds (τ γ : Type) where
  /-- Why no round may start at some moment. -/
  bar : Timeline τ → Option Failure
  act : Run τ γ
  again : Except Failure γ → Bool
  /-- Whatever is told of a round that was not the last word. -/
  tell : Nat → Except Failure γ → Run τ Unit
  pause : Run τ Unit
  gaveUp : Failure

/-- One round, with the moments before and after it. -/
structure Round (τ γ : Type) where
  number : Nat
  before : Timeline τ
  outcome : Except Failure γ
  after : Timeline τ

namespace Rounds

variable (R : Rounds τ γ)

/-- What comes between two rounds. -/
def turn (k : Nat) (out : Except Failure γ) : Run τ Unit := do
  R.tell k out
  R.pause

/-- What follows a round that was not the last word, by the number of rounds that are left. -/
def link (left k : Nat) (out : Except Failure γ) : Run τ Unit :=
  if left = 0 then R.tell k out else R.turn k out

/-- The rounds that are left, the next of which has number `k`. -/
def run : Nat → Nat → Timeline τ → Except Failure γ × Timeline τ
  | 0, _, t => (.error R.gaveUp, t)
  | left + 1, k, t =>
    match R.bar t with
    | some f => (.error f, t)
    | none =>
      match R.act.run t with
      | (out, t₁) =>
        if R.again out then
          match (R.link left k out).run t₁ with
          | (.ok (), t₂) => run left (k + 1) t₂
          | (.error f, t₂) => (.error f, t₂)
        else (out, t₁)

/-- One round leads to the next, by what comes between them and nothing else. -/
structure Follows (c c' : Round τ γ) : Prop where
  number : c'.number = c.number + 1
  again : R.again c.outcome = true
  between : (R.turn c.number c.outcome).run c.after = (.ok (), c'.before)

/-- The rounds from some moment on, the first of which has number `k`. -/
structure Course (k : Nat) (t : Timeline τ) (calls : List (Round τ γ)) : Prop where
  made : ∀ c ∈ calls, R.bar c.before = none ∧ R.act.run c.before = (c.outcome, c.after)
  first : ∀ c ∈ calls.head?, c.number = k ∧ c.before = t
  follows : calls.IsChain R.Follows

/-- How rounds end of which there may be some number. -/
inductive Ends (attempts : Nat) (t : Timeline τ) :
    List (Round τ γ) → Except Failure γ → Timeline τ → Prop
  | settled (pre : List (Round τ γ)) {c : Round τ γ} (last : R.again c.outcome = false) :
      Ends attempts t (pre ++ [c]) c.outcome c.after
  | spent (pre : List (Round τ γ)) {c : Round τ γ} {t' : Timeline τ}
      (all : pre.length + 1 = attempts) (last : R.again c.outcome = true)
      (told : (R.tell c.number c.outcome).run c.after = (.ok (), t')) :
      Ends attempts t (pre ++ [c]) (.error R.gaveUp) t'
  | barred {f : Failure} (bar : R.bar t = some f) : Ends attempts t [] (.error f) t
  | stopped (pre : List (Round τ γ)) {c : Round τ γ} {f : Failure} {t' : Timeline τ}
      (few : pre.length + 1 < attempts) (last : R.again c.outcome = true)
      (stop : (R.turn c.number c.outcome).run c.after = (.error f, t')) :
      Ends attempts t (pre ++ [c]) (.error f) t'

variable {R} {k left : Nat} {t t₁ t₂ t' : Timeline τ} {out o : Except Failure γ}
  {calls : List (Round τ γ)}

theorem run_barred {f : Failure} (h : R.bar t = some f) : R.run (left + 1) k t = (.error f, t) := by
  rw [run, h]

theorem run_settled (hbar : R.bar t = none) (hact : R.act.run t = (out, t₁))
    (h : R.again out = false) : R.run (left + 1) k t = (out, t₁) := by
  rw [run, hbar]
  simp only [hact, h, Bool.false_eq_true, if_false]

theorem run_again (hbar : R.bar t = none) (hact : R.act.run t = (out, t₁))
    (h : R.again out = true) :
    R.run (left + 1) k t = match (R.link left k out).run t₁ with
      | (.ok (), t₂) => R.run left (k + 1) t₂
      | (.error f, t₂) => (.error f, t₂) := by
  rw [run, hbar]
  simp only [hact, h, if_true]

/-- After a round that is not the last word, and what is told of it, there is a pause and another
round, unless none is left. -/
theorem run_told (hbar : R.bar t = none) (hact : R.act.run t = (out, t₁))
    (h : R.again out = true) (htold : (R.tell k out).run t₁ = (.ok (), t₂)) :
    R.run (left + 1) k t =
      if left = 0 then (.error R.gaveUp, t₂)
      else match R.pause.run t₂ with
        | (.ok (), t₃) => R.run left (k + 1) t₃
        | (.error f, t₃) => (.error f, t₃) := by
  rw [run_again hbar hact h, link]
  by_cases hl : left = 0
  · subst hl
    rw [if_pos rfl, if_pos rfl, htold]
    rfl
  · rw [if_neg hl, if_neg hl, turn, Run.run_bind, htold]

theorem course_singleton (hbar : R.bar t = none) (hact : R.act.run t = (out, t₁)) :
    R.Course k t [⟨k, t, out, t₁⟩] := by
  refine ⟨fun d hd => ?_, fun d hd => ?_, List.isChain_singleton _⟩
  · rw [List.mem_singleton.mp hd]
    exact ⟨hbar, hact⟩
  · cases hd
    exact ⟨rfl, rfl⟩

theorem Course.cons (hbar : R.bar t = none) (hact : R.act.run t = (out, t₁))
    (hagain : R.again out = true) (hturn : (R.turn k out).run t₁ = (.ok (), t₂))
    (h : R.Course (k + 1) t₂ calls) : R.Course k t (⟨k, t, out, t₁⟩ :: calls) := by
  refine ⟨?_, ?_, ?_⟩
  · intro d hd
    rcases List.mem_cons.mp hd with rfl | hd
    · exact ⟨hbar, hact⟩
    · exact h.made d hd
  · intro d hd
    cases hd
    exact ⟨rfl, rfl⟩
  · refine List.isChain_cons.mpr ⟨fun d hd => ?_, h.follows⟩
    obtain ⟨hnumber, hbefore⟩ := h.first d hd
    exact ⟨hnumber, hagain, hbefore ▸ hturn⟩

theorem Ends.cons {c : Round τ γ} (hbar : R.bar t₂ = none) (h : R.Ends left t₂ calls o t') :
    R.Ends (left + 1) t (c :: calls) o t' := by
  cases h with
  | settled pre last => exact .settled (c :: pre) last
  | spent pre all last told => exact .spent (c :: pre) (by simpa using all) last told
  | barred bar => cases hbar.symm.trans bar
  | stopped pre few last stop => exact .stopped (c :: pre) (by simpa using few) last stop

theorem Course.retried {pre post : List (Round τ γ)} {c : Round τ γ}
    (h : R.Course k t (pre ++ c :: post)) : ∀ b ∈ pre, R.again b.outcome = true := by
  intro b hb
  obtain ⟨before, between, rfl⟩ := List.append_of_mem hb
  have hchain := h.follows
  rw [List.append_assoc, List.cons_append, List.isChain_append] at hchain
  have hnext := (List.isChain_cons.mp hchain.2.1).1
  cases between with
  | nil => exact (hnext c rfl).again
  | cons d between => exact (hnext d rfl).again

theorem Course.retried_concat {pre : List (Round τ γ)} {c : Round τ γ}
    (h : R.Course k t (pre ++ [c])) (hc : R.again c.outcome = true) :
    ∀ b ∈ pre ++ [c], R.again b.outcome = true := by
  intro b hb
  rcases List.mem_append.mp hb with hb | hb
  · exact h.retried b hb
  · rwa [List.mem_singleton.mp hb]

/-- The rounds of any number of attempts, by induction on the attempts that are left. -/
theorem exists_course (htell : ∀ k out t, ((R.tell k out).run t).1 = .ok ())
    (hpause : ∀ t t', R.pause.run t = (.ok (), t') → R.bar t' = none) {left : Nat}
    (hleft : 0 < left) (k : Nat) (t : Timeline τ) :
    ∃ calls, R.Course k t calls ∧ calls.length ≤ left ∧
      R.Ends left t calls (R.run left k t).1 (R.run left k t).2 := by
  induction left generalizing k t with
  | zero => omega
  | succ left ih =>
    cases hbar : R.bar t with
    | some f =>
      rw [run_barred hbar]
      exact ⟨[], ⟨by simp, by simp, List.isChain_nil⟩, by simp, .barred hbar⟩
    | none =>
      rcases hact : R.act.run t with ⟨out, t₁⟩
      have hone : R.Course k t [⟨k, t, out, t₁⟩] := course_singleton hbar hact
      cases hagain : R.again out with
      | false =>
        rw [run_settled hbar hact hagain]
        exact ⟨_, hone, by simp, .settled [] hagain⟩
      | true =>
        have told : (R.tell k out).run t₁ = (.ok (), ((R.tell k out).run t₁).2) :=
          Prod.ext (htell k out t₁) rfl
        rw [run_again hbar hact hagain, link]
        by_cases hl : left = 0
        · subst hl
          rw [if_pos rfl, told]
          exact ⟨_, hone, by simp, .spent [] (by simp) hagain told⟩
        · rw [if_neg hl]
          rcases hturn : (R.turn k out).run t₁ with ⟨f | _, t₂⟩
          · exact ⟨_, hone, by simp, .stopped [] (by simp; omega) hagain hturn⟩
          · have hbar₂ : R.bar t₂ = none := by
              rw [turn, Run.run_bind, told] at hturn
              exact hpause _ _ hturn
            obtain ⟨calls, hcourse, hlength, hends⟩ := ih (by omega) (k + 1) t₂
            exact ⟨_, hcourse.cons hbar hact hagain hturn, by simpa using hlength,
              hends.cons hbar₂⟩

end Rounds

namespace Run

variable [Seconds τ]

theorem run_sleep_cases (delay : τ) (action : String) (t : Timeline τ) :
    (∃ t', (sleep delay (some action)).run t = (.ok (), t') ∧
        t'.limits.fault? t'.now = none) ∨
      ∃ cause t', (sleep delay (some action)).run t =
          (.error (.remote ⟨cause, some action, none⟩), t') ∧
        t'.limits.fault? t'.now = some cause := by
  have checked (t' : Timeline τ) :
      (∃ t'', (check (some action) : Run τ Unit).run t' = (.ok (), t'') ∧
          t''.limits.fault? t''.now = none) ∨
        ∃ cause t'', (check (some action) : Run τ Unit).run t' =
            (.error (.remote ⟨cause, some action, none⟩), t'') ∧
          t''.limits.fault? t''.now = some cause := by
    rw [run_check]
    cases hf : t'.limits.fault? t'.now with
    | some cause => exact .inr ⟨cause, t', rfl, hf⟩
    | none => exact .inl ⟨t', rfl, hf⟩
  rw [run_sleep]
  cases hf : t.limits.fault? t.now with
  | some cause => exact .inr ⟨cause, t, rfl, hf⟩
  | none => exact checked _

/-- The looks of a poll: one more after each that does not see the state reached or fails in a way
that may pass. -/
def looks (action : String) (b : Budget τ) (reached : Run τ Bool) : Rounds τ Bool where
  bar _ := none
  act := reached
  again
    | .ok seen => !seen
    | .error e => e.isTransient
  tell k
    | .ok _ => pure ()
    | .error e => say .debug (pollLine action b k e)
  pause := sleep b.delay (some action)
  gaveUp := .remote ⟨.exhausted b.target b.attempts, some action, none⟩

theorem run_pollFrom (action : String) (b : Budget τ) (reached : Run τ Bool) (left k : Nat)
    (t : Timeline τ) :
    (pollFrom action b reached left k).run t =
      (((looks action b reached).run left k t).1.map fun _ => (),
        ((looks action b reached).run left k t).2) := by
  induction left generalizing k t with
  | zero => rfl
  | succ left ih =>
    have rest {out : Except Failure Bool} {t₁ t₂ : Timeline τ}
        (hact : reached.run t = (out, t₁)) (hagain : (looks action b reached).again out = true)
        (htold : ((looks action b reached).tell k out).run t₁ = (.ok (), t₂)) :
        (if left ≠ 0 then do
            sleep b.delay (some action)
            pollFrom action b reached left (k + 1)
          else pollFrom action b reached left (k + 1)).run t₂ =
          (((looks action b reached).run (left + 1) k t).1.map fun _ => (),
            ((looks action b reached).run (left + 1) k t).2) := by
      rw [Rounds.run_told rfl hact hagain htold]
      by_cases hl : left = 0
      · subst hl
        rfl
      · have hpause : (looks action b reached).pause = sleep b.delay (some action) := rfl
        rw [if_pos hl, if_neg hl, run_bind, hpause]
        rcases (sleep b.delay (some action)).run t₂ with ⟨f | _, t₃⟩
        · rfl
        · exact ih (k + 1) t₃
    rw [pollFrom, run_bind, pollOnce, run_tryCatch]
    rcases hact : reached.run t with ⟨e | seen, t₁⟩
    · by_cases he : e.isTransient = true
      · simp only [if_pos he, run_bind, run_say, run_pure, Bool.false_eq_true, if_false]
        exact rest hact he (run_say _ _ t₁)
      · rw [Rounds.run_settled rfl hact (by simpa [looks] using he)]
        simp only [if_neg he]
        rfl
    · cases seen with
      | true =>
        rw [Rounds.run_settled rfl hact rfl]
        rfl
      | false =>
        simp only [Bool.false_eq_true, if_false]
        exact rest hact rfl rfl

end Run

namespace RetryPlan

variable [Seconds τ] (p : RetryPlan τ)

/-- The rounds of a plan: one more after each failure that the plan provides for. -/
def rounds (act : Run τ α) : Rounds τ α where
  bar t := (t.limits.fault? t.now).map fun cause => .remote ⟨cause, some p.action, none⟩
  act := act
  again
    | .error e => p.retryOn e
    | .ok _ => false
  tell k
    | .error e => do
      Run.say .debug (Run.failedLine p k e)
      p.onRetry k e
    | .ok _ => pure ()
  pause := p.pause p.budget.delay
  gaveUp := .remote ⟨.exhausted p.budget.target p.budget.attempts, some p.action, none⟩

theorem run_retryFrom (act : Run τ α) (left k : Nat) (t : Timeline τ) :
    (Run.retryFrom p act left k).run t = (p.rounds act).run left k t := by
  induction left generalizing k t with
  | zero => rfl
  | succ left ih =>
    rw [Run.retryFrom, Run.run_bind, Run.run_check]
    cases hf : t.limits.fault? t.now with
    | some cause => exact (Rounds.run_barred (by simp [rounds, hf])).symm
    | none =>
      have hbar : (p.rounds act).bar t = none := by simp [rounds, hf]
      simp only [Run.run_tryCatch]
      rcases hact : act.run t with ⟨e | a, t₁⟩
      · by_cases he : p.retryOn e = true
        · rw [Rounds.run_again hbar hact he, Rounds.link]
          simp only [if_pos he, Run.run_bind, Run.run_say]
          by_cases hl : left = 0
          · subst hl
            simp only [ne_eq, not_true_eq_false, if_false, if_true, rounds, Run.run_bind,
              Run.run_say]
            rcases (p.onRetry k e).run _ with ⟨f | _, t₂⟩
            · rfl
            · exact ih (k + 1) t₂
          · simp only [hl, ne_eq, not_false_eq_true, if_true, if_false, Rounds.turn, Run.run_bind,
              rounds, Run.run_say]
            rcases (p.onRetry k e).run _ with ⟨f | _, t₂⟩
            · rfl
            · dsimp only
              rcases (p.pause p.budget.delay).run t₂ with ⟨f | _, t₃⟩
              · rfl
              · exact ih (k + 1) t₃
        · rw [Rounds.run_settled hbar hact (by simpa [rounds] using he)]
          simp only [if_neg he]
          rfl
      · rw [Rounds.run_settled hbar hact rfl]

/-- A call that failed in a way after which there may be another one. -/
def Retried (c : Round τ α) : Prop := ∃ e, c.outcome = .error e ∧ p.retryOn e = true

/-- The ways in which a retried action ends. -/
inductive Ending where
  | returned
  | raised
  | exhausted
  | stopped
  deriving DecidableEq

/-- What a way means for the calls that were made, and for the outcome and the moment at the end. -/
def Ending.Holds (act : Run τ α) (t : Timeline τ) (calls : List (Round τ α))
    (o : Except Failure α) (t' : Timeline τ) : Ending → Prop
  | returned => ∃ pre c v, calls = pre ++ [c] ∧ (∀ b ∈ pre, p.Retried b) ∧
      c.outcome = .ok v ∧ o = .ok v ∧ t' = c.after
  | raised => ∃ pre c e, calls = pre ++ [c] ∧ (∀ b ∈ pre, p.Retried b) ∧
      c.outcome = .error e ∧ p.retryOn e = false ∧ o = .error e ∧ t' = c.after
  | exhausted => (∀ b ∈ calls, p.Retried b) ∧ calls.length = p.budget.retries + 1 ∧
      o = .error (.remote
        ⟨.exhausted p.budget.target (p.budget.retries + 1), some p.action, none⟩) ∧
      ∃ pre c, calls = pre ++ [c] ∧
        ((p.rounds act).tell c.number c.outcome).run c.after = (.ok (), t')
  | stopped => (∀ b ∈ calls, p.Retried b) ∧ calls.length ≤ p.budget.retries ∧
      ∃ cause, t'.limits.fault? t'.now = some cause ∧
        o = .error (.remote ⟨cause, some p.action, none⟩) ∧
        (calls = [] ∧ t' = t ∨ ∃ pre c, calls = pre ++ [c] ∧
          ((p.rounds act).turn c.number c.outcome).run c.after =
            (.error (.remote ⟨cause, some p.action, none⟩), t'))

/-- The one way that calls admit. -/
def endingOf (calls : List (Round τ α)) : Ending :=
  match calls.getLast?.map Round.outcome with
  | none => .stopped
  | some (.ok _) => .returned
  | some (.error e) =>
    if p.retryOn e then
      if calls.length = p.budget.retries + 1 then .exhausted else .stopped
    else .raised

variable {p}

theorem Ending.Holds.eq_endingOf {act : Run τ α} {t t' : Timeline τ} {calls : List (Round τ α)}
    {o : Except Failure α} {e : Ending} (h : e.Holds p act t calls o t') :
    e = p.endingOf calls := by
  cases e with
  | returned =>
    obtain ⟨pre, c, v, rfl, -, hc, -⟩ := h
    simp [endingOf, hc]
  | raised =>
    obtain ⟨pre, c, f, rfl, -, hc, hf, -⟩ := h
    simp [endingOf, hc, hf]
  | exhausted =>
    obtain ⟨hall, hlength, -, pre, c, rfl, -⟩ := h
    obtain ⟨f, hc, hf⟩ := hall c (by simp)
    rw [endingOf, List.getLast?_concat, Option.map_some, hc]
    simp only [hf, if_true, if_pos hlength]
  | stopped =>
    obtain ⟨hall, hlength, -, -, -, ⟨rfl, -⟩ | ⟨pre, c, rfl, -⟩⟩ := h
    · rfl
    · obtain ⟨f, hc, hf⟩ := hall c (by simp)
      have hfew : ¬((pre ++ [c]).length : Int) = p.budget.retries + 1 := by omega
      rw [endingOf, List.getLast?_concat, Option.map_some, hc]
      simp only [hf, if_true, if_neg hfew]

theorem retried_of_again {act : Run τ α} {c : Round τ α}
    (h : (p.rounds act).again c.outcome = true) : p.Retried c := by
  cases hc : c.outcome with
  | ok v =>
    rw [hc] at h
    cases h
  | error e =>
    rw [hc] at h
    exact ⟨e, hc, h⟩

theorem retried_concat {act : Run τ α} {k : Nat} {t : Timeline τ} {pre : List (Round τ α)}
    {c : Round τ α} (h : (p.rounds act).Course k t (pre ++ [c]))
    (hc : (p.rounds act).again c.outcome = true) : ∀ b ∈ pre ++ [c], p.Retried b :=
  fun b hb => retried_of_again (h.retried_concat hc b hb)

/-- A plan that pauses within the bounds of its call, and whose listener does not fail. -/
structure Calm (p : RetryPlan τ) : Prop where
  pauses : p.pause = fun d => Run.sleep d (some p.action)
  hears : ∀ k e t, ((p.onRetry k e).run t).1 = .ok ()

namespace Calm

variable {act : Run τ α} {t t' : Timeline τ} {k : Nat} {out : Except Failure α} {f : Failure}

theorem run_tell (h : p.Calm) (act : Run τ α) (k : Nat) (out : Except Failure α)
    (t : Timeline τ) : (((p.rounds act).tell k out).run t).1 = .ok () := by
  cases out with
  | ok v => rfl
  | error e =>
    change ((Run.say .debug (Run.failedLine p k e) >>= fun _ => p.onRetry k e).run t).1 = _
    rw [Run.run_bind, Run.run_say]
    exact h.hears k e _

theorem run_pause (h : p.Calm) (act : Run τ α) (t : Timeline τ) :
    (p.rounds act).pause.run t = (Run.sleep p.budget.delay (some p.action)).run t := by
  change (p.pause p.budget.delay).run t = _
  rw [h.pauses]

theorem bar_of_pause (h : p.Calm) (hrun : (p.rounds act).pause.run t = (.ok (), t')) :
    (p.rounds act).bar t' = none := by
  rw [h.run_pause] at hrun
  rcases Run.run_sleep_cases p.budget.delay p.action t with ⟨t'', hs, hf⟩ | ⟨cause, t'', hs, -⟩
  · cases hs.symm.trans hrun
    simp [rounds, hf]
  · cases hs.symm.trans hrun

theorem fault_of_turn (h : p.Calm)
    (hturn : ((p.rounds act).turn k out).run t = (.error f, t')) :
    ∃ cause, t'.limits.fault? t'.now = some cause ∧
      f = .remote ⟨cause, some p.action, none⟩ := by
  have told : ((p.rounds act).tell k out).run t =
      (.ok (), (((p.rounds act).tell k out).run t).2) := Prod.ext (h.run_tell act k out t) rfl
  rw [Rounds.turn, Run.run_bind, told] at hturn
  simp only [h.run_pause] at hturn
  rcases Run.run_sleep_cases p.budget.delay p.action (((p.rounds act).tell k out).run t).2 with
    ⟨t'', hs, -⟩ | ⟨cause, t'', hs, hf⟩
  · cases hs.symm.trans hturn
  · cases hs.symm.trans hturn
    exact ⟨cause, hf, rfl⟩

end Calm

theorem exists_ending {act : Run τ α} {t t' : Timeline τ} {calls : List (Round τ α)}
    {o : Except Failure α} (hp : p.Calm) (hretries : 0 ≤ p.budget.retries)
    (hcourse : (p.rounds act).Course 1 t calls)
    (hends : (p.rounds act).Ends p.budget.attempts.toNat t calls o t') :
    ∃ e : Ending, e.Holds p act t calls o t' := by
  have hattempts : p.budget.attempts = p.budget.retries + 1 := rfl
  cases hends with
  | @settled pre c last =>
    have hpre : ∀ b ∈ pre, p.Retried b := fun b hb => retried_of_again (hcourse.retried b hb)
    cases hc : c.outcome with
    | ok v => exact ⟨.returned, pre, c, v, rfl, hpre, hc, rfl, rfl⟩
    | error e =>
      rw [hc] at last
      exact ⟨.raised, pre, c, e, rfl, hpre, hc, last, rfl, rfl⟩
  | @spent pre c _ all last told =>
    have hlength : ((pre ++ [c]).length : Int) = p.budget.retries + 1 := by
      simp only [List.length_append, List.length_singleton]
      omega
    exact ⟨.exhausted, retried_concat hcourse last, hlength, rfl, pre, c, rfl, told⟩
  | barred bar =>
    obtain ⟨cause, hf, rfl⟩ := Option.map_eq_some_iff.mp bar
    exact ⟨.stopped, by simp, by simpa using hretries, cause, hf, rfl, .inl ⟨rfl, rfl⟩⟩
  | @stopped pre c f _ few last stop =>
    have hlength : ((pre ++ [c]).length : Int) ≤ p.budget.retries := by
      simp only [List.length_append, List.length_singleton]
      omega
    obtain ⟨cause, hf, rfl⟩ := hp.fault_of_turn stop
    exact ⟨.stopped, retried_concat hcourse last, hlength, cause, hf, rfl, .inr ⟨pre, c, rfl, stop⟩⟩

variable (p)

/-- Whatever an action does, it is called at most as often as its plan allows, with one report to
the plan and one pause between two calls and no pause after the last one, and it ends in one way:
with the value of the last call, with its error if that is none to retry, given up after all calls
have failed, or stopped between two calls by the bounds of the whole. -/
theorem retry_ends_one_way (hp : p.Calm) (hretries : 0 ≤ p.budget.retries) (act : Run τ α)
    (t : Timeline τ) :
    ∃ calls, (p.rounds act).Course 1 t calls ∧ calls.length ≤ p.budget.retries + 1 ∧
      ∃! e : Ending, e.Holds p act t calls ((Run.retry p act).run t).1
        ((Run.retry p act).run t).2 := by
  have hattempts : 0 < p.budget.attempts.toNat := by
    rw [Budget.attempts]
    omega
  have hbound : p.budget.attempts = p.budget.retries + 1 := rfl
  obtain ⟨calls, hcourse, hlength, hends⟩ :=
    Rounds.exists_course (hp.run_tell act) (fun _ _ => hp.bar_of_pause) hattempts 1 t
  rw [← p.run_retryFrom act] at hends
  obtain ⟨e, he⟩ := exists_ending hp hretries hcourse hends
  exact ⟨calls, hcourse, by omega, e, he, fun e' he' => he'.eq_endingOf.trans he.eq_endingOf.symm⟩

end RetryPlan

namespace Sample

/-- At most three calls, a second apart, of what fails in a way that may pass. -/
def threeCalls : RetryPlan Int where
  action := "reset"
  budget := ⟨"bmc", 2, 1⟩
  retryOn := Failure.isTransient
  onRetry _ e := Run.say .info e.message
  pause d := Run.sleep d (some "reset")

/-- Not answered within two seconds at first, and done at once from then on. -/
def secondTime : Run Int Value :=
  let busy := Failure.remote ⟨.timedOut .post "http://bmc/reset", some "reset", none⟩
  Rehearsal.call 0 "reset" [] [.act (some 2) false (.error busy), .value (.str "done")] (pure ())

end Sample

open Sample RetryPlan in
/-- The second call succeeds, after one pause. -/
theorem retry_ends_after_second_call :
    let final := (Run.retry threeCalls secondTime).run Timeline.start
    threeCalls.Calm ∧ 0 ≤ threeCalls.budget.retries ∧
      ∃ calls, (threeCalls.rounds secondTime).Course 1 Timeline.start calls ∧
        calls.length ≤ 3 ∧ final.2.now = 3 ∧ final.2.trace.filterMap Effect.wait? = [1] ∧
        Ending.returned.Holds threeCalls secondTime Timeline.start calls (.ok (.str "done"))
          final.2 := by
  intro final
  have hcalm : threeCalls.Calm := ⟨rfl, fun _ _ _ => rfl⟩
  have hretries : 0 ≤ threeCalls.budget.retries := by decide
  have hthree : threeCalls.budget.retries + 1 = 3 := rfl
  have hok : final.1 = .ok (.str "done") := by rfl
  obtain ⟨calls, hcourse, hlength, e, he, -⟩ :=
    threeCalls.retry_ends_one_way hcalm hretries secondTime Timeline.start
  refine ⟨hcalm, hretries, calls, hcourse, by omega, by rfl, by rfl, ?_⟩
  change e.Holds _ _ _ _ final.1 _ at he
  rw [hok] at he
  cases e with
  | returned => exact he
  | raised =>
    obtain ⟨_, _, _, -, -, -, -, ho, -⟩ := he
    cases ho
  | exhausted =>
    obtain ⟨-, -, ho, -⟩ := he
    cases ho
  | stopped =>
    obtain ⟨-, -, _, -, ho, -⟩ := he
    cases ho

end OutOfBand
