import OutOfBand.Proofs.Fleet.Hosts
import OutOfBand.Proofs.Interleaving

namespace OutOfBand

variable {γ α β : Type}

inductive BuildStep (γ : Type) where
  /-- To the next state, which is written to the log. -/
  | advance (next : BuildState) (detail : String)
  | write (line : LogLine)
  | keep (client : γ)

namespace BuildStep

def next? : BuildStep γ → Option BuildState
  | advance next _ => some next
  | write _ | keep _ => none

def line? : BuildStep γ → Option LogLine
  | write line => some line
  | advance .. | keep _ => none

def client? : BuildStep γ → Option γ
  | keep c => some c
  | advance .. | write _ => none

end BuildStep

/-- The line of a transition in the log. -/
def Transition.line (t : Transition) : LogLine := ⟨.debug, t.text⟩

/-- Transitions that lead from one state to another, each from the state that was reached before. -/
inductive Transition.Path : BuildState → List Transition → BuildState → Prop
  | nil (s : BuildState) : Path s [] s
  | cons (t : Transition) {ts : List Transition} {last : BuildState}
      (rest : Path t.target ts last) : Path t.source (t :: ts) last

namespace BuildRecord

def after (r : BuildRecord γ) : BuildStep γ → BuildRecord γ
  | .advance next detail =>
    let t : Transition := ⟨r.state, next, detail⟩
    { r with
      state := next
      transitions := r.transitions ++ [t]
      notices := r.notices ++ [.wrote (.log t.line)] }
  | .write line => { r with notices := r.notices ++ [.wrote (.log line)] }
  | .keep c => { r with built := r.built ++ [c] }

/-- What some steps add to a record. Their transitions are a path, and are written to the log in
order among the other lines. -/
structure Adds (steps : List (BuildStep γ)) (r r' : BuildRecord γ) (ts : List Transition)
    (others lines : Log) : Prop where
  path : Transition.Path r.state ts r'.state
  targets : ts.map (·.target) = steps.filterMap BuildStep.next?
  transitions : r'.transitions = r.transitions ++ ts
  notices : r'.notices = r.notices ++ lines.map fun l => .wrote (.log l)
  interleaves : Interleaves [ts.map Transition.line, others] lines
  others : others = steps.filterMap BuildStep.line?
  built : r'.built = r.built ++ steps.filterMap BuildStep.client?

theorem adds_foldl (steps : List (BuildStep γ)) (r : BuildRecord γ) :
    ∃ ts others lines, Adds steps r (steps.foldl after r) ts others lines := by
  induction steps generalizing r with
  | nil =>
    refine ⟨[], [], [], .nil r.state, rfl, ?_, ?_, .nil (by simp), rfl, ?_⟩
    all_goals exact (List.append_nil _).symm
  | cons step steps ih =>
    obtain ⟨ts, others, lines, h⟩ := ih (r.after step)
    cases step with
    | advance next detail =>
      let t : Transition := ⟨r.state, next, detail⟩
      refine ⟨t :: ts, others, t.line :: lines, .cons t h.path, ?_, ?_, ?_, ?_, h.others, h.built⟩
      · exact congrArg (next :: ·) h.targets
      · simpa [after] using h.transitions
      · simpa [after] using h.notices
      · exact .cons (i := 0) rfl h.interleaves
    | write line =>
      refine ⟨ts, line :: others, line :: lines, h.path, h.targets, h.transitions, ?_, ?_,
        congrArg (line :: ·) h.others, h.built⟩
      · simpa [after] using h.notices
      · exact .cons (i := 1) rfl h.interleaves
    | keep c =>
      refine ⟨ts, others, lines, h.path, h.targets, h.transitions, h.notices, h.interleaves,
        h.others, ?_⟩
      simpa [after, BuildStep.client?] using h.built

end BuildRecord

namespace Build

/-- What is told of some steps by the states that they go through, the clients that they make, and
a condition on the lines that they write. -/
structure Course (Says : LogLine → Prop) (visited : List BuildState) (cs : List γ)
    (steps : List (BuildStep γ)) : Prop where
  visited : steps.filterMap BuildStep.next? = visited
  clients : steps.filterMap BuildStep.client? = cs
  lines : ∀ line ∈ steps.filterMap BuildStep.line?, Says line

/-- A build whose steps and whose end, from whatever record, have a property. -/
def Takes (Says : LogLine → Prop) (P : List BuildState → List γ → Except BuildError α → Prop)
    (x : Build γ α) : Prop :=
  ∃ steps o visited cs, Course Says visited cs steps ∧ P visited cs o ∧
    ∀ r, x.run.run r = (o, steps.foldl BuildRecord.after r)

section Rules

variable {Says : LogLine → Prop} {P : List BuildState → List γ → Except BuildError α → Prop}
  {visited visited' : List BuildState} {cs cs' : List γ} {steps steps' : List (BuildStep γ)}

theorem course_nil : Course Says [] [] ([] : List (BuildStep γ)) := ⟨rfl, rfl, by simp⟩

theorem Course.append (h : Course Says visited cs steps) (h' : Course Says visited' cs' steps') :
    Course Says (visited ++ visited') (cs ++ cs') (steps ++ steps') where
  visited := by rw [List.filterMap_append, h.visited, h'.visited]
  clients := by rw [List.filterMap_append, h.clients, h'.clients]
  lines line hl := by
    rw [List.filterMap_append, List.mem_append] at hl
    exact hl.elim (h.lines line) (h'.lines line)

theorem takes_pure {a : α} (h : P [] [] (.ok a)) : Takes Says P (pure a) :=
  ⟨[], .ok a, [], [], course_nil, h, fun _ => rfl⟩

theorem takes_throw {e : BuildError} (h : P [] [] (.error e)) : Takes Says P (throw e) :=
  ⟨[], .error e, [], [], course_nil, h, fun _ => rfl⟩

/-- A result from outside is taken over, or its fault ends the build. -/
theorem takes_lift_bind {ε : Type} {Q : List BuildState → List γ → Except BuildError β → Prop}
    (f : ε → BuildError) {x : Except ε α} {k : α → Build γ β}
    (hfail : ∀ e, x = .error e → Q [] [] (.error (f e)))
    (hok : ∀ a, x = .ok a → Takes Says Q (k a)) : Takes Says Q (lift f x >>= k) := by
  cases x with
  | ok a => exact hok a rfl
  | error e => exact takes_throw (hfail e rfl)

theorem Takes.mono {Q : List BuildState → List γ → Except BuildError α → Prop} {x : Build γ α}
    (h : Takes Says P x) (hPQ : ∀ visited cs o, P visited cs o → Q visited cs o) :
    Takes Says Q x := by
  obtain ⟨steps, o, visited, cs, hcourse, hP, hrun⟩ := h
  exact ⟨steps, o, visited, cs, hcourse, hPQ _ _ _ hP, hrun⟩

/-- What fails first ends the build; else the steps of the second part follow. -/
theorem Takes.bind {Q : List BuildState → List γ → Except BuildError β → Prop} {x : Build γ α}
    {f : α → Build γ β} (h : Takes Says P x)
    (hfail : ∀ visited cs e, P visited cs (.error e) → Q visited cs (.error e))
    (hok : ∀ visited cs a, P visited cs (.ok a) →
      Takes Says (fun visited' cs' => Q (visited ++ visited') (cs ++ cs')) (f a)) :
    Takes Says Q (x >>= f) := by
  obtain ⟨steps, o, visited, cs, hcourse, hP, hrun⟩ := h
  cases o with
  | error e =>
    refine ⟨steps, .error e, visited, cs, hcourse, hfail _ _ _ hP, fun r => ?_⟩
    rw [run_bind, hrun]
  | ok a =>
    obtain ⟨steps', o, visited', cs', hcourse', hQ, hrun'⟩ := hok _ _ _ hP
    refine ⟨steps ++ steps', o, _, _, hcourse.append hcourse', hQ, fun r => ?_⟩
    rw [run_bind, hrun, List.foldl_append]
    exact hrun' _

theorem Takes.after {x : Build γ α} {a : α} {f : α → Build γ β}
    {Q : List BuildState → List γ → Except BuildError β → Prop}
    (h : Takes Says (fun visited' cs' o => visited' = visited ∧ cs' = cs ∧ o = .ok a) x)
    (hf : Takes Says (fun visited' cs' => Q (visited ++ visited') (cs ++ cs')) (f a)) :
    Takes Says Q (x >>= f) := by
  refine h.bind ?_ ?_
  · rintro _ _ e ⟨-, -, he⟩
    cases he
  · rintro _ _ _ ⟨rfl, rfl, ⟨⟩⟩
    exact hf

theorem Takes.rethrow {Q : List BuildState → List γ → Except BuildError α → Prop} {x : Build γ α}
    {handle : BuildError → Build γ α} (h : Takes Says P x)
    (hok : ∀ visited cs a, P visited cs (.ok a) → Q visited cs (.ok a))
    (hfail : ∀ visited cs e, P visited cs (.error e) →
      Takes Says (fun visited' cs' => Q (visited ++ visited') (cs ++ cs')) (handle e)) :
    Takes Says Q (tryCatch x handle) := by
  obtain ⟨steps, o, visited, cs, hcourse, hP, hrun⟩ := h
  cases o with
  | ok a =>
    refine ⟨steps, .ok a, visited, cs, hcourse, hok _ _ _ hP, fun r => ?_⟩
    rw [run_tryCatch, hrun]
  | error e =>
    obtain ⟨steps', o, visited', cs', hcourse', hQ, hrun'⟩ := hfail _ _ _ hP
    refine ⟨steps ++ steps', o, _, _, hcourse.append hcourse', hQ, fun r => ?_⟩
    rw [run_tryCatch, hrun, List.foldl_append]
    exact hrun' _

theorem takes_step (step : BuildStep γ) (h : ∀ line, step.line? = some line → Says line) :
    Takes Says (fun visited cs o => visited = step.next?.toList ∧ cs = step.client?.toList ∧
      o = .ok ()) (modify fun r => r.after step) := by
  have hcourse : Course Says step.next?.toList step.client?.toList [step] := by
    refine ⟨?_, ?_, fun line hl => ?_⟩
    · cases step <;> rfl
    · cases step <;> rfl
    · exact h line (by simpa using hl)
  exact ⟨[step], .ok (), _, _, hcourse, ⟨rfl, rfl, rfl⟩, fun _ => rfl⟩

theorem takes_advance (next : BuildState) (detail : String) :
    Takes Says (fun visited cs o => visited = [next] ∧ cs = ([] : List γ) ∧ o = .ok ())
      (advance next detail) :=
  takes_step (.advance next detail) fun _ h => by cases h

theorem takes_debug {text : String} (h : Says ⟨.debug, text⟩) :
    Takes Says (fun visited cs o => visited = [] ∧ cs = ([] : List γ) ∧ o = .ok ()) (debug text) :=
  takes_step (.write ⟨.debug, text⟩) fun _ hl => by
    cases hl
    exact h

theorem takes_keep (c : γ) :
    Takes Says (fun visited cs o => visited = [] ∧ cs = [c] ∧ o = .ok ())
      (modify fun r => { r with built := r.built ++ [c] }) :=
  takes_step (.keep c) fun _ h => by cases h

theorem takes_logged {ε : Type} (f : ε → BuildError) (c : Logged ε α)
    (hlines : ∀ line ∈ (c.run []).2, Says line) (h : P [] [] ((c.run []).1.mapError f)) :
    Takes Says P (logged f c : Build γ α) := by
  have hwrites (lines : Log) (r : BuildRecord γ) :
      (lines.map BuildStep.write).foldl BuildRecord.after r =
        { r with notices := r.notices ++ lines.map fun l => .wrote (.log l) } := by
    induction lines generalizing r with
    | nil => simp
    | cons line lines ih =>
      rw [List.map_cons, List.foldl_cons, ih]
      simp [BuildRecord.after]
  have hcourse : Course Says [] [] ((c.run []).2.map (BuildStep.write (γ := γ))) := by
    refine ⟨by simp [BuildStep.next?], by simp [BuildStep.client?], ?_⟩
    simpa [BuildStep.line?] using hlines
  refine ⟨_, _, [], [], hcourse, h, fun r => ?_⟩
  rw [hwrites]
  change (lift f (c.run []).1 : Build γ α).run.run _ = _
  cases (c.run []).1 <;> rfl

end Rules

end Build

end OutOfBand
