import OutOfBand.Proofs.Fleet.Course

namespace OutOfBand

variable {γ : Type}

theorem Transition.Path.getLast? {first last : BuildState} {ts : List Transition}
    (h : Path first ts last) : (first :: ts.map (·.target)).getLast? = some last := by
  induction h with
  | nil s => rfl
  | cons t rest ih => simpa using ih

namespace Build

section Path

variable {v : Vendors γ} {s : Settings} {bundle : Logged PhaseError Bundle}
  {ss : List HostSelector}

/-- A build that is stopped has gone through the first stages, and through all of them only if it
is left without hosts. -/
theorem Stops.isPrefix {e : BuildError} {visited : List BuildState} {cs : List γ}
    (h : Stops v s bundle ss e visited cs) :
    ∃ k ≤ ss.length, visited <+: BuildState.through k ∧
      (visited ≠ BuildState.through k ∨ e = .noHosts) := by
  cases h with
  | settings h =>
    exact ⟨ss.length, Nat.le_refl _, List.nil_prefix, .inl (by simp [BuildState.through])⟩
  | phase hm h => exact ⟨ss.length, Nat.le_refl _, ⟨_, rfl⟩, .inl (by simp [BuildState.through])⟩
  | @selector m b _ pre post t cs cs' hm hb hss hpre ht =>
    refine ⟨pre.length + 1, by simp [hss], ⟨[.reconciled], rfl⟩, .inl fun heq => ?_⟩
    have hlength := congrArg List.length heq
    simp [BuildState.through] at hlength
  | noHosts hm hb hcs => exact ⟨ss.length, Nat.le_refl _, List.prefix_rfl, .inr rfl⟩

theorem events_of_lines (lines : Log) :
    (lines.map fun l => Notice.wrote (.log l)).filterMap Notice.event? = [] := by
  simp [Notice.event?]

theorem events_of_notices (bus : Option Bus) (earlier : List Notice) (e : Event) :
    (Bus.notices bus earlier e).filterMap Notice.event? = (bus.map fun _ => e).toList := by
  cases bus with
  | none => rfl
  | some bus => simp [Bus.notices, Notice.event?]

end Path

variable (v : Vendors γ) (s : Settings) (phase : String) (bundle : Logged PhaseError Bundle)
  (ss : List HostSelector) (bus : Option Bus) (stamp : Stamp)

theorem fleet_record :
    let run := (fleet v s phase bundle ss bus stamp).run.run BuildRecord.start
    ∃ lines others : Log,
      Finishes v s bundle ss (run.2.transitions.map (·.target)) run.2.built run.1 ∧
      Transition.Path .unvalidated run.2.transitions run.2.state ∧
      Interleaves [run.2.transitions.map Transition.line, others] lines ∧
      (∀ line ∈ others, Said s bundle line) ∧
      let written := lines.map fun l => .wrote (.log l)
      run.2.notices = written ++ match run.1 with
        | .ok f => Bus.notices bus written (readyEvent stamp f)
        | .error _ => [] := by
  intro run
  obtain ⟨steps, o, visited, cs, hcourse, hfinishes, hruns⟩ := run_fleet v s phase bundle ss
  have hrun := hruns bus stamp BuildRecord.start
  obtain ⟨ts, others, lines, h⟩ := BuildRecord.adds_foldl steps (BuildRecord.start (γ := γ))
  have htransitions : (steps.foldl BuildRecord.after BuildRecord.start).transitions = ts :=
    h.transitions
  have hbuilt : (steps.foldl BuildRecord.after BuildRecord.start).built = cs :=
    h.built.trans hcourse.clients
  have hnotices : (steps.foldl BuildRecord.after BuildRecord.start).notices =
      lines.map fun l => .wrote (.log l) := h.notices
  have htargets := h.targets.trans hcourse.visited
  have hsaid : ∀ line ∈ others, Said s bundle line := by
    rw [h.others]
    exact hcourse.lines
  refine ⟨lines, others, ?_⟩
  change run = _ at hrun
  rw [hrun]
  dsimp only
  rw [htransitions, hbuilt, htargets, hnotices]
  exact ⟨hfinishes, h.path, h.interleaves, hsaid, rfl⟩

/-- The transitions of a build are one path from the first state, in the log as in its record. It
leads through all stages, once through the selection for each selector, and then to a fleet with
hosts, of which everyone on the bus is told once; or through the stages before a failure and then to
the end, with the failure as it was and without any event. -/
theorem fleet_path :
    let run := (fleet v s phase bundle ss bus stamp).run.run BuildRecord.start
    let targets := run.2.transitions.map (·.target)
    let events := run.2.notices.filterMap Notice.event?
    Transition.Path .unvalidated run.2.transitions run.2.state ∧
    (∃ lines others : Log, Interleaves [run.2.transitions.map Transition.line, others] lines ∧
      (∀ line ∈ others, Said s bundle line) ∧
      let written := lines.map fun l => .wrote (.log l)
      run.2.notices = written ++ match run.1 with
        | .ok f => Bus.notices bus written (readyEvent stamp f)
        | .error _ => []) ∧
    (match run.1 with
      | .ok f => targets = BuildState.through ss.length ++ [.ready] ∧ f.hosts ≠ [] ∧
        events = (bus.map fun _ => ⟨stamp, .ready f.management.type f.names⟩).toList
      | .error e => events = [] ∧ ∃ visited, Stops v s bundle ss e visited run.2.built ∧
        targets = visited ++ [.failed] ∧
        ∃ k ≤ ss.length, visited <+: BuildState.through k ∧
          (visited ≠ BuildState.through k ∨ e = .noHosts)) ∧
    ((∃ f, run.1 = .ok f) ↔ run.2.state = .ready) := by
  intro run targets events
  obtain ⟨lines, others, ⟨reached, hreached, htargets⟩, hpath, hlines, hsaid, hnotices⟩ :=
    fleet_record v s phase bundle ss bus stamp
  have hlast : (BuildState.unvalidated :: targets).getLast? = some run.2.state := hpath.getLast?
  have hevents : events = match run.1 with
      | .ok f => (bus.map fun _ => readyEvent stamp f).toList
      | .error _ => [] := by
    change run.2.notices.filterMap Notice.event? = _
    rw [hnotices, List.filterMap_append, events_of_lines, List.nil_append]
    cases run.1 with
    | ok f => exact events_of_notices bus _ _
    | error e => rfl
  refine ⟨hpath, ⟨lines, others, hlines, hsaid, hnotices⟩, ?_, ?_⟩
  · cases hrun : run.1 with
    | ok f =>
      rw [hrun] at hreached htargets hevents
      obtain ⟨rfl, hhosts, -⟩ := hreached
      exact ⟨htargets, hhosts, hevents⟩
    | error e =>
      rw [hrun] at hreached htargets hevents
      exact ⟨hevents, reached, hreached, htargets, hreached.isPrefix⟩
  · change targets = reached ++ _ at htargets
    rw [htargets, ← List.cons_append, List.getLast?_concat] at hlast
    rw [← Option.some.inj hlast]
    cases run.1 <;> simp

end Build

open Sample in
/-- Without a selector a build goes through all stages but the last before it fails. -/
theorem fleet_of_no_selectors_reconciled :
    let run := (Build.fleet vendors settings "p" (pure ⟨[]⟩) [] none stamp).run.run
      BuildRecord.start
    (∃ e, run.1 = .error e) ∧
      ¬ ∃ visited k, run.2.transitions.map (·.target) = visited ++ [.failed] ∧
        visited <+: BuildState.through k ∧ visited ≠ BuildState.through k := by
  intro run
  have htargets : run.2.transitions.map (·.target) = BuildState.through 0 ++ [.failed] := rfl
  refine ⟨⟨.noHosts, rfl⟩, ?_⟩
  rintro ⟨visited, k, hvisited, hprefix, hne⟩
  have heq := List.append_cancel_right (htargets.symm.trans hvisited)
  rw [← heq] at hprefix hne
  cases k with
  | zero => exact hne rfl
  | succ k => simp [BuildState.through, List.replicate_succ] at hprefix

end OutOfBand
