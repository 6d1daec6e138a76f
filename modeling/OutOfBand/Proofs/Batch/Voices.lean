import OutOfBand.Batch.Parallel
import OutOfBand.Proofs.Remote.Voicing

namespace OutOfBand

variable {τ α : Type} {bus : Bus}

namespace Lanes

variable {w : Lanes τ α}

/-- Everyone on a bus follows what is left of every lane. -/
def Voices (bus : Bus) (lanes : List (Lane τ α)) : Prop := ∀ l ∈ lanes, l.task.Voices bus

theorem Voices.turn (h : Voices bus w.lanes) (i : Nat) :
    bus.Follows w.trace (w.turn i).trace ∧ Voices bus (w.turn i).lanes := by
  rw [Lanes.turn]
  cases hi : w.lanes[i]? with
  | none => exact ⟨.refl bus w.trace, h⟩
  | some l =>
    have hl := h l (List.mem_of_getElem? hi)
    have hturn : bus.Follows w.trace (l.turn w.trace).2 ∧ (l.turn w.trace).1.task.Voices bus := by
      obtain ⟨now, limits, task⟩ := l
      cases task with
      | done a => exact ⟨.refl bus w.trace, hl⟩
      | step change next => exact hl ⟨now, limits, w.trace⟩
    refine ⟨hturn.1, fun k hk => ?_⟩
    rcases List.mem_or_eq_of_mem_set hk with hk | rfl
    · exact h k hk
    · exact hturn.2

theorem Voices.follow (h : Voices bus w.lanes) (schedule : List Nat) :
    bus.Follows w.trace (w.follow schedule).trace ∧ Voices bus (w.follow schedule).lanes := by
  induction schedule generalizing w with
  | nil => exact ⟨.refl bus w.trace, h⟩
  | cons i schedule ih =>
    obtain ⟨hturn, hlanes⟩ := h.turn i
    obtain ⟨hrest, hleft⟩ := ih hlanes
    exact ⟨hturn.trans hrest, hleft⟩

variable [Seconds τ]

theorem Voices.finish {lanes : List (Lane τ α)} (h : Voices bus lanes) (trace : List (Effect τ))
    (now : τ) : bus.Follows trace (Lanes.finish trace now lanes).2.2 := by
  induction lanes generalizing trace now with
  | nil => exact .refl bus trace
  | cons l lanes ih =>
    obtain ⟨hl, hlanes⟩ := List.forall_mem_cons.mp h
    have hlane : bus.Follows trace (l.finish trace).2.trace := hl.run (l.timeline trace)
    exact hlane.trans (ih hlanes _ _)

end Lanes

variable [Seconds τ]

open Run

theorem Run.voices_sideBySide {tasks : List (Run τ α)} (h : ∀ r ∈ tasks, r.Voices bus)
    (schedule : List Nat) : (Run.sideBySide schedule tasks).Voices bus := by
  refine voices_modifyGet fun t => ?_
  let w : Lanes τ (Except Failure α) :=
    ⟨tasks.map fun r => ⟨t.now, t.limits, ExceptT.run r⟩, t.trace⟩
  have hw : Lanes.Voices bus w.lanes := by
    intro l hl
    obtain ⟨r, hr, rfl⟩ := List.mem_map.mp hl
    exact h r hr
  obtain ⟨hturns, hleft⟩ := hw.follow schedule
  exact hturns.trans (hleft.finish _ t.now)

omit [Seconds τ] in
theorem Run.voices_collect (outs : List (Except Failure α)) :
    (Run.collect outs : Run τ (List α)).Voices bus := by
  induction outs with
  | nil => exact voices_pure []
  | cons out outs ih =>
    cases out with
    | ok a => exact ih.bind fun as => voices_pure (a :: as)
    | error e => exact voices_throw e

namespace Batch

variable {b : Batch τ} (hbus : b.bus = some bus) {h : Host (Client τ)}
  {hosts : List (Host (Client τ))}

include hbus

omit [Seconds τ] in
theorem voices_tell (e : Happening) : (b.tell e).Voices bus := by
  rw [tell, hbus]
  exact Run.voices_tell _

theorem voices_runOn (voices : (b.action h).Voices bus) : (b.runOn h).Voices bus := by
  have attempt : (b.attempt h).Voices bus := by
    refine .tryCatch (voices.bind fun _ => voices_pure _) fun e => ?_
    cases e with
    | remote e => exact voices_pure _
    | fault m => exact voices_throw _
  refine .bind (voices_enter _) fun _ => .bind (voices_tell hbus _) fun _ => voices_get fun t => ?_
  refine attempt.bind fun out => ?_
  cases out with
  | error e =>
    exact .bind (voices_say _ _) fun _ => .bind (voices_tell hbus _) fun _ => voices_pure _
  | ok value =>
    refine voices_get fun u => ?_
    exact .bind (voices_say _ _) fun _ => .bind (voices_tell hbus _) fun _ => voices_pure _

theorem voices_runInTurn (voices : ∀ h ∈ hosts, (b.action h).Voices bus) (goOn : Bool) :
    (b.runInTurn goOn hosts).Voices bus := by
  induction hosts with
  | nil => exact voices_pure []
  | cons h rest ih =>
    obtain ⟨hh, hrest⟩ := List.forall_mem_cons.mp voices
    refine (voices_runOn hbus hh).bind fun r => ?_
    split
    next => exact voices_pure _
    next => exact (ih hrest).bind fun rs => voices_pure _

/-- Everyone on the bus of a batch follows each step of it, however its hosts take turns. -/
theorem voices_run (voices : ∀ h ∈ hosts, (b.action h).Voices bus) (mode : Mode) :
    (b.run mode hosts).Voices bus := by
  have results : (b.results mode hosts).Voices bus := by
    cases mode with
    | inTurn goOn => exact voices_runInTurn hbus voices goOn
    | sideBySide workers schedule =>
      have lanes : ∀ r ∈ hosts.map b.runOn, r.Voices bus := by
        intro r hr
        obtain ⟨h, hh, rfl⟩ := List.mem_map.mp hr
        exact voices_runOn hbus (voices h hh)
      have checked : (checkWorkers workers : Run τ Unit).Voices bus := by
        rw [checkWorkers]
        split
        next => exact voices_throw _
        next => exact voices_pure ()
      have collected : (Run.sideBySide schedule (hosts.map b.runOn) >>= Run.collect).Voices bus :=
        (voices_sideBySide lanes schedule).bind fun outs => voices_collect outs
      rw [Batch.results]
      split
      next => exact checked.bind fun _ => collected
      next => exact collected
  exact results.bind fun rs => .bind (voices_tell hbus _) fun _ => voices_pure rs

end Batch

end OutOfBand
