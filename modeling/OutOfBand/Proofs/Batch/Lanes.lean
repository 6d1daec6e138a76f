import OutOfBand.Batch.Parallel
import OutOfBand.Proofs.Remote.Isolation
import OutOfBand.Proofs.Interleaving

namespace OutOfBand

variable {τ α : Type}

theorem filter_eq_nil_of_apart {own : Nat → Mark τ → Bool} {may : Nat → Mark τ → Prop}
    (apart : ∀ i j m, i ≠ j → may j m → own i m = false) {i j : Nat} (hij : i ≠ j)
    {ms : List (Mark τ)} (hms : ∀ m ∈ ms, may j m) : ms.filter (own i) = [] :=
  List.filter_eq_nil_iff.mpr fun m hm => by simp [apart i j m hij (hms m hm)]

section Tracks

variable [AddCommGroup τ] {own : Mark τ → Bool} {may : Mark τ → Prop} {l : Lane τ α}
  {trace : List (Effect τ)} {a : α} {rest : List (Mark τ)}

/-- A lane is in step with a run that is going to have some outcome and to leave some marks. -/
def Lane.Tracks (own : Mark τ → Bool) (may : Mark τ → Prop) (l : Lane τ α)
    (trace : List (Effect τ)) (a : α) (rest : List (Mark τ)) : Prop :=
  ∃ shift task s, Task.InStep own may shift l.task task ∧ Alike own shift (l.timeline trace) s ∧
    (task.run s).1 = a ∧ (task.run s).2.marks = s.marks ++ rest

namespace Lane.Tracks

/-- Marks of others make no difference to a lane. -/
theorem stable (h : l.Tracks own may trace a rest) {trace' : List (Effect τ)}
    (hm : (marksOf trace').filter own = (marksOf trace).filter own) :
    l.Tracks own may trace' a rest := by
  obtain ⟨shift, task, s, hstep, hs, hout, hmarks⟩ := h
  exact ⟨shift, task, s, hstep, ⟨hs.now, hs.limits, hs.marks.trans hm.symm⟩, hout, hmarks⟩

theorem turn (h : l.Tracks own may trace a rest) :
    ∃ pre post, rest = pre ++ post ∧ marksOf (l.turn trace).2 = marksOf trace ++ pre ∧
      (∀ m ∈ pre, may m) ∧ (l.turn trace).1.Tracks own may (l.turn trace).2 a post := by
  obtain ⟨now, limits, task⟩ := l
  obtain ⟨shift, task', s, hstep, hs, hout, hmarks⟩ := h
  cases hstep with
  | done b =>
    exact ⟨[], rest, rfl, by simp [Lane.turn], by simp, shift, _, s, .done b, hs, hout, hmarks⟩
  | @step change change' next next' moves goesOn =>
    have hmove := moves _ _ hs
    have halike := hmove.alike hs
    have hnext := goesOn _ _ hs
    obtain ⟨new, hlane, hrun, hnew⟩ := hmove.marks
    obtain ⟨-, -, -, post, -, hpost, -⟩ := hnext.run halike
    refine ⟨new, post, ?_, hlane, hnew, shift, next' s, change' s, hnext, halike, hout, hpost⟩
    -- the reference run leaves `rest`, and it leaves `new` by this step and `post` by the others
    have hboth : s.marks ++ rest = s.marks ++ (new ++ post) := by
      rw [← hmarks, ← List.append_assoc, ← hrun]
      exact hpost
    exact List.append_cancel_left hboth

/-- The steps that are left give the outcome and leave all marks that are still to come. -/
theorem finish (h : l.Tracks own may trace a rest) :
    (l.finish trace).1 = a ∧ (l.finish trace).2.marks = marksOf trace ++ rest ∧
      ∀ m ∈ rest, may m := by
  obtain ⟨shift, task, s, hstep, hs, hout, hmarks⟩ := h
  obtain ⟨houts, -, -, new, hlane, hrun, hnew⟩ := hstep.run hs
  have hrest : rest = new := List.append_cancel_left (hmarks.symm.trans hrun)
  subst hrest
  exact ⟨houts.symm.trans hout, hlane, hnew⟩

end Lane.Tracks

/-- Every lane is in step with a run of its own. -/
structure Lanes.Tracks (own : Nat → Mark τ → Bool) (may : Nat → Mark τ → Prop) (w : Lanes τ α)
    (as : List α) (rests : List (List (Mark τ))) : Prop where
  outcomes : as.length = w.lanes.length
  marks : rests.length = w.lanes.length
  lane : ∀ i (l : Lane τ α) a rest, w.lanes[i]? = some l → as[i]? = some a →
    rests[i]? = some rest → l.Tracks (own i) (may i) w.trace a rest

namespace Lanes

variable {own : Nat → Mark τ → Bool} {may : Nat → Mark τ → Prop} {w : Lanes τ α} {as : List α}
  {rests : List (List (Mark τ))}

/-- One turn: the lane whose turn it is leaves marks from the front of what it is going to leave,
and they are nothing to the others. -/
theorem Tracks.turn (h : w.Tracks own may as rests)
    (apart : ∀ i j m, i ≠ j → may j m → own i m = false) (i : Nat) :
    ∃ pre rests', marksOf (w.turn i).trace = marksOf w.trace ++ pre ∧
      (w.turn i).Tracks own may as rests' ∧
      ∀ ms, Interleaves rests' ms → Interleaves rests (pre ++ ms) := by
  rw [Lanes.turn]
  cases hl : w.lanes[i]? with
  | none => exact ⟨[], rests, by simp, h, fun ms hms => hms⟩
  | some l =>
    have hi := (List.getElem?_eq_some_iff.mp hl).1
    obtain ⟨a, ha⟩ : ∃ a, as[i]? = some a := ⟨_, List.getElem?_eq_getElem (h.outcomes ▸ hi)⟩
    obtain ⟨rest, hrest⟩ : ∃ rest, rests[i]? = some rest :=
      ⟨_, List.getElem?_eq_getElem (h.marks ▸ hi)⟩
    obtain ⟨pre, post, rfl, htrace, hmay, hnext⟩ := (h.lane i l a rest hl ha hrest).turn
    refine ⟨pre, rests.set i post, htrace, ⟨?_, ?_, ?_⟩, fun ms hms => .prepend hrest hms⟩
    · simpa using h.outcomes
    · simpa using h.marks
    · intro j l' a' rest' hl' ha' hrest'
      by_cases hj : i = j
      · subst hj
        dsimp only at hl'
        rw [List.getElem?_set_self hi] at hl'
        rw [List.getElem?_set_self (h.marks ▸ hi)] at hrest'
        cases hl'
        cases hrest'
        cases ha.symm.trans ha'
        exact hnext
      · dsimp only at hl' ⊢
        rw [List.getElem?_set_ne hj] at hl' hrest'
        -- what this turn leaves is nothing to the lanes whose turn it is not
        refine (h.lane j l' a' rest' hl' ha' hrest').stable ?_
        rw [htrace, List.filter_append, filter_eq_nil_of_apart apart (Ne.symm hj) hmay,
          List.append_nil]

theorem Tracks.follow (h : w.Tracks own may as rests)
    (apart : ∀ i j m, i ≠ j → may j m → own i m = false) (schedule : List Nat) :
    ∃ pre rests', marksOf (w.follow schedule).trace = marksOf w.trace ++ pre ∧
      (w.follow schedule).Tracks own may as rests' ∧
      ∀ ms, Interleaves rests' ms → Interleaves rests (pre ++ ms) := by
  induction schedule generalizing w rests with
  | nil => exact ⟨[], rests, by simp [Lanes.follow], h, fun ms hms => hms⟩
  | cons i schedule ih =>
    obtain ⟨pre, rests', hpre, hturn, hms⟩ := h.turn apart i
    obtain ⟨mid, rests'', hmid, hfollow, hms'⟩ := ih hturn
    refine ⟨pre ++ mid, rests'', ?_, hfollow, fun ms h => ?_⟩
    · rw [← List.append_assoc, ← hpre]
      exact hmid
    · rw [List.append_assoc]
      exact hms _ (hms' ms h)

variable [Seconds τ]

theorem Tracks.finish {lanes : List (Lane τ α)} {trace : List (Effect τ)}
    (h : (Lanes.mk lanes trace).Tracks own may as rests)
    (apart : ∀ i j m, i ≠ j → may j m → own i m = false) (now : τ) :
    (Lanes.finish trace now lanes).1 = as ∧
      marksOf (Lanes.finish trace now lanes).2.2 = marksOf trace ++ rests.flatten := by
  induction lanes generalizing trace now as rests own may with
  | nil =>
    obtain rfl := List.eq_nil_of_length_eq_zero h.outcomes
    obtain rfl := List.eq_nil_of_length_eq_zero h.marks
    exact ⟨rfl, by simp [Lanes.finish]⟩
  | cons l lanes ih =>
    obtain ⟨a, as, rfl⟩ := List.exists_cons_of_length_eq_add_one h.outcomes
    obtain ⟨rest, rests, rfl⟩ := List.exists_cons_of_length_eq_add_one h.marks
    obtain ⟨hout, hmarks, hmay⟩ := (h.lane 0 l a rest rfl rfl rfl).finish
    have hrest : (Lanes.mk lanes (l.finish trace).2.trace).Tracks (fun i => own (i + 1))
        (fun i => may (i + 1)) as rests := by
      refine ⟨by simpa using h.outcomes, by simpa using h.marks, ?_⟩
      intro i l' a' rest' hl' ha' hrest'
      refine (h.lane (i + 1) l' a' rest' hl' ha' hrest').stable ?_
      have hnone : rest.filter (own (i + 1)) = [] :=
        filter_eq_nil_of_apart apart (Nat.succ_ne_zero i) hmay
      exact (congrArg _ hmarks).trans (by rw [List.filter_append, hnone, List.append_nil])
    obtain ⟨houts, hflat⟩ := ih hrest (fun i j m hij => apart _ _ m (by omega))
      (Seconds.greatest now (l.finish trace).2.now)
    refine ⟨congrArg₂ List.cons hout houts, ?_⟩
    rw [List.flatten_cons, ← List.append_assoc, ← hmarks]
    exact hflat

end Lanes

/-- Tasks side by side have the outcomes of the runs that they are in step with, and leave their
marks, in some order. -/
theorem Run.run_sideBySide {own : Nat → Mark τ → Bool} {may : Nat → Mark τ → Prop}
    {tasks : List (Run τ α)} {t : Timeline τ} {outs : List (Except Failure α)}
    {rests : List (List (Mark τ))} [Seconds τ]
    (h : (Lanes.mk (tasks.map fun r => ⟨t.now, t.limits, ExceptT.run r⟩) t.trace).Tracks own may
      outs rests)
    (apart : ∀ i j m, i ≠ j → may j m → own i m = false) (schedule : List Nat) :
    ((Run.sideBySide schedule tasks).run t).1 = .ok outs ∧
      ∃ ms, Interleaves rests ms ∧
        ((Run.sideBySide schedule tasks).run t).2.marks = t.marks ++ ms := by
  obtain ⟨pre, rests', hpre, hfollow, hms⟩ := h.follow apart schedule
  obtain ⟨houts, hrest⟩ := hfollow.finish apart t.now
  refine ⟨congrArg Except.ok houts, pre ++ rests'.flatten, hms _ (.flatten rests'), ?_⟩
  rw [← List.append_assoc]
  exact hrest.trans (congrArg (· ++ rests'.flatten) hpre)

end Tracks

theorem Run.run_collect (as : List α) (t : Timeline τ) :
    (Run.collect (as.map .ok) : Run τ (List α)).run t = (.ok as, t) := by
  induction as with
  | nil => rfl
  | cons a as ih =>
    rw [List.map_cons, collect, run_bind, ih]
    rfl

end OutOfBand
