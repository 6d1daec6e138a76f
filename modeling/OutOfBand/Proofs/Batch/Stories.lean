import OutOfBand.Proofs.Batch.SideBySide
import OutOfBand.Proofs.Remote.Telling
import Mathlib.Data.Set.List

namespace OutOfBand

variable {τ α : Type}

/-- One story for each outcome, each of which goes with its outcome. -/
structure Told (P : Nat → α → List Event → Prop) (as : List α) (stories : List (List Event)) :
    Prop where
  length : stories.length = as.length
  story : ∀ i a es, as[i]? = some a → stories[i]? = some es → P i a es

theorem Told.prepend {P : Nat → α → List Event → Prop} {as : List α} {stories : List (List Event)}
    {i : Nat} {es rest : List Event}
    (h : Told (Function.update P i fun a more => P i a (es ++ more)) as stories)
    (hi : stories[i]? = some rest) : Told P as (stories.set i (es ++ rest)) where
  length := by simpa using h.length
  story := by
    intro j a es' ha hes'
    by_cases hj : i = j
    · subst hj
      rw [List.getElem?_set_self (List.getElem?_eq_some_iff.mp hi).1] at hes'
      cases hes'
      simpa using h.story i a rest ha hi
    · rw [List.getElem?_set_ne hj] at hes'
      simpa [Function.update_of_ne (Ne.symm hj)] using h.story j a es' ha hes'

namespace Lanes

variable {w : Lanes τ α} {P : Nat → α → List Event → Prop}

/-- Every lane goes on to tell what it is said to. -/
def Tells (w : Lanes τ α) (P : Nat → α → List Event → Prop) : Prop :=
  ∀ i (l : Lane τ α), w.lanes[i]? = some l → l.task.Tells (P i)

/-- After a turn, one lane has told the front of its story, and all others go on as before. -/
theorem Tells.turn (h : w.Tells P) {i : Nat} (hi : i < w.lanes.length) :
    ∃ es, eventsOf (w.turn i).trace = eventsOf w.trace ++ es ∧
      (w.turn i).lanes.length = w.lanes.length ∧
      (w.turn i).Tells (Function.update P i fun a more => P i a (es ++ more)) := by
  obtain ⟨l, hl⟩ : ∃ l, w.lanes[i]? = some l := ⟨_, List.getElem?_eq_getElem hi⟩
  have hlane : ∃ es, eventsOf (l.turn w.trace).2 = eventsOf w.trace ++ es ∧
      (l.turn w.trace).1.task.Tells fun a more => P i a (es ++ more) := by
    have hl := h i l hl
    obtain ⟨now, limits, task⟩ := l
    cases task with
    | done a => exact ⟨[], (List.append_nil _).symm, hl⟩
    | step change next => exact hl ⟨now, limits, w.trace⟩
  obtain ⟨es, hes, htask⟩ := hlane
  rw [Lanes.turn, hl]
  refine ⟨es, hes, List.length_set, fun j l' hl' => ?_⟩
  dsimp only at hl'
  by_cases hj : i = j
  · subst hj
    rw [List.getElem?_set_self hi] at hl'
    cases hl'
    simpa using htask
  · rw [List.getElem?_set_ne hj] at hl'
    simpa [Function.update_of_ne (Ne.symm hj)] using h j l' hl'

variable [Seconds τ]

theorem Tells.finish {lanes : List (Lane τ α)} {trace : List (Effect τ)}
    (h : (Lanes.mk lanes trace).Tells P) (now : τ) :
    ∃ stories, (Lanes.finish trace now lanes).1.length = lanes.length ∧
      Told P (Lanes.finish trace now lanes).1 stories ∧
      eventsOf (Lanes.finish trace now lanes).2.2 = eventsOf trace ++ stories.flatten := by
  induction lanes generalizing trace now P with
  | nil => exact ⟨[], rfl, ⟨rfl, fun i a es ha => by cases ha⟩, (List.append_nil _).symm⟩
  | cons l lanes ih =>
    have hl := h 0 l rfl
    obtain ⟨es, hes, ha⟩ := hl.run (l.timeline trace)
    have hrest : (Lanes.mk lanes (l.finish trace).2.trace).Tells fun i => P (i + 1) :=
      fun i l' hl' => h (i + 1) l' hl'
    obtain ⟨stories, hlength, htold, hflat⟩ :=
      ih hrest (Seconds.greatest now (l.finish trace).2.now)
    refine ⟨es :: stories, congrArg (· + 1) hlength, ⟨?_, ?_⟩, ?_⟩
    · exact congrArg (· + 1) htold.length
    · intro i a es' ha' hes'
      cases i with
      | zero =>
        cases ha'
        cases hes'
        exact ha
      | succ i => exact htold.story i a es' ha' hes'
    · rw [List.flatten_cons, ← List.append_assoc]
      exact hflat.trans (congrArg (· ++ stories.flatten) hes)

/-- Under any schedule, what the lanes tell is an interleaving of one story for each of them. -/
theorem Tells.follow (h : w.Tells P) (schedule : List Nat) (now : τ) :
    let last := Lanes.finish (w.follow schedule).trace now (w.follow schedule).lanes
    ∃ stories mixed, last.1.length = w.lanes.length ∧ Told P last.1 stories ∧
      Interleaves stories mixed ∧ eventsOf last.2.2 = eventsOf w.trace ++ mixed := by
  induction schedule generalizing w P with
  | nil =>
    obtain ⟨stories, hlength, htold, hflat⟩ := Tells.finish h now
    exact ⟨stories, stories.flatten, hlength, htold, .flatten stories, hflat⟩
  | cons i schedule ih =>
    by_cases hi : i < w.lanes.length
    · obtain ⟨es, hes, hsame, hturn⟩ := h.turn hi
      obtain ⟨stories, mixed, hlength, htold, hmixed, hevents⟩ := ih hturn
      obtain ⟨rest, hrest⟩ : ∃ rest, stories[i]? = some rest := by
        refine ⟨_, List.getElem?_eq_getElem ?_⟩
        rw [htold.length, hlength, hsame]
        exact hi
      refine ⟨stories.set i (es ++ rest), es ++ mixed, hlength.trans hsame, htold.prepend hrest,
        ?_, ?_⟩
      · obtain ⟨hlt, heq⟩ := List.getElem?_eq_some_iff.mp hrest
        have hfront : (stories.set i (es ++ rest))[i]? = some (es ++ rest) :=
          List.getElem?_set_self hlt
        refine .prepend hfront ?_
        rwa [List.set_set, ← heq, List.set_getElem_self]
      · rw [← List.append_assoc, ← hes]
        exact hevents
    · have hsame : w.turn i = w := by
        rw [Lanes.turn, List.getElem?_eq_none (by omega)]
      obtain ⟨stories, mixed, hrest⟩ := ih h
      refine ⟨stories, mixed, ?_⟩
      rw [← hsame] at hrest
      simpa [Lanes.follow, hsame] using hrest

end Lanes

/-- Tasks side by side, each of which tells what it is said to, wherever it goes on. -/
theorem Run.events_sideBySide [Seconds τ] {tasks : List (Run τ α)}
    {P : Nat → Except Failure α → List Event → Prop}
    (h : ∀ i (r : Run τ α), tasks[i]? = some r → r.Tells (P i)) (schedule : List Nat)
    (t : Timeline τ) :
    ∃ outs stories mixed, ((Run.sideBySide schedule tasks).run t).1 = .ok outs ∧
      outs.length = tasks.length ∧ Told P outs stories ∧ Interleaves stories mixed ∧
      ((Run.sideBySide schedule tasks).run t).2.events = t.events ++ mixed := by
  let w : Lanes τ (Except Failure α) :=
    ⟨tasks.map fun r => ⟨t.now, t.limits, ExceptT.run r⟩, t.trace⟩
  have hw : w.Tells P := by
    intro i l hl
    obtain ⟨r, hr, rfl⟩ := Option.map_eq_some_iff.mp (List.getElem?_map.symm.trans hl)
    exact h i r hr
  obtain ⟨stories, mixed, hlength, htold, hmixed, hevents⟩ := hw.follow schedule t.now
  exact ⟨_, stories, mixed, rfl, hlength.trans (List.length_map _), htold, hmixed, hevents⟩

/-- The ways to run a batch in which every host has its turn, whatever becomes of the others. -/
inductive Mode.Full : Mode → Prop
  | inTurn : Full (.inTurn true)
  | sideBySide (workers : Option Nat) (schedule : List Nat) :
      Full (.sideBySide (workers.map Int.ofNat) schedule)

namespace Batch

open Run

variable {b : Batch τ} {h : Host (Client τ)} {hosts : List (Host (Client τ))}
  {rs : List HostResult} {stories : List (List Event)}

theorem Ends.nil : b.Ends [] [] [] := ⟨rfl, rfl, fun i h r es hh => by cases hh⟩

theorem Ends.cons {r : HostResult} {es : List Event} (hr : b.Story h r es)
    (hrs : b.Ends hosts rs stories) : b.Ends (h :: hosts) (r :: rs) (es :: stories) where
  oneResult := congrArg (· + 1) hrs.oneResult
  oneStory := congrArg (· + 1) hrs.oneStory
  story := by
    intro i k q more hk hq hmore
    cases i with
    | zero =>
      cases hk
      cases hq
      cases hmore
      exact hr
    | succ i => exact hrs.story i k q more hk hq hmore

theorem Ends.of_cons (hends : b.Ends (h :: hosts) rs stories) :
    ∃ r rs' es stories', rs = r :: rs' ∧ stories = es :: stories' ∧ b.Story h r es ∧
      b.Ends hosts rs' stories' := by
  obtain ⟨r, rs, rfl⟩ := List.exists_cons_of_length_eq_add_one hends.oneResult
  obtain ⟨es, stories, rfl⟩ := List.exists_cons_of_length_eq_add_one hends.oneStory
  refine ⟨r, rs, es, stories, rfl, rfl, hends.story 0 h r es rfl rfl rfl, ?_, ?_, ?_⟩
  · simpa using hends.oneResult
  · simpa using hends.oneStory
  · exact fun i => hends.story (i + 1)

theorem tells_attempt (silent : (b.action h).Silent) :
    (b.attempt h).Tells fun out es => es = [] ∧ ∃ x, out = .ok x := by
  have hok : (do return .ok (← b.action h) : Run τ (Except RemoteError (Option String))).Silent :=
    silent.bind fun _ => silent_pure _
  refine Tells.tryCatch hok (fun x es hx => ⟨hx.1, x, rfl⟩) fun e es he => ?_
  rw [he.1]
  cases e with
  | remote e => exact tells_pure ⟨rfl, _, rfl⟩
  | fault m => exact absurd rfl (he.2 m)

variable [Seconds τ]

/-- The action on one host ends with a result and tells the story that goes with it, whatever others
do between its steps. -/
theorem tells_runOn (silent : (b.action h).Silent) :
    (b.runOn h).Tells fun out es => ∃ r, out = .ok r ∧ b.Story h r es := by
  have heard (e : Happening) : (b.tell e : Run τ Unit).Tells fun out es =>
      out = .ok () ∧ es = b.heard e := tells_tell b.bus ⟨b.stamp, e⟩
  refine .after (tells_enter b.timeout) (.after (heard _) (tells_get fun t => ?_))
  refine .bind (tells_attempt silent) (fun out es hout => ?_) fun e es he => ?_
  · rw [hout.1]
    cases out with
    | error e =>
      refine .after (tells_say _ _) (.after (heard _) (tells_pure ⟨_, rfl, ?_⟩))
      simpa using Story.failed e
    | ok value =>
      refine tells_get fun u => .after (tells_say _ _) (.after (heard _) (tells_pure ⟨_, rfl, ?_⟩))
      simpa using Story.succeeded _ value
  · obtain ⟨-, x, hx⟩ := he
    cases hx

theorem tells_runInTurn (silent : ∀ h ∈ hosts, (b.action h).Silent) :
    (b.runInTurn true hosts).Tells fun out es =>
      ∃ rs stories, out = .ok rs ∧ b.Ends hosts rs stories ∧ es = stories.flatten := by
  induction hosts with
  | nil => exact tells_pure ⟨[], [], rfl, .nil, rfl⟩
  | cons h rest ih =>
    have hrest := ih fun k hk => silent k (List.mem_cons_of_mem h hk)
    rw [runInTurn]
    refine .bind (tells_runOn (silent h List.mem_cons_self)) ?_ fun e es he => ?_
    · rintro r es ⟨_, hr, hstory⟩
      cases hr
      simp only [Bool.not_true, Bool.and_false, Bool.false_eq_true, if_false]
      refine .bind hrest ?_ fun e es he => ?_
      · rintro _ more ⟨rs, stories, hrs, hends, rfl⟩
        cases hrs
        exact tells_pure ⟨_, es :: stories, rfl, hends.cons hstory, by simp⟩
      · obtain ⟨_, _, hrs, -⟩ := he
        cases hrs
    · obtain ⟨_, hr, -⟩ := he
      cases hr

theorem events_results (silent : ∀ h ∈ hosts, (b.action h).Silent) {mode : Mode}
    (full : mode.Full) (t : Timeline τ) :
    ∃ rs stories mixed, ((b.results mode hosts).run t).1 = .ok rs ∧ b.Ends hosts rs stories ∧
      Interleaves stories mixed ∧ ((b.results mode hosts).run t).2.events = t.events ++ mixed := by
  cases full with
  | inTurn =>
    obtain ⟨_, hevents, rs, stories, hrs, hends, rfl⟩ := Task.Tells.run (tells_runInTurn silent) t
    exact ⟨rs, stories, stories.flatten, hrs, hends, .flatten stories, hevents⟩
  | sideBySide workers schedule =>
    let P (i : Nat) (out : Except Failure HostResult) (es : List Event) : Prop :=
      ∃ h r, hosts[i]? = some h ∧ out = .ok r ∧ b.Story h r es
    have htasks : ∀ i (r : Run τ HostResult), (hosts.map b.runOn)[i]? = some r → r.Tells (P i) := by
      intro i r hr
      obtain ⟨h, hh, rfl⟩ := Option.map_eq_some_iff.mp (List.getElem?_map.symm.trans hr)
      refine (tells_runOn (silent h (List.mem_of_getElem? hh))).mono ?_
      rintro out es ⟨r, hr, hstory⟩
      exact ⟨h, r, hh, hr, hstory⟩
    obtain ⟨outs, stories, mixed, hout, hlength, htold, hmixed, hevents⟩ :=
      events_sideBySide htasks schedule t
    rw [List.length_map] at hlength
    -- every outcome is a result
    obtain ⟨rs, rfl⟩ : ∃ rs : List HostResult, rs.map Except.ok = outs := by
      change outs ∈ Set.range (List.map Except.ok)
      rw [Set.range_list_map]
      intro out hm
      obtain ⟨i, hi, rfl⟩ := List.mem_iff_getElem.mp hm
      obtain ⟨h, r, -, hr, -⟩ := htold.story i _ _ (List.getElem?_eq_getElem hi)
        (List.getElem?_eq_getElem (htold.length ▸ hi))
      exact ⟨r, hr.symm⟩
    have hres := run_results_sideBySide workers schedule hout
    rw [List.length_map] at hlength
    refine ⟨rs, stories, mixed, congrArg Prod.fst hres, ⟨hlength, ?_, ?_⟩, hmixed,
      (congrArg (·.2.events) hres).trans hevents⟩
    · rw [htold.length, List.length_map, hlength]
    · intro i h r es hh hr hes
      obtain ⟨k, q, hk, hq, hstory⟩ := htold.story i (.ok r) es (by simp [hr]) hes
      cases hh.symm.trans hk
      cases hq
      exact hstory

/-- A batch in which every host has its turn has a result for every host, and tells an interleaving
of the hosts' stories and then the sums. -/
theorem events_run (silent : ∀ h ∈ hosts, (b.action h).Silent) {mode : Mode} (full : mode.Full)
    (t : Timeline τ) :
    ∃ rs stories mixed, ((b.run mode hosts).run t).1 = .ok rs ∧ b.Ends hosts rs stories ∧
      Interleaves stories mixed ∧ ((b.run mode hosts).run t).2.events =
        t.events ++ mixed ++ b.heard (b.summary rs) := by
  obtain ⟨rs, stories, mixed, hrs, hends, hmixed, hevents⟩ := events_results silent full t
  obtain ⟨hout, hmarks⟩ := run_of_results hrs
  refine ⟨rs, stories, mixed, hout, hends, hmixed, ?_⟩
  rw [← hevents, Timeline.events, hmarks, List.filterMap_append, events_told]
  rfl

end Batch

end OutOfBand
