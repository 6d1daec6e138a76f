import OutOfBand.Proofs.Remote.Discipline
import OutOfBand.Proofs.Remote.Isolation

namespace OutOfBand

variable {τ α β : Type}

def eventsOf (trace : List (Effect τ)) : List Event := (marksOf trace).filterMap Mark.event?

theorem eventsOf_append (t u : List (Effect τ)) : eventsOf (t ++ u) = eventsOf t ++ eventsOf u := by
  simp [eventsOf, marksOf]

theorem eventsOf_noted (ns : List Notice) :
    eventsOf (ns.map .noted : List (Effect τ)) = ns.filterMap Notice.event? := by
  rw [eventsOf, marksOf, List.filterMap_map, List.filterMap_filterMap]
  congr 1
  funext n
  cases n <;> rfl

theorem events_wrote (os : List Output) : (os.map .wrote).filterMap Notice.event? = [] := by
  simp [Notice.event?]

theorem events_notices (bus : Option Bus) (earlier : List Notice) (e : Event) :
    (Bus.notices bus earlier e).filterMap Notice.event? = Bus.heard bus e := by
  cases bus with
  | none => rfl
  | some bus => simp [Bus.notices, Bus.heard, Notice.event?]

/-- At each of its steps, wherever it leads from, a task tells of some events; in the end its
outcome goes with all of them. -/
def Task.Tells : Task (Timeline τ) α → (α → List Event → Prop) → Prop
  | .done a, P => P a []
  | .step change next, P => ∀ t, ∃ es, (change t).events = t.events ++ es ∧
      (next t).Tells fun a more => P a (es ++ more)

namespace Task.Tells

variable {r : Task (Timeline τ) α} {P : α → List Event → Prop}

theorem mono {Q : α → List Event → Prop} (h : r.Tells P) (imp : ∀ a es, P a es → Q a es) :
    r.Tells Q := by
  induction r generalizing P Q with
  | done a => exact imp a [] h
  | step change next ih =>
    intro t
    obtain ⟨es, hes, hnext⟩ := h t
    exact ⟨es, hes, ih t hnext fun a more => imp a (es ++ more)⟩

theorem bind {f : α → Task (Timeline τ) β} {Q : β → List Event → Prop} (h : r.Tells P)
    (hf : ∀ a es, P a es → (f a).Tells fun b more => Q b (es ++ more)) : (r.bind f).Tells Q := by
  induction r generalizing P Q with
  | done a => exact hf a [] h
  | step change next ih =>
    intro t
    obtain ⟨es, hes, hnext⟩ := h t
    refine ⟨es, hes, ih t hnext fun a more ha => ?_⟩
    have hrest := hf a (es ++ more) ha
    simpa only [List.append_assoc] using hrest

theorem run (h : r.Tells P) (t : Timeline τ) :
    ∃ es, (r.run t).2.events = t.events ++ es ∧ P (r.run t).1 es := by
  induction r generalizing P t with
  | done a => exact ⟨[], (List.append_nil _).symm, h⟩
  | step change next ih =>
    obtain ⟨es, hes, hnext⟩ := h t
    obtain ⟨more, hmore, ha⟩ := ih t hnext (change t)
    refine ⟨es ++ more, ?_, ha⟩
    rw [← List.append_assoc, ← hes]
    exact hmore

end Task.Tells

namespace Run

def Tells (r : Run τ α) (P : Except Failure α → List Event → Prop) : Prop :=
  Task.Tells (ExceptT.run r) P

section Tells

variable {r : Run τ α} {P : Except Failure α → List Event → Prop}

theorem tells_pure {a : α} (h : P (.ok a) []) : (pure a : Run τ α).Tells P := h

theorem tells_throw {e : Failure} (h : P (.error e) []) : (throw e : Run τ α).Tells P := h

theorem tells_get {k : Timeline τ → Run τ α} (h : ∀ t, (k t).Tells P) :
    (get >>= k : Run τ α).Tells P := fun t => ⟨[], (List.append_nil _).symm, h t⟩

theorem tells_modifyGet {f : Timeline τ → α × Timeline τ} {es : List Event}
    (h : ∀ t, (f t).2.events = t.events ++ es) (hP : ∀ t, P (.ok (f t).1) es) :
    (modifyGet f : Run τ α).Tells P := by
  refine fun t => ⟨es, h t, ?_⟩
  change P (.ok (f t).1) (es ++ [])
  rw [List.append_nil]
  exact hP t

theorem Tells.bind {f : α → Run τ β} {Q : Except Failure β → List Event → Prop} (hr : r.Tells P)
    (hf : ∀ a es, P (.ok a) es → (f a).Tells fun out more => Q out (es ++ more))
    (he : ∀ e es, P (.error e) es → Q (.error e) es) : (r >>= f).Tells Q := by
  refine Task.Tells.bind hr fun out es hout => ?_
  cases out with
  | ok a => exact hf a es hout
  | error e =>
    change Q (.error e) (es ++ [])
    rw [List.append_nil]
    exact he e es hout

theorem Tells.tryCatch {handle : Failure → Run τ α} {Q : Except Failure α → List Event → Prop}
    (hr : r.Tells P) (hok : ∀ a es, P (.ok a) es → Q (.ok a) es)
    (hh : ∀ e es, P (.error e) es → (handle e).Tells fun out more => Q out (es ++ more)) :
    (tryCatch r handle).Tells Q := by
  refine Task.Tells.bind hr fun out es hout => ?_
  cases out with
  | ok a =>
    change Q (.ok a) (es ++ [])
    rw [List.append_nil]
    exact hok a es hout
  | error e => exact hh e es hout

theorem Tells.mono {Q : Except Failure α → List Event → Prop} (hr : r.Tells P)
    (imp : ∀ out es, P out es → Q out es) : r.Tells Q := Task.Tells.mono hr imp

theorem Tells.after {s : Run τ Unit} {f : Unit → Run τ α} {es : List Event}
    (hs : s.Tells fun out told => out = .ok () ∧ told = es)
    (hf : (f ()).Tells fun out more => P out (es ++ more)) : (s >>= f).Tells P := by
  refine hs.bind (fun _ told h => ?_) fun e told h => ?_
  · rw [h.2]
    exact hf
  · cases h.1

theorem tells_say (level : Level) (text : String) :
    (say level text : Run τ Unit).Tells fun out es => out = .ok () ∧ es = [] := by
  refine tells_modifyGet (fun t => ?_) fun _ => ⟨rfl, rfl⟩
  have hmarks := congrArg (List.filterMap Mark.event?) (marks_say level text t)
  exact hmarks.trans (List.append_nil _).symm

theorem tells_tell (bus : Option Bus) (e : Event) :
    (tell bus e : Run τ Unit).Tells fun out es => out = .ok () ∧ es = Bus.heard bus e := by
  refine tells_modifyGet (fun t => ?_) fun _ => ⟨rfl, rfl⟩
  have hmarks := marks_tell bus e t
  change ((tell bus e).run t).2.events = t.events ++ Bus.heard bus e
  rw [Timeline.events, hmarks, List.filterMap_append]
  simp [Timeline.events, List.filterMap_map, Function.comp_def, Mark.event?]

end Tells

/-- A call that tells of nothing and fails, if it does, as a remote call does. -/
def Silent (r : Run τ α) : Prop :=
  r.Tells fun out es => es = [] ∧ ∀ m, out ≠ .error (.fault m)

section Silent

variable {r : Run τ α}

theorem silent_pure (a : α) : (pure a : Run τ α).Silent := tells_pure ⟨rfl, by simp⟩

theorem silent_throw (e : RemoteError) : (throw (.remote e) : Run τ α).Silent :=
  tells_throw ⟨rfl, by simp⟩

theorem silent_get {k : Timeline τ → Run τ α} (h : ∀ t, (k t).Silent) :
    (get >>= k : Run τ α).Silent := tells_get h

theorem silent_modifyGet {f : Timeline τ → α × Timeline τ}
    (h : ∀ t, (f t).2.events = t.events) : (modifyGet f : Run τ α).Silent :=
  tells_modifyGet (fun t => (h t).trans (List.append_nil _).symm) fun _ => ⟨rfl, by simp⟩

theorem Silent.bind {f : α → Run τ β} (hr : r.Silent) (hf : ∀ a, (f a).Silent) :
    (r >>= f).Silent := by
  refine Tells.bind hr (fun a es h => ?_) fun e es h => ⟨h.1, fun m he => ?_⟩
  · rw [h.1]
    exact hf a
  · cases he
    exact h.2 m rfl

theorem Silent.tryCatch {handle : Failure → Run τ α} (hr : r.Silent)
    (hh : ∀ e : RemoteError, (handle (.remote e)).Silent) : (tryCatch r handle).Silent := by
  refine Tells.tryCatch hr (fun a es h => ⟨h.1, by simp⟩) fun e es h => ?_
  rw [h.1]
  cases e with
  | remote e => exact hh e
  | fault m => exact absurd rfl (h.2 m)

theorem silent_say (level : Level) (text : String) : (say level text : Run τ Unit).Silent :=
  (tells_say level text).mono fun _ _ h => ⟨h.2, by simp [h.1]⟩

theorem Silent.ne_fault (hr : r.Silent) (t : Timeline τ) (m : String) :
    (r.run t).1 ≠ .error (.fault m) := by
  obtain ⟨_, -, -, hremote⟩ := Task.Tells.run hr t
  exact hremote m

variable [Seconds τ]

theorem silent_check (action : Option String) : (check action : Run τ Unit).Silent := by
  refine silent_get fun t => ?_
  cases t.limits.fault? t.now with
  | none => exact silent_pure ()
  | some cause => exact silent_throw _

theorem silent_exchange (net : Network τ) (q : Request τ) : (exchange net q).Silent := by
  refine silent_modifyGet fun t => ?_
  simp [Timeline.events, Timeline.marks, marksOf, Effect.mark?, Mark.event?]

theorem silent_wait (seconds : τ) : (wait seconds).Silent := by
  refine silent_modifyGet fun t => ?_
  simp [Timeline.events, Timeline.marks, marksOf, Effect.mark?]

theorem silent_sleep (delay : τ) (action : Option String) : (sleep delay action).Silent := by
  refine .bind (silent_check action) fun _ => silent_get fun t => ?_
  dsimp only
  split
  next => exact .bind (silent_wait _) fun _ => silent_check action
  next => exact silent_check action

theorem tells_enter (timeout : Option τ) :
    (enter timeout : Run τ Unit).Tells fun out es => out = .ok () ∧ es = [] :=
  tells_modifyGet (fun _ => (List.append_nil _).symm) fun _ => ⟨rfl, rfl⟩

/-- Silence as something that a call has if its steps have it. -/
def silence : Routine τ where
  has r := r.Silent
  may e := ∃ r, e = .remote r
  remote r := ⟨r, rfl⟩
  pure := silent_pure
  throw h := by
    obtain ⟨e, rfl⟩ := h
    exact silent_throw e
  bind := Silent.bind
  handle h hf := h.tryCatch fun e => hf _ ⟨e, rfl⟩
  say := silent_say
  check := silent_check

end Silent

end Run

end OutOfBand
