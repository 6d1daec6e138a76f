import OutOfBand.Proofs.Remote.Heedless

namespace OutOfBand

variable {τ α β : Type}

/-- From one trace to a later one, everyone on a bus has been notified of every event as soon as it
was told of. -/
def Bus.Follows (bus : Bus) (trace later : List (Effect τ)) : Prop :=
  ∃ new, later = trace ++ bus.voiced Effect.told? Effect.written (eventsOf trace) new

namespace Bus.Follows

variable {bus : Bus} {t u v : List (Effect τ)}

theorem refl (bus : Bus) (t : List (Effect τ)) : bus.Follows t t := ⟨[], (List.append_nil t).symm⟩

theorem trans (h : bus.Follows t u) (h' : bus.Follows u v) : bus.Follows t v := by
  obtain ⟨new, rfl⟩ := h
  obtain ⟨more, rfl⟩ := h'
  refine ⟨new ++ more, ?_⟩
  rw [voiced_append, eventsOf_append, eventsOf_eq (voiced ..), filterMap_voiced Effect.told?_written,
    List.append_assoc]

theorem of_untold {new : List (Effect τ)} (h : ∀ x ∈ new, x.told? = none) :
    bus.Follows t (t ++ new) :=
  ⟨new, by rw [voiced_of_untold h]⟩

theorem notices (bus : Bus) (t : List (Effect τ)) (e : Event) :
    bus.Follows t (t ++ (Bus.notices (some bus) (t.filterMap Effect.notice?) e).map .noted) := by
  have htold : (Effect.noted (.told e) : Effect τ).told? = some e := rfl
  refine ⟨[.noted (.told e)], ?_⟩
  rw [Bus.notices, notices_told, voiced_told htold, List.map_cons, List.map_map]
  rfl

theorem hears (h : bus.Follows [] t) :
    ∃ done, bus.Hears Effect.told? Effect.written [] done t := by
  obtain ⟨done, rfl⟩ := h
  exact ⟨done, .voiced Effect.told?_written bus [] done⟩

end Bus.Follows

/-- What everyone on a bus has heard since nothing was done. -/
theorem Bus.Hears.notified {bus : Bus} {done trace : List (Effect τ)}
    (h : bus.Hears Effect.told? Effect.written [] done trace) :
    done.filterMap Effect.told? = eventsOf trace ∧
      Interleaves (done :: bus.map fun o => (o.stream [] (eventsOf trace)).map .written) trace := by
  rw [eventsOf_eq]
  exact ⟨h.events.symm, h.streams⟩

/-- Everyone on a bus follows each step of a task, wherever it leads from. -/
def Task.Voices (bus : Bus) : Task (Timeline τ) α → Prop
  | .done _ => True
  | .step change next => ∀ t, bus.Follows t.trace (change t).trace ∧ (next t).Voices bus

namespace Task.Voices

variable {bus : Bus} {r : Task (Timeline τ) α}

theorem bind {f : α → Task (Timeline τ) β} (h : r.Voices bus) (hf : ∀ a, (f a).Voices bus) :
    (r.bind f).Voices bus := by
  induction r with
  | done a => exact hf a
  | step change next ih => exact fun t => ⟨(h t).1, ih t (h t).2⟩

theorem run (h : r.Voices bus) (t : Timeline τ) : bus.Follows t.trace (r.run t).2.trace := by
  induction r generalizing t with
  | done a => exact .refl bus t.trace
  | step change next ih =>
    obtain ⟨hstep, hnext⟩ := h t
    exact hstep.trans (ih t hnext (change t))

end Task.Voices

namespace Run

variable {bus : Bus} {r : Run τ α}

def Voices (bus : Bus) (r : Run τ α) : Prop := Task.Voices bus (ExceptT.run r)

theorem voices_pure (a : α) : (pure a : Run τ α).Voices bus := trivial

theorem voices_throw (e : Failure) : (throw e : Run τ α).Voices bus := trivial

theorem voices_get {k : Timeline τ → Run τ α} (h : ∀ t, (k t).Voices bus) :
    (get >>= k : Run τ α).Voices bus := fun t => ⟨.refl bus t.trace, h t⟩

theorem voices_modifyGet {f : Timeline τ → α × Timeline τ}
    (h : ∀ t, bus.Follows t.trace (f t).2.trace) : (modifyGet f : Run τ α).Voices bus :=
  fun t => ⟨h t, trivial⟩

theorem Voices.bind {f : α → Run τ β} (hr : r.Voices bus) (hf : ∀ a, (f a).Voices bus) :
    (r >>= f).Voices bus := by
  refine Task.Voices.bind hr fun out => ?_
  cases out with
  | ok a => exact hf a
  | error e => exact trivial

theorem Voices.tryCatch {handle : Failure → Run τ α} (hr : r.Voices bus)
    (hh : ∀ e, (handle e).Voices bus) : (tryCatch r handle).Voices bus := by
  refine Task.Voices.bind hr fun out => ?_
  cases out with
  | ok a => exact trivial
  | error e => exact hh e

theorem voices_add {f : Timeline τ → α × Timeline τ} {x : Timeline τ → Effect τ}
    (h : ∀ t, (f t).2.trace = t.trace ++ [x t]) (untold : ∀ t, (x t).told? = none) :
    (modifyGet f : Run τ α).Voices bus := by
  refine voices_modifyGet fun t => ?_
  rw [h t]
  exact .of_untold (by simpa using untold t)

theorem voices_say (level : Level) (text : String) : (say level text : Run τ Unit).Voices bus :=
  voices_add (fun _ => rfl) fun _ => rfl

theorem voices_tell (e : Event) : (tell (some bus) e : Run τ Unit).Voices bus :=
  voices_modifyGet fun t => .notices bus t.trace e

variable [Seconds τ]

theorem voices_enter (timeout : Option τ) : (enter timeout : Run τ Unit).Voices bus :=
  voices_modifyGet fun t => .refl bus t.trace

theorem voices_check (action : Option String) : (check action : Run τ Unit).Voices bus := by
  refine voices_get fun t => ?_
  cases t.limits.fault? t.now with
  | none => exact voices_pure ()
  | some cause => exact voices_throw _

theorem voices_exchange (net : Network τ) (q : Request τ) : (exchange net q).Voices bus :=
  voices_add (fun _ => rfl) fun _ => rfl

theorem voices_sleep (delay : τ) (action : Option String) : (sleep delay action).Voices bus := by
  refine .bind (voices_check action) fun _ => voices_get fun t => ?_
  have wait (seconds : τ) : (Run.wait seconds).Voices bus := voices_add (fun _ => rfl) fun _ => rfl
  dsimp only
  split
  next => exact (wait _).bind fun _ => voices_check action
  next => exact voices_check action

/-- Voicing as something that a call has if its steps have it; any failure may be raised. -/
def voicing (bus : Bus) : Routine τ where
  has := Voices bus
  may _ := True
  remote _ := trivial
  pure := voices_pure
  throw _ := voices_throw _
  bind := Voices.bind
  handle h hf := h.tryCatch fun e => hf e trivial
  say := voices_say
  check := voices_check

end Run

end OutOfBand
