import OutOfBand.Proofs.Remote.Telling
import OutOfBand.Proofs.Report.Voices

namespace OutOfBand

variable {τ α β : Type}

namespace Effect

/-- The event that is told of. -/
def told? : Effect τ → Option Event
  | noted (.told e) => some e
  | _ => none

def written (o : Output) : Effect τ := noted (.wrote o)

def isWritten : Effect τ → Bool
  | noted (.wrote _) => true
  | _ => false

theorem told?_written (o : Output) : (written o : Effect τ).told? = none := rfl

end Effect

theorem eventsOf_eq (trace : List (Effect τ)) : eventsOf trace = trace.filterMap Effect.told? := by
  rw [eventsOf, marksOf, List.filterMap_filterMap]
  refine congrArg (fun f => trace.filterMap f) (funext fun x => ?_)
  rcases x with _ | _ | _ | ⟨_ | _⟩ <;> rfl

theorem notices_told (trace : List (Effect τ)) :
    (trace.filterMap Effect.notice?).filterMap Notice.event? = eventsOf trace := by
  rw [eventsOf_eq, List.filterMap_filterMap]
  refine congrArg (fun f => trace.filterMap f) (funext fun x => ?_)
  rcases x with _ | _ | _ | ⟨_ | _⟩ <;> rfl

namespace Timeline

/-- The same timeline but for what has been written. -/
structure Resembles (t t' : Timeline τ) : Prop where
  now : t'.now = t.now
  limits : t'.limits = t.limits
  trace : t'.trace.filter (!·.isWritten) = t.trace.filter (!·.isWritten)

/-- The timeline where everyone on a bus has heard of its events, which follow those before. -/
def heardBy (t : Timeline τ) (before : List (Effect τ)) (bus : Bus) : Timeline τ :=
  { t with trace := before ++ bus.voiced Effect.told? Effect.written (eventsOf before) t.trace }

variable {t t' : Timeline τ}

theorem Resembles.refl (t : Timeline τ) : t.Resembles t := ⟨rfl, rfl, rfl⟩

theorem Resembles.filterMap (h : t.Resembles t') {f : Effect τ → Option β}
    (hf : ∀ x, x.isWritten = true → f x = none) : t'.trace.filterMap f = t.trace.filterMap f := by
  have hfilter : ∀ xs : List (Effect τ),
      (xs.filter (!·.isWritten)).filterMap f = xs.filterMap f := by
    intro xs
    rw [List.filterMap_filter]
    refine congrArg (fun f => xs.filterMap f) (funext fun x => ?_)
    by_cases hx : x.isWritten = true
    · simp [hx, hf x hx]
    · simp [hx]
  rw [← hfilter, h.trace, hfilter]

theorem Resembles.requests (h : t.Resembles t') : t'.requests = t.requests :=
  h.filterMap fun x hx => by
    rcases x with _ | _ | _ | ⟨_ | _⟩ <;> first | rfl | cases hx

theorem Resembles.contacts (h : t.Resembles t') : t'.contacts = t.contacts := by
  rw [Timeline.contacts, Timeline.contacts, marks, marks, marksOf, marksOf,
    List.filterMap_filterMap, List.filterMap_filterMap]
  refine h.filterMap fun x hx => ?_
  rcases x with _ | _ | _ | ⟨_ | _⟩ <;> first | rfl | cases hx

theorem Resembles.events (h : t.Resembles t') : t'.events = t.events := by
  change eventsOf t'.trace = eventsOf t.trace
  rw [eventsOf_eq, eventsOf_eq]
  refine h.filterMap fun x hx => ?_
  rcases x with _ | _ | _ | ⟨_ | _⟩ <;> first | rfl | cases hx

theorem Resembles.append (h : t.Resembles t') (now : τ) (limits : Limits τ)
    (new : List (Effect τ)) :
    Resembles ⟨now, limits, t.trace ++ new⟩ ⟨now, limits, t'.trace ++ new⟩ where
  now := rfl
  limits := rfl
  trace := by rw [List.filter_append, List.filter_append, h.trace]

theorem resembles_heardBy (t : Timeline τ) (before : List (Effect τ)) (bus bus' : Bus) :
    (t.heardBy before bus).Resembles (t.heardBy before bus') where
  now := rfl
  limits := rfl
  trace := by
    have hfilter : ∀ xs : List (Effect τ),
        xs.filter (!·.isWritten) = xs.filterMap (Option.guard (!·.isWritten)) := by
      intro xs
      rw [List.filterMap_eq_filter]
    have hnotes : ∀ o : Output,
        Option.guard (!·.isWritten) (Effect.written o : Effect τ) = none := fun _ => rfl
    simp only [heardBy, hfilter, List.filterMap_append, Bus.filterMap_voiced hnotes]

end Timeline

namespace Run

/-- Two ends of runs with one outcome, where the same was added to two timelines and nothing was
told of. -/
def AddsAlike (t t' : Timeline τ) (x x' : Except Failure α × Timeline τ) : Prop :=
  ∃ out now limits new, (∀ x ∈ new, Effect.told? x = none) ∧
    x = (out, ⟨now, limits, t.trace ++ new⟩) ∧ x' = (out, ⟨now, limits, t'.trace ++ new⟩)

/-- A call that does the same wherever only what has been written is different, and tells of
nothing. -/
def Heedless (r : Run τ α) : Prop :=
  ∀ t t', t.Resembles t' → AddsAlike t t' (r.run t) (r.run t')

/-- A call that has the same outcome whoever listens, and does the same but for what observers
write. -/
def Uniform (r : Bus → Run τ α) : Prop :=
  ∀ before (t : Timeline τ), ∃ out, ∃ t' : Timeline τ, ∀ bus,
    (r bus).run (t.heardBy before bus) = (out, t'.heardBy before bus)

section Heedless

variable {r : Run τ α}

theorem AddsAlike.prepend {t t' : Timeline τ} {now : τ} {limits : Limits τ}
    {new : List (Effect τ)} {x x' : Except Failure α × Timeline τ}
    (hnew : ∀ x ∈ new, Effect.told? x = none)
    (h : AddsAlike ⟨now, limits, t.trace ++ new⟩ ⟨now, limits, t'.trace ++ new⟩ x x') :
    AddsAlike t t' x x' := by
  obtain ⟨out, now', limits', more, hmore, rfl, rfl⟩ := h
  refine ⟨out, now', limits', new ++ more, ?_, by simp, by simp⟩
  intro x hx
  exact (List.mem_append.mp hx).elim (hnew x) (hmore x)

theorem heedless_of_outcome {out : Except Failure α} (h : ∀ t, r.run t = (out, t)) :
    r.Heedless := by
  intro t t' ht
  refine ⟨out, t.now, t.limits, [], by simp, ?_, ?_⟩
  · rw [h, List.append_nil]
  · rw [h, List.append_nil, ← ht.now, ← ht.limits]

theorem heedless_pure (a : α) : (pure a : Run τ α).Heedless := heedless_of_outcome fun _ => rfl

theorem heedless_throw (e : Failure) : (throw e : Run τ α).Heedless :=
  heedless_of_outcome fun _ => rfl

theorem Heedless.bind {f : α → Run τ β} (hr : r.Heedless) (hf : ∀ a, (f a).Heedless) :
    (r >>= f).Heedless := by
  intro t t' ht
  obtain ⟨out, now, limits, new, hnew, hrun, hrun'⟩ := hr t t' ht
  rw [run_bind, run_bind, hrun, hrun']
  cases out with
  | error e => exact ⟨.error e, now, limits, new, hnew, rfl, rfl⟩
  | ok a => exact (hf a _ _ (ht.append now limits new)).prepend hnew

theorem Heedless.tryCatch {handle : Failure → Run τ α} (hr : r.Heedless)
    (hh : ∀ e, (handle e).Heedless) : (tryCatch r handle).Heedless := by
  intro t t' ht
  obtain ⟨out, now, limits, new, hnew, hrun, hrun'⟩ := hr t t' ht
  rw [run_tryCatch, run_tryCatch, hrun, hrun']
  cases out with
  | ok a => exact ⟨.ok a, now, limits, new, hnew, rfl, rfl⟩
  | error e => exact (hh e _ _ (ht.append now limits new)).prepend hnew

theorem heedless_say (level : Level) (text : String) : (say level text : Run τ Unit).Heedless := by
  intro t t' ht
  refine ⟨.ok (), t.now, t.limits, [.written (.log ⟨level, text⟩)], by simp [Effect.told?_written],
    rfl, ?_⟩
  rw [← ht.now, ← ht.limits]
  rfl

variable [Seconds τ]

theorem heedless_check (action : Option String) : (check action : Run τ Unit).Heedless := by
  intro t t' ht
  rw [run_check, run_check, ht.now, ht.limits]
  cases t.limits.fault? t.now with
  | none => exact heedless_pure () t t' ht
  | some cause => exact heedless_throw _ t t' ht

theorem heedless_sleep (delay : τ) (action : Option String) :
    (sleep delay action : Run τ Unit).Heedless := by
  intro t t' ht
  rw [run_sleep, run_sleep, ht.now, ht.limits]
  cases t.limits.fault? t.now with
  | some cause => exact heedless_throw (.remote ⟨cause, action, none⟩) t t' ht
  | none =>
    dsimp only
    split
    next =>
      let seconds := pauseLength delay (t.limits.remaining t.now)
      have hpaused : (paused t seconds).Resembles (paused t' seconds) := by
        rw [paused, paused, ht.now, ht.limits]
        exact ht.append _ _ [.wait seconds]
      have hcheck := heedless_check action _ _ hpaused
      rw [paused, paused, ht.now, ht.limits] at hcheck ⊢
      exact hcheck.prepend (by simp [Effect.told?])
    next => exact heedless_check action t t' ht

theorem heedless_enter (timeout : Option τ) : (enter timeout : Run τ Unit).Heedless := by
  intro t t' ht
  refine ⟨.ok (), t.now, Limits.starting timeout t.now, [], by simp, ?_, ?_⟩
  · rw [List.append_nil]
    rfl
  · rw [List.append_nil, ← ht.now]
    rfl

/-- Heedlessness as something that a call has if its steps have it; any failure may be raised. -/
def heedlessness : Routine τ where
  has := Heedless
  may _ := True
  remote _ := trivial
  pure := heedless_pure
  throw _ := heedless_throw _
  bind := Heedless.bind
  handle h hf := h.tryCatch fun e => hf e trivial
  say := heedless_say
  check := heedless_check

end Heedless

section Uniform

variable {r : Bus → Run τ α}

theorem Heedless.uniform {r : Run τ α} (h : r.Heedless) : Uniform fun _ => r := by
  intro before t
  let t₀ := t.heardBy before []
  obtain ⟨out, now, limits, new, hnew, hrun, -⟩ := h t₀ t₀ (.refl t₀)
  refine ⟨out, ⟨now, limits, t.trace ++ new⟩, fun bus => ?_⟩
  obtain ⟨out', now', limits', new', -, hrun₀, hrun'⟩ :=
    h t₀ (t.heardBy before bus) (t.resembles_heardBy before [] bus)
  -- the run is the same as without anyone on the bus
  obtain ⟨rfl, hend⟩ := Prod.mk.inj (hrun.symm.trans hrun₀)
  obtain ⟨rfl, rfl, htrace⟩ := Timeline.mk.inj hend
  obtain rfl := List.append_cancel_left htrace
  rw [hrun', Timeline.heardBy, Timeline.heardBy, Bus.voiced_append, Bus.voiced_of_untold hnew]
  simp

theorem Uniform.bind {f : Bus → α → Run τ β} (hr : Uniform r)
    (hf : ∀ a, Uniform fun bus => f bus a) : Uniform fun bus => r bus >>= f bus := by
  intro before t
  obtain ⟨out, t', hrun⟩ := hr before t
  cases out with
  | error e =>
    refine ⟨.error e, t', fun bus => ?_⟩
    rw [run_bind, hrun]
  | ok a =>
    obtain ⟨out, t'', hnext⟩ := hf a before t'
    refine ⟨out, t'', fun bus => ?_⟩
    rw [run_bind, hrun]
    exact hnext bus

theorem uniform_tell (e : Event) : Uniform fun bus => (tell (some bus) e : Run τ Unit) := by
  intro before t
  refine ⟨.ok (), { t with trace := t.trace ++ [.noted (.told e)] }, fun bus => ?_⟩
  have hearlier : (t.heardBy before bus).notices.filterMap Notice.event? =
      eventsOf before ++ t.trace.filterMap Effect.told? := by
    rw [Timeline.notices, notices_told, Timeline.heardBy, eventsOf_append,
      eventsOf_eq (Bus.voiced ..), Bus.filterMap_voiced Effect.told?_written]
  have htold : (Effect.noted (.told e) : Effect τ).told? = some e := rfl
  change (Except.ok (), { t.heardBy before bus with trace := (t.heardBy before bus).trace ++
    (Bus.notices (some bus) (t.heardBy before bus).notices e).map Effect.noted }) = _
  rw [Bus.notices, hearlier, Timeline.heardBy, Timeline.heardBy, Bus.voiced_append,
    Bus.voiced_told htold]
  simp [Effect.written, Function.comp_def]

theorem uniform_get {k : Bus → Timeline τ → Run τ α}
    (hnow : ∀ bus t u, t.now = u.now → k bus t = k bus u) (h : ∀ t, Uniform fun bus => k bus t) :
    Uniform fun bus => get >>= k bus := by
  intro before t
  obtain ⟨out, t', hrun⟩ := h t before t
  refine ⟨out, t', fun bus => ?_⟩
  have hk : k bus (t.heardBy before bus) = k bus t := hnow bus _ _ rfl
  calc (get >>= k bus).run (t.heardBy before bus)
      = (k bus (t.heardBy before bus)).run (t.heardBy before bus) := rfl
    _ = (out, t'.heardBy before bus) := by rw [hk, hrun bus]

theorem Uniform.run (h : Uniform r) (t : Timeline τ) :
    ∃ out, ∃ t' : Timeline τ, ∀ bus, (r bus).run t = (out, t'.heardBy t.trace bus) := by
  obtain ⟨out, t', hrun⟩ := h t.trace ⟨t.now, t.limits, []⟩
  refine ⟨out, t', fun bus => ?_⟩
  have hstart : Timeline.heardBy ⟨t.now, t.limits, []⟩ t.trace bus = t := by
    rw [Timeline.heardBy, Bus.voiced, List.append_nil]
  have hbus := hrun bus
  rwa [hstart] at hbus

end Uniform

end Run

end OutOfBand
