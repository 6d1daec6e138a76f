import OutOfBand.Remote.Repeat

namespace OutOfBand

variable {τ α β : Type} [Seconds τ]

/-- Something that calls may have, whatever they are made of: a call without a step, a log line, a
stop, and any calls one after the other, tried again, or repeated as looks at a state. -/
structure Discipline (τ : Type) [Seconds τ] where
  has {α : Type} : Run τ α → Prop
  pure {α : Type} (a : α) : has (pure a)
  bind {α β : Type} {r : Run τ α} {f : α → Run τ β} : has r → (∀ a, has (f a)) → has (r >>= f)
  say (level : Level) (text : String) : has (Run.say level text)
  fail {α : Type} {cause : Remote.Cause} (action : String) : cause ≠ .deadlineBeforeRequest →
    has (Run.fail cause (some action) : Run τ α)
  retry {α : Type} {p : RetryPlan τ} {act : Run τ α} : p.retryOn = Failure.isTransient →
    has act → (∀ k e, has (p.onRetry k e)) → has (p.pause p.budget.delay) → has (Run.retry p act)
  poll {action : String} {b : Budget τ} {reached : Run τ Bool} : has reached →
    has (Run.sleep b.delay (some action)) → has (Run.poll action b reached)

theorem Discipline.has.bind {D : Discipline τ} {r : Run τ α} {f : α → Run τ β} (hr : D.has r)
    (hf : ∀ a, D.has (f a)) : D.has (r >>= f) := D.bind hr hf

/-- Something that calls may have whose own lines in the log are of the lowest level: less than a
discipline, it need not be had by whatever is tried again or says more. -/
structure Habit (τ : Type) [Seconds τ] where
  has {α : Type} : Run τ α → Prop
  pure {α : Type} (a : α) : has (pure a)
  bind {α β : Type} {r : Run τ α} {f : α → Run τ β} : has r → (∀ a, has (f a)) → has (r >>= f)
  note (text : String) : has (Run.say .debug text)
  fail {α : Type} {cause : Remote.Cause} (action : String) : cause ≠ .deadlineBeforeRequest →
    has (Run.fail cause (some action) : Run τ α)
  poll {action : String} {b : Budget τ} {reached : Run τ Bool} : has reached →
    has (Run.sleep b.delay (some action)) → has (Run.poll action b reached)

theorem Habit.has.bind {H : Habit τ} {r : Run τ α} {f : α → Run τ β} (hr : H.has r)
    (hf : ∀ a, H.has (f a)) : H.has (r >>= f) := H.bind hr hf

/-- A discipline that is not asked about retries. -/
def Discipline.habit (D : Discipline τ) : Habit τ where
  has := D.has
  pure := D.pure
  bind := D.bind
  note := D.say .debug
  fail := D.fail
  poll := D.poll

instance : Coe (Discipline τ) (Habit τ) := ⟨Discipline.habit⟩

/-- Something that a call has if all its steps have it and only failures of some kind are raised. -/
structure Routine (τ : Type) [Seconds τ] where
  has {α : Type} : Run τ α → Prop
  may : Failure → Prop
  remote (e : RemoteError) : may (.remote e)
  pure {α : Type} (a : α) : has (pure a)
  throw {α : Type} {e : Failure} : may e → has (throw e : Run τ α)
  bind {α β : Type} {r : Run τ α} {f : α → Run τ β} : has r → (∀ a, has (f a)) → has (r >>= f)
  handle {α : Type} {r : Run τ α} {f : Failure → Run τ α} : has r → (∀ e, may e → has (f e)) →
    has (tryCatch r f)
  say (level : Level) (text : String) : has (Run.say level text)
  check (action : Option String) : has (Run.check action)

namespace Routine

variable (R : Routine τ)

theorem retry {p : RetryPlan τ} {act : Run τ α} (hact : R.has act)
    (hon : ∀ k e, R.has (p.onRetry k e)) (hpause : R.has (p.pause p.budget.delay)) :
    R.has (Run.retry p act) := by
  have attempts : ∀ left k, R.has (Run.retryFrom p act left k) := by
    intro left
    induction left with
    | zero => exact fun k => R.throw (R.remote _)
    | succ left ih =>
      intro k
      refine R.bind (R.check _) fun _ => R.handle hact fun e he => ?_
      split
      next =>
        refine R.bind (R.say _ _) fun _ => R.bind (hon k e) fun _ => ?_
        dsimp only
        split
        next => exact R.bind hpause fun _ => ih (k + 1)
        next => exact ih (k + 1)
      next => exact R.throw he
  exact attempts _ _

theorem poll {action : String} {b : Budget τ} {reached : Run τ Bool} (hreached : R.has reached)
    (hsleep : R.has (Run.sleep b.delay (some action))) : R.has (Run.poll action b reached) := by
  have look : ∀ k, R.has (Run.pollOnce action b reached k) := by
    refine fun k => R.handle hreached fun e he => ?_
    split
    next => exact R.bind (R.say _ _) fun _ => R.pure false
    next => exact R.throw he
  have looks : ∀ left k, R.has (Run.pollFrom action b reached left k) := by
    intro left
    induction left with
    | zero => exact fun k => R.throw (R.remote _)
    | succ left ih =>
      refine fun k => R.bind (look k) fun seen => ?_
      split
      next => exact R.pure ()
      next =>
        dsimp only
        split
        next => exact R.bind hsleep fun _ => ih (k + 1)
        next => exact ih (k + 1)
  exact looks _ _

def discipline : Discipline τ where
  has := R.has
  pure := R.pure
  bind := R.bind
  say := R.say
  fail _ _ := R.throw (R.remote _)
  retry _ := R.retry
  poll := R.poll

end Routine

end OutOfBand
