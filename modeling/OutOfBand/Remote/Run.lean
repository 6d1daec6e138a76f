import OutOfBand.Remote.Task
import OutOfBand.Remote.Exchange
import OutOfBand.Report.Observer
import OutOfBand.Seconds

namespace OutOfBand

structure Limits (τ : Type) where
  timeout : Option τ
  deadline : Option τ
  cancelled : Bool
  /-- The moment from which on the call counts as cancelled. -/
  cancelAt : Option τ
  deriving Repr

/-- What a run does. -/
inductive Effect (τ : Type) where
  | exchange (sentAt : τ) (request : Request τ) (reply : Reply τ)
  | wait (seconds : τ)
  /-- A call that a client without requests of its own takes note of. -/
  | called (client : Nat) (call : List String)
  | noted (n : Notice)

structure Timeline (τ : Type) where
  now : τ
  limits : Limits τ
  trace : List (Effect τ)

/-- A call that takes its steps on a timeline. -/
abbrev Run (τ : Type) := ExceptT Failure (Task (Timeline τ))

namespace Effect

variable {τ : Type}

def request? : Effect τ → Option (Request τ)
  | exchange _ q _ => some q
  | _ => none

def wait? : Effect τ → Option τ
  | wait w => some w
  | _ => none

/-- A call of one client. -/
def callOf? (client : Nat) : Effect τ → Option (List String)
  | called c call => if c = client then some call else none
  | _ => none

def notice? : Effect τ → Option Notice
  | noted n => some n
  | _ => none

def logLine? : Effect τ → Option LogLine
  | noted (.wrote (.log line)) => some line
  | _ => none

end Effect

namespace Limits

variable {τ : Type} [Seconds τ]

/-- No deadline and no cancellation. -/
def none : Limits τ := ⟨.none, .none, false, .none⟩

/-- The bounds of a call that starts now. -/
def starting (timeout : Option τ) (now : τ) : Limits τ :=
  ⟨timeout, timeout.map (Seconds.add now), false, .none⟩

def isCancelled (l : Limits τ) (now : τ) : Bool := l.cancelled || l.cancelAt.any (Seconds.le · now)

def isExpired (l : Limits τ) (now : τ) : Bool := l.deadline.any (Seconds.le · now)

/-- The time that is left, where there is a deadline. -/
def remaining (l : Limits τ) (now : τ) : Option τ :=
  l.deadline.map fun d => Seconds.greatest Seconds.zero (Seconds.sub d now)

/-- Why a call must not go on, if it must not: a cancellation counts before a deadline. -/
def fault? (l : Limits τ) (now : τ) : Option Remote.Cause :=
  if l.isCancelled now then some .cancelled
  else if l.isExpired now then some (.deadlineExceeded ((l.timeout.map Seconds.text).getD ""))
  else .none

/-- When a pause ends: after its length, or at the cancellation that comes before. -/
def wakeTime (l : Limits τ) (now seconds : τ) : τ :=
  let final := Seconds.add now seconds
  match l.cancelAt with
  | some t => if Seconds.le t final then Seconds.greatest now t else final
  | .none => final

end Limits

namespace Timeline

variable {τ : Type}

def record (t : Timeline τ) (e : Effect τ) : Timeline τ := { t with trace := t.trace ++ [e] }

def requests (t : Timeline τ) : List (Request τ) := t.trace.filterMap Effect.request?

def notices (t : Timeline τ) : List Notice := t.trace.filterMap Effect.notice?

def start [Seconds τ] : Timeline τ := ⟨Seconds.zero, Limits.none, []⟩

end Timeline

namespace Run

variable {τ α β : Type}

/-- All steps of a call, with its outcome. -/
def run (r : Run τ α) (t : Timeline τ) : Except Failure α × Timeline τ :=
  Task.run (ExceptT.run r) t

theorem run_pure (a : α) (t : Timeline τ) : (pure a : Run τ α).run t = (.ok a, t) := rfl

theorem run_throw (e : Failure) (t : Timeline τ) :
    (throw e : Run τ α).run t = (.error e, t) := rfl

theorem run_bind (r : Run τ α) (f : α → Run τ β) (t : Timeline τ) :
    (r >>= f).run t =
      match r.run t with
      | (.ok a, t) => (f a).run t
      | (.error e, t) => (.error e, t) := by
  change Task.run (ExceptT.run r >>= ExceptT.bindCont f) t = _
  rw [Task.run_bind]
  simp only [run]
  rcases Task.run (ExceptT.run r) t with ⟨a | e, t⟩ <;> rfl

theorem run_tryCatch (r : Run τ α) (handle : Failure → Run τ α) (t : Timeline τ) :
    (tryCatch r handle).run t =
      match r.run t with
      | (.ok a, t) => (.ok a, t)
      | (.error e, t) => (handle e).run t := by
  simp only [run, tryCatch, tryCatchThe, MonadExceptOf.tryCatch, ExceptT.tryCatch, ExceptT.run,
    ExceptT.mk, Task.run_bind]
  rcases Task.run r t with ⟨a | e, t⟩ <;> rfl

def fail (cause : Remote.Cause) (action : Option String) : Run τ α :=
  throw (.remote ⟨cause, action, none⟩)

def record (e : Effect τ) : Run τ Unit := modify (·.record e)

def say (level : Level) (text : String) : Run τ Unit :=
  record (.noted (.wrote (.log ⟨level, text⟩)))

/-- Tell everyone on a bus of an event. -/
def tell (bus : Option Bus) (e : Event) : Run τ Unit :=
  modify fun t => { t with trace := t.trace ++ (Bus.notices bus t.notices e).map .noted }

variable [Seconds τ]

/-- A call starts: from now on its own bounds count. -/
def enter (timeout : Option τ) : Run τ Unit :=
  modify fun t => { t with limits := Limits.starting timeout t.now }

def cancel : Run τ Unit := modify fun t => { t with limits := { t.limits with cancelled := true } }

/-- Time that passes without anyone waiting for it. -/
def pass (seconds : τ) : Run τ Unit := modify fun t => { t with now := Seconds.add t.now seconds }

/-- Fails if the call is cancelled or its deadline is past. -/
def check (action : Option String) : Run τ Unit := do
  let t ← get
  match t.limits.fault? t.now with
  | some cause => fail cause action
  | none => pure ()

def wait (seconds : τ) : Run τ Unit :=
  modify fun t =>
    { t with now := t.limits.wakeTime t.now seconds, trace := t.trace ++ [.wait seconds] }

/-- How long a pause may last: its length, or the time that is left. -/
def pauseLength (delay : τ) (remaining : Option τ) : τ :=
  match remaining with
  | some r => Seconds.least delay r
  | none => delay

/-- A pause within the bounds of the call, which are checked before and after it. -/
def sleep (delay : τ) (action : Option String) : Run τ Unit := do
  check action
  let t ← get
  let seconds := pauseLength delay (t.limits.remaining t.now)
  if Seconds.lt Seconds.zero seconds then wait seconds
  check action

def exchange (net : Network τ) (q : Request τ) : Run τ Answer :=
  modifyGet fun t =>
    let reply := net t.requests q
    let limits := if reply.cancels then { t.limits with cancelled := true } else t.limits
    (reply.answer,
      { t with
        now := Seconds.add t.now reply.elapsed
        limits := limits
        trace := t.trace ++ [.exchange t.now q reply] })

end Run

end OutOfBand
