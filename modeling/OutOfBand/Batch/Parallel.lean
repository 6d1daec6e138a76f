import OutOfBand.Batch.Basic

/-!
Hosts side by side: every host has a lane with its own clock and its own bounds, and a schedule says
whose turn it is. A turn is one step; what it does is added to the one trace of the batch. Results
are collected in the order of the hosts, whatever the schedule.
-/

namespace OutOfBand

/-- A task on its way. -/
structure Lane (τ α : Type) where
  now : τ
  limits : Limits τ
  task : Task (Timeline τ) α

namespace Lane

variable {τ α : Type}

def timeline (l : Lane τ α) (trace : List (Effect τ)) : Timeline τ := ⟨l.now, l.limits, trace⟩

/-- One step, if there is one left. -/
def turn (l : Lane τ α) (trace : List (Effect τ)) : Lane τ α × List (Effect τ) :=
  match l.task with
  | .done _ => (l, trace)
  | .step change next =>
    let t := l.timeline trace
    let after := change t
    (⟨after.now, after.limits, next t⟩, after.trace)

/-- All steps that are left. -/
def finish (l : Lane τ α) (trace : List (Effect τ)) : α × Timeline τ :=
  l.task.run (l.timeline trace)

end Lane

/-- Lanes and what they did so far. -/
structure Lanes (τ α : Type) where
  lanes : List (Lane τ α)
  trace : List (Effect τ)

namespace Lanes

variable {τ α : Type}

/-- The turn of one lane; a number without a lane passes. -/
def turn (w : Lanes τ α) (i : Nat) : Lanes τ α :=
  match w.lanes[i]? with
  | none => w
  | some l =>
    let (l, trace) := l.turn w.trace
    ⟨w.lanes.set i l, trace⟩

/-- The turns of a schedule. -/
def follow (w : Lanes τ α) (schedule : List Nat) : Lanes τ α := schedule.foldl turn w

variable [Seconds τ]

/-- What is left of every lane, one after the other; the clock ends with the last to end. -/
def finish (trace : List (Effect τ)) (now : τ) : List (Lane τ α) → List α × τ × List (Effect τ)
  | [] => ([], now, trace)
  | l :: rest =>
    let (a, t) := l.finish trace
    let (as, now, trace) := finish t.trace (Seconds.greatest now t.now) rest
    (a :: as, now, trace)

end Lanes

namespace Run

variable {τ α : Type} [Seconds τ]

/-- Tasks side by side from the present moment, with their outcomes in order. -/
def sideBySide (schedule : List Nat) (tasks : List (Run τ α)) : Run τ (List (Except Failure α)) :=
  modifyGet fun t =>
    let lanes := tasks.map fun r => (⟨t.now, t.limits, ExceptT.run r⟩ : Lane τ (Except Failure α))
    let w := Lanes.follow ⟨lanes, t.trace⟩ schedule
    let (results, now, trace) := Lanes.finish w.trace t.now w.lanes
    (results, { t with now := now, trace := trace })

/-- The values of outcomes, or the first failure. -/
def collect : List (Except Failure α) → Run τ (List α)
  | [] => return []
  | .ok a :: rest => return a :: (← collect rest)
  | .error e :: _ => throw e

end Run

/-- How the hosts of a batch take turns. -/
inductive Mode where
  /-- One after the other, with or without going on after a failure. -/
  | inTurn (goOn : Bool)
  /-- Several at once, under a schedule; without a number of workers, there are as many as hosts. -/
  | sideBySide (workers : Option Int) (schedule : List Nat)
  deriving Repr

/-- Fails for a number of workers below zero; none at all counts as no number. -/
def checkWorkers {τ : Type} (workers : Option Int) : Run τ Unit :=
  if workers.any (· < 0) then throw (.fault "max_workers must be greater than 0") else pure ()

namespace Batch

variable {τ : Type} [Seconds τ]

def results (b : Batch τ) (mode : Mode) (hosts : List (Host (Client τ))) :
    Run τ (List HostResult) :=
  match mode with
  | .inTurn goOn => b.runInTurn goOn hosts
  | .sideBySide workers schedule => do
    if !hosts.isEmpty then checkWorkers workers
    Run.collect (← Run.sideBySide schedule (hosts.map b.runOn))

/-- The action on all hosts, and the sums at the end. -/
def run (b : Batch τ) (mode : Mode) (hosts : List (Host (Client τ))) : Run τ (List HostResult) := do
  let rs ← b.results mode hosts
  b.tell (b.summary rs)
  return rs

end Batch

end OutOfBand
