import OutOfBand.Batch.Action

namespace OutOfBand

inductive Outcome where
  | ok (value : Option String)
  | failed (e : RemoteError)
  /-- The host was left alone after a failure on another one. -/
  | skipped
  deriving Repr

namespace Outcome

def isOk : Outcome → Bool
  | ok _ => true
  | _ => false

def isFailed : Outcome → Bool
  | .failed _ => true
  | _ => false

def isSkipped : Outcome → Bool
  | skipped => true
  | _ => false

end Outcome

structure HostResult where
  host : Value
  action : String
  outcome : Outcome
  deriving Repr

/-- What all hosts of a batch share. -/
structure Batch (τ : Type) where
  action : Action τ
  /-- The action's name in events and log lines. -/
  name : String
  timeout : Option τ
  bus : Option Bus
  stamp : Stamp

namespace Batch

variable {τ : Type}

def tell (b : Batch τ) (h : Happening) : Run τ Unit := Run.tell b.bus ⟨b.stamp, h⟩

def result (b : Batch τ) (h : Host (Client τ)) (o : Outcome) : HostResult := ⟨h.name, b.name, o⟩

variable [Seconds τ]

def failedOn (b : Batch τ) (h : Host (Client τ)) (e : RemoteError) : Run τ HostResult := do
  Run.say .error (b.name ++ " failed: " ++ e.message)
  b.tell (.failed h.name b.name e.message)
  return b.result h (.failed e)

def succeededOn (b : Batch τ) (h : Host (Client τ)) (started : τ) (value : Option String) :
    Run τ HostResult := do
  let ms := Seconds.millis (Seconds.sub (← get).now started)
  Run.say .info (b.name ++ " on " ++ h.name.text ++ " done in " ++ intText ms ++ "ms")
  b.tell (.succeeded h.name b.name ms value)
  return b.result h (.ok value)

/-- An action with its outcome; only failures of remote calls are outcomes. -/
def attempt (b : Batch τ) (h : Host (Client τ)) : Run τ (Except RemoteError (Option String)) :=
  tryCatch (do return .ok (← b.action h)) fun
    | .remote e => return .error e
    | f => throw f

/-- The action on one host, from its start to its end. -/
def runOn (b : Batch τ) (h : Host (Client τ)) : Run τ HostResult := do
  Run.enter b.timeout
  b.tell (.started h.name b.name)
  let started := (← get).now
  match ← b.attempt h with
  | .error e => b.failedOn h e
  | .ok value => b.succeededOn h started value

/-- One host after the other; unless the batch goes on after failures, the hosts that follow one are
left alone. -/
def runInTurn (b : Batch τ) (goOn : Bool) : List (Host (Client τ)) → Run τ (List HostResult)
  | [] => return []
  | h :: rest => do
    let r ← b.runOn h
    if r.outcome.isFailed && !goOn then
      return r :: rest.map fun h => b.result h .skipped
    else
      return r :: (← runInTurn b goOn rest)

def count (kind : Outcome → Bool) (rs : List HostResult) : Nat :=
  (rs.filter fun r => kind r.outcome).length

def summary (b : Batch τ) (rs : List HostResult) : Happening :=
  .summary b.name (count Outcome.isOk rs) (count Outcome.isFailed rs) (count Outcome.isSkipped rs)

end Batch

end OutOfBand
