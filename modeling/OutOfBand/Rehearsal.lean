import OutOfBand.Remote.Client

/-!
Rehearsals: networks and clients that follow a script, so that whatever runs on them runs without
machines. Every call takes the next item of its script, and the last item stays.
-/

namespace OutOfBand.Rehearsal

variable {τ α : Type}

/-- The item of a script for a call that follows `n` others. -/
def item? (script : List α) (n : Nat) : Option α := script[n]? <|> script.getLast?

def routeOf (q : Request τ) : String := q.method.name ++ " " ++ q.url

/-- The replies of a network by method and URL. -/
abbrev Routes (τ : Type) := List (String × List (Reply τ))

def noRoute [Seconds τ] : Reply τ := ⟨.response ⟨404, "no route", [], none⟩, Seconds.zero, false⟩

def network [Seconds τ] (routes : Routes τ) : Network τ := fun earlier q =>
  let route := routeOf q
  let replies := ((routes.find? (·.1 = route)).map (·.2)).getD []
  (item? replies (earlier.filter fun p => routeOf p = route).length).getD noRoute

/-- What a call does by its script. -/
inductive Cue (τ : Type) where
  | value (v : Value)
  /-- Time may pass and the call may be cancelled before there is a result. -/
  | act (elapsed : Option τ) (cancels : Bool) (result : Except Failure Value)

/-- The calls of a client so far, with their arguments. -/
def callsOf (client : Nat) (t : Timeline τ) : List (List String) :=
  t.trace.filterMap (Effect.callOf? client)

variable [Seconds τ]

/-- A cue, with something to be done just before its result. -/
def follow (before : Run τ Unit) : Cue τ → Run τ Value
  | .value v => return v
  | .act elapsed cancels result => do
    if let some s := elapsed then Run.pass s
    if cancels then Run.cancel
    before
    match result with
    | .ok v => return v
    | .error e => throw e

def call (client : Nat) (name : String) (arguments : List String) (script : List (Cue τ))
    (before : Run τ Unit) : Run τ Value := do
  let earlier := (callsOf client (← get)).filter fun c => c.head? = some name
  Run.record (.called client (name :: arguments))
  follow before ((item? script earlier.length).getD (.value (.str "ok")))

/-- A client with a script for each operation; within its bounds it does what they say. -/
def client (number : Nat) (node : String) (script : String → List (Cue τ)) : Client τ :=
  let perform (name : String) (arguments : List String) : Run τ Value :=
    call number name arguments (script name) (Run.check (some name))
  let order (name : String) (arguments : List String) : Run τ Unit := do
    let _ ← perform name arguments
  { node := node
    powerOn := order "power_on" []
    powerOff := order "power_off" []
    powerStatus := do return PowerState.ofValue (← perform "power_status" [])
    reboot := order "reboot_system" []
    setBootSource := order "set_boot_source_by_type" []
    setVirtualMedia := fun image => order "set_virtual_media" [image]
    ejectVirtualMedia := order "eject_virtual_media" [] }

end OutOfBand.Rehearsal
