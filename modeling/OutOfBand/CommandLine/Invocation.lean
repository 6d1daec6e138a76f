import OutOfBand.CommandLine.Arguments
import OutOfBand.Batch.Action
import OutOfBand.Decimal.Reading
import OutOfBand.Files.Tree
import OutOfBand.Fleet.Selection

namespace OutOfBand.CommandLine

structure HostOrder where
  command : Command
  name : Option String
  labels : Option String
  phase : String
  /-- Seconds that each host has. -/
  timeout : Option Float
  sideBySide : Bool
  deriving Repr

inductive Order where
  | hosts (o : HostOrder)
  | showManagement
  | listPhases
  deriving Repr

structure Invocation where
  settingsFile : Option String
  verbose : Bool
  order : Order
  deriving Repr

def standardPhase : String := "remotedirect-ephemeral"

/-- The hosts that are started from an image unless others are asked for. -/
def ephemeralLabel : String := "metalctl.io/ephemeral-node=true"

/-- The label expression of an order that names neither hosts nor labels. -/
def defaultLabel : Command → String
  | .remoteDirect _ => ephemeralLabel
  | _ => ""

def HostOrder.selectors (o : HostOrder) : List HostSelector :=
  HostSelector.ofRequest o.name o.labels (defaultLabel o.command)

def generalRules : List OptionRule := [⟨"--config", none, true⟩, ⟨"--debug", none, false⟩]

def hostRules : List OptionRule :=
  [⟨"--name", none, true⟩, ⟨"--labels", some 'l', true⟩, ⟨"--phase", none, true⟩,
    ⟨"--timeout", none, true⟩, ⟨"--parallel", none, false⟩]

def imageRule : OptionRule := ⟨"--iso-url", none, true⟩

/-- Arguments of a command that takes nothing but options. -/
def readOptions (rules : List OptionRule) (args : List String) : Except UsageError Arguments := do
  let a ← readArguments rules true args
  match a.rest with
  | [] => return a
  | extra :: _ => throw (.extraArgument extra)

/-- The name of a command and its own arguments, behind options of a group. -/
def readCommand (rules : List OptionRule) (args : List String) :
    Except UsageError (Arguments × String × List String) := do
  let a ← readArguments rules false args
  match a.rest with
  | [] => throw .missingCommand
  | name :: rest => return (a, name, rest)

def readTimeout (a : Arguments) : Except UsageError (Option Float) :=
  match a.value? "--timeout" with
  | none => .ok none
  | some text => match readLooseFloat? text.toList with
    | some x => .ok (some x)
    | none => .error (.notANumber "--timeout" text)

def hostOrder (m : Machine) (c : Command) (a : Arguments) : Except UsageError HostOrder := do
  return {
    command := c
    name := a.value? "--name"
    labels := a.value? "--labels"
    phase := (a.value? "--phase" <|> m.given? "METALCTL_PHASE").getD standardPhase
    timeout := ← readTimeout a
    sideBySide := a.has "--parallel" }

def readHostOrder (m : Machine) (name : String) (args : List String) :
    Except UsageError HostOrder := do
  if name = (Command.remoteDirect "").name then
    let a ← readOptions (imageRule :: hostRules) args
    match a.value? imageRule.name with
    | some image => hostOrder m (.remoteDirect image) a
    | none => throw (.missingOption imageRule.name)
  else match Command.ofName? name with
    | some c => hostOrder m c (← readOptions hostRules args)
    | none => throw (.noSuchCommand name)

def readLook (name : String) (args : List String) : Except UsageError Order := do
  let order ← match name with
    | "show" => pure Order.showManagement
    | "phases" => pure Order.listPhases
    | _ => throw (.noSuchCommand name)
  let _ ← readOptions [] args
  return order

/-- A group of commands, then one of them. -/
def readOrder (m : Machine) (group : String) (args : List String) : Except UsageError Order := do
  match group with
  | "baremetal" =>
    let (_, name, rest) ← readCommand [] args
    return .hosts (← readHostOrder m name rest)
  | "config" =>
    let (_, name, rest) ← readCommand [] args
    readLook name rest
  | _ => throw (.noSuchCommand group)

def Invocation.ofArguments (m : Machine) (args : List String) : Except UsageError Invocation := do
  let (a, group, rest) ← readCommand generalRules args
  return {
    settingsFile := a.value? "--config" <|> m.given? "METALCTL_CONFIG"
    verbose := a.has "--debug"
    order := ← readOrder m group rest }

end OutOfBand.CommandLine
