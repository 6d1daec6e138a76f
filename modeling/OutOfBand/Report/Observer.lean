import OutOfBand.Report.Event
import OutOfBand.Report.Log
import OutOfBand.Json.Printer

/-!
Observers of events, and how each of them writes what it is told. An observer may fail; the others
are told all the same, and the failure itself is only a warning.
-/

namespace OutOfBand

/-- What a run writes, and where to. -/
inductive Output where
  | out (line : String)
  | err (line : String)
  /-- A line of the event file. -/
  | record (line : String)
  | log (line : LogLine)
  deriving DecidableEq, Repr

namespace Output

def out? : Output → Option String
  | out l => some l
  | _ => none

def err? : Output → Option String
  | err l => some l
  | _ => none

def record? : Output → Option String
  | record l => some l
  | _ => none

def log? : Output → Option LogLine
  | log l => some l
  | _ => none

end Output

/-- Someone who is told of events. -/
structure Observer where
  name : String
  /-- What it writes when told of an event after earlier ones; none if it fails. -/
  notify : List Event → Event → Option (List Output)

/-- An observer that treats every event alike, whatever came before. -/
def Observer.ofWriter (name : String) (write : Event → Option (List Output)) : Observer :=
  ⟨name, fun _ => write⟩

namespace Console

/-- Names in a row; none if one of them is no text. -/
def row? (hosts : List Value) : Option String :=
  (hosts.mapM Value.asString?).map (joinWith ", ")

/-- What the console shows of an event: short lines, failures apart from the rest. -/
def lines (e : Event) : Option (List Output) :=
  match e.happening with
  | .ready _ hosts => do
    let names ← row? hosts
    return [.out ("Selected " ++ natText hosts.length ++ " host(s): " ++ names)]
  | .succeeded host action _ result =>
    let tail := match result.filter (!·.isEmpty) with
      | some r => ": " ++ r
      | none => ""
    some [.out ("  [ok]     " ++ host.text ++ " " ++ action ++ tail)]
  | .failed host action error =>
    some [.err ("  [failed] " ++ host.text ++ " " ++ action ++ ": " ++ error)]
  | .summary action ok failed skipped =>
    some [.out (action ++ ": ok=" ++ intText ok ++ " failed=" ++ intText failed ++ " skipped=" ++
      intText skipped)]
  | .plain | .started .. => some []

end Console

/-- Short lines for whoever runs the command. -/
def Observer.console : Observer := .ofWriter "<ConsoleObserver>" Console.lines

namespace EventLine

/-- An event in the log: its name and its fields but for the stamp's times. -/
def logText (e : Event) : String :=
  let fields := (e.stamp.places ++ e.happening.fields).filter Event.isPresent
  "[EVENT] " ++ e.name ++ " " ++ joinWith " " (fields.map fun (k, v) => k ++ "=" ++ v.text)

def json? (e : Event) : Option String :=
  Json.render? (.map ((.str "type", .str e.name) :: e.present.map fun (k, v) => (.str k, v)))

end EventLine

/-- A line of the log for every event. -/
def Observer.logger : Observer :=
  .ofWriter "<LoggerObserver>" fun e => some [.log ⟨.debug, EventLine.logText e⟩]

/-- A line of the event file for every event. -/
def Observer.file : Observer :=
  .ofWriter "<JsonFileObserver>" fun e => (EventLine.json? e).map fun line => [.record line]

def Observer.broken (name : String) : Observer := .ofWriter name fun _ => none

/-- What is written when an observer is told of an event: its own output, or a warning. -/
def Observer.tell (o : Observer) (earlier : List Event) (e : Event) : List Output :=
  match o.notify earlier e with
  | some outputs => outputs
  | none => [.log ⟨.warning, "observer " ++ o.name ++ " failed on " ++ e.name⟩]

/-- Those who are told of every event, in order. -/
abbrev Bus := List Observer

/-- What is written when everyone on a bus is told of an event. -/
def Bus.tell (bus : Bus) (earlier : List Event) (e : Event) : List Output :=
  bus.flatMap fun o => o.tell earlier e

/-- What a run leaves behind: what it wrote and the events that it told of. -/
inductive Notice where
  | wrote (o : Output)
  | told (e : Event)

namespace Notice

def output? : Notice → Option Output
  | wrote o => some o
  | told _ => none

def event? : Notice → Option Event
  | wrote _ => none
  | told e => some e

end Notice

/-- The notices of an event that follows others; none if nobody listens. -/
def Bus.notices (bus : Option Bus) (earlier : List Notice) (e : Event) : List Notice :=
  match bus with
  | none => []
  | some bus => .told e :: (bus.tell (earlier.filterMap Notice.event?) e).map .wrote

/-- The notices of events in turn, after earlier ones. -/
def Bus.noticesOfAll (bus : Option Bus) (earlier : List Notice) : List Event → List Notice
  | [] => earlier
  | e :: es => noticesOfAll bus (earlier ++ Bus.notices bus earlier e) es

end OutOfBand
