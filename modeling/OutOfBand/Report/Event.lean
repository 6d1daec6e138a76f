import OutOfBand.Value.Text

namespace OutOfBand

/-- When and in which run something was reported, and for which context and phase. -/
structure Stamp where
  time : String
  run : String
  context : Option String
  phase : Option String
  deriving DecidableEq, Repr, Inhabited

inductive Happening where
  /-- Nothing but the stamp. -/
  | plain
  | ready (type : String) (hosts : List Value)
  | started (host : Value) (action : String)
  | succeeded (host : Value) (action : String) (milliseconds : Int) (result : Option String)
  | failed (host : Value) (action error : String)
  | summary (action : String) (ok failed skipped : Int)
  deriving Repr, Inhabited

structure Event where
  stamp : Stamp
  happening : Happening
  deriving Repr, Inhabited

namespace Happening

def name : Happening → String
  | plain => "BaseEvent"
  | ready .. => "ManagerReady"
  | started .. => "HostOperationStarted"
  | succeeded .. => "HostOperationSucceeded"
  | failed .. => "HostOperationFailed"
  | summary .. => "BatchSummary"

def optional (s : Option String) : Value := (s.map Value.str).getD .null

/-- The fields of its own, in the order in which they are reported. -/
def fields : Happening → List (String × Value)
  | plain => []
  | ready type hosts => [("management_type", .str type), ("hosts", .list hosts)]
  | started host action => [("host", host), ("action", .str action)]
  | succeeded host action ms result =>
    [("host", host), ("action", .str action), ("duration_ms", .int ms), ("result", optional result)]
  | .failed host action error => [("host", host), ("action", .str action), ("error", .str error)]
  | summary action ok bad skipped =>
    [("action", .str action), ("ok", .int ok), ("failed", .int bad), ("skipped", .int skipped)]

/-- The host that it is about, if it is about one. -/
def host? : Happening → Option Value
  | .started h _ => some h
  | .succeeded h _ _ _ => some h
  | .failed h _ _ => some h
  | _ => none

end Happening

namespace Stamp

def times : Stamp → List (String × Value)
  | ⟨time, run, _, _⟩ => [("ts", .str time), ("run_id", .str run)]

def places (s : Stamp) : List (String × Value) :=
  [("context", Happening.optional s.context), ("phase", Happening.optional s.phase)]

end Stamp

namespace Event

def name (e : Event) : String := e.happening.name

/-- All fields, those of the stamp first. -/
def fields (e : Event) : List (String × Value) :=
  e.stamp.times ++ e.stamp.places ++ e.happening.fields

def isPresent (f : String × Value) : Bool :=
  match f.2 with
  | .null => false
  | _ => true

/-- The fields that have a value. -/
def present (e : Event) : List (String × Value) := e.fields.filter isPresent

end Event

end OutOfBand
