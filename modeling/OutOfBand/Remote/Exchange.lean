import OutOfBand.Remote.Error
import OutOfBand.Value
import OutOfBand.Text.Blank

namespace OutOfBand

structure Request (τ : Type) where
  method : Method
  url : String
  payload : Option Value
  /-- How long its reply is waited for. -/
  timeout : τ
  deriving Repr

structure Response where
  status : Int
  text : String
  headers : List (String × String)
  /-- The body as JSON, if it is JSON. -/
  body : Option Value
  deriving Repr, Inhabited

/-- A header by its name in any case; the last one of several. -/
def Response.header? (r : Response) (name : String) : Option String :=
  let lower (s : String) := lowerAscii s.toList
  (r.headers.reverse.find? fun h => lower h.1 = lower name).map (·.2)

inductive Answer where
  | response (r : Response)
  | timedOut
  | failed (reason : String)
  deriving Repr, Inhabited

structure Reply (τ : Type) where
  answer : Answer
  /-- The time that passes until it is there. -/
  elapsed : τ
  /-- Whether the call is cancelled meanwhile. -/
  cancels : Bool
  deriving Repr

/-- What the other side does: its reply to a request that follows others. -/
abbrev Network (τ : Type) := List (Request τ) → Request τ → Reply τ

end OutOfBand
