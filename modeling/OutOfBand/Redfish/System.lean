import OutOfBand.Redfish.Address
import OutOfBand.Remote.Repeat

namespace OutOfBand.Redfish

/-- How the service deviates from the standard. -/
inductive Dialect where
  | standard
  | dell
  deriving DecidableEq, Repr

def Dialect.type : Dialect → String
  | standard => "redfish"
  | dell => "redfish-dell"

/-- What all requests to a service share. -/
structure Session where
  /-- Whether its certificate is verified. -/
  verify : Bool
  /-- Whether proxies of the environment are used. -/
  useProxy : Bool
  user : Option (String × String)
  headers : List (String × String)
  deriving DecidableEq, Repr

/-- A session with a user, unless the user's name is empty. -/
def Session.ofUser (insecure useProxy : Bool) (username password : String) : Session :=
  { verify := !insecure
    useProxy := useProxy
    user := if username.isEmpty then none else some (username, password)
    headers := [("Content-Type", "application/json"), ("Accept", "application/json")] }

structure System (τ : Type) where
  /-- The address as it was given. -/
  given : String
  address : Address
  dialect : Dialect
  session : Session
  retries : Int
  delay : τ
  requestTimeout : τ
  deriving Repr

/-- An object of a reply: its members by name. -/
abbrev Resource := Entries

/-- The object that a value is; without members if it is none. -/
def objectOf : Value → Resource
  | .map es => es
  | _ => []

/-- The items of a list; none if the value is no list. -/
def itemsOf : Value → List Value
  | .list xs => xs
  | _ => []

/-- A member of an object; null if it has none of this name. -/
def member (r : Resource) (name : String) : Value := (Entries.get? r name).getD .null

/-- A text that is not empty. -/
def textOf? : Value → Option String
  | .str s => if s.isEmpty then none else some s
  | _ => none

/-- Where a link leads; none if it is malformed. -/
def linkTarget? (link : Value) : Option String := textOf? (member (objectOf link) "@odata.id")

/-- Why a response counts as a failure, if it does. -/
def refusal? (method : Method) (url : String) (r : Response) : Option Remote.Cause :=
  if r.status = 401 || r.status = 403 then some (.rejectedCredentials method url r.status)
  else if (r.status = 404 || r.status = 405 || r.status = 501) && method ≠ .get then
    some (.notSupported method url r.status)
  else if 500 ≤ r.status then some (.serverError method url r.status r.text)
  else if 400 ≤ r.status then some (.clientError method url r.status r.text)
  else none

namespace System

variable {τ : Type}

def budget (s : System τ) : Budget τ := ⟨s.given, s.retries, s.delay⟩

/-- A path at the service; a full URL stands for itself. -/
def url (s : System τ) (path : String) : String :=
  let cs := path.toList
  if "http://".toList.isPrefixOf cs || "https://".toList.isPrefixOf cs then path
  else s.address.baseUrl ++ "/" ++ String.ofList (cs.dropWhile (· = '/'))

variable [Seconds τ]

/-- How long a reply may be waited for: no longer than the call may last. -/
def patience (s : System τ) (action : String) : Run τ τ := do
  let t ← get
  match t.limits.remaining t.now with
  | none => return s.requestTimeout
  | some r =>
    if Seconds.le r Seconds.zero then Run.fail .deadlineBeforeRequest (some action)
    else return Seconds.least s.requestTimeout r

def request (net : Network τ) (s : System τ) (action : String) (method : Method) (path : String)
    (payload : Option Value) : Run τ Response := do
  Run.check (some action)
  let timeout ← s.patience action
  let url := s.url path
  Run.say .debug ("redfish " ++ method.name ++ " " ++ url)
  match ← Run.exchange net ⟨method, url, payload, timeout⟩ with
  | .timedOut => Run.fail (.timedOut method url) (some action)
  | .failed reason => Run.fail (.requestFailed method url reason) (some action)
  | .response r =>
    match refusal? method url r with
    | some cause => Run.fail cause (some action)
    | none => return r

def read (net : Network τ) (s : System τ) (action path : String) : Run τ Resource := do
  let r ← s.request net action .get path none
  match r.body with
  | none => Run.fail (.invalidJson path) (some action)
  | some (.map es) => return es
  | some v => Run.fail (.notAnObject path v.kindName) (some action)

def retryLine (s : System τ) (action : String) (k : Nat) (e : Failure) : String :=
  action ++ " on " ++ s.address.systemId ++ ": attempt " ++ natText k ++ " failed, retrying in " ++
    Seconds.text s.delay ++ "s: " ++ e.message

/-- A request that changes something, again while it fails in a way that may pass. -/
def send (net : Network τ) (s : System τ) (action : String) (method : Method) (path : String)
    (payload : Value) : Run τ Response :=
  Run.retry
    { action := action
      budget := s.budget
      retryOn := Failure.isTransient
      onRetry := fun k e => Run.say .info (s.retryLine action k e)
      pause := fun d => Run.sleep d (some action) }
    (s.request net action method path (some payload))

def poll (s : System τ) (action : String) (reached : Run τ Bool) : Run τ Unit :=
  Run.poll action s.budget reached

end System

def payload (members : List (String × Value)) : Value :=
  .map (members.map fun (k, v) => (.str k, v))

end OutOfBand.Redfish
