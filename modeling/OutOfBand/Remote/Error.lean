import OutOfBand.Decimal.FloatText

namespace OutOfBand

inductive Method where
  | get
  | post
  | patch
  deriving DecidableEq, Repr

def Method.name : Method → String
  | get => "GET"
  | post => "POST"
  | patch => "PATCH"

namespace Remote

/-- How a failure is treated. -/
inductive ErrorKind where
  | operation
  | transport
  | authentication
  | unsupported
  | timeout
  | cancelled
  | exhausted
  deriving DecidableEq, Repr

def ErrorKind.all : List ErrorKind :=
  [operation, transport, authentication, unsupported, timeout, cancelled, exhausted]

/-- Whether the same call may succeed when it is made again. -/
def ErrorKind.isTransient : ErrorKind → Bool
  | transport => true
  | _ => false

inductive Cause where
  | cancelled
  | deadlineExceeded (limit : String)
  | deadlineBeforeRequest
  | timedOut (method : Method) (url : String)
  | requestFailed (method : Method) (url reason : String)
  | rejectedCredentials (method : Method) (url : String) (status : Int)
  | notSupported (method : Method) (url : String) (status : Int)
  | serverError (method : Method) (url : String) (status : Int) (text : String)
  | clientError (method : Method) (url : String) (status : Int) (text : String)
  | invalidJson (path : String)
  | notAnObject (path kind : String)
  | noManager (system : String)
  | noVirtualMedia (system : String)
  | noDrive (system : String)
  | noJobLocation
  | jobFailed (job state message : String)
  | exhausted (target : String) (attempts : Int)
  /-- Whatever a vendor's client reports. -/
  | reported (kind : ErrorKind) (message : String)
  deriving DecidableEq, Repr

namespace Cause

def kind : Cause → ErrorKind
  | cancelled => .cancelled
  | deadlineExceeded _ | deadlineBeforeRequest => .timeout
  | timedOut .. | requestFailed .. | serverError .. => .transport
  | rejectedCredentials .. => .authentication
  | notSupported .. | noManager _ | noVirtualMedia _ | noDrive _ => .unsupported
  | clientError .. | invalidJson _ | notAnObject .. | noJobLocation | jobFailed .. => .operation
  | exhausted .. => .exhausted
  | reported kind _ => kind

def requestText (method : Method) (url : String) : String := method.name ++ " " ++ url

def message : Cause → String
  | cancelled => "operation cancelled"
  | deadlineExceeded limit => "deadline of " ++ limit ++ "s exceeded"
  | deadlineBeforeRequest => "deadline exceeded before request"
  | timedOut m url => requestText m url ++ " timed out"
  | requestFailed m url reason => requestText m url ++ " failed: " ++ reason
  | rejectedCredentials m url status =>
    requestText m url ++ " rejected credentials (" ++ intText status ++ ")"
  | notSupported m url status =>
    requestText m url ++ " is not supported by the BMC (" ++ intText status ++ ")"
  | serverError m url status text | clientError m url status text =>
    requestText m url ++ " returned " ++ intText status ++ ": " ++ text
  | invalidJson path => "GET " ++ path ++ " returned invalid JSON"
  | notAnObject path kind => "GET " ++ path ++ " returned " ++ kind ++ ", expected a JSON object"
  | noManager system => "system " ++ system ++ " does not report a managing BMC"
  | noVirtualMedia system => "system " ++ system ++ " has no virtual media support"
  | noDrive system => "system " ++ system ++ " has no CD/DVD virtual media device"
  | noJobLocation => "iDRAC accepted the configuration import but returned no job location"
  | jobFailed job state message =>
    "iDRAC job " ++ job ++ " ended in state " ++ state ++ ": " ++ message
  | exhausted target attempts =>
    "gave up on " ++ target ++ " after " ++ intText attempts ++ " attempt(s)"
  | reported _ message => message

end Cause

end Remote

structure RemoteError where
  cause : Remote.Cause
  action : Option String
  /-- Filled in when the failure passes through a host. -/
  host : Option String
  deriving DecidableEq, Repr

namespace RemoteError

def kind (e : RemoteError) : Remote.ErrorKind := e.cause.kind

def isTransient (e : RemoteError) : Bool := e.kind.isTransient

/-- A word before the message, unless it is missing or empty. -/
def lead (before : String) (word : Option String) : String :=
  match word.filter (!·.isEmpty) with
  | some w => before ++ w ++ ": "
  | none => ""

def message (e : RemoteError) : String :=
  lead "host " e.host ++ lead "" e.action ++ e.cause.message

/-- The failure with the name of its host, if it has none yet. -/
def onHost (e : RemoteError) (host : String) : RemoteError :=
  { e with host := some (e.host.getD host) }

end RemoteError

/-- How a remote call ends without a value. -/
inductive Failure where
  | remote (e : RemoteError)
  /-- A fault of another kind, which nobody on the way handles. -/
  | fault (message : String)
  deriving DecidableEq, Repr

def Failure.message : Failure → String
  | remote e => e.message
  | fault m => m

end OutOfBand
