import OutOfBand.Url

/-!
Addresses of management controllers: a URL whose path names one computer system, with a driver's
name in front of or in place of the transport.
-/

namespace OutOfBand.Redfish

structure Address where
  /-- Transport and authority. -/
  baseUrl : String
  /-- The path of the system, without slashes at its end. -/
  systemPath : String
  /-- The last segment of the path. -/
  systemId : String
  deriving DecidableEq, Repr

inductive AddressFault where
  | empty
  | unsupportedDriver (driver : String)
  | unsupportedScheme (scheme : String)
  | missingHost
  | missingSystem
  | badUrl (f : UrlFault)
  deriving DecidableEq, Repr

structure InvalidAddress where
  address : String
  fault : AddressFault
  deriving DecidableEq, Repr

def AddressFault.reason : AddressFault → String
  | empty => "empty address"
  | unsupportedDriver d => "unsupported driver '" ++ d ++ "'"
  | unsupportedScheme s => "unsupported scheme '" ++ s ++ "'"
  | missingHost => "missing host"
  | missingSystem => "missing system id in path"
  | badUrl f => f.message

/-- A text that cannot be split as a URL has only the reason for it. -/
def InvalidAddress.message (e : InvalidAddress) : String :=
  match e.fault with
  | .badUrl f => f.message
  | f => "invalid BMC address '" ++ e.address ++ "': " ++ f.reason

/-- Whether the address is refused by its message; a text that cannot be split was not foreseen. -/
def InvalidAddress.isForeseen (e : InvalidAddress) : Bool :=
  match e.fault with
  | .badUrl _ => false
  | _ => true

namespace Address

/-- Drivers that may stand before the transport. -/
def drivers : List String :=
  ["redfish", "redfish-virtualmedia", "idrac", "idrac-virtualmedia", "idrac-redfish"]

/-- The transport of a scheme: after a driver and a plus sign, HTTPS for a driver alone, and else
the scheme itself. -/
def transportOf (scheme : List Char) : Except AddressFault (List Char) :=
  match cutAt ['+'] scheme with
  | some (driver, transport) =>
    if drivers.contains (String.ofList driver) then .ok transport
    else .error (.unsupportedDriver (String.ofList driver))
  | none => .ok (if drivers.contains (String.ofList scheme) then "https".toList else scheme)

def isTransport (s : List Char) : Bool := s = "http".toList || s = "https".toList

def ofUrl (u : Url) : Except AddressFault Address := do
  let transport ← transportOf u.scheme
  if !isTransport transport then throw (.unsupportedScheme (String.ofList u.scheme))
  if u.authority.isEmpty then throw .missingHost
  let path := dropEndWhile (· = '/') u.path
  let id := (path.reverse.takeWhile (· ≠ '/')).reverse
  if id.isEmpty then throw .missingSystem
  return {
    baseUrl := String.ofList (transport ++ "://".toList ++ u.authority)
    systemPath := String.ofList path
    systemId := String.ofList id }

def parseChars (s : List Char) : Except AddressFault Address :=
  if s.isEmpty then .error .empty
  else match Url.split s with
    | .ok u => ofUrl u
    | .error f => .error (.badUrl f)

def parse (address : String) : Except InvalidAddress Address :=
  match parseChars address.toList with
  | .ok a => .ok a
  | .error f => .error ⟨address, f⟩

end Address

end OutOfBand.Redfish
