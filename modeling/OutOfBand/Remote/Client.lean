import OutOfBand.Remote.Run

namespace OutOfBand

inductive PowerState where
  | on
  | off
  | poweringOn
  | poweringOff
  | unknown
  deriving DecidableEq, Repr

namespace PowerState

def name : PowerState → String
  | on => "On"
  | off => "Off"
  | poweringOn => "PoweringOn"
  | poweringOff => "PoweringOff"
  | unknown => "Unknown"

def all : List PowerState := [on, off, poweringOn, poweringOff, unknown]

/-- The state of a name; any other value is an unknown state. -/
def ofValue : Value → PowerState
  | .str s => (all.find? fun p => p.name = s).getD unknown
  | _ => unknown

theorem ofValue_name (p : PowerState) : ofValue (.str p.name) = p := by cases p <;> decide

end PowerState

structure Client (τ : Type) where
  node : String
  powerOn : Run τ Unit
  powerOff : Run τ Unit
  powerStatus : Run τ PowerState
  reboot : Run τ Unit
  /-- The next start is from the virtual CD. -/
  setBootSource : Run τ Unit
  setVirtualMedia (image : String) : Run τ Unit
  ejectVirtualMedia : Run τ Unit

end OutOfBand
