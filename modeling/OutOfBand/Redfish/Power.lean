import OutOfBand.Redfish.System
import OutOfBand.Remote.Client

namespace OutOfBand.Redfish

inductive Reset where
  | on
  | forceOff
  deriving DecidableEq, Repr

namespace Reset

def name : Reset → String
  | on => "On"
  | forceOff => "ForceOff"

def state : Reset → PowerState
  | on => .on
  | forceOff => .off

def payload (r : Reset) : Value := Redfish.payload [("ResetType", .str r.name)]

end Reset

namespace System

variable {τ : Type} [Seconds τ] (net : Network τ) (s : System τ)

def resetPath : String := s.address.systemPath ++ "/Actions/ComputerSystem.Reset"

def powerStatus : Run τ PowerState := do
  let system ← s.read net "power_status" s.address.systemPath
  return PowerState.ofValue (member system "PowerState")

def sendReset (action : String) (r : Reset) : Run τ Unit := do
  let _ ← s.send net action .post s.resetPath r.payload

def awaitPower (action : String) (state : PowerState) : Run τ Unit :=
  s.poll action do return (← s.powerStatus net) = state

def reset (action : String) (r : Reset) : Run τ Unit := do
  s.sendReset net action r
  s.awaitPower net action r.state

def powerOn : Run τ Unit := s.reset net "power_on" .on

def powerOff : Run τ Unit := s.reset net "power_off" .forceOff

/-- Off, unless the system is off already, and then on. -/
def reboot : Run τ Unit := do
  if (← s.powerStatus net) ≠ .off then s.reset net "reboot_system" .forceOff
  s.reset net "reboot_system" .on

end System

end OutOfBand.Redfish
