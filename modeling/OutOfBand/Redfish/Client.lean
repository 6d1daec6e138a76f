import OutOfBand.Redfish.Power
import OutOfBand.Redfish.Boot

namespace OutOfBand.Redfish.System

variable {τ : Type} [Seconds τ]

def client (net : Network τ) (s : System τ) : Client τ where
  node := s.address.systemId
  powerOn := s.powerOn net
  powerOff := s.powerOff net
  powerStatus := s.powerStatus net
  reboot := s.reboot net
  setBootSource := s.setBootSource net
  setVirtualMedia := s.setVirtualMedia net
  ejectVirtualMedia := s.ejectVirtualMedia net

end OutOfBand.Redfish.System
