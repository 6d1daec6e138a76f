import OutOfBand.Fleet.Host

namespace OutOfBand

/-- Something to do with a host; it may have a result to show. -/
abbrev Action (τ : Type) := Host (Client τ) → Run τ (Option String)

inductive Command where
  | powerOn
  | powerOff
  | powerStatus
  | reboot
  | ejectMedia
  /-- Start from an image: it is inserted, made the source of the next start, and then the host is
  started anew. -/
  | remoteDirect (image : String)
  deriving DecidableEq, Repr

namespace Command

def name : Command → String
  | powerOn => "poweron"
  | powerOff => "poweroff"
  | powerStatus => "powerstatus"
  | reboot => "reboot"
  | ejectMedia => "ejectmedia"
  | remoteDirect _ => "remotedirect"

/-- The commands without an argument. -/
def simple : List Command := [powerOn, powerOff, powerStatus, reboot, ejectMedia]

def ofName? (name : String) : Option Command := simple.find? fun c => c.name = name

variable {τ : Type}

def directTo (image : String) (h : Host (Client τ)) : Run τ Unit := do
  Run.say .info ("remote direct " ++ h.name.text ++ ": inserting " ++ image)
  h.call (·.setVirtualMedia image)
  h.call (·.setBootSource)
  h.call (·.reboot)

def action : Command → Action τ
  | powerOn => fun h => do h.call (·.powerOn); return none
  | powerOff => fun h => do h.call (·.powerOff); return none
  | powerStatus => fun h => do return some (← h.call (·.powerStatus)).name
  | reboot => fun h => do h.call (·.reboot); return none
  | ejectMedia => fun h => do h.call (·.ejectVirtualMedia); return none
  | remoteDirect image => fun h => do directTo image h; return none

end Command

end OutOfBand
