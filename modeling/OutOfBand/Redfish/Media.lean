import OutOfBand.Redfish.System

namespace OutOfBand.Redfish

structure Device where
  path : String
  resource : Resource
  deriving Repr

inductive MediaAction where
  | insert
  | eject
  deriving DecidableEq, Repr

def MediaAction.name : MediaAction → String
  | insert => "InsertMedia"
  | eject => "EjectMedia"

def isInserted (r : Resource) : Bool := (member r "Inserted").isGiven

namespace Device

def isOptical (d : Device) : Bool :=
  (itemsOf (member d.resource "MediaTypes")).any fun
    | .str t => t = "CD" || t = "DVD"
    | _ => false

/-- Where an action is sent: to the target that the device gives, or to the usual place. -/
def target (d : Device) (a : MediaAction) : String :=
  let action := member (objectOf (member d.resource "Actions")) ("#VirtualMedia." ++ a.name)
  (textOf? (member (objectOf action) "target")).getD
    (d.path ++ "/Actions/VirtualMedia." ++ a.name)

end Device

namespace System

variable {τ : Type} [Seconds τ] (net : Network τ) (s : System τ)

/-- The path of the first manager that the system links to. -/
def managerPath (action : String) : Run τ String := do
  let system ← s.read net action s.address.systemPath
  let managers := itemsOf (member (objectOf (member system "Links")) "ManagedBy")
  match managers.head?.bind linkTarget? with
  | some path => return path
  | none => Run.fail (.noManager s.address.systemId) (some action)

def readDevices (action : String) : List String → Run τ (List Device)
  | [] => return []
  | path :: rest => do
    let resource ← s.read net action path
    return ⟨path, resource⟩ :: (← readDevices action rest)

def devices (action : String) : Run τ (List Device) := do
  let manager ← s.read net action (← s.managerPath net action)
  match linkTarget? (member manager "VirtualMedia") with
  | none => Run.fail (.noVirtualMedia s.address.systemId) (some action)
  | some path =>
    let collection ← s.read net action path
    s.readDevices net action ((itemsOf (member collection "Members")).filterMap linkTarget?)

def opticalDrive (action : String) : Run τ Device := do
  match (← s.devices net action).find? Device.isOptical with
  | some d => return d
  | none => Run.fail (.noDrive s.address.systemId) (some action)

/-- Eject what a device holds, and wait until it is empty. -/
def eject (action : String) (d : Device) : Run τ Unit := do
  let _ ← s.send net action .post (d.target .eject) (payload [])
  s.poll action do return !isInserted (← s.read net action d.path)

/-- Eject every device of a list that holds something. -/
def ejectAll (action : String) : List Device → Run τ Unit
  | [] => return ()
  | d :: rest => do
    if isInserted d.resource then
      Run.say .debug ("ejecting " ++ (member d.resource "Image").text ++ " from " ++ d.path)
      s.eject net action d
    ejectAll action rest

def ejectVirtualMedia : Run τ Unit := do
  let action := "eject_virtual_media"
  s.ejectAll net action (← s.devices net action)

def imagePayload (image : String) : Value :=
  payload [("Image", .str image), ("Inserted", .bool true), ("WriteProtected", .bool true)]

def setVirtualMedia (image : String) : Run τ Unit := do
  let action := "set_virtual_media"
  let d ← s.opticalDrive net action
  if isInserted d.resource then s.eject net action d
  let _ ← s.send net action .post (d.target .insert) (imagePayload image)

end System

end OutOfBand.Redfish
