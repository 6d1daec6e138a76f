import OutOfBand.Redfish.Media

namespace OutOfBand.Redfish

def overridePayload : Value :=
  payload [("Boot", payload [("BootSourceOverrideTarget", .str "Cd"),
    ("BootSourceOverrideEnabled", .str "Once")])]

/-- A configuration that starts the machine from its virtual CD once. -/
def bootOnceDocument : String :=
  "<SystemConfiguration><Component FQDD=\"iDRAC.Embedded.1\">" ++
  "<Attribute Name=\"ServerBoot.1#BootOnce\">Enabled</Attribute>" ++
  "<Attribute Name=\"ServerBoot.1#FirstBootDevice\">VCD-DVD</Attribute>" ++
  "</Component></SystemConfiguration>"

def importPayload : Value :=
  payload [("ShareParameters", payload [("Target", .str "ALL")]),
    ("ImportBuffer", .str bootOnceDocument)]

/-- Where a manager takes configurations. -/
def importPath (manager : String) : String :=
  String.ofList (dropEndWhile (· = '/') manager.toList) ++
    "/Actions/Oem/EID_674_Manager.ImportSystemConfiguration"

/-- What a job says about itself. -/
inductive JobState where
  | completed
  | failed (state : String)
  | pending
  deriving DecidableEq, Repr

def JobState.ofResource (r : Resource) : JobState :=
  let state := member r "JobState"
  match if state.isGiven then state else member r "TaskState" with
  | .str s =>
    if s = "Completed" then completed
    else if s = "Failed" || s = "CompletedWithErrors" then failed s
    else pending
  | _ => pending

/-- The message of a job; empty if it has none. -/
def jobMessage (r : Resource) : String := ((Entries.get? r "Message").map Value.text).getD ""

namespace System

variable {τ : Type} [Seconds τ] (net : Network τ) (s : System τ)

/-- Whether a job is completed; a failure of the job is a failure of the call. -/
def jobDone (action job : String) : Run τ Bool := do
  let r ← s.read net action job
  match JobState.ofResource r with
  | .completed => return true
  | .failed state => Run.fail (.jobFailed job state (jobMessage r)) (some action)
  | .pending => return false

def overrideBoot (action : String) : Run τ Unit := do
  let _ ← s.opticalDrive net action
  let _ ← s.send net action .patch s.address.systemPath overridePayload

def importBoot (action : String) : Run τ Unit := do
  let manager ← s.managerPath net action
  let r ← s.send net action .post (importPath manager) importPayload
  match (r.header? "Location").filter (!·.isEmpty) with
  | none => Run.fail .noJobLocation (some action)
  | some job => do
    Run.say .debug ("waiting for iDRAC job " ++ job)
    s.poll action (s.jobDone net action job)

def setBootSource : Run τ Unit :=
  let action := "set_boot_source_by_type"
  match s.dialect with
  | .standard => s.overrideBoot net action
  | .dell => s.importBoot net action

end System

end OutOfBand.Redfish
