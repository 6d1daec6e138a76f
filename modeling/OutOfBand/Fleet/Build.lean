import OutOfBand.Fleet.Selection
import OutOfBand.Fleet.Vendors
import OutOfBand.Phase
import OutOfBand.Report.Observer

namespace OutOfBand

inductive BuildError where
  | settings (e : SettingsError)
  | phase (e : PhaseError)
  | document (e : DocumentError)
  | address (e : Redfish.InvalidAddress)
  | noHosts

def BuildError.message : BuildError → String
  | settings e => e.message
  | phase e => e.message
  | document e => e.message
  | address e => e.message
  | noHosts => "no hosts found: the selectors left no baremetal host to manage"

/-- Whether the failure is reported by its message; any other one was not foreseen. -/
def BuildError.isForeseen : BuildError → Bool
  | settings e => e.isForeseen
  | phase e => e.isForeseen
  | document e => e.isForeseen
  | address e => e.isForeseen
  | noHosts => true

inductive BuildState where
  | unvalidated
  | configValidated
  | bundleLoaded
  | selecting
  | reconciled
  | ready
  | failed
  deriving DecidableEq, Repr

def BuildState.name : BuildState → String
  | unvalidated => "Unvalidated"
  | configValidated => "ConfigValidated"
  | bundleLoaded => "BundleLoaded"
  | selecting => "Selecting"
  | reconciled => "Reconciled"
  | ready => "Ready"
  | failed => "Failed"

/-- A step from one state to the next, and what is said about it. -/
structure Transition where
  source : BuildState
  target : BuildState
  detail : String
  deriving DecidableEq, Repr

def Transition.text (t : Transition) : String :=
  "manager: " ++ t.source.name ++ " -> " ++ t.target.name ++ " " ++ t.detail

/-- The progress of a build. -/
structure BuildRecord (γ : Type) where
  state : BuildState
  transitions : List Transition
  notices : List Notice
  /-- The clients that were made, whether or not their hosts are left. -/
  built : List γ

def BuildRecord.start {γ : Type} : BuildRecord γ := ⟨.unvalidated, [], [], []⟩

/-- A step of a build: it may fail, and its record stays either way. -/
abbrev Build (γ : Type) := ExceptT BuildError (StateM (BuildRecord γ))

/-- The hosts of one request and the settings that their clients were made with. -/
structure Fleet (γ : Type) where
  management : Management
  hosts : List (Host γ)

def Fleet.names {γ : Type} (f : Fleet γ) : List Value := f.hosts.map (·.name)

namespace Build

variable {γ α : Type}

def note (n : Notice) : Build γ Unit := modify fun r => { r with notices := r.notices ++ [n] }

def debug (text : String) : Build γ Unit := note (.wrote (.log ⟨.debug, text⟩))

def advance (next : BuildState) (detail : String) : Build γ Unit :=
  modify fun r =>
    let t : Transition := ⟨r.state, next, detail⟩
    { r with
      state := next
      transitions := r.transitions ++ [t]
      notices := r.notices ++ [.wrote (.log ⟨.debug, t.text⟩)] }

def lift {ε : Type} (f : ε → BuildError) : Except ε α → Build γ α
  | .ok a => pure a
  | .error e => throw (f e)

/-- A computation with log lines of its own. -/
def logged {ε : Type} (f : ε → BuildError) (c : Logged ε α) : Build γ α := do
  let (result, lines) := c.run []
  modify fun r => { r with notices := r.notices ++ lines.map fun l => .wrote (.log l) }
  lift f result

def client (v : Vendors γ) (m : Management) (address : String) (c : Credentials) : Build γ γ := do
  let make ← lift .settings (v.find m.type)
  debug ("Remote type: " ++ m.type)
  let client ← lift .address (make (m.specOf address c.username c.password))
  modify fun r => { r with built := r.built ++ [client] }
  return client

/-- The host of a document: its address, its credentials, and then its client. -/
def host (v : Vendors γ) (m : Management) (b : Bundle) (d : Document) : Build γ (Host γ) := do
  let address ← lift .document (Controller.address d)
  let credentials ← lift .document (Controller.credentials d b)
  let client ← client v m address credentials
  let name ← lift .document (Query.liftShape d.name)
  return ⟨name, address, client, credentials⟩

def hosts (v : Vendors γ) (m : Management) (b : Bundle) : List Document → Build γ (List (Host γ))
  | [] => return []
  | d :: ds => do
    let h ← host v m b d
    return h :: (← hosts v m b ds)

/-- What one selector leaves of the hosts that are left. -/
def apply (v : Vendors γ) (m : Management) (b : Bundle) (left : Option (List (Host γ)))
    (s : HostSelector) : Build γ (List (Host γ)) := do
  let ds ← lift .document (s.documents b)
  let new ← hosts v m b ds
  lift .document (Query.liftShape (Host.checkNames new))
  return Host.reconcile left new

/-- What the selectors from number `k` on, of `n`, leave of the hosts that are left. -/
def narrow (v : Vendors γ) (m : Management) (b : Bundle) (n : Nat) :
    Nat → Option (List (Host γ)) → List HostSelector → Build γ (Option (List (Host γ)))
  | _, left, [] => return left
  | k, left, s :: rest => do
    advance .selecting ("(" ++ natText k ++ "/" ++ natText n ++ ": " ++ s.shown ++ ")")
    let hs ← apply v m b left s
    narrow v m b n (k + 1) (some hs) rest

def namesText (hosts : List (Host γ)) : String := (Value.list (hosts.map (·.name))).text

/-- All stages but the last. -/
def stages (v : Vendors γ) (s : Settings) (phase : String) (bundle : Logged PhaseError Bundle)
    (selectors : List HostSelector) : Build γ (Fleet γ) := do
  let m ← lift .settings s.managementOf
  lift .settings (m.validate v)
  advance .configValidated ("(type=" ++ m.type ++ ")")
  let b ← logged .phase bundle
  advance .bundleLoaded ("(phase=" ++ phase ++ ", documents=" ++ natText b.size ++ ")")
  let left ← narrow v m b selectors.length 1 none selectors
  let hosts := left.getD []
  advance .reconciled ("(hosts=" ++ namesText hosts ++ ")")
  if hosts.isEmpty then throw .noHosts
  return ⟨m, hosts⟩

/-- Everyone on a bus is told that a fleet is ready. -/
def announce (bus : Option Bus) (stamp : Stamp) (f : Fleet γ) : Build γ Unit :=
  modify fun r =>
    { r with
      notices := r.notices ++ Bus.notices bus r.notices ⟨stamp, .ready f.management.type f.names⟩ }

/-- A fleet for a phase. A failure is the last state, and goes on unchanged. -/
def fleet (v : Vendors γ) (s : Settings) (phase : String) (bundle : Logged PhaseError Bundle)
    (selectors : List HostSelector) (bus : Option Bus) (stamp : Stamp) : Build γ (Fleet γ) := do
  let f ← tryCatch (stages v s phase bundle selectors) fun e => do
    advance .failed ("(" ++ e.message ++ ")")
    throw e
  advance .ready ""
  announce bus stamp f
  return f

end Build

def Settings.bundleOf (s : Settings) (m : Machine) (phase : String) :
    Logged PhaseError Bundle := do
  let manifest ← Logged.within .settings (silently s.manifest)
  let phases ← silently (Phases.ofManifest m manifest)
  phases.bundle phase

end OutOfBand
