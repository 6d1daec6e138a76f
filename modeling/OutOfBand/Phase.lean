import OutOfBand.Inventory.Bundle
import OutOfBand.Settings.Basic
import OutOfBand.Value.Order

namespace OutOfBand

inductive PhaseError where
  | notFound (phase : String)
  | noEntryPoint (phase : String)
  /-- No manifest to look for the phase in. -/
  | settings (e : SettingsError)
  /-- The target lies in a home directory that is not known. -/
  | noHome
  | document (e : DocumentError)

def PhaseError.message : PhaseError → String
  | notFound phase => "phase '" ++ phase ++ "' not found"
  | noEntryPoint phase => "phase '" ++ phase ++ "' does not define config.documentEntryPoint"
  | settings e => e.message
  | noHome => "Could not determine home directory."
  | document e => e.message

/-- Whether the failure is reported by its message; any other one was not foreseen. -/
def PhaseError.isForeseen : PhaseError → Bool
  | notFound _ | noEntryPoint _ => true
  | settings e => e.isForeseen
  | noHome => false
  | document e => e.isForeseen

/-- The phases of a manifest on a machine. -/
structure Phases where
  machine : Machine
  manifest : Manifest
  target : Path

namespace Phases

def ofManifest (m : Machine) (mf : Manifest) : Except PhaseError Phases :=
  match (Path.ofText mf.targetPath).expandHome? m.home with
  | some target => .ok ⟨m, mf, target⟩
  | none => .error .noHome

/-- Where the documents of the phases lie. -/
def folder (p : Phases) : Path := p.target.join (Path.ofText p.manifest.phasesPath)

def documents (p : Phases) : Logged PhaseError Bundle :=
  (Bundle.load p.machine p.folder).within .document

def liftDocument {α : Type} (r : Except DocumentError α) : Logged PhaseError α :=
  Logged.within .document (silently r)

def names (p : Phases) : Logged PhaseError (List Value) := do
  let b ← p.documents
  let docs ← liftDocument (b.select (.ofKind phaseKind))
  let names ← liftDocument (Query.liftShape (docs.mapM Document.name))
  match Value.sorted? names with
  | some ns => return ns
  | none => throw (.document (.shape .notSortable))

/-- The folder that an entry point names, seen from the target. -/
def rootOf (p : Phases) (entryPoint : String) : Path :=
  (p.target.join (Path.ofText p.manifest.entryPointStem)).join (Path.ofText entryPoint)

def documentOf (b : Bundle) (phase : String) : Except PhaseError Document :=
  match b.selectOne ((Query.ofKind phaseKind).withName (.str phase)) with
  | .ok d => .ok d
  | .error (.notFound _) => .error (.notFound phase)
  | .error e => .error (.document e)

def entryPoint (phase : String) (d : Document) : Except PhaseError String :=
  match (d.get? "config.documentEntryPoint").filter Value.isGiven with
  | none => .error (.noEntryPoint phase)
  | some (.str s) => .ok s
  | some v => .error (.document (.shape (.notAPath v)))

/-- The folder that holds the documents of a phase. -/
def root (p : Phases) (phase : String) : Logged PhaseError Path := do
  let b ← p.documents
  let d ← silently (documentOf b phase)
  let root := p.rootOf (← silently (entryPoint phase d))
  debug ("phase " ++ phase ++ " -> document root " ++ root.text)
  return root

def bundle (p : Phases) (phase : String) : Logged PhaseError Bundle := do
  let root ← p.root phase
  (Bundle.load p.machine root).within .document

end Phases

end OutOfBand
