import OutOfBand.Settings.Schema
import OutOfBand.Files.Path
import OutOfBand.Yaml.Cursor

namespace OutOfBand

structure Management where
  type : String
  insecure : Bool
  useProxy : Bool
  /-- How often a failed action is tried again, and how often a state is asked for. -/
  retries : Int
  /-- Seconds between two tries. -/
  delay : Float
  deriving Repr

structure Manifest where
  targetPath : String
  phasesPath : String
  entryPointStem : String
  deriving DecidableEq, Repr

structure Context where
  manifest : String
  management : String
  deriving DecidableEq, Repr

structure Settings where
  currentContext : String
  contexts : List (String × Context)
  manifests : List (String × Manifest)
  management : List (String × Management)
  deriving Repr

inductive SettingsError where
  | noFile (path : Path)
  | unreadable (path : Path)
  | invalid (path : Path) (faults : List FieldFault)
  | noContext (name : String)
  | noManifest (name : String)
  | noManagement (name : String)
  | emptyType
  | negativeRetries (n : Int)
  | negativeDelay (x : Float)
  | unknownType (type : String) (known : List String)
  /-- A settings file whose bytes are not UTF-8. -/
  | notText (path : Path)
  /-- A scalar of the settings file that no value stands for. -/
  | badScalar (f : Yaml.Fault)
  /-- No home directory to look for the settings file in. -/
  | noHome
  deriving Repr

def SettingsError.message : SettingsError → String
  | noFile p => "metalctl config not found at " ++ p.text
  | unreadable p => "failed to parse " ++ p.text
  | invalid p _ => "invalid metalctl config " ++ p.text
  | noContext n => "context '" ++ n ++ "' is not defined in the metalctl config"
  | noManifest n => "manifest '" ++ n ++ "' is not defined in the metalctl config"
  | noManagement n =>
    "management configuration '" ++ n ++ "' is not defined in the metalctl config"
  | emptyType => "management type must not be empty"
  | negativeRetries n => "systemActionRetries must be >= 0, got " ++ intText n
  | negativeDelay x => "systemRebootDelay must be >= 0, got " ++ floatText x
  | unknownType t known =>
    "unknown management type '" ++ t ++ "'" ++
      (if known.isEmpty then "" else " (known types: " ++ joinWith ", " known ++ ")")
  | notText _ | badScalar _ | noHome => ""

/-- Whether the failure is reported by its message; any other one was not foreseen. -/
def SettingsError.isForeseen : SettingsError → Bool
  | notText _ | badScalar _ | noHome => false
  | _ => true

namespace Management

def standard : Management := ⟨"redfish", false, false, 30, 30.0⟩

def ofEntries (es : Entries) : Checked Management :=
  let flags := Checked.both Prod.mk
    (Schema.field es ⟨"insecure", "insecure"⟩ Schema.truth (some standard.insecure))
    (Schema.field es ⟨"useproxy", "use_proxy"⟩ Schema.truth (some standard.useProxy))
  let budget := Checked.both Prod.mk
    (Schema.field es ⟨"systemActionRetries", "system_action_retries"⟩ Schema.integer
      (some standard.retries))
    (Schema.field es ⟨"systemRebootDelay", "system_reboot_delay"⟩ Schema.number
      (some standard.delay))
  let type := Schema.field es ⟨"type", "type"⟩ Schema.text (some standard.type)
  Checked.both (fun t (f, b) => ⟨t, f.1, f.2, b.1, b.2⟩) type (Checked.both Prod.mk flags budget)

def ofValue : Value → Checked Management := Schema.record ofEntries

/-- The fields as a settings file names them. -/
def toEntries (m : Management) : Entries :=
  [(.str "type", .str m.type), (.str "insecure", .bool m.insecure),
    (.str "useproxy", .bool m.useProxy), (.str "systemActionRetries", .int m.retries),
    (.str "systemRebootDelay", .float m.delay)]

/-- Fields that contradict themselves; whether the type is known is for the vendors to say. -/
def check (m : Management) : Except SettingsError Unit :=
  if (trim m.type.toList).isEmpty then .error .emptyType
  else if m.retries < 0 then .error (.negativeRetries m.retries)
  else if m.delay < 0 then .error (.negativeDelay m.delay)
  else .ok ()

end Management

namespace Manifest

def ofEntries (es : Entries) : Checked Manifest :=
  let tail := Checked.both Prod.mk
    (Schema.field es ⟨"phasesPath", "phases_path"⟩ Schema.text (some "phases"))
    (Schema.field es ⟨"docEntryPointPrefix", "doc_entry_point_prefix"⟩ Schema.text (some ""))
  Checked.both (fun t (p, e) => ⟨t, p, e⟩)
    (Schema.field es ⟨"targetPath", "target_path"⟩ Schema.text none) tail

def ofValue : Value → Checked Manifest := Schema.record ofEntries

def toEntries (m : Manifest) : Entries :=
  [(.str "targetPath", .str m.targetPath), (.str "phasesPath", .str m.phasesPath),
    (.str "docEntryPointPrefix", .str m.entryPointStem)]

end Manifest

namespace Context

def ofEntries (es : Entries) : Checked Context :=
  Checked.both Context.mk
    (Schema.field es ⟨"manifest", "manifest"⟩ Schema.text (some "default"))
    (Schema.field es ⟨"managementConfiguration", "management_configuration"⟩ Schema.text
      (some "default"))

def ofValue : Value → Checked Context := Schema.record ofEntries

def toEntries (c : Context) : Entries :=
  [(.str "manifest", .str c.manifest), (.str "managementConfiguration", .str c.management)]

end Context

namespace Settings

def ofEntries (es : Entries) : Checked Settings :=
  let table {α : Type} (name : Schema.FieldName) (read : Value → Checked α) :=
    Schema.field es name (Schema.table read) (some [])
  let tables := Checked.both Prod.mk (table ⟨"contexts", "contexts"⟩ Context.ofValue)
    (Checked.both Prod.mk (table ⟨"manifests", "manifests"⟩ Manifest.ofValue)
      (table ⟨"managementConfiguration", "management_configuration"⟩ Management.ofValue))
  Checked.both (fun current (cs, ms, gs) => ⟨current, cs, ms, gs⟩)
    (Schema.field es ⟨"currentContext", "current_context"⟩ Schema.text none) tables

def ofValue : Value → Checked Settings := Schema.record ofEntries

def tableValue {α : Type} (f : α → Entries) (t : List (String × α)) : Value :=
  .map (t.map fun (k, a) => (.str k, .map (f a)))

def toEntries (s : Settings) : Entries :=
  [(.str "currentContext", .str s.currentContext),
    (.str "contexts", tableValue Context.toEntries s.contexts),
    (.str "manifests", tableValue Manifest.toEntries s.manifests),
    (.str "managementConfiguration", tableValue Management.toEntries s.management)]

def lookup? {α : Type} (t : List (String × α)) (name : String) : Option α :=
  (t.find? (·.1 = name)).map (·.2)

/-- A context by its name; without one, or with an empty one, the current context. -/
def context (s : Settings) (name : Option String) : Except SettingsError Context :=
  let name := (name.filter (!·.isEmpty)).getD s.currentContext
  match lookup? s.contexts name with
  | some c => .ok c
  | none => .error (.noContext name)

def manifest (s : Settings) : Except SettingsError Manifest := do
  let c ← s.context none
  match lookup? s.manifests c.manifest with
  | some m => return m
  | none => throw (.noManifest c.manifest)

def managementOf (s : Settings) : Except SettingsError Management := do
  let c ← s.context none
  match lookup? s.management c.management with
  | some m => return m
  | none => throw (.noManagement c.management)

end Settings

end OutOfBand
