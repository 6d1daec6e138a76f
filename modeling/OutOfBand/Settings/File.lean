import OutOfBand.Settings.Basic
import OutOfBand.Files.Tree
import OutOfBand.Text.Lines
import OutOfBand.Text.Variables
import OutOfBand.Yaml.Load
import OutOfBand.Report.Log

namespace OutOfBand.Settings

/-- The file that a variable names, or the one in the home directory. -/
def defaultPath (m : Machine) : Except SettingsError Path :=
  match m.given? "METALCTL_CONFIG" with
  | some p => .ok (Path.ofText p)
  | none => match (Path.ofText "~").expandHome? m.home with
    | some home => .ok (home.join ⟨"", [".metalctl", "config.yaml"]⟩)
    | none => .error .noHome

/-- A text with its variables replaced, as a value; an empty one is a mapping without entries. -/
def readValue (m : Machine) (p : Path) (text : String) : Except SettingsError Value :=
  match m.yaml.one (Variables.expand m.setting? text) with
  | .ok v => .ok (if v.isGiven then v else .map [])
  | .error .malformed => .error (.unreadable p)
  | .error f => .error (.badScalar f)

def readText (m : Machine) (p : Path) (text : String) : Except SettingsError Settings := do
  match ofValue (← readValue m p text) with
  | .ok s => return s
  | .error fs => throw (.invalid p fs)

def readFile (m : Machine) (p : Path) (content : ByteArray) : Except SettingsError Settings :=
  match textOfBytes? content with
  | some text => readText m p text
  | none => .error (.notText p)

/-- The settings of a file; without a path, or with an empty one, of the default file. -/
def load (m : Machine) (path : Option String) : Logged SettingsError Settings := do
  let p ← match path.filter (!·.isEmpty) with
    | some p => pure (Path.ofText p)
    | none => silently (defaultPath m)
  match m.lookup? p with
  | some (.file content) =>
    debug ("Loading metalctl config from " ++ p.text)
    silently (readFile m p content)
  | _ => throw (.noFile p)

end OutOfBand.Settings
