import OutOfBand.CommandLine.Session

/-!
The command itself: it reads the files and variables that an invocation looks at, runs, and writes
what is left. It has no transport of its own, so every request fails.
-/

namespace OutOfBand.CommandLine

/-- A network without a transport. -/
def unconnected : Network Number := fun _ _ => ⟨.failed "no transport", .whole 0, false⟩

/-- A file or a folder with all that is below it, if there is one. -/
partial def readTree? (p : String) : IO (Option Tree) := do
  let place := (← IO.currentDir) / p
  if ← place.isDir then
    let trees ← (← place.readDir).toList.filterMapM fun e => do
      return (← readTree? (p ++ "/" ++ e.fileName)).map (e.fileName, ·)
    return some (.folder trees)
  else if ← place.pathExists then
    return some (.file (← IO.FS.readBinFile place))
  else return none

/-- A machine that also knows what lies at a path. -/
def withPath (m : Machine) (p : Path) : IO Machine := do
  let full := m.workingDirectory.join p
  match ← readTree? full.text with
  | some t => return { m with top := m.top.insert full.names t }
  | none => return m

/-- A machine that also knows some variables. -/
def withVariables (m : Machine) (names : List String) : IO Machine := do
  let found ← names.filterMapM fun n => return (← IO.getEnv n).map (n, ·)
  return { m with environment := m.environment ++ found }

def standardVariables : List String :=
  ["HOME", "METALCTL_CONFIG", "METALCTL_PHASE", "METALCTL_LOG_DIR"]

/-- The machine in front of any reading of files. -/
def emptyMachine : IO Machine := do
  let here := Path.ofText (← IO.currentDir).toString
  withVariables (.ofFiles here [] []) standardVariables

/-- The text of the settings file, for the variables that it names. -/
def settingsText (m : Machine) (p : Path) : String :=
  match m.lookup? p with
  | some (.file content) => (textOfBytes? content).getD ""
  | _ => ""

/-- The machine with the files that an invocation looks at. -/
def machineFor (m : Machine) (v : Invocation) : IO Machine := do
  let file := match Session.settingsPath v with
    | some p => Path.ofText p
    | none => (Settings.defaultPath m).toOption.getD default
  let m ← withPath m file
  let m ← withVariables m (Variables.mentioned (settingsText m file))
  match (Settings.load m (some file.text)).run [] with
  | (.ok g, _) =>
    match g.manifest.toOption.bind fun mf => (Phases.ofManifest m mf).toOption with
    | some phases => withPath m phases.target
    | none => return m
  | _ => return m

/-- The machine with what lies at its log folder and above. -/
def withLogFolder (m : Machine) : IO Machine := do
  match RunLog.defaultFolder m with
  | .error _ => return m
  | .ok folder =>
    let full := m.workingDirectory.join folder
    let mut m := m
    for p in RunLog.above full ++ [full] do
      let place := (← IO.currentDir) / p.text
      if (← place.pathExists) && !(← place.isDir) then
        m := { m with top := m.top.insert p.names (.file ByteArray.empty) }
    return m

/-- The present, as the time at which a new file is written, with a random identifier. -/
def currentOccasion : IO Occasion := do
  let (_, place) ← IO.FS.createTempFile
  let written := (← place.metadata).modified.sec
  IO.FS.removeFile place
  let high ← IO.rand 0 (Nat.pow 2 62)
  let low ← IO.rand 0 (Nat.pow 2 62)
  return ⟨.ofSeconds written.toNat, Occasion.idOf (high * Nat.pow 2 64 + low)⟩

def stamped (o : Occasion) (l : LogLine) : String :=
  { o.start with offset := none }.text " " ++ " | " ++ l.written

def writeOutput (o : Occasion) (c : Conclusion Number) : Output → IO Unit
  | .out l => IO.println l
  | .err l => IO.eprintln l
  | .log l => if c.shows l then IO.eprintln (stamped o l) else return
  | .record _ => return

/-- The log and the event file of a conclusion that has a log. -/
def writeFiles (o : Occasion) (c : Conclusion Number) : IO Unit := do
  if let some log := c.log then
    IO.FS.createDirAll log.path.parent.text
    IO.FS.writeFile log.path.text (linesText (c.logLines.map (stamped o)))
    if !c.records.isEmpty then IO.FS.writeFile log.eventFile.text (linesText c.records)

def Breakdown.message : Breakdown → String
  | log _ => "there is no folder for the log"
  | build e => e.message
  | call f => f.message

/-- What an invocation does, and the code that it ends with. -/
def perform (m : Machine) (v : Invocation) : IO UInt32 := do
  let o ← currentOccasion
  let m ← withLogFolder (← machineFor m v)
  let c := Session.run ⟨m, o, unconnected, .real, []⟩ v
  writeFiles o c
  for output in c.outputs do writeOutput o c output
  match c.ending with
  | .exit code => return code.toUInt32
  | .broke b =>
    IO.eprintln ("unexpected failure: " ++ b.message)
    return 1

end OutOfBand.CommandLine

open OutOfBand CommandLine in
def main (args : List String) : IO UInt32 := do
  let m ← emptyMachine
  match Invocation.ofArguments m args with
  | .ok v => perform m v
  | .error e =>
    IO.eprintln ("Error: " ++ e.message)
    return 2
