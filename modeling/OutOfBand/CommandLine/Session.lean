import OutOfBand.CommandLine.Invocation
import OutOfBand.Batch.Parallel
import OutOfBand.Fleet.Build
import OutOfBand.Redfish.Client
import OutOfBand.Report.RunLog
import OutOfBand.Settings.File
import OutOfBand.Yaml.Printer

namespace OutOfBand.CommandLine

/-- What a command finds around it. -/
structure Surroundings (τ : Type) where
  machine : Machine
  occasion : Occasion
  network : Network τ
  /-- Lengths of time of settings and options. -/
  seconds : Float → τ
  /-- Whose turn it is, step by step, where hosts are run side by side. -/
  schedule : List Nat := []

/-- By what means a command reaches machines: how its clients are made, and what each of them
does. -/
structure Means (τ γ : Type) where
  vendors : Vendors γ
  client : γ → Client τ

/-- A host of a fleet with its client at work. -/
def Means.connect {τ γ : Type} (p : Means τ γ) (h : Host γ) : Host (Client τ) :=
  { h with client := p.client h.client }

/-- A failure that was not foreseen. -/
inductive Breakdown where
  | log (f : LogFault)
  | build (e : BuildError)
  | call (f : Failure)

inductive Ending where
  | exit (code : Nat)
  | broke (b : Breakdown)

namespace Ending

/-- Everything was done. -/
def success : Ending := exit 0

def hostFailed : Ending := exit 1

/-- Nothing was done: the order or what it needs is at fault. -/
def refused : Ending := exit 2

end Ending

/-- What is left of a command that has ended. -/
structure Conclusion (τ : Type) where
  ending : Ending
  log : Option RunLog
  trace : List (Effect τ)

/-- A command on its way: it may end early, and its trace stays. -/
abbrev Course (τ : Type) := ExceptT Ending (StateM (List (Effect τ)))

namespace Course

variable {τ α : Type}

def note (o : Output) : Course τ Unit := modify (· ++ [.noted (.wrote o)])

def line (text : String) : Course τ Unit := note (.out text)

/-- A failure before anything is done: it is reported, if it was foreseen. -/
def stop (log : List LogLine) (e : BuildError) : Course τ α := do
  if e.isForeseen then
    for l in log do note (.log l)
    note (.err ("Error: " ++ e.message))
    throw .refused
  else throw (.broke (.build e))

def orStop {ε : Type} (f : ε → BuildError) : Except ε α → Course τ α
  | .ok a => pure a
  | .error e => stop [] (f e)

/-- All of a course, from an empty trace. -/
def conclude (c : Course τ Unit) (log : Option RunLog) : Conclusion τ :=
  match c.run [] with
  | (.ok (), trace) => ⟨.success, log, trace⟩
  | (.error e, trace) => ⟨e, log, trace⟩

end Course

namespace Session

variable {τ γ : Type}

/-- The settings file of an invocation; an empty name is the working directory. -/
def settingsPath (v : Invocation) : Option String :=
  v.settingsFile.map fun p => (Path.ofText p).text

def settings (s : Surroundings τ) (v : Invocation) : Logged SettingsError Settings :=
  Settings.load s.machine (settingsPath v)

def observers : Bus := [.console, .logger, .file]

def stamp (s : Surroundings τ) (o : HostOrder) (g : Settings) : Stamp :=
  ⟨s.occasion.time, s.occasion.id, some g.currentContext, some o.phase⟩

/-- The settings and the fleet of an order. -/
def build (p : Means τ γ) (s : Surroundings τ) (v : Invocation) (o : HostOrder) :
    Build γ (Settings × Fleet γ) := do
  let g ← Build.logged .settings (settings s v)
  let f ← Build.fleet p.vendors g o.phase (g.bundleOf s.machine o.phase) o.selectors
    (some observers) (stamp s o g)
  return (g, f)

def buildFailed : LogLine := ⟨.debug, "manager construction failed"⟩

variable [Seconds τ]

/-- The action of an order, on its way to all hosts of a fleet. -/
def batch (s : Surroundings τ) (o : HostOrder) (g : Settings) : Batch τ :=
  ⟨o.command.action, o.command.name, o.timeout.map s.seconds, some observers, stamp s o g⟩

def mode (s : Surroundings τ) (o : HostOrder) : Mode :=
  if o.sideBySide then .sideBySide none s.schedule else .inTurn true

def runBatch (p : Means τ γ) (s : Surroundings τ) (o : HostOrder) (g : Settings) (f : Fleet γ) :
    Course τ Unit := do
  let hosts := f.hosts.map p.connect
  let (r, t) := ((batch s o g).run (mode s o) hosts).run { Timeline.start with trace := ← get }
  set t.trace
  match r with
  | .error e => throw (.broke (.call e))
  | .ok rs => if rs.any fun r => !r.outcome.isOk then throw .hostFailed

/-- An order for hosts whose log is open. -/
def runHosts (p : Means τ γ) (s : Surroundings τ) (v : Invocation) (o : HostOrder) (log : RunLog) :
    Course τ Unit := do
  for l in log.opening do Course.note (.log l)
  let (r, record) := (build p s v o).run.run BuildRecord.start
  modify (· ++ record.notices.map .noted)
  match r with
  | .error e => Course.stop [buildFailed] e
  | .ok (g, f) => runBatch p s o g f

def openLog (s : Surroundings τ) (v : Invocation) : Except LogFault RunLog := do
  RunLog.inFolder s.machine (← RunLog.defaultFolder s.machine) "metalctl" v.verbose s.occasion

/-- The settings for a look at them, which leaves no log lines. -/
def look (s : Surroundings τ) (v : Invocation) : Course τ Settings :=
  Course.orStop .settings ((settings s v).run []).1

/-- The management configuration of the current context as a settings file writes it. -/
def showManagement (s : Surroundings τ) (v : Invocation) : Course τ Unit := do
  let g ← look s v
  let m ← Course.orStop .settings g.managementOf
  Course.line ("context: " ++ g.currentContext)
  for l in (Yaml.entryTexts? m.toEntries).getD [] do Course.line l

/-- A name on a line of its own; nothing stands for null. -/
def nameLine : Value → String
  | .null => ""
  | v => v.text

def listPhases (s : Surroundings τ) (v : Invocation) : Course τ Unit := do
  let g ← look s v
  let manifest ← Course.orStop .settings g.manifest
  let phases ← Course.orStop .phase (Phases.ofManifest s.machine manifest)
  let names ← Course.orStop .phase (phases.names.run []).1
  for n in names do Course.line (nameLine n)

/-- What an invocation does by some means and how it ends. -/
def runWith (p : Means τ γ) (s : Surroundings τ) (v : Invocation) : Conclusion τ :=
  match v.order with
  | .showManagement => (showManagement s v).conclude none
  | .listPhases => (listPhases s v).conclude none
  | .hosts o =>
    match openLog s v with
    | .error f => ⟨.broke (.log f), none, []⟩
    | .ok log => (runHosts p s v o log).conclude log

/-- The clients that are known from the start, on the network. -/
def means (s : Surroundings τ) : Means τ (Redfish.System τ) :=
  ⟨Vendors.builtIn s.seconds, Redfish.System.client s.network⟩

def connect (s : Surroundings τ) : Host (Redfish.System τ) → Host (Client τ) := (means s).connect

def run (s : Surroundings τ) (v : Invocation) : Conclusion τ := runWith (means s) s v

end Session

namespace Conclusion

variable {τ : Type}

def outputs (c : Conclusion τ) : List Output :=
  (c.trace.filterMap Effect.notice?).filterMap Notice.output?

def requests (c : Conclusion τ) : List (Request τ) := c.trace.filterMap Effect.request?

def records (c : Conclusion τ) : List String := c.outputs.filterMap Output.record?

def logLines (c : Conclusion τ) : Log := c.outputs.filterMap Output.log?

def outLines (c : Conclusion τ) : List String := c.outputs.filterMap Output.out?

/-- Whether a log line is shown to whoever runs the command. -/
def shows (c : Conclusion τ) (l : LogLine) : Bool := c.log.any fun log => log.shows l

end Conclusion

end OutOfBand.CommandLine
