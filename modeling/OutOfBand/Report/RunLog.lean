import OutOfBand.Calendar
import OutOfBand.Files.Tree
import OutOfBand.Report.Log
import OutOfBand.Text.Quoted

namespace OutOfBand

/-- What tells one run from all others: its start and an identifier. -/
structure Occasion where
  /-- In universal time. -/
  start : Moment
  id : String
  deriving Repr, Inhabited

namespace Occasion

/-- An identifier of 32 hexadecimal digits in five groups, of version four. -/
def idOf (n : Nat) : String :=
  let ds := ((hexText 32 (n % Nat.pow 2 128)).set 12 '4').set 16 '8'
  let group (i j : Nat) : String := String.ofList ((ds.take j).drop i)
  joinWith "-" [group 0 8, group 8 12, group 12 16, group 16 20, group 20 32]

/-- The start in the form of stamps, to the second. -/
def time (o : Occasion) : String := { o.start with micro := 0, offset := none }.text "T" ++ "Z"

def clock (t : Moment) : String :=
  padLeft 2 (natText t.hour) ++ padLeft 2 (natText t.minute) ++ padLeft 2 (natText t.second)

def day (d : Date) : String :=
  padLeft 4 (natText d.year) ++ padLeft 2 (natText d.month) ++ padLeft 2 (natText d.day)

/-- The start in the form of file names. -/
def fileTime (o : Occasion) : String := day o.start.date ++ "-" ++ clock o.start

end Occasion

inductive LogFault where
  /-- The folder's name belongs to a file. -/
  | isFile (path : Path)
  /-- A folder on the way is a file. -/
  | throughFile (path : Path)
  /-- The home directory is not known. -/
  | noHome
  deriving Repr

structure RunLog where
  path : Path
  occasion : Occasion
  verbose : Bool
  deriving Repr

namespace RunLog

/-- The folder that a variable names, or the one in the home directory. -/
def defaultFolder (m : Machine) : Except LogFault Path :=
  match m.given? "METALCTL_LOG_DIR" with
  | some p => .ok (Path.ofText p)
  | none => match (Path.ofText "~").expandHome? m.home with
    | some home => .ok (home.join ⟨"", [".metalctl", "logs"]⟩)
    | none => .error .noHome

/-- Whether a path, or another one above it, belongs to a file. -/
def isFileAt (m : Machine) (p : Path) : Bool :=
  match m.lookup? p with
  | some t => t.isFile
  | none => false

/-- The paths above a path, from the top. -/
def above (p : Path) : List Path :=
  (List.range p.names.length).map fun n => ⟨p.root, p.names.take n⟩

/-- A folder that is there or can be made. -/
def checkFolder (m : Machine) (p : Path) : Except LogFault Unit :=
  if isFileAt m p then .error (.isFile p)
  else if (above p).any (isFileAt m) then .error (.throughFile p)
  else .ok ()

def inFolder (m : Machine) (folder : Path) (name : String) (verbose : Bool) (o : Occasion) :
    Except LogFault RunLog := do
  checkFolder m folder
  let file := name ++ "-" ++ o.fileTime ++ "-" ++ o.id ++ ".log"
  return ⟨folder.join (Path.ofText file), o, verbose⟩

def eventFile (l : RunLog) : Path := l.path.withEnding ".jsonl"

/-- The lines that every log begins with. -/
def opening (l : RunLog) : Log :=
  ["=== metalctl run started ===", "run_id=" ++ l.occasion.id, "log_file=" ++ l.path.text].map
    fun text => ⟨.debug, text⟩

/-- The least level that the console takes. -/
def consoleLevel (l : RunLog) : Level := if l.verbose then .debug else .info

/-- Whether a line is also for the console. -/
def shows (l : RunLog) (line : LogLine) : Bool := l.consoleLevel.weight ≤ line.level.weight

end RunLog

/-- A line as it is written, but for the time in front of it: its level in a column, its text. -/
def LogLine.written (l : LogLine) : String :=
  l.level.name ++ String.ofList (List.replicate (7 - l.level.name.length) ' ') ++ " | " ++ l.text

end OutOfBand
