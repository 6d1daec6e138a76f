import OutOfBand.Files.Path
import OutOfBand.Yaml.Load

namespace OutOfBand

inductive Tree where
  | file (content : ByteArray)
  | folder (entries : List (String × Tree))
  deriving Inhabited

namespace Tree

def entries : Tree → List (String × Tree)
  | file _ => []
  | folder es => es

def find? (t : Tree) (name : String) : Option Tree :=
  (t.entries.find? (·.1 = name)).map (·.2)

def isFile : Tree → Bool
  | file _ => true
  | folder _ => false

/-- What stands at the end of a walk by names from a folder whose ancestors are known; a double
point leads to the parent, and the parent of the top is the top. -/
def walk? : List Tree → Tree → List String → Option Tree
  | _, t, [] => some t
  | above, t, name :: rest =>
    if t.isFile then none
    else if name = ".." then
      match above with
      | [] => walk? [] t rest
      | p :: above => walk? above p rest
    else match t.find? name with
      | some child => walk? (t :: above) child rest
      | none => none

mutual
/-- The files below a folder, each with the names that lead to it. -/
def files : Tree → List (List String × ByteArray)
  | file content => [([], content)]
  | folder es => filesOf es
def filesOf : List (String × Tree) → List (List String × ByteArray)
  | [] => []
  | (name, t) :: r => ((files t).map fun (names, content) => (name :: names, content)) ++ filesOf r
end

/-- A folder chain with a file or an empty folder at its end, put into a tree. -/
def insert (t : Tree) : List String → Tree → Tree
  | [], leaf => match t, leaf with
    | folder es, folder [] => folder es
    | _, leaf => leaf
  | name :: rest, leaf =>
    let sub := (t.find? name).getD (folder [])
    let es := t.entries
    if es.any (·.1 = name) then
      folder (es.map fun e => if e.1 = name then (name, sub.insert rest leaf) else e)
    else folder (es ++ [(name, sub.insert rest leaf)])
termination_by names => names.length

end Tree

/-- The machine that a command runs on: its files, the directory it works in, its variables, and what
reads the format of its files. -/
structure Machine where
  top : Tree
  workingDirectory : Path
  environment : List (String × String)
  yaml : Yaml.Reader
  deriving Inhabited

namespace Machine

/-- A machine that works in a folder and has no files but some below it: a file is given by its
content, and an empty folder by none. -/
def ofFiles (folder : Path) (files : List (String × Option ByteArray))
    (environment : List (String × String)) : Machine :=
  let put (t : Tree) (f : String × Option ByteArray) : Tree :=
    t.insert (folder.join (Path.ofText f.1)).names ((f.2.map Tree.file).getD (.folder []))
  ⟨files.foldl put (Tree.insert (.folder []) folder.names (.folder [])), folder, environment,
    Yaml.reader⟩

def setting? (m : Machine) (name : String) : Option String :=
  (m.environment.find? (·.1 = name)).map (·.2)

/-- A variable that is set to some text. -/
def given? (m : Machine) (name : String) : Option String :=
  (m.setting? name).filter (!·.isEmpty)

def home (m : Machine) : String := (m.setting? "HOME").getD "/"

def lookup? (m : Machine) (p : Path) : Option Tree :=
  Tree.walk? [] m.top (if p.isAbsolute then p.names else m.workingDirectory.names ++ p.names)

end Machine

end OutOfBand
