import OutOfBand.Inventory.Query
import OutOfBand.Files.Tree
import OutOfBand.Report.Log
import OutOfBand.Text.Lines
import OutOfBand.Yaml.Load

namespace OutOfBand

structure Bundle where
  documents : List Document
  deriving Inhabited

namespace Bundle

def readText (reader : Yaml.Reader) (source : Option Path) (text : String) :
    Except DocumentError (List Document) :=
  match reader.all text with
  | .ok vs => .ok (Document.ofValues source vs)
  | .error .malformed => .error (.unreadable source)
  | .error f => .error (.badScalar f)

def ofTextBy (reader : Yaml.Reader) (text : String) : Except DocumentError Bundle :=
  (readText reader none text).map (⟨·⟩)

def ofText (text : String) : Except DocumentError Bundle := ofTextBy Yaml.reader text

def readFile (reader : Yaml.Reader) (p : Path) (content : ByteArray) :
    Except DocumentError (List Document) :=
  match textOfBytes? content with
  | some text => readText reader (some p) text
  | none => .error (.notText p)

def isYaml (p : Path) : Bool := p.ending = ".yaml" || p.ending = ".yml"

/-- The YAML files below a root in the order of their paths; a root that is a file is read
whatever its ending. -/
def filesAt (root : Path) : Tree → List (Path × ByteArray)
  | .file content => [(root, content)]
  | .folder es =>
    let below := (Tree.folder es).files.map fun (names, content) =>
      (root.join ⟨"", names⟩, content)
    (below.filter fun f => isYaml f.1).mergeSort fun f g => f.1.le g.1

/-- Every YAML file under a root. -/
def ofPath (m : Machine) (root : Path) : Except DocumentError Bundle :=
  match m.lookup? root with
  | none => .error (.noRoot root)
  | some t => do
    let docs ← (filesAt root t).mapM fun (p, content) => readFile m.yaml p content
    return ⟨docs.flatten⟩

def size (b : Bundle) : Nat := b.documents.length

/-- Every YAML file under a root, with a log line that counts the documents. -/
def load (m : Machine) (root : Path) : Logged DocumentError Bundle := do
  let b ← silently (ofPath m root)
  debug ("Loaded " ++ natText b.size ++ " documents from " ++ root.text)
  return b

def accepted (q : Query) : List Document → Except DocumentError (List Document)
  | [] => .ok []
  | d :: ds => do
    let here ← q.accepts d
    let rest ← accepted q ds
    return if here then d :: rest else rest

def select (b : Bundle) (q : Query) : Except DocumentError (List Document) := accepted q b.documents

def selectOne (b : Bundle) (q : Query) : Except DocumentError Document := do
  match ← b.select q with
  | [d] => return d
  | [] => throw (.notFound q)
  | ds => throw (.notUnique q ds.length)

end Bundle

end OutOfBand
