import OutOfBand.Inventory.Document
import OutOfBand.Label.Expression
import OutOfBand.Yaml.Cursor

namespace OutOfBand

structure Query where
  kind : Option Value
  name : Option Value
  namespaceName : Option Value
  label : Option String
  deriving Inhabited

inductive DocumentError where
  | label (e : LabelError)
  | notFound (q : Query)
  | notUnique (q : Query) (count : Nat)
  /-- A field of a document, which is called by its title, and what is wrong with it. -/
  | field (title : String) (name : String) (reason : String)
  /-- A file or folder that is not there. -/
  | noRoot (root : Path)
  /-- A text that is no stream of documents, with the file that it was read from. -/
  | unreadable (source : Option Path)
  /-- A scalar of a stream that no value stands for. -/
  | badScalar (f : Yaml.Fault)
  /-- A file whose bytes are not UTF-8. -/
  | notText (source : Path)
  | shape (f : ShapeFault)

namespace Query

def all : Query := ⟨none, none, none, none⟩

def ofKind (kind : String) : Query := { all with kind := some (.str kind) }

def withName (q : Query) (name : Value) : Query := { q with name := some name }

def withNamespace (q : Query) (ns : Value) : Query := { q with namespaceName := some ns }

/-- A bad expression is refused before the query is used. -/
def withLabel (q : Query) (label : String) : Except LabelError Query := do
  let _ ← Label.parse label
  return { q with label := some label }

def requirements (q : Query) : Except LabelError (List Requirement) :=
  match q.label with
  | some e => Label.parse e
  | none => .ok []

def liftShape {α : Type} : Except ShapeFault α → Except DocumentError α
  | .ok a => .ok a
  | .error f => .error (.shape f)

/-- A condition on a field that is only read if the condition is set. -/
def fieldHolds (want : Option Value) (field : Except ShapeFault Value) :
    Except ShapeFault Bool :=
  match want with
  | none => .ok true
  | some v => field.map v.same

/-- Conditions are tried in order: kind, name, namespace, labels. -/
def accepts (q : Query) (d : Document) : Except DocumentError Bool := do
  if !(← liftShape (fieldHolds q.kind d.kind)) then return false
  if !(← liftShape (fieldHolds q.name d.name)) then return false
  if !(← liftShape (fieldHolds q.namespaceName d.namespaceOf)) then return false
  let labels ← liftShape d.labels
  match q.requirements with
  | .ok rs => return holdAll rs labels
  | .error e => throw (.label e)

/-- The query as messages write it: the conditions that are set. -/
def text (q : Query) : String :=
  let part (name : String) (v : Option Value) : List String :=
    match v with
    | some v => [name ++ "=" ++ v.shown]
    | none => []
  "selector(" ++ joinWith ", " (part "kind" q.kind ++ part "name" q.name ++
    part "namespace" q.namespaceName ++ part "label" (q.label.map .str)) ++ ")"

end Query

/-- The text of a document error; a file or a scalar that cannot be read has none. -/
def DocumentError.message : DocumentError → String
  | label e => e.message
  | notFound q => "document not found: no document matches " ++ q.text
  | notUnique q count => natText count ++ " documents match " ++ q.text ++ ", expected exactly one"
  | .field title name reason => "document " ++ title ++ ": field '" ++ name ++ "' " ++ reason
  | noRoot root => "document root " ++ root.text ++ " does not exist"
  | unreadable none => "failed to parse documents"
  | unreadable (some p) => "failed to parse " ++ p.text
  | shape f => f.message
  | badScalar _ | notText _ => ""

/-- Whether the failure is reported by its message; any other one was not foreseen. -/
def DocumentError.isForeseen : DocumentError → Bool
  | badScalar _ | notText _ | shape _ => false
  | _ => true

end OutOfBand
