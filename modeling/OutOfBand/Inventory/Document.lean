import OutOfBand.Value.Text
import OutOfBand.Label
import OutOfBand.Files.Path

namespace OutOfBand

/-- What goes wrong where a value has another shape than its reader supposes. -/
inductive ShapeFault where
  /-- A value that is no mapping is asked for what only mappings have. -/
  | noMembers (v : Value) (asked : String)
  /-- A value without items is searched for one. -/
  | notSearchable (v : Value)
  /-- A value that is no mapping is indexed by a text. -/
  | notIndexable (v : Value)
  /-- A value that cannot be the key of a mapping. -/
  | notAKey (v : Value)
  /-- A value that cannot be sorted with others. -/
  | notSortable
  /-- A value that is no text is part of a path. -/
  | notAPath (v : Value)
  /-- A text that must be ASCII is not. -/
  | notAscii

namespace ShapeFault

/-- The kind of a value with the module that it belongs to. -/
def kindText : Value → String
  | .date _ => "datetime.date"
  | .moment _ => "datetime.datetime"
  | v => v.kindName

def indexText : Value → String
  | .str _ => "string indices must be integers, not 'str'"
  | .list _ | .enclosing false => "list indices must be integers or slices, not str"
  | .pair .. => "tuple indices must be integers or slices, not str"
  | v => "'" ++ kindText v ++ "' object is not subscriptable"

def message : ShapeFault → String
  | noMembers v asked => "'" ++ kindText v ++ "' object has no attribute '" ++ asked ++ "'"
  | notSearchable (.bytes _) => "a bytes-like object is required, not 'str'"
  | notSearchable v => "argument of type '" ++ kindText v ++ "' is not iterable"
  | notIndexable v => indexText v
  | notAKey v => "unhashable type: '" ++ kindText v ++ "'"
  | notSortable => ""
  | notAPath v => "unsupported operand type(s) for /: 'PosixPath' and '" ++ kindText v ++ "'"
  | notAscii => "string argument should contain only ASCII characters"

end ShapeFault

def baremetalHostKind : String := "BareMetalHost"
def secretKind : String := "Secret"
def phaseKind : String := "Phase"

structure Document where
  raw : Value
  /-- The file that it was read from, if it was. -/
  source : Option Path
  deriving Inhabited

/-- The member of a value that is supposed to be a mapping. -/
def Value.member (v : Value) (key : String) : Except ShapeFault (Option Value) :=
  match v with
  | .map es => .ok (Entries.get? es key)
  | v => .error (.noMembers v "get")

/-- A value, or another one where it is missing or not given. -/
def orElse (v : Option Value) (other : Value) : Value :=
  match v with
  | some v => if v.isGiven then v else other
  | none => other

namespace Document

def kind (d : Document) : Except ShapeFault Value :=
  (d.raw.member "kind").map (orElse · (.str ""))

def metadata (d : Document) : Except ShapeFault Value :=
  (d.raw.member "metadata").map (orElse · (.map []))

def metadataField (d : Document) (key : String) (other : Value) : Except ShapeFault Value := do
  return orElse (← (← d.metadata).member key) other

def name (d : Document) : Except ShapeFault Value := d.metadataField "name" (.str "")

def namespaceOf (d : Document) : Except ShapeFault Value := d.metadataField "namespace" (.str "")

/-- A label that is there keeps its place and takes the new value. -/
def putLabel : Labels → String → String → Labels
  | [], k, v => [(k, v)]
  | (k', v') :: r, k, v => if k = k' then (k, v) :: r else (k', v') :: putLabel r k v

/-- The texts of keys and values of the labels. -/
def labels (d : Document) : Except ShapeFault Labels := do
  match ← d.metadataField "labels" (.map []) with
  | .map es => return es.foldl (fun ls (k, v) => putLabel ls k.text v.text) []
  | v => throw (.noMembers v "items")

/-- The value at the end of a path of member names; none where it leaves the mappings. -/
def valueAt? : Value → List String → Option Value
  | v, [] => some v
  | v, key :: rest => (v.get? key).bind (valueAt? · rest)

/-- The value at a path of names with points between them. -/
def get? (d : Document) (path : String) : Option Value :=
  valueAt? d.raw ((splitAt '.' path.toList).map String.ofList)

/-- Kind, namespace and name, as messages call a document. -/
def title (d : Document) : Except ShapeFault String := do
  let ns ← d.namespaceOf
  let kind ← d.kind
  let name ← d.name
  return kind.text ++ "/" ++ (if ns.isGiven then ns.text ++ "/" else "") ++ name.text

/-- The documents of a stream: its mappings with a kind. -/
def ofValues (source : Option Path) (vs : List Value) : List Document :=
  (vs.filter fun v => (v.get? "kind").any Value.isGiven).map (⟨·, source⟩)

end Document

end OutOfBand
