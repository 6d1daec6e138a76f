import OutOfBand.Yaml.Resolve
import OutOfBand.Value
import OutOfBand.Text.Base64

/-!
The values of a YAML text. A mapping takes in the mappings that it merges before its own entries,
and of two equal keys the last counts. Collections are filled level by level, so of two faults in a
document the one in the shallower collection is reported.
-/

namespace OutOfBand.Yaml

/-- A fault and the depth of the collection that it was met in. -/
structure DeepFault where
  depth : Nat
  fault : Fault
  deriving Repr

abbrev Build := Except DeepFault

def failAt {α : Type} (depth : Nat) (f : Fault) : Build α := .error ⟨depth, f⟩

/-- The text of a scalar; of a mapping, the scalar at its default key. -/
def Node.scalarText? : Node → Option String
  | .scalar _ text _ => some text
  | .mapping _ es => go es
  | _ => none
where
  go : List (Node × Node) → Option String
    | [] => none
    | (k, v) :: r => if k.fullTag = coreTag "value" then scalarText? v else go r

/-- An integer as its notation writes it: base two, eight, sixteen or sixty by its marks. -/
def intOf (text : String) : Except Fault Int := do
  let s := text.toList.filter (· ≠ '_')
  if s.isEmpty then throw .emptyNumber
  let negative := s.head? = some '-'
  let s := if negative || s.head? = some '+' then s.drop 1 else s
  let orFail (n : Option Int) : Except Fault Int := match n with
    | some n => .ok (if negative then -n else n)
    | none => .error .notANumber
  match s with
  | [] => throw .emptyNumber
  | ['0'] => return 0
  | '0' :: 'b' :: r => orFail (readLooseInt? 2 r)
  | '0' :: 'x' :: r => orFail (readLooseInt? 16 r)
  | '0' :: _ => orFail (readLooseInt? 8 s)
  | _ =>
    if s.contains ':' then
      orFail ((splitAt ':' s).foldlM (fun n part => do return n * 60 + (← readLooseInt? 10 part)) 0)
    else orFail (readLooseInt? 10 s)

def floatOf (text : String) : Except Fault Float := do
  let s := lowerAscii (text.toList.filter (· ≠ '_'))
  if s.isEmpty then throw .emptyNumber
  let (negative, s) := takeSign s
  let withSign (x : Float) : Float := if negative then -x else x
  if s = ".inf".toList then return withSign (1.0 / 0.0)
  else if s = ".nan".toList then return 0.0 / 0.0
  else if s.contains ':' then
    match (splitAt ':' s).mapM readLooseFloat? with
    | some parts => return withSign (parts.reverse.zipIdx.foldl (fun acc (x, i) =>
        acc + x * intFloat (Nat.pow 60 i : Nat)) 0.0)
    | none => throw .notANumber
  else match readLooseFloat? s with
    | some x => return withSign x
    | none => throw .notANumber

def timestampOf (text : String) : Except Fault Value :=
  match stamp? text.toList with
  | none => .error .notATimestamp
  | some ⟨d, none, _⟩ => if d.isValid then .ok (.date d) else .error .noSuchDate
  | some ⟨_, some t, _⟩ => if t.isValid then .ok (.moment t) else .error .noSuchDate

def bytesOf (text : String) : Except Fault Value :=
  let s := text.toList
  if s.all (·.toNat < 128) then
    match Base64.decodeLoose? s with
    | some bs => .ok (.bytes bs)
    | none => .error .malformed
  else .error .malformed

def scalarOf (type text : String) : Except Fault Value :=
  match type with
  | "null" => .ok .null
  | "bool" => match truthWord? (String.ofList (lowerAscii text.toList)) with
    | some b => .ok (.bool b)
    | none => .error .notABoolean
  | "int" => (intOf text).map .int
  | "float" => (floatOf text).map .float
  | "timestamp" => timestampOf text
  | "binary" => bytesOf text
  | "str" => .ok (.str text)
  | _ => .error .malformed

def coreType? (tag : String) : Option String :=
  let stem := coreTag ""
  if stem.toList.isPrefixOf tag.toList then some (String.ofList (tag.toList.drop stem.length))
  else none

def isCollectionType (type : String) : Bool :=
  ["seq", "map", "set", "omap", "pairs"].contains type

mutual
/-- The entries of a mapping after merging, those of merged mappings first. A merge key also takes
in a list of mappings, the last one first. -/
def Node.merged : Node → Except Fault (List (Node × Node))
  | .mapping _ es => do
    let (taken, own) ← splitMerged es
    return taken ++ own
  | .sequence _ items => mergedItems items
  | .cycle .. => .error .cyclic
  | .scalar .. => .error .malformed
/-- The entries that the merge keys take in, and the entries of the mapping itself. -/
def splitMerged : List (Node × Node) → Except Fault (List (Node × Node) × List (Node × Node))
  | [] => .ok ([], [])
  | (k, v) :: r => do
    if k.fullTag = coreTag "merge" then
      let here ← v.merged
      let (taken, own) ← splitMerged r
      return (here ++ taken, own)
    else
      let k := if k.fullTag = coreTag "value" then
          match k with
          | .scalar _ text plain => .scalar (some (coreTag "str")) text plain
          | n => n
        else k
      let (taken, own) ← splitMerged r
      return (taken, (k, v) :: own)
def mergedItems : List Node → Except Fault (List (Node × Node))
  | [] => .ok []
  | n :: r => do
    let here ← if n.isMapping then n.merged else throw .malformed
    let after ← mergedItems r
    return after ++ here
end

/-- How deep a node nests, scalars counting one. -/
def Node.depth : Node → Nat
  | .sequence _ items => depthItems items + 1
  | .mapping _ es => depthEntries es + 1
  | _ => 1
where
  depthItems : List Node → Nat
    | [] => 0
    | n :: r => max (depth n) (depthItems r)
  depthEntries : List (Node × Node) → Nat
    | [] => 0
    | (k, v) :: r => max (max (depth k) (depth v)) (depthEntries r)

/-- All results, or the fault of least depth, the first of several. -/
def collect {α : Type} : List (Build α) → Build (List α)
  | [] => .ok []
  | x :: r =>
    match x, collect r with
    | .ok v, .ok vs => .ok (v :: vs)
    | .error f, .ok _ => .error f
    | .ok _, .error f => .error f
    | .error f, .error g => .error (if g.depth < f.depth then g else f)

def liftAt {α : Type} (depth : Nat) : Except Fault α → Build α
  | .ok a => .ok a
  | .error f => failAt depth f

mutual
/-- The value of a node in a collection of a depth; the fuel bounds the nesting. A collection may hold
itself, but not as a key. -/
def build : Nat → Nat → Node → Build Value
  | 0, depth, _ => failAt depth .cyclic
  | _, _, .cycle _ mapping => .ok (.enclosing mapping)
  | fuel + 1, depth, n =>
    match coreType? n.fullTag with
    | none => failAt depth .malformed
    | some type =>
      if isCollectionType type then buildCollection fuel (depth + 1) type n
      else match n.scalarText? with
        | none => failAt depth .malformed
        | some text => liftAt depth (scalarOf type text)
/-- The value of a node marked as a collection, by its type. -/
def buildCollection : Nat → Nat → String → Node → Build Value
  | 0, depth, _, _ => failAt depth .cyclic
  | fuel + 1, depth, type, n =>
    match type, n with
    | "seq", .sequence _ items => do
      let vs ← collect (items.map (build fuel depth))
      return .list vs
    | "map", .mapping .. => do
      let es ← liftAt depth n.merged
      let vs ← collect (es.map (buildEntry fuel depth))
      return .map (vs.foldl (fun es (k, v) => Entries.insert es k v) [])
    | "set", .mapping .. => do
      let es ← liftAt depth n.merged
      let vs ← collect (es.map (buildEntry fuel depth))
      return .set (vs.foldl (fun ks (k, _) => Entries.addKey ks k) [])
    | "omap", .sequence _ items | "pairs", .sequence _ items => do
      let vs ← collect (items.map (buildPair fuel depth))
      return .list vs
    | _, _ => failAt depth .malformed
/-- A key, which must not be a collection, and its value. -/
def buildEntry : Nat → Nat → Node × Node → Build (Value × Value)
  | 0, depth, _ => failAt depth .cyclic
  | fuel + 1, depth, (k, v) =>
    match build fuel depth k with
    | .error f => if f.depth = depth then .error f else failAt depth .malformed
    | .ok key =>
      if !key.isKey then failAt depth .malformed
      else (build fuel depth v).map (key, ·)
/-- A mapping of one entry as a pair. -/
def buildPair : Nat → Nat → Node → Build Value
  | 0, depth, _ => failAt depth .cyclic
  | fuel + 1, depth, n =>
    match n with
    | .mapping _ [(k, v)] => do
      let vs ← collect [build fuel depth k, build fuel depth v]
      match vs with
      | [a, b] => return .pair a b
      | _ => failAt depth .malformed
    | _ => failAt depth .malformed
end

def Node.toValue (n : Node) : Except Fault Value :=
  match build (3 * n.depth + 3) 0 n with
  | .ok v => .ok v
  | .error f => .error f.fault

/-- The values of a stream's documents; those before a fault are built first. -/
def loadAll (text : String) : Except Fault (List Value) := do
  let (ns, f) := Node.ofText text
  let vs ← ns.mapM Node.toValue
  match f with
  | some f => throw f
  | none => return vs

/-- The value of a stream with at most one document; null of an empty one. -/
def load (text : String) : Except Fault Value := do
  match ← Node.ofSingleText text with
  | some n => n.toValue
  | none => return .null

/-- What reads the format: the values of a text, and the one value of a text. That a text breaks the
format is the one fault that is foreseen wherever files are read. -/
structure Reader where
  all : String → Except Fault (List Value)
  one : String → Except Fault Value

def reader : Reader := ⟨loadAll, load⟩

instance : Inhabited Reader := ⟨reader⟩

end OutOfBand.Yaml
