import OutOfBand.Yaml.Token.Lexer

namespace OutOfBand.Yaml

def coreTag (name : String) : String := "tag:yaml.org,2002:" ++ name

/-- Node tags: none where the content decides, for a scalar by its text. -/
inductive Node where
  | scalar (tag : Option String) (text : String) (plain : Bool)
  | sequence (tag : Option String) (items : List Node)
  | mapping (tag : Option String) (entries : List (Node × Node))
  /-- An alias inside the collection that it names, a mapping or a sequence. -/
  | cycle (anchor : String) (mapping : Bool)
  deriving Inhabited, Repr

namespace Node

/-- Whether a key merges mappings into the one that it is in. -/
def isMergeKey : Node → Bool
  | .scalar tag text plain => tag = some (coreTag "merge") || (tag.isNone && plain && text = "<<")
  | .sequence tag _ | .mapping tag _ => tag = some (coreTag "merge")
  | .cycle .. => false

def isAliasOf (anchor : String) : Node → Bool
  | .cycle a _ => a = anchor
  | _ => false

def isMapping : Node → Bool
  | .mapping .. | .cycle _ true => true
  | _ => false

section Merging

variable (anchor : String)

mutual
/-- Whether a node merges what an anchor names: itself, where it is the value of a merge key, or
somewhere in it. -/
def takesIn : (merged : Bool) → Node → Bool
  | merged, .cycle a _ => merged && a = anchor
  | merged, .sequence _ items => takesInItems merged items
  | _, .mapping _ es => takesInEntries es
  | _, .scalar .. => false
def takesInItems : (merged : Bool) → List Node → Bool
  | _, [] => false
  | merged, n :: r => takesIn merged n || takesInItems merged r
def takesInEntries : List (Node × Node) → Bool
  | [] => false
  | (k, v) :: r => takesIn false k || takesIn k.isMergeKey v || takesInEntries r
end

mutual
/-- What a collection offers to the mappings in it that merge the collection itself: all of its
entries, where a value that holds such a mapping is one that goes around it. A key that does is no
key at all. -/
def offered : Node → Node
  | .sequence tag items => .sequence tag (offeredItems items)
  | .mapping tag es => .mapping tag (offeredEntries es)
  | n => n
def offeredItems : List Node → List Node
  | [] => []
  | n :: r => if n.isAliasOf anchor then offeredItems r else offered n :: offeredItems r
def offeredEntries : List (Node × Node) → List (Node × Node)
  | [] => []
  | (k, v) :: r =>
    let after := offeredEntries r
    if takesIn anchor false k || (k.isMergeKey && v.isAliasOf anchor) then after
    else if k.isMergeKey then (k, offered v) :: after
    else if takesIn anchor false v then (k, .cycle anchor v.isMapping) :: after
    else (k, v) :: after
end

variable (own : Node)

mutual
/-- A node in which what an anchor offers stands wherever it is merged. -/
def fillIn : (merged : Bool) → Node → Node
  | merged, .cycle a isMap => if merged && a = anchor then own else .cycle a isMap
  | merged, .sequence tag items => .sequence tag (fillInItems merged items)
  | _, .mapping tag es => .mapping tag (fillInEntries es)
  | _, .scalar tag text plain => .scalar tag text plain
def fillInItems : (merged : Bool) → List Node → List Node
  | _, [] => []
  | merged, n :: r => fillIn merged n :: fillInItems merged r
def fillInEntries : List (Node × Node) → List (Node × Node)
  | [] => []
  | (k, v) :: r => (fillIn false k, fillIn k.isMergeKey v) :: fillInEntries r
end

end Merging

/-- What is left of the tokens, and the nodes that aliases may name: as long as a collection is open,
an alias of it. -/
structure Source where
  tokens : List Token
  fault : Fault
  handles : List (String × String)
  anchors : List (String × Node)

abbrev Read := StateT Source (Except Fault)

def defaultHandles : List (String × String) := [("!", "!"), ("!!", coreTag "")]

/-- The next token; past the last one the fault that ended them. -/
def peek : Read Token := do
  match (← get).tokens with
  | t :: _ => return t
  | [] => throw (← get).fault

def drop : Read Unit := modify fun s => { s with tokens := s.tokens.drop 1 }

def expect (t : Token) : Read Unit := do
  if (← peek) = t then drop else throw .malformed

def empty : Node := .scalar none "" true

/-- The tag that a handle and a suffix write. -/
def resolveTag (handle : Option String) (suffix : String) : Read String := do
  match handle with
  | none => return suffix
  | some h =>
    match (← get).handles.find? (·.1 = h) with
    | some (_, stem) => return stem ++ suffix
    | none => throw .malformed

structure Properties where
  anchor : Option String
  tag : Option String

def readAnchor : Read (Option String) := do
  match ← peek with
  | .anchor name => drop; return some name
  | _ => return none

def readTag : Read (Option (Option String × String)) := do
  match ← peek with
  | .tag handle suffix => drop; return some (handle, suffix)
  | _ => return none

/-- An anchor and a tag in either order. -/
def readProperties : Read Properties := do
  let anchor ← readAnchor
  let tag ← readTag
  let anchor ← if anchor.isNone && tag.isSome then readAnchor else pure anchor
  match tag with
  | none => return ⟨anchor, none⟩
  | some (handle, suffix) => return ⟨anchor, some (← resolveTag handle suffix)⟩

/-- An anchor opens once in a document. -/
def openAnchor (anchor : Option String) (mapping : Bool) : Read Unit := do
  match anchor with
  | none => return
  | some a =>
    if (← get).anchors.any (·.1 = a) then throw .malformed
    else modify fun s => { s with anchors := (a, .cycle a mapping) :: s.anchors }

def closeAnchor (anchor : Option String) (n : Node) : Read Node := do
  match anchor with
  | none => return n
  | some a =>
    let n := fillIn a (offered a n) false n
    modify fun s => { s with anchors := (a, n) :: s.anchors.filter (·.1 ≠ a) }
    return n

def anchored (name : String) : Read Node := do
  match (← get).anchors.find? (·.1 = name) with
  | some (_, n) => return n
  | none => throw .malformed

/-- A tag of one mark leaves the type of a collection open. -/
def ownTag (tag : Option String) : Option String := if tag = some "!" then none else tag

/-- The node that a scalar token stands for: a tag of one mark makes it plain, another one or
quotes keep it from being read by its text. -/
def ofScalar (tag : Option String) (text : String) (plain : Bool) : Node :=
  .scalar (ownTag tag) text (tag = some "!" || (plain && tag.isNone))

mutual
/-- A node; an indentless sequence may stand where a block mapping's key or value does. -/
def readNode : Nat → (block indentless : Bool) → Read Node
  | 0, _, _ => throw .malformed
  | fuel + 1, block, indentless => do
    match ← peek with
    | .alias name => drop; anchored name
    | _ =>
      let p ← readProperties
      let t ← peek
      match t with
      | .scalar text plain =>
        openAnchor p.anchor false
        drop
        closeAnchor p.anchor (ofScalar p.tag text plain)
      | .flowSequence =>
        openAnchor p.anchor false
        drop
        closeAnchor p.anchor (.sequence (ownTag p.tag) (← flowItems fuel true))
      | .flowMapping =>
        openAnchor p.anchor true
        drop
        closeAnchor p.anchor (.mapping (ownTag p.tag) (← flowEntries fuel true))
      | _ =>
        if t = .blockEntry && indentless then
          openAnchor p.anchor false
          closeAnchor p.anchor (.sequence (ownTag p.tag) (← indentlessItems fuel))
        else if t = .blockSequence && block then
          openAnchor p.anchor false
          drop
          closeAnchor p.anchor (.sequence (ownTag p.tag) (← blockItems fuel))
        else if t = .blockMapping && block then
          openAnchor p.anchor true
          drop
          closeAnchor p.anchor (.mapping (ownTag p.tag) (← blockEntries fuel))
        else if p.anchor.isSome || p.tag.isSome then
          openAnchor p.anchor false
          closeAnchor p.anchor (ofScalar p.tag "" p.tag.isNone)
        else throw .malformed
/-- A node, or an empty one before a token of a list. -/
def readUnless : Nat → List Token → (block indentless : Bool) → Read Node
  | 0, _, _, _ => throw .malformed
  | fuel + 1, stops, block, indentless => do
    if stops.contains (← peek) then return empty else readNode fuel block indentless
def blockItems : Nat → Read (List Node)
  | 0 => throw .malformed
  | fuel + 1 => do
    match ← peek with
    | .blockEntry =>
      drop
      let n ← readUnless fuel [.blockEntry, .blockEnd] true false
      return n :: (← blockItems fuel)
    | _ =>
      expect .blockEnd
      return []
def indentlessItems : Nat → Read (List Node)
  | 0 => throw .malformed
  | fuel + 1 => do
    match ← peek with
    | .blockEntry =>
      drop
      let n ← readUnless fuel [.blockEntry, .key, .value, .blockEnd] true false
      return n :: (← indentlessItems fuel)
    | _ => return []
def blockEntries : Nat → Read (List (Node × Node))
  | 0 => throw .malformed
  | fuel + 1 => do
    if (← peek) = .key then
      drop
      let k ← readUnless fuel [.key, .value, .blockEnd] true true
      let v ← if (← peek) = .value then do
          drop
          readUnless fuel [.key, .value, .blockEnd] true true
        else pure empty
      return (k, v) :: (← blockEntries fuel)
    else
      expect .blockEnd
      return []
/-- Items up to the closing bracket; an item with a key is a mapping of one entry. -/
def flowItems : Nat → (first : Bool) → Read (List Node)
  | 0, _ => throw .malformed
  | fuel + 1, first => do
    if (← peek) = .flowSequenceEnd then
      drop
      return []
    else
      if !first then expect .flowEntry
      match ← peek with
      | .flowSequenceEnd =>
        drop
        return []
      | .key =>
        drop
        let k ← readUnless fuel [.value, .flowEntry, .flowSequenceEnd] false false
        let v ← if (← peek) = .value then do
            drop
            readUnless fuel [.flowEntry, .flowSequenceEnd] false false
          else pure empty
        return .mapping none [(k, v)] :: (← flowItems fuel false)
      | _ =>
        let n ← readNode fuel false false
        return n :: (← flowItems fuel false)
/-- Entries up to the closing brace; a node without a key mark is a key without a value. -/
def flowEntries : Nat → (first : Bool) → Read (List (Node × Node))
  | 0, _ => throw .malformed
  | fuel + 1, first => do
    if (← peek) = .flowMappingEnd then
      drop
      return []
    else
      if !first then expect .flowEntry
      match ← peek with
      | .flowMappingEnd =>
        drop
        return []
      | .key =>
        drop
        let k ← readUnless fuel [.value, .flowEntry, .flowMappingEnd] false false
        let v ← if (← peek) = .value then do
            drop
            readUnless fuel [.flowEntry, .flowMappingEnd] false false
          else pure empty
        return (k, v) :: (← flowEntries fuel false)
      | _ =>
        let k ← readNode fuel false false
        return (k, empty) :: (← flowEntries fuel false)
end

/-- Directives before a document: one version, of major number one, and one line per handle. -/
def readDirectives : Nat → Bool → List (String × String) → Read (List (String × String))
  | 0, _, _ => throw .malformed
  | fuel + 1, versioned, handles => do
    match ← peek with
    | .directive (.version major) =>
      if versioned || digitsValue? 10 major ≠ some 1 then throw .malformed
      drop
      readDirectives fuel true handles
    | .directive (.tag handle stem) =>
      if handles.any (·.1 = handle) then throw .malformed
      drop
      readDirectives fuel versioned ((handle, stem) :: handles)
    | .directive .other =>
      drop
      readDirectives fuel versioned handles
    | _ => return handles

def dropDocumentEnds : Nat → Read Unit
  | 0 => return
  | fuel + 1 => do
    if (← peek) = .documentEnd then
      drop
      dropDocumentEnds fuel

/-- The next document's root, if the stream goes on. Only the first may lack its opening mark. -/
def readDocument (first : Bool) : Read (Option Node) := do
  let fuel := 4 * (← get).tokens.length + 4
  let t ← peek
  let bare := first && match t with
    | .directive _ | .documentStart | .streamEnd => false
    | _ => true
  modify fun s => { s with handles := defaultHandles, anchors := [] }
  if !bare then dropDocumentEnds fuel
  if (← peek) = .streamEnd then return none
  else
    let n ←
      if bare then readNode fuel true false
      else do
        let handles ← readDirectives fuel false []
        modify fun s => { s with handles := handles ++ defaultHandles }
        expect .documentStart
        match ← peek with
        | .directive _ | .documentStart | .documentEnd | .streamEnd => pure empty
        | _ => readNode fuel true false
    if (← peek) = .documentEnd then drop
    return some n

/-- The documents up to the end of the stream or to a fault, and the fault. -/
def readAll : Nat → Bool → Source → List Node × Option Fault
  | 0, _, _ => ([], some .malformed)
  | fuel + 1, first, s =>
    match (readDocument first).run s with
    | .error f => ([], some f)
    | .ok (none, _) => ([], none)
    | .ok (some n, s) =>
      let (ns, f) := readAll fuel false s
      (n :: ns, f)

def sourceOf (text : String) : Source :=
  let (ts, f) := Token.ofText text.toList
  { tokens := ts, fault := f, handles := defaultHandles, anchors := [] }

def ofText (text : String) : List Node × Option Fault :=
  let s := sourceOf text
  readAll (s.tokens.length + 2) true s

/-- The only document of a text; none of an empty stream. -/
def ofSingleText (text : String) : Except Fault (Option Node) := do
  let (n, s) ← (readDocument true).run (sourceOf text)
  match n with
  | none => return none
  | some n =>
    let ((), s) ← (dropDocumentEnds s.tokens.length).run s
    let (t, _) ← peek.run s
    if t = .streamEnd then return some n else throw .malformed

end Node

end OutOfBand.Yaml
