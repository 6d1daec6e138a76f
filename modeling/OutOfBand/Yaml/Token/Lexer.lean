import OutOfBand.Yaml.Token

namespace OutOfBand.Yaml

/-- A place where a key may have begun: its number in the order of tokens and where it stands. -/
structure KeyCandidate where
  token : Nat
  required : Bool
  index : Nat
  line : Nat
  column : Nat
  deriving Repr

structure Lexer where
  cursor : Cursor
  tokens : Array Token
  /-- How many flow collections are open. -/
  flow : Nat
  /-- Column of the innermost block collection, and those of the outer ones. -/
  indent : Int
  indents : List Int
  /-- Whether a key may begin here. -/
  keyAllowed : Bool
  /-- The candidates by the flow collection they stand in. -/
  candidates : List (Nat × KeyCandidate)

namespace Lexer

def start (s : List Char) : Lexer :=
  { cursor := .start s, tokens := #[], flow := 0, indent := -1, indents := [], keyAllowed := true
    candidates := [] }

def push (l : Lexer) (t : Token) : Lexer := { l with tokens := l.tokens.push t }

/-- Closes the block collections that are indented deeper than a column. -/
def unwind (l : Lexer) (column : Int) : Lexer :=
  if l.flow ≠ 0 then l
  else
    let closed := (l.indent :: l.indents).takeWhile (column < ·)
    let left := (l.indent :: l.indents).dropWhile (column < ·)
    { l with
      tokens := l.tokens ++ Array.replicate closed.length .blockEnd
      indent := left.headD (-1)
      indents := left.drop 1 }

def candidate? (l : Lexer) : Option KeyCandidate :=
  (l.candidates.find? (·.1 = l.flow)).map (·.2)

/-- Gives up the candidate of the present collection; one that had to be a key is a fault. -/
def dropCandidate (l : Lexer) : Scan Lexer :=
  match l.candidate? with
  | some k =>
    if k.required then .error .malformed
    else .ok { l with candidates := l.candidates.filter (·.1 ≠ l.flow) }
  | none => .ok l

/-- Candidates end with their line and after 1024 characters. -/
def dropStale (l : Lexer) : Scan Lexer :=
  let stale (k : KeyCandidate) : Bool :=
    k.line ≠ l.cursor.line || 1024 < l.cursor.index - k.index
  if l.candidates.any fun (_, k) => stale k && k.required then .error .malformed
  else .ok { l with candidates := l.candidates.filter fun (_, k) => !stale k }

/-- Marks the next token as one that a key may begin with. -/
def saveCandidate (l : Lexer) : Scan Lexer :=
  if l.keyAllowed then do
    let l ← l.dropCandidate
    let k : KeyCandidate :=
      { token := l.tokens.size
        required := l.flow = 0 && l.indent = l.cursor.column
        index := l.cursor.index, line := l.cursor.line, column := l.cursor.column }
    return { l with candidates := (l.flow, k) :: l.candidates }
  else return l

/-- Opens a block collection at a column deeper than the present one, with its mark at a place in
the order of tokens. -/
def openBlock (l : Lexer) (column : Nat) (mark : Token) (place : Nat) : Lexer :=
  if l.indent < column then
    { l with
      indents := l.indent :: l.indents
      indent := column
      tokens := l.tokens.insertIdxIfInBounds place mark }
  else l

/-- Blanks, comments and line breaks before a token; a new line may begin with a key. -/
def skipBlank : Nat → Lexer → Lexer
  | 0, l => l
  | fuel + 1, l =>
    let c := l.cursor.skipWhile (· = ' ')
    let c := if c.peek 0 = '#' then c.toLineEnd.2 else c
    if isBreak (c.peek 0) then
      skipBlank fuel
        { l with cursor := c.lineBreak.2, keyAllowed := l.keyAllowed || l.flow = 0 }
    else { l with cursor := c }

def addMark (l : Lexer) (t : Token) (width : Nat) : Lexer :=
  { l with cursor := l.cursor.skip width, tokens := l.tokens.push t }

def addDocumentMark (l : Lexer) (t : Token) : Scan Lexer := do
  let l ← (l.unwind (-1)).dropCandidate
  return { l with keyAllowed := false }.addMark t 3

def addFlowStart (l : Lexer) (t : Token) : Scan Lexer := do
  let l ← l.saveCandidate
  return { l with flow := l.flow + 1, keyAllowed := true }.addMark t 1

def addFlowEnd (l : Lexer) (t : Token) : Scan Lexer := do
  let l ← l.dropCandidate
  return { l with flow := l.flow - 1, keyAllowed := false }.addMark t 1

def addFlowEntry (l : Lexer) : Scan Lexer := do
  let l ← l.dropCandidate
  return { l with keyAllowed := true }.addMark .flowEntry 1

def addBlockEntry (l : Lexer) : Scan Lexer := do
  let l ←
    if l.flow ≠ 0 then pure l
    else if l.keyAllowed then pure (l.openBlock l.cursor.column .blockSequence l.tokens.size)
    else throw .malformed
  let l ← l.dropCandidate
  return { l with keyAllowed := true }.addMark .blockEntry 1

def addKey (l : Lexer) : Scan Lexer := do
  let l ←
    if l.flow ≠ 0 then pure l
    else if l.keyAllowed then pure (l.openBlock l.cursor.column .blockMapping l.tokens.size)
    else throw .malformed
  let l ← l.dropCandidate
  return { l with keyAllowed := l.flow = 0 }.addMark .key 1

/-- A colon turns the candidate of its collection into a key; without one it follows an empty
key. -/
def addValue (l : Lexer) : Scan Lexer :=
  match l.candidate? with
  | some k =>
    let l :=
      { l with
        candidates := l.candidates.filter (·.1 ≠ l.flow)
        tokens := l.tokens.insertIdxIfInBounds k.token .key }
    let l := if l.flow = 0 then l.openBlock k.column .blockMapping k.token else l
    .ok ({ l with keyAllowed := false }.addMark .value 1)
  | none => do
    let l ←
      if l.flow ≠ 0 then pure l
      else if l.keyAllowed then pure (l.openBlock l.cursor.column .blockMapping l.tokens.size)
      else throw .malformed
    let l ← l.dropCandidate
    return { l with keyAllowed := l.flow = 0 }.addMark .value 1

/-- A token that a key may begin with. -/
def addWord (l : Lexer) (read : Cursor → Scan (Token × Cursor)) : Scan Lexer := do
  let l ← l.saveCandidate
  let (t, c) ← read l.cursor
  return { l with keyAllowed := false, cursor := c }.push t

def addBlockScalar (l : Lexer) (folded : Bool) : Scan Lexer := do
  let l ← l.dropCandidate
  let (text, c) ← blockScalar folded l.indent l.cursor.next
  return { l with keyAllowed := true, cursor := c }.push (.scalar (String.ofList text) false)

def addPlain (l : Lexer) : Scan Lexer := do
  let l ← l.saveCandidate
  let (text, broke, c) :=
    plainScalar (l.flow ≠ 0) (l.indent + 1) (l.cursor.rest.length + 1) [] false l.cursor
  return { l with keyAllowed := broke, cursor := c }.push (.scalar (String.ofList text) true)

def addDirective (l : Lexer) : Scan Lexer := do
  let l ← (l.unwind (-1)).dropCandidate
  let (t, c) ← Token.readDirective l.cursor
  return { l with keyAllowed := false, cursor := c }.push t

def addEnd (l : Lexer) : Scan Lexer := do
  let l ← (l.unwind (-1)).dropCandidate
  return { l with keyAllowed := false, candidates := [] }.push .streamEnd

def readAnchor (mark : String → Token) (c : Cursor) : Scan (Token × Cursor) := do
  let (name, c) ← Token.readName c.next
  return (mark name, c)

def readQuoted (double : Bool) (c : Cursor) : Scan (Token × Cursor) := do
  let (text, c) ← quotedScalar double (c.rest.length + 1) c.next
  return (.scalar (String.ofList text) false, c)

def startsPlain (l : Lexer) : Bool :=
  let ch := l.cursor.peek 0
  let indicator := "-?:,[]\x7b\x7d#&*!|>'\"%@".toList.contains ch || ch.toNat = 0x60
  !(isGap ch || indicator) ||
    (!isGap (l.cursor.peek 1) && (ch = '-' || (l.flow = 0 && (ch = '?' || ch = ':'))))

/-- The next token, or several where block collections close. -/
def step (l : Lexer) : Scan Lexer := do
  let l := l.skipBlank (l.cursor.rest.length + 1)
  let l ← l.dropStale
  let l := l.unwind l.cursor.column
  let c := l.cursor
  let ch := c.peek 0
  let inFlow := l.flow ≠ 0
  let alone := isGap (c.peek 1)
  if c.rest.isEmpty then l.addEnd
  else if ch = '%' && c.column = 0 then l.addDirective
  else if c.column = 0 && c.atDocumentMark then
    l.addDocumentMark (if ch = '-' then .documentStart else .documentEnd)
  else if ch = '[' then l.addFlowStart .flowSequence
  else if ch = '\x7b' then l.addFlowStart .flowMapping
  else if ch = ']' then l.addFlowEnd .flowSequenceEnd
  else if ch = '\x7d' then l.addFlowEnd .flowMappingEnd
  else if ch = ',' then l.addFlowEntry
  else if ch = '-' && alone then l.addBlockEntry
  else if ch = '?' && (inFlow || alone) then l.addKey
  else if ch = ':' && (inFlow || alone) then l.addValue
  else if ch = '*' then l.addWord (readAnchor .alias)
  else if ch = '&' then l.addWord (readAnchor .anchor)
  else if ch = '!' then l.addWord Token.readTag
  else if ch = '|' && !inFlow then l.addBlockScalar false
  else if ch = '>' && !inFlow then l.addBlockScalar true
  else if ch = '\'' then l.addWord (readQuoted false)
  else if ch = '"' then l.addWord (readQuoted true)
  else if l.startsPlain then l.addPlain
  else throw .malformed

/-- Steps until the end of the text or a fault. -/
def run : Nat → Lexer → Array Token × Option Fault
  | 0, l => (l.tokens, some .malformed)
  | fuel + 1, l =>
    match l.step with
    | .error f => (l.tokens, some f)
    | .ok l => if l.tokens.back? = some .streamEnd then (l.tokens, none) else run fuel l

end Lexer

/-- The tokens of a text up to its end or to a fault, and the fault. A byte-order mark at the start
is not part of the text. -/
def Token.ofText (s : List Char) : List Token × Fault :=
  if !s.all isAllowed then ([], .malformed)
  else
    let s' := if s.head? = some byteOrderMark then s.drop 1 else s
    let l := Lexer.start s'
    let l := if s.length = s'.length then l else { l with cursor := ⟨s', 1, 0, 0⟩ }
    let (ts, f) := l.run (2 * s.length + 2)
    (ts.toList, f.getD .malformed)

end OutOfBand.Yaml
