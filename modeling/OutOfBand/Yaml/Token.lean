import OutOfBand.Yaml.Scalar

namespace OutOfBand.Yaml

inductive Directive where
  | version (major : List Char)
  | tag (handle : String) (stem : String)
  | other
  deriving DecidableEq, Repr

inductive Token where
  | directive (d : Directive)
  | documentStart
  | documentEnd
  | blockSequence
  | blockMapping
  | blockEnd
  | flowSequence
  | flowSequenceEnd
  | flowMapping
  | flowMappingEnd
  | blockEntry
  | flowEntry
  | key
  | value
  | alias (name : String)
  | anchor (name : String)
  | tag (handle : Option String) (suffix : String)
  | scalar (text : String) (plain : Bool)
  | streamEnd
  deriving DecidableEq, Repr

namespace Token

/-- A name of an anchor or an alias, after its mark. -/
def readName (c : Cursor) : Scan (String × Cursor) :=
  let (name, c) := c.span isWordChar
  let ch := c.peek 0
  if name.isEmpty then .error .malformed
  else if isGap ch || "?:,]\x7d%@".toList.contains ch || ch.toNat = 0x60 then
    .ok (String.ofList name, c)
  else .error .malformed

def isUriChar (c : Char) : Bool := c.isAlphanum || "-;/?:@&=+$,_.!~*'()[]".toList.contains c

/-- The bytes of a run of percent escapes. -/
def uriEscapes : Nat → Cursor → Scan (List UInt8 × Cursor)
  | 0, _ => .error .malformed
  | fuel + 1, c =>
    if c.peek 0 = '%' then
      match hexValue? (c.peek 1), hexValue? (c.peek 2) with
      | some a, some b => do
        let (bs, c) ← uriEscapes fuel (c.skip 3)
        return (UInt8.ofNat (16 * a + b) :: bs, c)
      | _, _ => .error .malformed
    else .ok ([], c)

/-- The pieces of a tag's text. -/
def uriPieces : Nat → Cursor → Scan (List Char × Cursor)
  | 0, _ => .error .malformed
  | fuel + 1, c =>
    if c.peek 0 = '%' then do
      let (bs, c) ← uriEscapes (c.rest.length + 1) c
      match String.fromUTF8? bs.toByteArray with
      | none => throw .malformed
      | some s =>
        let (t, c) ← uriPieces fuel c
        return (s.toList ++ t, c)
    else
      let (run, c) := c.span isUriChar
      if run.isEmpty then .ok ([], c)
      else do
        let (t, c) ← uriPieces fuel c
        return (run ++ t, c)

def readUri (c : Cursor) : Scan (String × Cursor) := do
  let (t, c) ← uriPieces (c.rest.length + 1) c
  if t.isEmpty then throw .malformed else return (String.ofList t, c)

/-- A handle: a name, perhaps empty, between two marks. -/
def readHandle (c : Cursor) : Scan (String × Cursor) :=
  let (name, c') := c.next.span isWordChar
  if c.peek 0 = '!' && c'.peek 0 = '!' then .ok (String.ofList ('!' :: name ++ ['!']), c'.next)
  else .error .malformed

/-- In a directive a single mark with a space after it is a handle as well. -/
def readDirectiveHandle (c : Cursor) : Scan (String × Cursor) :=
  if c.peek 0 = '!' && c.peek 1 = ' ' then .ok ("!", c.next) else readHandle c

/-- Whether a second mark comes before the end of a tag. -/
def hasSecondMark (c : Cursor) : Bool :=
  (c.next.rest.takeWhile fun ch => !isSpaceEnd ch).contains '!'

def readTag (c : Cursor) : Scan (Token × Cursor) := do
  let (t, c) ←
    if c.peek 1 = '<' then do
      let (uri, c) ← readUri (c.skip 2)
      if c.peek 0 = '>' then pure (Token.tag none uri, c.next) else throw .malformed
    else if isGap (c.peek 1) then pure (Token.tag none "!", c.next)
    else do
      let (handle, c) ← if hasSecondMark c then readHandle c else pure ("!", c.next)
      let (uri, c) ← readUri c
      pure (Token.tag (some handle) uri, c)
  if isSpaceEnd (c.peek 0) then return (t, c) else throw .malformed

/-- A part of a version, up to the last of its digits. -/
def readVersionNumber (c : Cursor) : Scan (List Char × Cursor) :=
  let (digits, c) := c.span Char.isDigit
  if digits.isEmpty then .error .malformed
  else if mostDigits < digits.length then .error .notANumber
  else .ok (digits, c)

def readVersion (c : Cursor) : Scan (Directive × Cursor) := do
  let (major, c) ← readVersionNumber (c.skipWhile (· = ' '))
  if c.peek 0 ≠ '.' then throw .malformed
  let (_, c) ← readVersionNumber c.next
  if isSpaceEnd (c.peek 0) then return (.version major, c) else throw .malformed

def readTagDirective (c : Cursor) : Scan (Directive × Cursor) := do
  let (handle, c) ← readDirectiveHandle (c.skipWhile (· = ' '))
  if c.peek 0 ≠ ' ' then throw .malformed
  let (stem, c) ← readUri (c.skipWhile (· = ' '))
  if isSpaceEnd (c.peek 0) then return (.tag handle stem, c) else throw .malformed

def readDirective (c : Cursor) : Scan (Token × Cursor) := do
  let (name, c) := c.next.span isWordChar
  if name.isEmpty || !isSpaceEnd (c.peek 0) then throw .malformed
  let (d, c) ← match String.ofList name with
    | "YAML" => readVersion c
    | "TAG" => readTagDirective c
    | _ => pure (Directive.other, c.toLineEnd.2)
  let c ← c.restOfHeader
  return (.directive d, c)

end Token

end OutOfBand.Yaml
