import OutOfBand.Text.Digit

/-!
A position in a YAML text with the line and column it lies on, and the reading of characters from
it. Past the end of the text a cursor shows the null character, which no text holds.
-/

namespace OutOfBand.Yaml

/-- Why a text gives no values. -/
inductive Fault where
  /-- The text breaks the format. -/
  | malformed
  /-- An escape names a number beyond the last character. -/
  | noSuchCharacter (code : Nat)
  /-- A date, a time of day or an offset that no calendar has. -/
  | noSuchDate
  /-- A number that is none, or a decimal one of too many digits. -/
  | notANumber
  /-- A scalar marked as an integer that holds no character. -/
  | emptyNumber
  /-- A scalar marked as a truth value that is none. -/
  | notABoolean
  /-- A scalar marked as a timestamp that is none. -/
  | notATimestamp
  /-- Collections within each other that cannot be followed to an end. -/
  | cyclic
  deriving DecidableEq, Repr

/-- Characters that a text may hold. -/
def isAllowed (c : Char) : Bool :=
  let n := c.toNat
  n = 9 || n = 10 || n = 13 || (0x20 ≤ n && n ≤ 0x7E) || n = 0x85 || (0xA0 ≤ n && n ≤ 0xD7FF) ||
    (0xE000 ≤ n && n ≤ 0xFFFD) || 0x10000 ≤ n

def byteOrderMark : Char := Char.ofNat 0xFEFF

def isBreak (c : Char) : Bool :=
  c = '\n' || c = '\r' || c = '\x85' || c = '\u2028' || c = '\u2029'

def isEnd (c : Char) : Bool := c = Char.ofNat 0

/-- The end of the text or of a line. -/
def isLineEnd (c : Char) : Bool := isEnd c || isBreak c

/-- What ends a word in directives and tags: a space or the end of a line. -/
def isSpaceEnd (c : Char) : Bool := c = ' ' || isLineEnd c

/-- What separates tokens: a space, a tab or the end of a line. -/
def isGap (c : Char) : Bool := c = '\t' || isSpaceEnd c

/-- Characters of anchors, aliases and the names of directives. -/
def isWordChar (c : Char) : Bool := c.isAlphanum || c = '-' || c = '_'

structure Cursor where
  rest : List Char
  index : Nat
  line : Nat
  column : Nat
  deriving Repr

namespace Cursor

def start (s : List Char) : Cursor := ⟨s, 0, 0, 0⟩

def peek (c : Cursor) (k : Nat) : Char := c.rest.getD k (Char.ofNat 0)

/-- One character on; a carriage return before a line feed does not end the line yet. -/
def next (c : Cursor) : Cursor :=
  match c.rest with
  | [] => c
  | ch :: r =>
    if isBreak ch && !(ch = '\r' && r.head? = some '\n') then ⟨r, c.index + 1, c.line + 1, 0⟩
    else ⟨r, c.index + 1, c.line, if ch = byteOrderMark then c.column else c.column + 1⟩

def skip : Nat → Cursor → Cursor
  | 0, c => c
  | n + 1, c => skip n c.next

/-- The longest run of characters of a class, and the cursor after it. -/
def span (p : Char → Bool) (c : Cursor) : List Char × Cursor :=
  let run := c.rest.takeWhile p
  (run, c.skip run.length)

def skipWhile (p : Char → Bool) (c : Cursor) : Cursor := (c.span p).2

/-- The rest of a line without its break. -/
def toLineEnd (c : Cursor) : List Char × Cursor := c.span fun ch => !isBreak ch

/-- A line break, if one stands here: all but the two Unicode separators read as a line feed. -/
def lineBreak (c : Cursor) : List Char × Cursor :=
  match c.rest with
  | '\r' :: '\n' :: _ => (['\n'], c.skip 2)
  | ch :: _ =>
    if ch = '\r' ∨ ch = '\n' ∨ ch = '\x85' then (['\n'], c.next)
    else if ch = '\u2028' ∨ ch = '\u2029' then ([ch], c.next)
    else ([], c)
  | [] => ([], c)

/-- Whether three dashes or three points stand alone here. -/
def atDocumentMark (c : Cursor) : Bool :=
  let three := c.rest.take 3
  (three = ['-', '-', '-'] || three = ['.', '.', '.']) && isGap (c.peek 3)

/-- Spaces, a comment and the break that must end a line after a directive or a block header. -/
def restOfHeader (c : Cursor) : Except Fault Cursor :=
  let c := c.skipWhile (· = ' ')
  let c := if c.peek 0 = '#' then c.toLineEnd.2 else c
  if isLineEnd (c.peek 0) then .ok c.lineBreak.2 else .error .malformed

end Cursor

end OutOfBand.Yaml
