import OutOfBand.Yaml.Cursor
import OutOfBand.Decimal.Reading
import OutOfBand.Text.Surrogates

namespace OutOfBand.Yaml

abbrev Scan := Except Fault

def simpleEscape? : Char → Option Char
  | '0' => some (Char.ofNat 0)
  | 'a' => some '\x07'
  | 'b' => some '\x08'
  | 't' => some '\t'
  | '\t' => some '\t'
  | 'n' => some '\n'
  | 'v' => some '\x0b'
  | 'f' => some '\x0c'
  | 'r' => some '\r'
  | 'e' => some '\x1b'
  | ' ' => some ' '
  | '"' => some '"'
  | '\\' => some '\\'
  | '/' => some '/'
  | 'N' => some '\x85'
  | '_' => some '\xa0'
  | 'L' => some '\u2028'
  | 'P' => some '\u2029'
  | _ => none

/-- How many hexadecimal digits follow an escape that names a number. -/
def escapeWidth? : Char → Option Nat
  | 'x' => some 2
  | 'u' => some 4
  | 'U' => some 8
  | _ => none

/-- The line breaks and leading blanks between two lines of a quoted scalar: the breaks. -/
def foldedBreaks : Nat → Cursor → Scan (List Char × Cursor)
  | 0, _ => .error .malformed
  | fuel + 1, c =>
    if c.atDocumentMark then .error .malformed
    else
      let c := c.skipWhile fun ch => ch = ' ' || ch = '\t'
      if isBreak (c.peek 0) then do
        let (b, c) := c.lineBreak
        let (bs, c) ← foldedBreaks fuel c
        return (b ++ bs, c)
      else return ([], c)

/-- The number that a fixed count of hexadecimal digits writes. -/
def hexNumber? (width : Nat) (s : List Char) : Option Nat :=
  if s.length < width then none else digitsValue? 16 (s.take width)

/-- The low surrogate that a four-digit escape here names. -/
def lowEscape? (c : Cursor) : Option Nat :=
  if c.peek 0 = '\\' ∧ c.peek 1 = 'u' then
    (hexNumber? 4 (c.rest.drop 2)).filter isLowSurrogate
  else none

/-- An escape after its backslash; two escapes that name a pair of surrogates are one character. -/
def readEscape (c : Cursor) : Scan (List Char × Cursor) :=
  match simpleEscape? (c.peek 0) with
  | some ch => .ok ([ch], c.next)
  | none =>
    match escapeWidth? (c.peek 0) with
    | some width =>
      match hexNumber? width c.next.rest with
      | some n =>
        let after := c.skip (width + 1)
        if 0x110000 ≤ n then .error (.noSuchCharacter n)
        else match isHighSurrogate n, lowEscape? after with
          | true, some low => .ok ([Char.ofNat (joinSurrogates n low)], after.skip 6)
          | _, _ => .ok ([unitChar n], after)
      | none => .error .malformed
    | none =>
      if isBreak (c.peek 0) then foldedBreaks (c.rest.length + 1) c.lineBreak.2
      else .error .malformed

/-- A folded line break: one alone stands for a space, the first of several for nothing. -/
def foldedText (first more : List Char) : List Char :=
  (if first ≠ ['\n'] then first else if more.isEmpty then [' '] else []) ++ more

/-- A quoted scalar from after its opening quote. -/
def quotedScalar (double : Bool) : Nat → Cursor → Scan (List Char × Cursor)
  | 0, _ => .error .malformed
  | fuel + 1, c =>
    let ch := c.peek 0
    let continueWith (chunk : List Char) (c : Cursor) : Scan (List Char × Cursor) := do
      let (t, c) ← quotedScalar double fuel c
      return (chunk ++ t, c)
    if c.rest.isEmpty then .error .malformed
    else if ch = '\'' && !double then
      if c.peek 1 = '\'' then continueWith ['\''] (c.skip 2) else .ok ([], c.next)
    else if ch = '"' && double then .ok ([], c.next)
    else if ch = '\\' && double then do
      let (chunk, c) ← readEscape c.next
      continueWith chunk c
    else if ch = ' ' || ch = '\t' || isBreak ch then
      let (blanks, c) := c.span fun ch => ch = ' ' || ch = '\t'
      if c.rest.isEmpty then .error .malformed
      else if isBreak (c.peek 0) then do
        let (first, c) := c.lineBreak
        let (more, c) ← foldedBreaks (c.rest.length + 1) c
        continueWith (foldedText first more) c
      else continueWith blanks c
    else
      continueWith [ch] c.next

/-- Where a plain scalar cannot go on at a cursor. -/
def endsPlain (inFlow : Bool) (c : Cursor) : Bool :=
  let ch := c.peek 0
  let flowMark (ch : Char) : Bool :=
    ch = ',' || ch = '[' || ch = ']' || ch = '\x7b' || ch = '\x7d'
  isGap ch || (ch = ':' && (isGap (c.peek 1) || (inFlow && flowMark (c.peek 1)))) ||
    (inFlow && (ch = '?' || flowMark ch))

/-- The characters of a plain scalar up to a gap or its end. -/
def plainRun (inFlow : Bool) : Nat → Cursor → List Char × Cursor
  | 0, c => ([], c)
  | fuel + 1, c =>
    if endsPlain inFlow c then ([], c)
    else
      let (t, c') := plainRun inFlow fuel c.next
      (c.peek 0 :: t, c')

/-- Breaks and leading spaces before the next line of a plain scalar; none at a document mark. -/
def plainBreaks : Nat → Cursor → Option (List Char) × Cursor
  | 0, c => (some [], c)
  | fuel + 1, c =>
    if c.peek 0 = ' ' then plainBreaks fuel c.next
    else if isBreak (c.peek 0) then
      let (b, c) := c.lineBreak
      if c.atDocumentMark then (none, c)
      else
        let (bs, c) := plainBreaks fuel c
        (bs.map (b ++ ·), c)
    else (some [], c)

/-- What lies between two runs of a plain scalar: the text that stands for it if the scalar goes on,
and whether it breaks the line. -/
structure PlainGap where
  text : Option (List Char)
  breaksLine : Bool
  cursor : Cursor

def plainGap (c : Cursor) : PlainGap :=
  let (blanks, c) := c.span (· = ' ')
  if isBreak (c.peek 0) then
    let (first, c) := c.lineBreak
    if c.atDocumentMark then ⟨none, true, c⟩
    else
      let (more, c) := plainBreaks (c.rest.length + 1) c
      ⟨more.map (foldedText first), true, c⟩
  else ⟨if blanks.isEmpty then none else some blanks, false, c⟩

/-- A plain scalar, and whether a line ended after its last run. The gap before a run counts only
if a run follows it. -/
def plainScalar (inFlow : Bool) (indent : Int) :
    Nat → List Char → Bool → Cursor → List Char × Bool × Cursor
  | 0, _, broke, c => ([], broke, c)
  | fuel + 1, gap, broke, c =>
    if c.peek 0 = '#' then ([], broke, c)
    else
      let (run, c) := plainRun inFlow (c.rest.length + 1) c
      if run.isEmpty then ([], broke, c)
      else
        let g := plainGap c
        match g.text with
        | none => (gap ++ run, g.breaksLine, g.cursor)
        | some t =>
          if t.isEmpty || g.cursor.peek 0 = '#' || (!inFlow && g.cursor.column < indent) then
            (gap ++ run, g.breaksLine, g.cursor)
          else
            let (rest, broke, c) := plainScalar inFlow indent fuel t g.breaksLine g.cursor
            (gap ++ run ++ rest, broke, c)

/-- What the header of a block scalar says of its last breaks: keep all, drop all, or keep one. -/
inductive Chomping where
  | keep
  | strip
  | clip
  deriving DecidableEq, Repr

def chomping? : Char → Option Chomping
  | '+' => some .keep
  | '-' => some .strip
  | _ => none

/-- An indentation digit; zero is none. -/
def indentDigit (c : Cursor) : Scan (Option Nat × Cursor) :=
  let ch := c.peek 0
  if ch.isDigit then
    if ch = '0' then .error .malformed else .ok (some (ch.toNat - 48), c.next)
  else .ok (none, c)

/-- The two indicators of a block header in either order. -/
def blockHeader (c : Cursor) : Scan (Chomping × Option Nat × Cursor) := do
  let (ch, digit, c) ← match chomping? (c.peek 0) with
    | some ch => do
      let (digit, c) ← indentDigit c.next
      pure (ch, digit, c)
    | none => do
      let (digit, c) ← indentDigit c
      match digit, chomping? (c.peek 0) with
      | some _, some ch => pure (ch, digit, c.next)
      | _, _ => pure (Chomping.clip, digit, c)
  if isSpaceEnd (c.peek 0) then
    let c ← c.restOfHeader
    return (ch, digit, c)
  else throw .malformed

/-- Blank lines before a block without an indentation digit, and the widest indentation seen. -/
def blockIndentation : Nat → Nat → Cursor → List Char × Nat × Cursor
  | 0, widest, c => ([], widest, c)
  | fuel + 1, widest, c =>
    if c.peek 0 = ' ' then
      let c := c.next
      blockIndentation fuel (max widest c.column) c
    else if isBreak (c.peek 0) then
      let (b, c) := c.lineBreak
      let (bs, widest, c) := blockIndentation fuel widest c
      (b ++ bs, widest, c)
    else ([], widest, c)

def skipIndent : Nat → Nat → Cursor → Cursor
  | 0, _, c => c
  | fuel + 1, indent, c =>
    if c.column < indent && c.peek 0 = ' ' then skipIndent fuel indent c.next else c

/-- Blank lines inside a block of known indentation. -/
def blockBreaks (indent : Nat) : Nat → Cursor → List Char × Cursor
  | 0, c => ([], c)
  | fuel + 1, c =>
    let c := skipIndent indent indent c
    if isBreak (c.peek 0) then
      let (b, c) := c.lineBreak
      let (bs, c) := blockBreaks indent fuel c
      (b ++ bs, c)
    else ([], c)

/-- The lines of a block from the first one on, after the breaks before it; with the break that
ended the last line and the breaks after that. -/
def blockLines (folded : Bool) (indent : Nat) :
    Nat → List Char → Cursor → List Char × List Char × List Char × Cursor
  | 0, breaks, c => ([], [], breaks, c)
  | fuel + 1, breaks, c =>
    if c.column = indent && !c.rest.isEmpty then
      let textual := c.peek 0 ≠ ' ' && c.peek 0 ≠ '\t'
      let (line, c) := c.toLineEnd
      let (ending, c) := c.lineBreak
      let (more, c) := blockBreaks indent (c.rest.length + 1) c
      if c.column = indent && !c.rest.isEmpty then
        let joint :=
          if folded && ending = ['\n'] && textual && c.peek 0 ≠ ' ' && c.peek 0 ≠ '\t' then
            if more.isEmpty then [' '] else []
          else ending
        let (t, last, after, c) := blockLines folded indent fuel more c
        (breaks ++ line ++ joint ++ t, last, after, c)
      else (breaks ++ line, ending, more, c)
    else ([], [], breaks, c)

/-- A literal or folded block from after its mark, inside a structure of an indentation. -/
def blockScalar (folded : Bool) (outer : Int) (c : Cursor) : Scan (List Char × Cursor) := do
  let (chomp, digit, c) ← blockHeader c
  let least := (max (outer + 1) 1).toNat
  let fuel := c.rest.length + 1
  let (breaks, indent, c) := match digit with
    | some d =>
      let indent := least + d - 1
      let (breaks, c) := blockBreaks indent fuel c
      (breaks, indent, c)
    | none =>
      let (breaks, widest, c) := blockIndentation fuel 0 c
      (breaks, max least widest, c)
  let (text, last, after, c) := blockLines folded indent fuel breaks c
  return match chomp with
    | .keep => (text ++ last ++ after, c)
    | .clip => (text ++ last, c)
    | .strip => (text, c)

end OutOfBand.Yaml
