import OutOfBand.Yaml.Resolve
import OutOfBand.Value
import OutOfBand.Text.Quoted

/-!
Scalars as YAML text, and block mappings of them. A text is written plainly where it is then read as
the same text, otherwise between single quotes, and between double quotes where single ones cannot
hold it. Long texts are folded at single spaces.
-/

namespace OutOfBand.Yaml

/-- Columns after which a text is folded. -/
def lineWidth : Nat := 80

/-- Blanks before the lines that continue a value. -/
def continuation : List Char := [' ', ' ']

def gapFollows (rest : List Char) : Bool := rest.head?.all isGap

/-- Whether a text begins like something that is no plain scalar. -/
def startsAsIndicator : List Char → Bool
  | [] => false
  | c :: rest =>
    "#,[]\x7b\x7d&*!|>'\"%@`".toList.contains c ||
      ((c = '?' || c = ':' || c = '-') && gapFollows rest) ||
      "---".toList.isPrefixOf (c :: rest) || "...".toList.isPrefixOf (c :: rest)

/-- Whether a colon before a gap or a comment mark after one stands behind the first character. -/
def holdsIndicator : List Char → Bool
  | a :: c :: rest =>
    (c = ':' && gapFollows rest) || (c = '#' && isGap a) || holdsIndicator (c :: rest)
  | _ => false

/-- Whether a blank stands beside a line break. -/
def hasRaggedBreak : List Char → Bool
  | a :: b :: rest =>
    (a = ' ' && isBreak b) || (isBreak a && b = ' ') || hasRaggedBreak (b :: rest)
  | _ => false

/-- A character that stands as it is between any quotes. -/
def isSimple (c : Char) : Bool := c = '\n' || (' ' ≤ c && c ≤ '~')

inductive ScalarStyle where
  | plain
  | single
  | double
  deriving DecidableEq, Repr

/-- Whether a text can be written without quotes. -/
def isPlainText (s : List Char) : Bool :=
  plainType (String.ofList s) = "str" && s.all (fun c => isSimple c && !isBreak c) &&
    s.head? ≠ some ' ' && s.getLast? ≠ some ' ' && !startsAsIndicator s && !holdsIndicator s

def isSingleText (s : List Char) : Bool := s.all isSimple && !hasRaggedBreak s

def styleOf (s : List Char) : ScalarStyle :=
  if isPlainText s then .plain else if isSingleText s then .single else .double

/-- Blanks, line breaks and all else: a run of a text is of one of these. -/
def runKind (c : Char) : Nat := if c = ' ' then 0 else if c = '\n' then 1 else 2

def runsOf (s : List Char) : List (List Char) := s.splitBy fun a b => runKind a = runKind b

/-- Runs from a column on: a line break is written twice, as a single one would be read as a blank,
and a blank between two runs is where a line that is too long may end. -/
def layRuns (first : Bool) (column : Nat) : List (List Char) → List Char
  | [] => []
  | run :: rest =>
    if run = [' '] && !first && !rest.isEmpty && lineWidth < column then
      '\n' :: continuation ++ layRuns false continuation.length rest
    else if run.head? = some '\n' then
      '\n' :: run ++ continuation ++ layRuns false continuation.length rest
    else run ++ layRuns false (column + run.length) rest

/-- A quote between single quotes is written twice. -/
def doubleQuotes (s : List Char) : List Char :=
  s.flatMap fun c => if c = '\'' then ['\'', '\''] else [c]

/-- The letter that stands for a character after a backslash. -/
def escapeLetter? : Char → Option Char
  | '\x00' => some '0'
  | '\x07' => some 'a'
  | '\x08' => some 'b'
  | '\t' => some 't'
  | '\n' => some 'n'
  | '\x0b' => some 'v'
  | '\x0c' => some 'f'
  | '\r' => some 'r'
  | '\x1b' => some 'e'
  | '"' => some '"'
  | '\\' => some '\\'
  | '\u0085' => some 'N'
  | '\u00a0' => some '_'
  | '\u2028' => some 'L'
  | '\u2029' => some 'P'
  | _ => none

def upperHex (width n : Nat) : List Char := (hexText width n).map Char.toUpper

/-- What is written for a character that cannot stand as it is. -/
def escape? (c : Char) : Option (List Char) :=
  match escapeLetter? c with
  | some l => some ['\\', l]
  | none =>
    let n := c.toNat
    if ' ' ≤ c && c ≤ '~' then none
    else if n < 0x100 then some ('\\' :: 'x' :: upperHex 2 n)
    else if n < 0x10000 then some ('\\' :: 'u' :: upperHex 4 n)
    else some ('\\' :: 'U' :: upperHex 8 n)

/-- A line end that is not part of the text; a blank after it needs a backslash to be part of it. -/
def foldBefore (next : Option Char) : List Char :=
  '\\' :: '\n' :: continuation ++ if next = some ' ' then ['\\'] else []

/-- The column after a fold. -/
def columnAfterFold (next : Option Char) : Nat :=
  continuation.length + if next = some ' ' then 1 else 0

/-- A text from a column on. A long line ends before a blank, or beside an escape: `fresh` says that
an escape comes just before. -/
def layEscaped (first fresh : Bool) (column : Nat) : List Char → List Char
  | [] => []
  | c :: rest =>
    let inside := !first && !rest.isEmpty
    match escape? c with
    | some e =>
      let column := column + e.length
      if inside && lineWidth + 1 < column then
        e ++ foldBefore rest.head? ++ layEscaped false true (columnAfterFold rest.head?) rest
      else e ++ layEscaped false true column rest
    | none =>
      if inside && (c = ' ' || fresh) && lineWidth < column then
        foldBefore (some c) ++ c :: layEscaped false false (columnAfterFold (some c) + 1) rest
      else c :: layEscaped false false (column + 1) rest

/-- A text as a scalar that starts at a column. -/
def layText (column : Nat) (s : List Char) : List Char :=
  match styleOf s with
  | .plain => layRuns true column (runsOf s)
  | .single => '\'' :: layRuns true (column + 1) (runsOf (doubleQuotes s)) ++ ['\'']
  | .double => '"' :: layEscaped true false (column + 1) s ++ ['"']

/-- Numbers keep a point before an exponent, and those that are not finite have names. -/
def floatFormat : FloatFormat :=
  { FloatFormat.plain with infinity := ".inf", notANumber := ".nan", pointBeforeMark := true }

/-- A scalar at a column; none for a value that is no scalar of these kinds. -/
def layScalar? (column : Nat) : Value → Option (List Char)
  | .str s => some (layText column s.toList)
  | .int n => some (intText n).toList
  | .float x => some (floatFormat.text x).toList
  | .bool b => some (if b then "true" else "false").toList
  | .null => some "null".toList
  | _ => none

/-- A line of a block mapping; the key is a word. -/
def entryText? (key : String) (v : Value) : Option String :=
  (layScalar? (key.length + 2) v).map fun cs => key ++ ": " ++ String.ofList cs

/-- The entries of a block mapping of scalars, one or more lines each. -/
def entryTexts? : Entries → Option (List String)
  | [] => some []
  | (k, v) :: es => do return (← entryText? (← k.asString?) v) :: (← entryTexts? es)

end OutOfBand.Yaml
