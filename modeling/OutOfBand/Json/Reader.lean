import OutOfBand.Value
import OutOfBand.Decimal.Reading
import OutOfBand.Text.Surrogates

/-!
JSON text read into values: a number with a point or an exponent is a float, any other an integer,
and of two members of one name the last counts.
-/

namespace OutOfBand.Json

def isJsonSpace (c : Char) : Bool := c = ' ' || c = '\t' || c = '\n' || c = '\r'

def skipSpace (s : List Char) : List Char := s.dropWhile isJsonSpace

def shortEscape? : Char → Option Char
  | '"' => some '"'
  | '\\' => some '\\'
  | '/' => some '/'
  | 'b' => some '\x08'
  | 'f' => some '\x0c'
  | 'n' => some '\n'
  | 'r' => some '\r'
  | 't' => some '\t'
  | _ => none

/-- The unit that four hexadecimal digits after a backslash and a `u` name, with the rest. -/
def readUnit? : List Char → Option (Nat × List Char)
  | '\\' :: 'u' :: a :: b :: c :: d :: r => (digitsValue? 16 [a, b, c, d]).map (·, r)
  | _ => none

/-- A text up to its closing quote, which the input begins after; the fuel is the input's length. -/
def readText : Nat → List Char → Option (List Char × List Char)
  | 0, _ => none
  | fuel + 1, s =>
    match s with
    | [] => none
    | '"' :: r => some ([], r)
    | '\\' :: c :: r =>
      if c = 'u' then do
        let (n, r) ← readUnit? s
        match isHighSurrogate n, readUnit? r with
        | true, some (m, r') =>
          if isLowSurrogate m then
            let (t, r'') ← readText fuel r'
            return (Char.ofNat (joinSurrogates n m) :: t, r'')
          else
            let (t, r'') ← readText fuel r
            return (unitChar n :: t, r'')
        | _, _ =>
          let (t, r'') ← readText fuel r
          return (unitChar n :: t, r'')
      else do
        let c ← shortEscape? c
        let (t, r) ← readText fuel r
        return (c :: t, r)
    | c :: r =>
      if c.toNat < 0x20 then none
      else do
        let (t, r) ← readText fuel r
        return (c :: t, r)

def isNumberChar (c : Char) : Bool :=
  c.isDigit || c = '-' || c = '+' || c = '.' || c = 'e' || c = 'E'

def readNumber? (s : List Char) : Option Value :=
  let digits := match s with
    | '-' :: r => r
    | r => r
  if digits.all Char.isDigit then
    (digitsValue? 10 digits).map fun n => .int (if s.head? = some '-' then -(n : Int) else n)
  else (readFloat? s).map .float

def wordValue? (s : List Char) : Option (Value × List Char) :=
  let words : List (String × Value) :=
    [("null", .null), ("true", .bool true), ("false", .bool false), ("NaN", .float (0.0 / 0.0)),
      ("Infinity", .float (1.0 / 0.0)), ("-Infinity", .float (-1.0 / 0.0))]
  words.findSome? fun (w, v) =>
    if w.toList.isPrefixOf s then some (v, s.drop w.length) else none

mutual
def readValue : Nat → List Char → Option (Value × List Char)
  | 0, _ => none
  | fuel + 1, s =>
    match skipSpace s with
    | '"' :: r => (readText (r.length + 1) r).map fun (t, r) => (.str (String.ofList t), r)
    | '[' :: r =>
      match skipSpace r with
      | ']' :: r => some (.list [], r)
      | r => (readItems fuel r).map fun (xs, r) => (.list xs, r)
    | '\x7b' :: r =>
      match skipSpace r with
      | '\x7d' :: r => some (.map [], r)
      | r => (readMembers fuel [] r).map fun (es, r) => (.map es, r)
    | s =>
      match wordValue? s with
      | some found => some found
      | none =>
        (readNumber? (s.takeWhile isNumberChar)).map (·, s.dropWhile isNumberChar)
/-- Items up to the closing bracket. -/
def readItems : Nat → List Char → Option (List Value × List Char)
  | 0, _ => none
  | fuel + 1, s => do
    let (v, r) ← readValue fuel s
    match skipSpace r with
    | ',' :: r =>
      let (vs, r) ← readItems fuel r
      return (v :: vs, r)
    | ']' :: r => return ([v], r)
    | _ => none
/-- Members up to the closing brace, after those already read. -/
def readMembers : Nat → Entries → List Char → Option (Entries × List Char)
  | 0, _, _ => none
  | fuel + 1, es, s =>
    match skipSpace s with
    | '"' :: r => do
      let (k, r) ← readText (r.length + 1) r
      match skipSpace r with
      | ':' :: r =>
        let (v, r) ← readValue fuel r
        let es := es.insert (.str (String.ofList k)) v
        match skipSpace r with
        | ',' :: r => readMembers fuel es r
        | '\x7d' :: r => return (es, r)
        | _ => none
      | _ => none
    | _ => none
end

def read? (s : String) : Option Value :=
  match readValue (2 * s.length + 2) s.toList with
  | some (v, r) => if (skipSpace r).isEmpty then some v else none
  | none => none

end OutOfBand.Json
