import OutOfBand.Yaml.Node
import OutOfBand.Calendar

/-!
The type that the text of a plain scalar shows: null, a truth value, a number in one of its
notations, a timestamp, or the two marks of merged and default keys. Any other text is a text.
-/

namespace OutOfBand.Yaml

def isDigitOr_ (c : Char) : Bool := c.isDigit || c = '_'

/-- A text without one sign in front. -/
def unsigned (s : List Char) : List Char := (takeSign s).2

/-- One or two digits of a number below sixty. -/
def isSixtieth : List Char → Bool
  | [a] => a.isDigit
  | [a, b] => '0' ≤ a && a ≤ '5' && b.isDigit
  | _ => false

/-- The parts after the first of a number in base sixty. -/
def areSixtieths (parts : List (List Char)) : Bool := !parts.isEmpty && parts.all isSixtieth

def isDecimalInt (s : List Char) : Bool :=
  s = ['0'] || (s.head?.any (fun c => '1' ≤ c && c ≤ '9') && s.all isDigitOr_)

def isInt (s : List Char) : Bool :=
  let s := unsigned s
  let based (stem : List Char) (digit : Char → Bool) : Bool :=
    stem.isPrefixOf s && stem.length < s.length &&
      (s.drop stem.length).all fun c => digit c || c = '_'
  based ['0', 'b'] (fun c => c = '0' || c = '1') || based ['0'] (fun c => '0' ≤ c && c ≤ '7') ||
    based ['0', 'x'] (fun c => (hexValue? c).isSome) || isDecimalInt s ||
    match splitAt ':' s with
    | head :: parts => head ≠ ['0'] && isDecimalInt head && areSixtieths parts
    | [] => false

/-- An exponent with its sign, or nothing. -/
def isSignedExponent : List Char → Bool
  | [] => true
  | e :: sign :: ds =>
    (e = 'e' || e = 'E') && (sign = '-' || sign = '+') && !ds.isEmpty && ds.all Char.isDigit
  | _ => false

/-- Digits after a point, and an exponent. -/
def isFractionTail (s : List Char) : Bool := isSignedExponent (s.dropWhile isDigitOr_)

def startsWithDigit (s : List Char) : Bool := s.head?.any Char.isDigit

def isFloat (s : List Char) : Bool :=
  let u := unsigned s
  let named : List (List Char) := [".inf".toList, ".Inf".toList, ".INF".toList]
  let notNumber : List (List Char) := [".nan".toList, ".NaN".toList, ".NAN".toList]
  named.contains u || notNumber.contains s ||
    match u.span isDigitOr_, s with
    | (whole, '.' :: r), _ =>
      (startsWithDigit whole && isFractionTail r) ||
        (s.head? = some '.' && startsWithDigit r && isFractionTail r)
    | _, _ =>
      match (splitAt ':' u).getLast?, splitAt ':' u with
      | some last, head :: parts =>
        match last.span Char.isDigit with
        | (whole, '.' :: fraction) =>
          startsWithDigit head && head.all isDigitOr_ && fraction.all isDigitOr_ &&
            areSixtieths (parts.dropLast ++ [whole])
        | _ => false
      | _, _ => false

/-- Day and time as a timestamp writes them, before it is known whether there is such a day. -/
structure Stamp where
  date : Date
  time : Option Moment
  /-- Month and day have two digits each. -/
  full : Bool
  deriving Repr

def natOf (s : List Char) : Nat := s.foldl (fun n c => n * 10 + (c.toNat - 48)) 0

/-- Between `least` and `most` digits. -/
def takeDigits? (least most : Nat) (s : List Char) : Option (List Char × List Char) :=
  let ds := (s.take most).takeWhile Char.isDigit
  if least ≤ ds.length then some (ds, s.drop ds.length) else none

def takeChar? (c : Char) : List Char → Option (List Char)
  | ch :: r => if ch = c then some r else none
  | [] => none

/-- The offset at the end of a timestamp, in minutes; none where there is none. -/
def zone? (s : List Char) : Option (Option Int) :=
  match s.dropWhile (fun c => c = ' ' || c = '\t') with
  | [] => if s.isEmpty then some none else none
  | ['Z'] => some (some 0)
  | sign :: r =>
    if sign = '-' ∨ sign = '+' then do
      let (h, r) ← takeDigits? 1 2 r
      let m ← match r with
        | [] => some []
        | ':' :: r => do
          let (m, r) ← takeDigits? 2 2 r
          if r.isEmpty then some m else none
        | _ => none
      return some (signed (sign = '-') (natOf h * 60 + natOf m))
    else none

/-- The time of day after a date and what separates them. -/
def time? (date : Date) (s : List Char) : Option Moment := do
  let (h, r) ← takeDigits? 1 2 s
  let (m, r) ← takeDigits? 2 2 (← takeChar? ':' r)
  let (sec, r) ← takeDigits? 2 2 (← takeChar? ':' r)
  let (fraction, r) := match r with
    | '.' :: r => (r.takeWhile Char.isDigit, r.dropWhile Char.isDigit)
    | r => ([], r)
  let offset ← zone? r
  let six := (fraction.take 6) ++ List.replicate (6 - fraction.length) '0'
  return ⟨date, natOf h, natOf m, natOf sec, natOf six, offset⟩

def stamp? (s : List Char) : Option Stamp := do
  let (y, r) ← takeDigits? 4 4 s
  let (m, r) ← takeDigits? 1 2 (← takeChar? '-' r)
  let (d, r) ← takeDigits? 1 2 (← takeChar? '-' r)
  let date : Date := ⟨natOf y, natOf m, natOf d⟩
  let full := m.length = 2 && d.length = 2
  match r with
  | [] => return ⟨date, none, full⟩
  | c :: t =>
    if c = 'T' ∨ c = 't' then return ⟨date, some (← time? date t), full⟩
    else if c = ' ' ∨ c = '\t' then
      return ⟨date, some (← time? date (r.dropWhile fun c => c = ' ' || c = '\t')), full⟩
    else none

/-- The words for the two truth values, in lower case. -/
def truthWord? : String → Option Bool
  | "yes" | "true" | "on" => some true
  | "no" | "false" | "off" => some false
  | _ => none

/-- A word in lower case, with a capital, or in capitals. -/
def isOneCase (s : List Char) : Bool :=
  s.all Char.isLower || s.all Char.isUpper ||
    match s with
    | c :: r => c.isUpper && r.all Char.isLower
    | [] => false

/-- The name of the core type that a plain text shows. -/
def plainType (text : String) : String :=
  let s := text.toList
  let lower := String.ofList (lowerAscii s)
  if text = "" || text = "~" || (lower = "null" && isOneCase s) then "null"
  else if (truthWord? lower).isSome && isOneCase s then "bool"
  else if isFloat s then "float"
  else if isInt s then "int"
  else if (stamp? s).any fun t => t.time.isSome || t.full then "timestamp"
  else if text = "<<" then "merge"
  else if text = "=" then "value"
  else if text = "!" || text = "&" || text = "*" then "yaml"
  else "str"

/-- The tag of a node, with the one that its text or its form gives where it has none. -/
def Node.fullTag : Node → String
  | .scalar (some t) _ _ => t
  | .scalar none text plain => coreTag (if plain then plainType text else "str")
  | .sequence tag _ => tag.getD (coreTag "seq")
  | .mapping tag _ => tag.getD (coreTag "map")
  | .cycle .. => ""

end OutOfBand.Yaml
