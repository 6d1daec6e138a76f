import OutOfBand.Text.Blank
import OutOfBand.Text.Digit
import OutOfBand.Decimal.FloatText

namespace OutOfBand

/-- The number that digits of a base write. -/
def digitsValue? (base : Nat) : List Char → Option Nat
  | [] => none
  | s => s.foldlM (fun acc c => do
      let d ← hexValue? c
      if d < base then some (acc * base + d) else none) 0

def takeSign : List Char → Bool × List Char
  | '-' :: r => (true, r)
  | '+' :: r => (false, r)
  | r => (false, r)

def signed (negative : Bool) (n : Nat) : Int := if negative then -(n : Int) else n

/-- A text in which every underscore stands between two digits, without them. -/
def dropUnderscores? (digit : Char → Bool) : List Char → Option (List Char)
  | [] => some []
  | '_' :: _ => none
  | c :: '_' :: d :: r =>
    if digit c && digit d then (dropUnderscores? digit (d :: r)).map (c :: ·) else none
  | c :: r => (dropUnderscores? digit r).map (c :: ·)

/-- The digits of a decimal before and after the point, and its exponent. -/
structure DecimalText where
  negative : Bool
  whole : List Char
  fraction : List Char
  exponent : Int
  deriving Repr

def DecimalText.mantissa (d : DecimalText) : Nat :=
  (d.whole ++ d.fraction).foldl (fun acc c => acc * 10 + (c.toNat - 48)) 0

/-- The nearest floating-point number; an exponent beyond every finite number is not computed. -/
def DecimalText.toFloat (d : DecimalText) : Float :=
  let m := d.mantissa
  let e := d.exponent - d.fraction.length
  let size := (Nat.toDigits 10 m).length + e
  let x :=
    if m = 0 || size < -400 then 0.0
    else if size > 400 then Float.ofScientific 1 false 400
    else Float.ofScientific m (e < 0) e.natAbs
  if d.negative then -x else x

/-- The exponent of a decimal, which may be absent. -/
def readExponent? : List Char → Option Int
  | [] => some 0
  | c :: r =>
    if c = 'e' ∨ c = 'E' then
      let (negative, ds) := takeSign r
      (digitsValue? 10 ds).map (signed negative)
    else none

/-- A decimal with digits on at least one side of the point. -/
def readDecimal? (s : List Char) : Option DecimalText := do
  let (negative, r) := takeSign s
  let whole := r.takeWhile Char.isDigit
  let r := r.dropWhile Char.isDigit
  let (fraction, r) := match r with
    | '.' :: r => (r.takeWhile Char.isDigit, r.dropWhile Char.isDigit)
    | r => ([], r)
  if whole.isEmpty && fraction.isEmpty then none
  else return ⟨negative, whole, fraction, ← readExponent? r⟩

/-- A decimal or the name of an infinity or of what is no number, in letters of either case. -/
def readFloat? (s : List Char) : Option Float :=
  let (negative, r) := takeSign s
  let x? := match String.ofList (lowerAscii r) with
    | "inf" | "infinity" => some (1.0 / 0.0)
    | "nan" => some (0.0 / 0.0)
    | _ => none
  match x? with
  | some x => some (if negative then -x else x)
  | none => (readDecimal? s).map DecimalText.toFloat

/-- A number of a command line or of a tagged scalar: digits of any script, blanks around,
underscores between digits. -/
def readLooseFloat? (s : List Char) : Option Float := do
  let s := trimWith isSpace (asciiDigits s)
  if s.contains '_' then readFloat? (← dropUnderscores? Char.isDigit s) else readFloat? s

/-- The marks of the bases that may stand before an integer's digits. -/
def dropBaseMark (base : Nat) : List Char → List Char
  | '0' :: c :: r =>
    let c := c.toLower
    if (base = 2 ∧ c = 'b') ∨ (base = 8 ∧ c = 'o') ∨ (base = 16 ∧ c = 'x') then
      match r with
      | '_' :: r => r
      | r => r
    else '0' :: c :: r
  | s => s

/-- How many decimal digits are still taken for one integer. -/
def mostDigits : Nat := 4300

/-- An integer with an optional sign, blanks around and underscores between digits. Only in base ten
is there a bound on how many digits it has. -/
def readLooseInt? (base : Nat) (s : List Char) : Option Int := do
  let (negative, r) := takeSign (trimWith isSpace (asciiDigits s))
  let r ← dropUnderscores? (fun c => (hexValue? c).any (· < base)) (dropBaseMark base r)
  if base = 10 ∧ mostDigits < r.length then none
  else return signed negative (← digitsValue? base r)

end OutOfBand
