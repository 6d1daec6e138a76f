import OutOfBand.Decimal.Shortest

/-!
How a floating-point number is written: its shortest digits, positional from `0.0001` up to sixteen
digits before the point, with an exponent of two or more digits otherwise.
-/

namespace OutOfBand

/-- The decisions of a number format that the digits leave open. -/
structure FloatFormat where
  /-- Least and greatest position of the point, counted from before the first digit, that is written
  without an exponent. -/
  pointFrom : Int
  pointTo : Int
  /-- What marks the exponent. -/
  mark : String
  /-- Least count of exponent digits. -/
  exponentWidth : Nat
  infinity : String
  notANumber : String
  /-- Whether a point stands in a mantissa of one digit before an exponent. -/
  pointBeforeMark : Bool
  deriving Repr

/-- Numbers in messages and reports. -/
def FloatFormat.plain : FloatFormat :=
  { pointFrom := -3, pointTo := 16, mark := "e", exponentWidth := 2
    infinity := "inf", notANumber := "nan", pointBeforeMark := false }

def natText (n : Nat) : String := String.ofList (Nat.toDigits 10 n)

def intText : Int → String
  | .ofNat n => natText n
  | .negSucc n => "-" ++ natText (n + 1)

def padLeft (width : Nat) (s : String) : String :=
  String.ofList (List.replicate (width - s.length) '0') ++ s

def exponentText (f : FloatFormat) (e : Int) : String :=
  f.mark ++ (if e < 0 then "-" else "+") ++ padLeft f.exponentWidth (natText e.natAbs)

/-- The digits `ds` with the point after the first `point` of them. -/
def FloatFormat.layOut (f : FloatFormat) (ds : List Char) (point : Int) : String :=
  if f.pointFrom ≤ point && point ≤ f.pointTo then
    if point ≤ 0 then
      "0." ++ String.ofList (List.replicate (-point).toNat '0' ++ ds)
    else
      let k := point.toNat
      let whole := ds.take k ++ List.replicate (k - ds.length) '0'
      let rest := ds.drop k
      String.ofList whole ++ "." ++ (if rest.isEmpty then "0" else String.ofList rest)
  else
    let rest := ds.drop 1
    let middle :=
      if rest.isEmpty then (if f.pointBeforeMark then ".0" else "") else "." ++ String.ofList rest
    String.ofList (ds.take 1) ++ middle ++ exponentText f (point - 1)

/-- Sign, mantissa and exponent of a finite number; none for infinities and what is no number. -/
def floatParts? (x : Float) : Option (Bool × Binary) :=
  let bits := x.toBits.toNat
  let exponent : Nat := bits / Nat.pow 2 52 % Nat.pow 2 11
  let fraction := bits % Nat.pow 2 52
  let negative := bits / Nat.pow 2 63 = 1
  if exponent = 2047 then none
  else if exponent = 0 then some (negative, ⟨fraction, -1074⟩)
  else some (negative, ⟨Nat.pow 2 52 + fraction, Int.ofNat exponent - 1075⟩)

def FloatFormat.text (f : FloatFormat) (x : Float) : String :=
  match floatParts? x with
  | none =>
    if x.isNaN then f.notANumber else if x < 0 then "-" ++ f.infinity else f.infinity
  | some (negative, b) =>
    let sign := if negative then "-" else ""
    if b.mantissa = 0 then sign ++ "0.0"
    else
      let d := b.shortest.strip 20
      let ds := Nat.toDigits 10 d.digits
      sign ++ f.layOut ds (ds.length + d.exponent)

def floatText (x : Float) : String := FloatFormat.plain.text x

/-- The integer that a finite number without a fraction is. -/
def floatInt? (x : Float) : Option Int :=
  match floatParts? x with
  | none => none
  | some (negative, b) =>
    let (n, d) := powRatio 2 b.exponent
    if b.mantissa * n % d = 0 then
      let k : Int := (b.mantissa * n / d : Nat)
      some (if negative then -k else k)
    else none

/-- A finite number without its fraction. -/
def floatTruncate (x : Float) : Int :=
  match floatParts? x with
  | none => 0
  | some (negative, b) =>
    let (n, d) := powRatio 2 b.exponent
    let k : Int := (b.mantissa * n / d : Nat)
    if negative then -k else k

def intFloat : Int → Float
  | .ofNat n => Float.ofScientific n false 0
  | .negSucc n => -(Float.ofScientific (n + 1) false 0)

end OutOfBand
