import OutOfBand.Decimal.FloatText

namespace OutOfBand

structure Date where
  year : Nat
  month : Nat
  day : Nat
  deriving DecidableEq, Repr, Inhabited

/-- A time of a day; the offset is in minutes east of universal time. -/
structure Moment where
  date : Date
  hour : Nat
  minute : Nat
  second : Nat
  micro : Nat
  offset : Option Int
  deriving DecidableEq, Repr, Inhabited

def isLeapYear (y : Nat) : Bool := y % 4 = 0 && (y % 100 ≠ 0 || y % 400 = 0)

def daysInMonth (y m : Nat) : Nat :=
  if m = 2 then (if isLeapYear y then 29 else 28)
  else if m = 4 ∨ m = 6 ∨ m = 9 ∨ m = 11 then 30
  else 31

def Date.isValid (d : Date) : Bool :=
  1 ≤ d.year && d.year ≤ 9999 && 1 ≤ d.month && d.month ≤ 12 && 1 ≤ d.day &&
    d.day ≤ daysInMonth d.year d.month

/-- An offset is shorter than a day. -/
def Moment.isValid (t : Moment) : Bool :=
  t.date.isValid && t.hour < 24 && t.minute < 60 && t.second < 60 && t.micro < 1000000 &&
    t.offset.all fun o => o.natAbs < 1440

/-- Days from the first of January of year one to a day, both counted. -/
def Date.ordinal (d : Date) : Nat :=
  let y := d.year - 1
  let before := (List.range (d.month - 1)).foldl (fun n m => n + daysInMonth d.year (m + 1)) 0
  y * 365 + y / 4 - y / 100 + y / 400 + before + d.day

def daysInYear (y : Nat) : Nat := if isLeapYear y then 366 else 365

/-- The month and the day of a day counted from the start of month `m`; `months` follow that one. -/
def monthAndDay (y : Nat) : Nat → Nat → Nat → Nat × Nat
  | 0, m, n => (m, n)
  | months + 1, m, n =>
    if n ≤ daysInMonth y m then (m, n) else monthAndDay y months (m + 1) (n - daysInMonth y m)

/-- A day counted from the start of year `y`; no more years than there are days are looked at. -/
def Date.fromYear : Nat → Nat → Nat → Date
  | 0, y, n => ⟨y, 1, n⟩
  | fuel + 1, y, n =>
    if n ≤ daysInYear y then
      let (m, d) := monthAndDay y 11 1 n
      ⟨y, m, d⟩
    else fromYear fuel (y + 1) (n - daysInYear y)

def Date.ofOrdinal (n : Nat) : Date := fromYear n 1 n

/-- A moment in universal time by its seconds since the start of 1970. -/
def Moment.ofSeconds (s : Nat) : Moment :=
  let day := s / 86400 + (Date.ordinal ⟨1970, 1, 1⟩)
  ⟨.ofOrdinal day, s / 3600 % 24, s / 60 % 60, s % 60, 0, some 0⟩

/-- Microseconds from a fixed origin, by the clock on the wall less the offset. -/
def Moment.micros (t : Moment) : Int :=
  let minutes : Int := (t.date.ordinal * 24 + t.hour) * 60 + t.minute - t.offset.getD 0
  (minutes * 60 + t.second) * 1000000 + t.micro

/-- Two moments with offsets are equal at one instant, two without at one reading of the clock. -/
def Moment.same (s t : Moment) : Bool :=
  s.offset.isSome = t.offset.isSome && s.micros = t.micros

def Date.text (d : Date) : String :=
  padLeft 4 (natText d.year) ++ "-" ++ padLeft 2 (natText d.month) ++ "-" ++
    padLeft 2 (natText d.day)

def offsetText (o : Int) : String :=
  (if o < 0 then "-" else "+") ++ padLeft 2 (natText (o.natAbs / 60)) ++ ":" ++
    padLeft 2 (natText (o.natAbs % 60))

/-- Day and time with a separator between them; a fraction only where there is one. -/
def Moment.text (sep : String) (t : Moment) : String :=
  t.date.text ++ sep ++ padLeft 2 (natText t.hour) ++ ":" ++ padLeft 2 (natText t.minute) ++ ":" ++
    padLeft 2 (natText t.second) ++
    (if t.micro = 0 then "" else "." ++ padLeft 6 (natText t.micro)) ++
    (t.offset.map offsetText).getD ""

end OutOfBand
