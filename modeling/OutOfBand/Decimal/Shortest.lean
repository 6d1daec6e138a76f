/-!
The shortest decimal for a binary fraction: of the decimals that lie nearer to it than to any
other number of the format, those with the fewest digits, and of these the nearest.
-/

namespace OutOfBand

/-- A positive number `mantissa * 2 ^ exponent` of the double format. -/
structure Binary where
  mantissa : Nat
  exponent : Int
  deriving DecidableEq, Repr

/-- A decimal `digits * 10 ^ exponent`. -/
structure Decimal where
  digits : Nat
  exponent : Int
  deriving DecidableEq, Repr

/-- The quotient `b ^ e` as a pair of numerator and denominator. -/
def powRatio (b : Nat) (e : Int) : Nat × Nat := (Nat.pow b e.toNat, Nat.pow b (-e).toNat)

/-- The reals that round to a number reach from `low / unit` to `high / unit`; the number itself is
`middle / unit`. -/
structure RoundingInterval where
  low : Nat
  middle : Nat
  high : Nat
  unit : Nat
  closed : Bool
  deriving DecidableEq, Repr

/-- Below a power of two the neighbour is nearer; an even mantissa owns the ends. -/
def Binary.interval (b : Binary) : RoundingInterval :=
  let (n, d) := powRatio 2 b.exponent
  let below := if b.mantissa = Nat.pow 2 52 && b.exponent > -1074 then 1 else 2
  { low := (4 * b.mantissa - below) * n
    middle := 4 * b.mantissa * n
    high := (4 * b.mantissa + 2) * n
    unit := 4 * d
    closed := b.mantissa % 2 = 0 }

def RoundingInterval.holds (i : RoundingInterval) (d : Decimal) : Bool :=
  let (n, e) := powRatio 10 d.exponent
  let x := d.digits * n * i.unit
  if i.closed then i.low * e ≤ x && x ≤ i.high * e else i.low * e < x && x < i.high * e

/-- The greater of two naturals less the smaller. -/
def gap (a b : Nat) : Nat := max a b - min a b

/-- How far a decimal lies from the middle, in units that two decimals of one exponent share. -/
def RoundingInterval.distance (i : RoundingInterval) (d : Decimal) : Nat :=
  let (n, e) := powRatio 10 d.exponent
  gap (d.digits * n * i.unit) (i.middle * e)

/-- The neighbours of the middle on the grid of multiples of `10 ^ exponent`: the nearer one that
lies in the interval; of two at one distance, the even one. -/
def RoundingInterval.onGrid? (i : RoundingInterval) (exponent : Int) : Option Decimal :=
  let (n, e) := powRatio 10 exponent
  let floor := i.middle * e / (i.unit * n)
  let below : Decimal := ⟨floor, exponent⟩
  let above : Decimal := ⟨floor + 1, exponent⟩
  match 0 < floor && i.holds below, i.holds above with
  | true, true =>
    let l := i.distance below
    let r := i.distance above
    some (if l < r || (l = r && floor % 2 = 0) then below else above)
  | true, false => some below
  | false, true => some above
  | false, false => none

/-- The least power of ten above a quotient of at least one, counted from `e`. -/
def powerAbove (num den : Nat) (e : Nat) : Nat → Nat
  | 0 => e
  | fuel + 1 => if num < den then e else powerAbove num (den * 10) (e + 1) fuel

/-- The exponent of the power of ten just above the middle. -/
def RoundingInterval.magnitude (i : RoundingInterval) : Int :=
  if i.unit ≤ i.middle then powerAbove i.middle i.unit 0 400
  else 1 - (powerAbove (i.unit - 1) i.middle 0 400 : Nat)

/-- The first grid with a hit, from one digit to seventeen. -/
def RoundingInterval.shortest (i : RoundingInterval) : Decimal :=
  ((List.range 17).findSome? fun k => i.onGrid? (i.magnitude - 1 - (k : Nat))).getD ⟨0, 0⟩

def Binary.shortest (b : Binary) : Decimal := b.interval.shortest

/-- A decimal without trailing zeros; the fuel is the number of digits. -/
def Decimal.strip (d : Decimal) : Nat → Decimal
  | 0 => d
  | fuel + 1 =>
    if d.digits ≠ 0 && d.digits % 10 = 0 then
      Decimal.strip ⟨d.digits / 10, d.exponent + 1⟩ fuel
    else d

end OutOfBand
