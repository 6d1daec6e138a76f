import OutOfBand.Decimal.FloatText

/-!
Lengths of time in seconds, and the clock's readings. What runs with a clock asks for no more than
the operations of this class, so it runs with exact numbers as well as with rounded ones.
-/

namespace OutOfBand

class Seconds (τ : Type) where
  zero : τ
  add : τ → τ → τ
  sub : τ → τ → τ
  lt : τ → τ → Bool
  le : τ → τ → Bool
  /-- Whole milliseconds, without what is left of one. -/
  millis : τ → Int
  text : τ → String

namespace Seconds

variable {τ : Type} [Seconds τ]

/-- The first of two lengths unless the second is shorter. -/
def least (a b : τ) : τ := if lt b a then b else a

/-- The first of two lengths unless the second is longer. -/
def greatest (a b : τ) : τ := if lt a b then b else a

end Seconds

/-- A number as it was written: whole, or with a fraction. -/
inductive Number where
  | whole (n : Int)
  | real (x : Float)
  deriving Inhabited, Repr

namespace Number

def toFloat : Number → Float
  | whole n => intFloat n
  | real x => x

/-- Whole numbers stay whole; a real one makes the result real. -/
def combine (onWhole : Int → Int → Int) (onReal : Float → Float → Float) : Number → Number → Number
  | whole m, whole n => whole (onWhole m n)
  | a, b => real (onReal a.toFloat b.toFloat)

def lt : Number → Number → Bool
  | whole m, whole n => m < n
  | a, b => a.toFloat < b.toFloat

def le : Number → Number → Bool
  | whole m, whole n => m ≤ n
  | a, b => a.toFloat ≤ b.toFloat

def text : Number → String
  | whole n => intText n
  | real x => floatText x

def millis : Number → Int
  | whole n => n * 1000
  | real x => floatTruncate (x * 1000)

end Number

instance : Seconds Number where
  zero := .real 0
  add := Number.combine (· + ·) (· + ·)
  sub := Number.combine (· - ·) (· - ·)
  lt := Number.lt
  le := Number.le
  millis := Number.millis
  text := Number.text

end OutOfBand
