import OutOfBand.Text.Printable
import OutOfBand.Text.Blank
import OutOfBand.Text.Digit

namespace OutOfBand

/-- The lower-case hexadecimal digits of a number, to a width of at least `width`. -/
def hexText (width n : Nat) : List Char :=
  let ds := Nat.toDigits 16 n
  List.replicate (width - ds.length) '0' ++ ds

/-- A character by its number: two, four or eight digits, as few as hold it. -/
def escapeByNumber (c : Char) : List Char :=
  let n := c.toNat
  if n < 0x100 then '\\' :: 'x' :: hexText 2 n
  else if n < 0x10000 then '\\' :: 'u' :: hexText 4 n
  else '\\' :: 'U' :: hexText 8 n

def escapeChar (quote c : Char) : List Char :=
  if c = '\\' ∨ c = quote then ['\\', c]
  else if c = '\n' then ['\\', 'n']
  else if c = '\r' then ['\\', 'r']
  else if c = '\t' then ['\\', 't']
  else if isPrinted c then [c]
  else escapeByNumber c

/-- Single quotes, unless the text holds one and no double quote. -/
def quoteFor (s : List Char) : Char :=
  if s.contains '\'' && !s.contains '"' then '"' else '\''

def quoted (s : String) : String :=
  let cs := s.toList
  let q := quoteFor cs
  String.ofList (q :: cs.flatMap (escapeChar q) ++ [q])

/-- Bytes as a literal: printable ASCII as it is, the others by number. -/
def quotedBytes (bs : List UInt8) : String :=
  let cs := bs.map fun b => Char.ofNat b.toNat
  let q := quoteFor cs
  let piece (c : Char) : List Char :=
    if c.toNat < 0x7F then escapeChar q c else '\\' :: 'x' :: hexText 2 c.toNat
  String.ofList ('b' :: q :: cs.flatMap piece ++ [q])

end OutOfBand
