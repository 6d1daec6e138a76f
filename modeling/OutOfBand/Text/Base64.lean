import OutOfBand.Text.Blank

/-!
Base64: three bytes as four characters of an alphabet, the last group padded. `decode?` reads an
unbroken text, `decodeLoose?` passes over characters outside the alphabet and stops at a complete
padding.
-/

namespace OutOfBand.Base64

def alphabet : List Char :=
  "ABCDEFGHIJKLMNOPQRSTUVWXYZabcdefghijklmnopqrstuvwxyz0123456789+/".toList

def digit (n : Nat) : Char := alphabet.getD n 'A'

def value? (c : Char) : Option Nat :=
  if 'A' ≤ c ∧ c ≤ 'Z' then some (c.toNat - 65)
  else if 'a' ≤ c ∧ c ≤ 'z' then some (c.toNat - 71)
  else if '0' ≤ c ∧ c ≤ '9' then some (c.toNat + 4)
  else if c = '+' then some 62
  else if c = '/' then some 63
  else none

def encode : List UInt8 → List Char
  | a :: b :: c :: r =>
    let n := a.toNat * 65536 + b.toNat * 256 + c.toNat
    digit (n / 262144) :: digit (n / 4096 % 64) :: digit (n / 64 % 64) :: digit (n % 64) :: encode r
  | [a, b] =>
    let n := a.toNat * 256 + b.toNat
    [digit (n / 1024), digit (n / 16 % 64), digit (n % 16 * 4), '=']
  | [a] => [digit (a.toNat / 4), digit (a.toNat % 4 * 16), '=', '=']
  | [] => []

/-- The bytes that six-bit values make up, with the bits left over dropped. -/
def bytesOf : List Nat → List UInt8
  | a :: b :: c :: d :: r =>
    let n := a * 262144 + b * 4096 + c * 64 + d
    UInt8.ofNat (n / 65536) :: UInt8.ofNat (n / 256 % 256) :: UInt8.ofNat (n % 256) :: bytesOf r
  | [a, b, c] =>
    let n := a * 4096 + b * 64 + c
    [UInt8.ofNat (n / 1024), UInt8.ofNat (n / 4 % 256)]
  | [a, b] => [UInt8.ofNat ((a * 64 + b) / 16)]
  | _ => []

/-- How many padding characters may follow `n` digits: as many as complete the last group. After
complete groups, of which there is one at least, padding is passed over. -/
def padsAfter (n pads : Nat) : Bool :=
  match n % 4 with
  | 0 => pads = 0 || n ≠ 0
  | 2 => pads = 2
  | 3 => pads = 1
  | _ => false

def decode? (s : List Char) : Option (List UInt8) :=
  let ds := s.takeWhile fun c => (value? c).isSome
  let pads := s.drop ds.length
  if pads.all (· = '=') && padsAfter ds.length pads.length then
    some (bytesOf (ds.filterMap value?))
  else none

/-- The digits before the first complete padding; none if the last group stays incomplete. -/
def looseDigits? : List Char → (count pads : Nat) → Option (List Nat)
  | [], count, _ => if count % 4 = 0 then some [] else none
  | c :: r, count, pads =>
    if c = '=' then
      if 2 ≤ count % 4 then
        if 4 ≤ count % 4 + pads + 1 then some [] else looseDigits? r count (pads + 1)
      else looseDigits? r count pads
    else match value? c with
      | some n => (looseDigits? r (count + 1) 0).map (n :: ·)
      | none => looseDigits? r count pads

def decodeLoose? (s : List Char) : Option (List UInt8) := (looseDigits? s 0 0).map bytesOf

end OutOfBand.Base64
