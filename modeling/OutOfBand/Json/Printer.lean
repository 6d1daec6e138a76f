import OutOfBand.Value.Text
import OutOfBand.Text.Surrogates

/-!
JSON text of values, in ASCII: every other character is written by its UTF-16 units. A value that
the format does not know is written as its text.
-/

namespace OutOfBand.Json

def unitEscape (n : Nat) : List Char := '\\' :: 'u' :: hexText 4 n

def escape (c : Char) : List Char :=
  match c with
  | '"' => ['\\', '"']
  | '\\' => ['\\', '\\']
  | '\n' => ['\\', 'n']
  | '\r' => ['\\', 'r']
  | '\t' => ['\\', 't']
  | '\x08' => ['\\', 'b']
  | '\x0c' => ['\\', 'f']
  | c =>
    let n := c.toNat
    if 0x20 ≤ n && n < 0x7F then [c]
    else (utf16Units n).flatMap unitEscape

def textLiteral (s : String) : String :=
  String.ofList ('"' :: s.toList.flatMap escape ++ ['"'])

/-- Numbers of the JSON text that are not finite have names. -/
def floatFormat : FloatFormat :=
  { FloatFormat.plain with infinity := "Infinity", notANumber := "NaN" }

/-- The text of a key; none for one that no member name can stand for. -/
def keyText? : Value → Option String
  | .str s => some s
  | .int n => some (intText n)
  | .float x => some (floatFormat.text x)
  | .bool b => some (if b then "true" else "false")
  | .null => some "null"
  | _ => none

mutual
/-- The text of a value; none where a mapping has a key that cannot be a member name. -/
def render? : Value → Option String
  | .null => some "null"
  | .bool b => some (if b then "true" else "false")
  | .int n => some (intText n)
  | .float x => some (floatFormat.text x)
  | .str s => some (textLiteral s)
  | .list xs => (renderItems? xs).map fun ts => "[" ++ joinWith ", " ts ++ "]"
  | .pair a b => do
    let a ← render? a
    let b ← render? b
    return "[" ++ a ++ ", " ++ b ++ "]"
  | .map es => (renderMembers? es).map fun ts => "\x7b" ++ joinWith ", " ts ++ "\x7d"
  | v => some (textLiteral v.text)
def renderItems? : List Value → Option (List String)
  | [] => some []
  | x :: xs => do
    let t ← render? x
    let ts ← renderItems? xs
    return t :: ts
def renderMembers? : List (Value × Value) → Option (List String)
  | [] => some []
  | (k, v) :: es => do
    let k ← keyText? k
    let t ← render? v
    let ts ← renderMembers? es
    return (textLiteral k ++ ": " ++ t) :: ts
end

end OutOfBand.Json
