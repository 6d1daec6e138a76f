import OutOfBand.Text.Blank

/-!
Variables in a text: a dollar sign and a name, or a dollar sign and any text in braces. A variable
that is not set stays as it is written, and what a variable stands for is not looked through again.
-/

namespace OutOfBand.Variables

def isNameChar (c : Char) : Bool := c.isAlphanum || c = '_'

/-- The name that a variable has after its dollar sign, and how many characters write it. -/
def name? (s : List Char) : Option (List Char × Nat) :=
  match s with
  | '\x7b' :: r =>
    let name := r.takeWhile (· ≠ '\x7d')
    if name.length < r.length then some (name, name.length + 2) else none
  | _ =>
    let name := s.takeWhile isNameChar
    if name.isEmpty then none else some (name, name.length)

/-- The text with its variables replaced; the fuel is its length. -/
def expandChars (lookup : String → Option String) : Nat → List Char → List Char
  | 0, s => s
  | _, [] => []
  | fuel + 1, c :: r =>
    if c = '$' then
      match name? r with
      | none => c :: expandChars lookup fuel r
      | some (name, width) =>
        let rest := expandChars lookup fuel (r.drop width)
        match lookup (String.ofList name) with
        | some value => value.toList ++ rest
        | none => c :: r.take width ++ rest
    else c :: expandChars lookup fuel r

/-- The names of the variables of a text, and perhaps more. -/
def mentioned (s : String) : List String :=
  ((splitAt '$' s.toList).drop 1).filterMap fun r => (name? r).map fun n => String.ofList n.1

def expand (lookup : String → Option String) (s : String) : String :=
  String.ofList (expandChars lookup s.length s.toList)

end OutOfBand.Variables
