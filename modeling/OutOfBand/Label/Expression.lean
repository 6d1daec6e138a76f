import OutOfBand.Label

namespace OutOfBand

/-- Why an expression is none: a parenthesis without a partner, or a term of no known form. -/
inductive LabelError where
  | unopened (expression : String)
  | unclosed (expression : String)
  | badTerm (term : String)
  deriving DecidableEq, Repr

def LabelError.message : LabelError → String
  | unopened e => "unbalanced ')' in label selector '" ++ e ++ "'"
  | unclosed e => "unbalanced '(' in label selector '" ++ e ++ "'"
  | badTerm t => "invalid label selector term '" ++ t ++ "'"

namespace Label

inductive Imbalance where
  | unopened
  | unclosed
  deriving DecidableEq, Repr

/-- One more character of the first piece. -/
def extend (c : Char) : List (List Char) → List (List Char)
  | [] => [[c]]
  | p :: ps => (c :: p) :: ps

/-- The pieces between the commas that stand outside parentheses. -/
def pieces : Nat → List Char → Except Imbalance (List (List Char))
  | 0, [] => .ok [[]]
  | _ + 1, [] => .error .unclosed
  | depth, c :: r =>
    if c = '(' then (pieces (depth + 1) r).map (extend c)
    else if c = ')' then
      match depth with
      | 0 => .error .unopened
      | depth + 1 => (pieces depth r).map (extend c)
    else if c = ',' ∧ depth = 0 then (pieces 0 r).map ([] :: ·)
    else (pieces depth r).map (extend c)

/-- The terms of an expression without the blanks around them; empty ones do not count. -/
def terms (s : List Char) : Except Imbalance (List (List Char)) :=
  (pieces 0 s).map fun ps => (ps.map trim).filter (!·.isEmpty)

/-- Characters of the key of a set term. -/
def isSetKeyChar (c : Char) : Bool := !(isBlank c || "!=,()".toList.contains c)

/-- What follows a word and the blanks that must stand after it. -/
def afterWord? (word : List Char) (s : List Char) : Option (List Char) :=
  if word.isPrefixOf s && (s.drop word.length).head?.any isBlank then
    some ((s.drop word.length).dropWhile isBlank)
  else none

/-- The text between an opening parenthesis and the closing one that ends a term. -/
def inParentheses? (s : List Char) : Option (List Char) :=
  match s with
  | '(' :: r =>
    let body := r.takeWhile fun c => c ≠ '(' && c ≠ ')'
    if r.drop body.length = [')'] then some body else none
  | _ => none

/-- The members of a set, without blanks around them and without empty ones. -/
def members (body : List Char) : List String :=
  textSet ((((splitAt ',' body).map trim).filter (!·.isEmpty)).map String.ofList)

/-- A term `key in (…)` or `key notin (…)`. -/
def setTerm? (term : List Char) : Option Requirement := do
  let key := term.takeWhile isSetKeyChar
  if key.isEmpty then none
  let r ← afterWord? [] (term.drop key.length)
  match afterWord? "in".toList r, afterWord? "notin".toList r with
  | some r, _ => return ⟨String.ofList key, .within (members (← inParentheses? r))⟩
  | none, some r => return ⟨String.ofList key, .without (members (← inParentheses? r))⟩
  | none, none => none

/-- A term without parentheses, before its key is checked. -/
def plainTerm (term : List Char) : List Char × Condition :=
  match term with
  | '!' :: r => (r, .absent)
  | _ =>
    let value (s : List Char) : String := String.ofList (trim s)
    match cutAt "!=".toList term, cutAt "==".toList term, cutAt "=".toList term with
    | some (k, v), _, _ => (k, .unequal (value v))
    | none, some (k, v), _ => (k, .equal (value v))
    | none, none, some (k, v) => (k, .equal (value v))
    | none, none, none => (term, .present)

/-- Characters that no key holds. -/
def isForbidden (c : Char) : Bool := " =!()".toList.contains c

def isKey (key : List Char) : Bool := !key.isEmpty && !key.any isForbidden

def parseTerm (term : List Char) : Except LabelError Requirement :=
  match setTerm? term with
  | some r => .ok r
  | none =>
    let (k, condition) := plainTerm term
    let key := trim k
    if isKey key then .ok ⟨String.ofList key, condition⟩
    else .error (.badTerm (String.ofList term))

/-- The requirements of an expression; the empty one has none. -/
def parse (expression : String) : Except LabelError (List Requirement) :=
  match terms expression.toList with
  | .error .unopened => .error (.unopened expression)
  | .error .unclosed => .error (.unclosed expression)
  | .ok ts => ts.mapM parseTerm

end Label

end OutOfBand
