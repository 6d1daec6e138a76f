import OutOfBand.Text.Blank

namespace OutOfBand

/-- Labels by key; of two entries of one key the first counts. -/
abbrev Labels := List (String × String)

/-- A set of texts in ascending order. -/
def insertText (v : String) : List String → List String
  | [] => [v]
  | w :: r => if v = w then w :: r else if v < w then v :: w :: r else w :: insertText v r

def textSet (vs : List String) : List String := vs.foldr insertText []

inductive Condition where
  | equal (value : String)
  | unequal (value : String)
  | within (values : List String)
  | without (values : List String)
  | present
  | absent
  deriving DecidableEq, Repr

structure Requirement where
  key : String
  condition : Condition
  deriving DecidableEq, Repr

namespace Condition

/-- How a condition is called in an expression. -/
def operator : Condition → String
  | equal _ => "="
  | unequal _ => "!="
  | within _ => "in"
  | without _ => "notin"
  | present => "exists"
  | absent => "!exists"

def values : Condition → List String
  | equal v | unequal v => [v]
  | within vs | without vs => vs
  | present | absent => []

/-- A condition on the value of a key that may be missing; the two negative ones hold then. -/
def holds : Condition → Option String → Bool
  | equal v, found => found = some v
  | within vs, found => found.any vs.contains
  | unequal v, found => found ≠ some v
  | without vs, found => !found.any vs.contains
  | present, found => found.isSome
  | absent, found => found.isNone

end Condition

def Labels.find? (ls : Labels) (key : String) : Option String :=
  (List.find? (fun l => l.1 = key) ls).map (·.2)

def Requirement.holds (r : Requirement) (ls : Labels) : Bool := r.condition.holds (ls.find? r.key)

def holdAll (rs : List Requirement) (ls : Labels) : Bool := rs.all (·.holds ls)

end OutOfBand
