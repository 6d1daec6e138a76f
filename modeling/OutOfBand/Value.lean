import OutOfBand.Calendar

/-!
Values of data files: what a document, a settings file or the body of a reply may hold. Mappings
keep their order of insertion, and their keys may be any scalar.
-/

namespace OutOfBand

inductive Value where
  | null
  | bool (b : Bool)
  | int (n : Int)
  | float (x : Float)
  | str (s : String)
  | bytes (bs : List UInt8)
  | date (d : Date)
  | moment (t : Moment)
  | list (xs : List Value)
  | pair (a b : Value)
  | set (xs : List Value)
  | map (entries : List (Value × Value))
  /-- The mapping, or else the list, that the value is part of itself. -/
  | enclosing (mapping : Bool)
  deriving Inhabited, Repr

namespace Value

/-- The number that a value stands for in a comparison: truth values count as zero and one. -/
def number? : Value → Option (Int ⊕ Float)
  | bool b => some (.inl (if b then 1 else 0))
  | int n => some (.inl n)
  | float x => match floatInt? x with
    | some n => some (.inl n)
    | none => some (.inr x)
  | _ => none

def sameNumber : Int ⊕ Float → Int ⊕ Float → Bool
  | .inl m, .inl n => m = n
  | .inr x, .inr y => x == y
  | _, _ => false

/-- The number that equals no number counts as one and the same wherever values are compared as
items of a collection. -/
def bothNaN (a b : Value) : Bool :=
  match a.number?, b.number? with
  | some (.inr x), some (.inr y) => x.isNaN && y.isNaN
  | _, _ => false

mutual
/-- Equality of values: numbers by value whatever their kind, mappings and sets without regard to
order. -/
def same : Value → Value → Bool
  | null, null => true
  | str s, str t => s = t
  | bytes s, bytes t => s = t
  | date d, date e => d = e
  | moment s, moment t => s.same t
  | pair a b, pair c d => (same a c || bothNaN a c) && (same b d || bothNaN b d)
  | list xs, list ys => sameList xs ys
  | set xs, set ys => xs.length = ys.length && allIn xs ys
  | map xs, map ys => xs.length = ys.length && allEntriesIn xs ys
  | a, b => match a.number?, b.number? with
    | some m, some n => sameNumber m n
    | _, _ => false
termination_by structural v => v
def sameList : List Value → List Value → Bool
  | [], [] => true
  | x :: xs, y :: ys => (same x y || bothNaN x y) && sameList xs ys
  | _, _ => false
termination_by structural xs => xs
def allIn : List Value → List Value → Bool
  | [], _ => true
  | x :: xs, ys => ys.any (fun y => same x y || bothNaN x y) && allIn xs ys
termination_by structural xs => xs
def allEntriesIn : List (Value × Value) → List (Value × Value) → Bool
  | [], _ => true
  | x :: xs, ys => ys.any (sameEntry x) && allEntriesIn xs ys
termination_by structural xs => xs
def sameEntry : Value × Value → Value × Value → Bool
  | (k, v), (k', v') => (same k k' || bothNaN k k') && (same v v' || bothNaN v v')
termination_by structural e => e
end

/-- Whether two values are one item of a collection, or one key. -/
def alike (a b : Value) : Bool := same a b || bothNaN a b

/-- Whether a value counts as given: not null, false, zero or empty. -/
def isGiven : Value → Bool
  | null => false
  | bool b => b
  | int n => n ≠ 0
  | float x => !(x == 0)
  | str s => !s.isEmpty
  | bytes bs => !bs.isEmpty
  | list xs => !xs.isEmpty
  | set xs => !xs.isEmpty
  | map es => !es.isEmpty
  | _ => true

/-- A value that may be the key of a mapping. -/
def isKey : Value → Bool
  | list _ | set _ | map _ | enclosing _ => false
  | pair a b => isKey a && isKey b
  | _ => true

def asString? : Value → Option String
  | str s => some s
  | _ => none

mutual
/-- A value with every text in its lists and mappings changed. -/
def mapTexts (f : String → String) : Value → Value
  | str s => str (f s)
  | list xs => list (mapItems f xs)
  | map es => map (mapEntries f es)
  | v => v
def mapItems (f : String → String) : List Value → List Value
  | [] => []
  | x :: xs => mapTexts f x :: mapItems f xs
def mapEntries (f : String → String) : List (Value × Value) → List (Value × Value)
  | [] => []
  | (k, v) :: es => (mapTexts f k, mapTexts f v) :: mapEntries f es
end

/-- The name of a value's kind in messages. -/
def kindName : Value → String
  | null => "NoneType"
  | bool _ => "bool"
  | int _ => "int"
  | float _ => "float"
  | str _ => "str"
  | bytes _ => "bytes"
  | date _ => "date"
  | moment _ => "datetime"
  | list _ => "list"
  | pair _ _ => "tuple"
  | set _ => "set"
  | map _ | enclosing true => "dict"
  | enclosing false => "list"

end Value

/-- The entries of a mapping in order of insertion. -/
abbrev Entries := List (Value × Value)

namespace Entries

def find? (es : Entries) (key : Value) : Option Value :=
  (List.find? (fun e => key.alike e.1) es).map (·.2)

def get? (es : Entries) (key : String) : Option Value := find? es (.str key)

/-- A key that is there keeps its place and its first spelling. -/
def insert : Entries → Value → Value → Entries
  | [], k, v => [(k, v)]
  | (k', v') :: r, k, v => if k.alike k' then (k', v) :: r else (k', v') :: insert r k v

/-- A set of keys with one more. -/
def addKey (ks : List Value) (k : Value) : List Value :=
  if ks.any k.alike then ks else ks ++ [k]

end Entries

/-- The value at a text key of a mapping; none for a value of another kind. -/
def Value.get? : Value → String → Option Value
  | .map es, k => Entries.get? es k
  | _, _ => none

end OutOfBand
