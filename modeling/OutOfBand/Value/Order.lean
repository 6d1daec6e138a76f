import OutOfBand.Value

/-!
The order of values that are sorted as names are: texts by their characters, numbers by value,
moments in time, lists by the first items that differ. Values of different kinds have no order.
-/

namespace OutOfBand.Value

def numberLt : Int ⊕ Float → Int ⊕ Float → Bool
  | .inl m, .inl n => m < n
  | .inl m, .inr y => intFloat m < y
  | .inr x, .inl n => x < intFloat n
  | .inr x, .inr y => x < y

mutual
/-- Whether the first of two values comes before the second; none if they have no order. -/
def before? : Value → Value → Option Bool
  | str s, str t => some (s < t)
  | bytes s, bytes t => some (s.map UInt8.toNat < t.map UInt8.toNat)
  | date d, date e => some (d.ordinal < e.ordinal)
  | moment s, moment t =>
    if s.offset.isSome = t.offset.isSome then some (s.micros < t.micros) else none
  | list xs, list ys => listBefore? xs ys
  | a, b => match a.number?, b.number? with
    | some m, some n => some (numberLt m n)
    | _, _ => none
def listBefore? : List Value → List Value → Option Bool
  | [], ys => some (!ys.isEmpty)
  | _ :: _, [] => some false
  | x :: xs, y :: ys => if x.alike y then listBefore? xs ys else before? x y
end

/-- Whether a value has an order with another one. -/
def isComparable (v w : Value) : Bool := (before? v w).isSome

/-- The values in order; none if there are some without an order. -/
def sorted? (vs : List Value) : Option (List Value) :=
  match vs with
  | v :: w :: rest =>
    if (w :: rest).all v.isComparable then
      some (vs.mergeSort fun a b => before? b a ≠ some true)
    else none
  | vs => some vs

end OutOfBand.Value
