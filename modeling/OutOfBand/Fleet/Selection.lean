import OutOfBand.Fleet.Host
import OutOfBand.Inventory.Bundle

namespace OutOfBand

inductive HostSelector where
  | byName (name : String)
  | byLabel (expression : String)
  deriving DecidableEq, Repr

namespace HostSelector

def shown : HostSelector → String
  | byName name => "ByName(name=" ++ quoted name ++ ")"
  | byLabel e => "ByLabel(label=" ++ quoted e ++ ")"

/-- The documents that a selector matches: exactly one by name, one or more by labels. -/
def documents (s : HostSelector) (b : Bundle) : Except DocumentError (List Document) := do
  let hosts := Query.ofKind baremetalHostKind
  match s with
  | byName name => return [← b.selectOne (hosts.withName (.str name))]
  | byLabel e =>
    match hosts.withLabel e with
    | .error f => throw (.label f)
    | .ok q =>
      match ← b.select q with
      | [] => throw (.notFound q)
      | ds => return ds

/-- A text that is not empty. -/
def given? (s : Option String) : Option String := s.filter (!·.isEmpty)

/-- The selectors of a request for hosts: labels narrow first, then a name; without either, a
default expression selects. -/
def ofRequest (name labels : Option String) (default : String) : List HostSelector :=
  match ((given? labels).map byLabel).toList ++ ((given? name).map byName).toList with
  | [] => [byLabel default]
  | ss => ss

end HostSelector

namespace Host

variable {γ : Type}

/-- The first host of each name, but for names that were seen before. -/
def firsts (seen : List Value) : List (Host γ) → List (Host γ)
  | [] => []
  | h :: r =>
    if seen.any h.name.alike then firsts seen r else h :: firsts (seen ++ [h.name]) r

/-- New hosts after earlier ones: the first of each name, and of those the ones whose names the
earlier ones have. Without a selection before, all are left. -/
def reconcile (earlier : Option (List (Host γ))) (new : List (Host γ)) : List (Host γ) :=
  match earlier with
  | none => firsts [] new
  | some hs => (firsts [] new).filter fun h => hs.any fun k => h.name.alike k.name

/-- Names that can be told apart. -/
def checkNames (hosts : List (Host γ)) : Except ShapeFault Unit :=
  match hosts.find? fun h => !h.name.isKey with
  | some h => .error (.notAKey h.name)
  | none => .ok ()

end Host

end OutOfBand
