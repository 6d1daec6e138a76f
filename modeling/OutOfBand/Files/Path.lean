import OutOfBand.Text.Blank

/-!
Paths of a file system: a root, if the path is absolute, and the names below it. Empty names and
single points are no part of a path; double points are, until the path is looked up.
-/

namespace OutOfBand

structure Path where
  /-- Empty for a relative path; two slashes at the start stay two. -/
  root : String
  names : List String
  deriving DecidableEq, Repr, Inhabited

namespace Path

def isName (s : List Char) : Bool := !s.isEmpty && s ≠ ['.']

def namesOf (s : List Char) : List String :=
  ((splitAt '/' s).filter isName).map String.ofList

def rootOf : List Char → String
  | ['/', '/'] => "//"
  | '/' :: '/' :: c :: _ => if c = '/' then "/" else "//"
  | '/' :: _ => "/"
  | _ => ""

def ofText (s : String) : Path := ⟨rootOf s.toList, namesOf s.toList⟩

def isAbsolute (p : Path) : Bool := !p.root.isEmpty

def text (p : Path) : String :=
  if p.root.isEmpty && p.names.isEmpty then "." else p.root ++ joinWith "/" p.names

/-- The second path seen from the first; an absolute one stands for itself. -/
def join (p q : Path) : Path := if q.isAbsolute then q else ⟨p.root, p.names ++ q.names⟩

def child (p : Path) (name : String) : Path := ⟨p.root, p.names ++ [name]⟩

def parent (p : Path) : Path := ⟨p.root, p.names.dropLast⟩

def name (p : Path) : String := p.names.getLast?.getD ""

/-- Where the last point of a name stands, if it parts a stem from an ending. -/
def endingAt? (name : List Char) : Option Nat :=
  let after := name.reverse.takeWhile (· ≠ '.')
  let i := name.length - after.length
  if after.isEmpty || i < 2 then none else some (i - 1)

/-- The ending of a path's last name with its point; empty if there is none. -/
def ending (p : Path) : String :=
  let cs := p.name.toList
  match endingAt? cs with
  | some i => String.ofList (cs.drop i)
  | none => ""

/-- The path with another ending of its last name. -/
def withEnding (p : Path) (ending : String) : Path :=
  let cs := p.name.toList
  let stem := match endingAt? cs with
    | some i => cs.take i
    | none => cs
  ⟨p.root, p.names.dropLast ++ [String.ofList stem ++ ending]⟩

/-- Names in order, the root counting as the first. -/
def parts (p : Path) : List String := if p.isAbsolute then p.root :: p.names else p.names

/-- Order of two lists of names: by the first that differs, a beginning before what it begins. -/
def partsLe : List String → List String → Bool
  | [], _ => true
  | _ :: _, [] => false
  | a :: as, b :: bs => if a = b then partsLe as bs else a < b

def le (p q : Path) : Bool := partsLe p.parts q.parts

/-- A path whose first name is a tilde, with the home directory in its place. Other users' homes are
not known. -/
def expandHome? (home : String) (p : Path) : Option Path :=
  match p.root, p.names with
  | "", first :: rest =>
    if first.toList.head? = some '~' then
      if first = "~" then
        let trimmed := dropEndWhile (· = '/') home.toList
        let base := if trimmed.isEmpty then "/" else String.ofList trimmed
        if base.toList.head? = some '~' then none
        else
          let b := ofText base
          some ⟨b.root, b.names ++ rest⟩
      else none
    else some p
  | _, _ => some p

end Path

end OutOfBand
