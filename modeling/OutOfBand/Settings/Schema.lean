import OutOfBand.Value.Text
import OutOfBand.Decimal.Reading

/-!
Checking values against a schema: each reader gives a typed value or every fault of the value, with
the path to it. Numbers and truth values are also read from texts that write them.
-/

namespace OutOfBand

/-- What is wrong with a value that a schema reads. -/
inductive Problem where
  | missing
  | stringType
  | stringUnicode
  | boolType
  | boolParsing
  | intType
  | intParsing
  | intParsingSize
  | intFromFloat
  | finiteNumber
  | floatType
  | floatParsing
  | modelType
  | dictType
  deriving DecidableEq, Repr

def Problem.code : Problem → String
  | missing => "missing"
  | stringType => "string_type"
  | stringUnicode => "string_unicode"
  | boolType => "bool_type"
  | boolParsing => "bool_parsing"
  | intType => "int_type"
  | intParsing => "int_parsing"
  | intParsingSize => "int_parsing_size"
  | intFromFloat => "int_from_float"
  | finiteNumber => "finite_number"
  | floatType => "float_type"
  | floatParsing => "float_parsing"
  | modelType => "model_type"
  | dictType => "dict_type"

structure FieldFault where
  path : List String
  problem : Problem
  deriving DecidableEq, Repr

/-- A value of a type, or all faults found. -/
abbrev Checked := Except (List FieldFault)

namespace Checked

def fault {α : Type} (p : Problem) : Checked α := .error [⟨[], p⟩]

/-- The faults below a step of the path. -/
def within {α : Type} (step : String) : Checked α → Checked α
  | .ok a => .ok a
  | .error fs => .error (fs.map fun f => { f with path := step :: f.path })

/-- Two checks, both of which are made. -/
def both {α β γ : Type} (f : α → β → γ) : Checked α → Checked β → Checked γ
  | .ok a, .ok b => .ok (f a b)
  | .ok _, .error fs => .error fs
  | .error fs, .ok _ => .error fs
  | .error fs, .error gs => .error (fs ++ gs)

def all {α : Type} : List (Checked α) → Checked (List α)
  | [] => .ok []
  | c :: cs => both (· :: ·) c (all cs)

end Checked

namespace Schema

open Checked

/-- A text, or the bytes of one. -/
def text : Value → Checked String
  | .str s => .ok s
  | .bytes bs => match String.fromUTF8? bs.toByteArray with
    | some s => .ok s
    | none => fault .stringUnicode
  | _ => fault .stringType

/-- The text that a number or a truth value may be read from. -/
def numeral? (bad : Problem) : Value → Option (Checked String)
  | .str s => some (.ok s)
  | .bytes bs => some (match String.fromUTF8? bs.toByteArray with
    | some s => .ok s
    | none => fault bad)
  | _ => none

def truthWord? (s : String) : Option Bool :=
  match String.ofList (lowerAscii s.toList) with
  | "1" | "t" | "y" | "on" | "yes" | "true" => some true
  | "0" | "f" | "n" | "no" | "off" | "false" => some false
  | _ => none

def inWord (n : Int) : Bool := -(Nat.pow 2 63 : Nat) ≤ n && n < (Nat.pow 2 63 : Nat)

def truthOfInt (n : Int) : Checked Bool :=
  if n = 0 then .ok false else if n = 1 then .ok true else fault .boolParsing

/-- A truth value, a word for one, zero or one. -/
def truth (v : Value) : Checked Bool :=
  match v, numeral? .boolParsing v with
  | .bool b, _ => .ok b
  | _, some s => do
    match truthWord? (← s) with
    | some b => return b
    | none => fault .boolParsing
  | .int n, _ => if inWord n then truthOfInt n else fault .boolType
  | .float x, _ => match floatInt? x with
    | some n => if inWord n then truthOfInt n else fault .boolType
    | none => fault .boolType
  | _, _ => fault .boolType

/-- A text of digits with a sign, underscores between digits and zeros after a point. -/
def intOfText? (s : List Char) : Option Int :=
  let s := trimWith isSpace s
  let whole := s.takeWhile (· ≠ '.')
  let zeros := (s.drop whole.length).drop 1
  if zeros.all (· = '0') then
    let (negative, ds) := takeSign whole
    (dropUnderscores? Char.isDigit ds).bind fun ds =>
      if ds.all Char.isDigit then (digitsValue? 10 ds).map (signed negative) else none
  else none

/-- A whole number, also as a text or as a float without a fraction. -/
def integer (v : Value) : Checked Int :=
  match v, numeral? .intParsing v with
  | .int n, _ => .ok n
  | .bool b, _ => .ok (if b then 1 else 0)
  | _, some s => do
    let s ← s
    if 4300 < s.length then fault .intParsingSize
    else match intOfText? s.toList with
      | some n => return n
      | none => fault .intParsing
  | .float x, _ =>
    if x.isNaN || x.isInf then fault .finiteNumber
    else match floatInt? x with
      | some n => if inWord n then .ok n else fault .intParsingSize
      | none => fault .intFromFloat
  | _, _ => fault .intType

/-- A text that writes a number, with blanks around and underscores between digits. -/
def floatOfText? (s : List Char) : Option Float :=
  let s := trimWith isSpace s
  match readFloat? s with
  | some x => some x
  | none => (dropUnderscores? Char.isDigit s).bind readFloat?

def number (v : Value) : Checked Float :=
  match v, numeral? .floatParsing v with
  | .float x, _ => .ok x
  | .bool b, _ => .ok (if b then 1 else 0)
  | .int n, _ =>
    let x := intFloat n
    if x.isInf then fault .floatType else .ok x
  | _, some s => do
    match floatOfText? (← s).toList with
    | some x => return x
    | none => fault .floatParsing
  | _, _ => fault .floatType

/-- The two names that a field may have: the one of settings files and the plain one. -/
structure FieldName where
  label : String
  plain : String
  deriving DecidableEq, Repr

/-- A field by one of its names, the label first; a missing field has a value of its own, or is a
fault under its label. -/
def field {α : Type} (es : Entries) (name : FieldName) (read : Value → Checked α)
    (otherwise : Option α) : Checked α :=
  match es.get? name.label, es.get? name.plain with
  | some v, _ => within name.label (read v)
  | none, some v => within name.plain (read v)
  | none, none => match otherwise with
    | some a => .ok a
    | none => within name.label (fault .missing)

def record {α : Type} (read : Entries → Checked α) : Value → Checked α
  | .map es => read es
  | _ => fault .modelType

/-- The text of a key in a path. -/
def keyText : Value → String
  | .str s => s
  | .bool b => if b then "1" else "0"
  | v => v.shown

/-- A key that is there keeps its place and takes the new value. -/
def put {α : Type} : List (String × α) → String → α → List (String × α)
  | [], k, v => [(k, v)]
  | (k', v') :: r, k, v => if k = k' then (k, v) :: r else (k', v') :: put r k v

/-- A mapping from texts; every key and every value is checked. -/
def table {α : Type} (read : Value → Checked α) : Value → Checked (List (String × α))
  | .map es =>
    let entry (e : Value × Value) : Checked (String × α) :=
      within (keyText e.1) (both Prod.mk (within "[key]" (text e.1)) (read e.2))
    (all (es.map entry)).map fun kvs => kvs.foldl (fun t (k, v) => put t k v) []
  | _ => fault .dictType

end Schema

end OutOfBand
