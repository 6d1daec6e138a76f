import OutOfBand.Settings.Basic
import OutOfBand.Redfish.System

namespace OutOfBand

/-- What a client is made from. -/
structure ClientSpec where
  address : String
  insecure : Bool
  useProxy : Bool
  username : String
  password : String
  retries : Int
  delay : Float
  deriving Repr

/-- How clients of one type are made; an address may be refused. -/
abbrev Constructor (γ : Type) := ClientSpec → Except Redfish.InvalidAddress γ

/-- The constructors by their types, each type once. -/
structure Vendors (γ : Type) where
  constructors : List (String × Constructor γ)

namespace Vendors

variable {γ : Type}

def none : Vendors γ := ⟨[]⟩

/-- A type that is there already takes the new constructor. -/
def register (v : Vendors γ) (type : String) (c : Constructor γ) : Vendors γ :=
  ⟨v.constructors.filter (·.1 ≠ type) ++ [(type, c)]⟩

def constructor? (v : Vendors γ) (type : String) : Option (Constructor γ) :=
  (v.constructors.find? (·.1 = type)).map (·.2)

/-- The same types, with clients made of those that were made before. -/
def map {δ : Type} (f : γ → δ) (v : Vendors γ) : Vendors δ :=
  ⟨v.constructors.map fun (type, make) => (type, fun spec => (make spec).map f)⟩

def types (v : Vendors γ) : List String := (v.constructors.map (·.1)).mergeSort fun a b => a ≤ b

def find (v : Vendors γ) (type : String) : Except SettingsError (Constructor γ) :=
  match v.constructor? type with
  | some c => .ok c
  | .none => .error (.unknownType type v.types)

def ensure (v : Vendors γ) (type : String) : Except SettingsError Unit := do
  let _ ← v.find type

end Vendors

/-- Settings whose fields agree with each other and whose type is known. -/
def Management.validate {γ : Type} (m : Management) (v : Vendors γ) :
    Except SettingsError Unit := do
  m.check
  v.ensure m.type

/-- The specification of a client under management settings. -/
def Management.specOf (m : Management) (address username password : String) : ClientSpec :=
  ⟨address, m.insecure, m.useProxy, username, password, m.retries, m.delay⟩

namespace Redfish.System

/-- How long a reply is waited for, unless the call ends before. -/
def standardTimeout : Float := 30.0

def ofSpec {τ : Type} (seconds : Float → τ) (dialect : Dialect) (spec : ClientSpec) :
    Except InvalidAddress (System τ) := do
  return {
    given := spec.address
    address := ← Address.parse spec.address
    dialect := dialect
    session := Session.ofUser spec.insecure spec.useProxy spec.username spec.password
    retries := spec.retries
    delay := seconds spec.delay
    requestTimeout := seconds standardTimeout }

end Redfish.System

/-- The types that are known from the start. -/
def Vendors.builtIn {τ : Type} (seconds : Float → τ) : Vendors (Redfish.System τ) :=
  let add (v : Vendors (Redfish.System τ)) (d : Redfish.Dialect) :=
    v.register d.type (Redfish.System.ofSpec seconds d)
  add (add .none .standard) .dell

end OutOfBand
