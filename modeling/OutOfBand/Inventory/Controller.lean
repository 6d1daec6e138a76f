import OutOfBand.Inventory.Bundle
import OutOfBand.Text.Base64

namespace OutOfBand

structure Credentials where
  username : String
  password : String
  deriving DecidableEq, Repr, Inhabited

namespace Controller

def titleOf (d : Document) : Except DocumentError String := Query.liftShape d.title

def fieldError {α : Type} (d : Document) (field reason : String) : Except DocumentError α := do
  throw (.field (← titleOf d) field reason)

/-- The address is a text that is not empty. -/
def address (d : Document) : Except DocumentError String :=
  match d.get? "spec.bmc.address" with
  | some (.str s) => if s.isEmpty then fieldError d "spec.bmc.address" "is missing" else .ok s
  | _ => fieldError d "spec.bmc.address" "is missing"

/-- The plain value of a key, if the plain data hold it. -/
def plainValue? (data : Value) (key : String) : Except ShapeFault (Option Value) :=
  let absentOr (found : Bool) : Except ShapeFault (Option Value) :=
    if found then .error (.notIndexable data) else .ok none
  match data with
  | .map es => .ok (Entries.get? es key)
  | .str s => absentOr (hasSub key.toList s.toList)
  | .list vs | .set vs => absentOr (vs.any (Value.alike (.str key)))
  | .pair a b => absentOr ([a, b].any (Value.alike (.str key)))
  | v => .error (.notSearchable v)

/-- The text that Base64 of UTF-8 stands for. -/
def decode? (encoded : String) : Option String := do
  String.fromUTF8? (← Base64.decode? encoded.toList).toByteArray

/-- The text that the encoded data of a secret hold under a key. -/
def decoded (secret : Document) (key : String) : Option Value → Except DocumentError String
  | none | some .null => fieldError secret ("data." ++ key) "is missing"
  | some v =>
    let encoded := v.text
    if encoded.toList.any (128 ≤ ·.toNat) then .error (.shape .notAscii)
    else match decode? encoded with
      | some s => .ok s
      | none => fieldError secret ("data." ++ key) "is not valid base64"

/-- A value of a secret: plain, or encoded, where it has no plain one. -/
def secretValue (secret : Document) (key : String) : Except DocumentError String := do
  let plain := orElse (secret.get? "stringData") (.map [])
  match ← Query.liftShape (plainValue? plain key) with
  | some v => return v.text
  | none =>
    let data := orElse (secret.get? "data") (.map [])
    decoded secret key (← Query.liftShape (data.member key))

/-- The secret that a host names, in the host's namespace if it has one. -/
def secretQuery (d : Document) (name : Value) : Except DocumentError Query := do
  let q := (Query.ofKind secretKind).withName name
  let ns ← Query.liftShape d.namespaceOf
  return if ns.isGiven then q.withNamespace ns else q

def credentials (d : Document) (b : Bundle) : Except DocumentError Credentials := do
  match d.get? "spec.bmc.credentialsName" with
  | none => fieldError d "spec.bmc.credentialsName" "is missing"
  | some name =>
    if !name.isGiven then fieldError d "spec.bmc.credentialsName" "is missing"
    else
      let secret ← b.selectOne (← secretQuery d name)
      return ⟨← secretValue secret "username", ← secretValue secret "password"⟩

end Controller

end OutOfBand
