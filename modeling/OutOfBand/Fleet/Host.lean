import OutOfBand.Inventory.Document
import OutOfBand.Inventory.Controller
import OutOfBand.Remote.Client

namespace OutOfBand

structure Host (γ : Type) where
  name : Value
  address : String
  client : γ
  credentials : Credentials

namespace Host

/-- The host without its client and its credentials. -/
def shown {γ : Type} (h : Host γ) : String :=
  "BaremetalHost(name=" ++ h.name.shown ++ ", bmc_address=" ++ quoted h.address ++ ")"

variable {τ α : Type}

/-- An operation of the client; its failures name the host. -/
def call (h : Host (Client τ)) (operation : Client τ → Run τ α) : Run τ α :=
  tryCatch (operation h.client) fun
    | .remote e => throw (.remote (e.onHost h.name.text))
    | f => throw f

end Host

end OutOfBand
