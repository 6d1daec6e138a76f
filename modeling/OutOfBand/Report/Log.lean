namespace OutOfBand

inductive Level where
  | debug
  | info
  | warning
  | error
  | critical
  deriving DecidableEq, Repr

def Level.name : Level → String
  | debug => "DEBUG"
  | info => "INFO"
  | warning => "WARNING"
  | error => "ERROR"
  | critical => "CRITICAL"

/-- Levels by their weight. -/
def Level.weight : Level → Nat
  | debug => 10
  | info => 20
  | warning => 30
  | error => 40
  | critical => 50

structure LogLine where
  level : Level
  text : String
  deriving DecidableEq, Repr

abbrev Log := List LogLine

/-- A computation that may fail and leaves log lines either way. -/
abbrev Logged (ε : Type) := ExceptT ε (StateM Log)

def say {ε : Type} (level : Level) (text : String) : Logged ε Unit :=
  modify (· ++ [⟨level, text⟩])

def debug {ε : Type} (text : String) : Logged ε Unit := say .debug text

/-- A computation without log lines. -/
def silently {ε α : Type} : Except ε α → Logged ε α
  | .ok a => pure a
  | .error e => throw e

/-- A computation whose failure is one of a larger kind. -/
def Logged.within {ε ε' α : Type} (f : ε → ε') (c : Logged ε α) : Logged ε' α := ExceptT.adapt f c

end OutOfBand
