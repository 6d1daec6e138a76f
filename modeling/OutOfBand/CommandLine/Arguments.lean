namespace OutOfBand.CommandLine

/-- An option: its name with two hyphens, a letter that stands for it after one, and whether a value
follows. -/
structure OptionRule where
  name : String
  letter : Option Char
  takesValue : Bool
  deriving DecidableEq, Repr

inductive UsageError where
  | noSuchOption (text : String)
  | missingValue (option : String)
  | noValueTaken (option : String)
  | missingOption (option : String)
  | notANumber (option text : String)
  | missingCommand
  | noSuchCommand (name : String)
  | extraArgument (text : String)
  deriving DecidableEq, Repr

def UsageError.message : UsageError → String
  | noSuchOption text => "no such option: " ++ text
  | missingValue option => "option " ++ option ++ " needs a value"
  | noValueTaken option => "option " ++ option ++ " takes no value"
  | missingOption option => "option " ++ option ++ " is missing"
  | notANumber option text => "option " ++ option ++ ": " ++ text ++ " is no number"
  | missingCommand => "a command is missing"
  | noSuchCommand name => "no such command: " ++ name
  | extraArgument text => "unexpected argument: " ++ text

/-- An option that was given, by its name, with its value if it takes one. -/
structure Setting where
  name : String
  value : Option String
  deriving DecidableEq, Repr

/-- What arguments say: options in their order, and the other arguments. -/
structure Arguments where
  settings : List Setting
  rest : List String
  deriving DecidableEq, Repr

namespace Arguments

def withSettings (ss : List Setting) (a : Arguments) : Arguments :=
  { a with settings := ss ++ a.settings }

def withArgument (s : String) (a : Arguments) : Arguments := { a with rest := s :: a.rest }

/-- The value of an option; that of the last one if it is given more than once. -/
def value? (a : Arguments) (name : String) : Option String :=
  (a.settings.reverse.find? fun s => s.name = name).bind (·.value)

def has (a : Arguments) (name : String) : Bool := a.settings.any fun s => s.name = name

end Arguments

/-- What one argument stands for: options that are complete, or options the last of which has its
value in the next argument. -/
inductive Piece where
  | complete (settings : List Setting)
  | open (settings : List Setting) (last : String)
  deriving DecidableEq, Repr

def Piece.withSetting (s : Setting) : Piece → Piece
  | complete ss => complete (s :: ss)
  | .open ss last => .open (s :: ss) last

/-- An option by its full name, whose value may stand behind an equals sign. -/
def readNamed? (rules : List OptionRule) (arg : String) : Option (Except UsageError Piece) :=
  let cs := arg.toList
  let name := String.ofList (cs.takeWhile (· ≠ '='))
  let tail := cs.dropWhile (· ≠ '=')
  (rules.find? fun r => r.name = name).map fun r =>
    if tail.isEmpty then
      .ok (if r.takesValue then .open [] name else .complete [⟨name, none⟩])
    else if r.takesValue then .ok (.complete [⟨name, some (String.ofList (tail.drop 1))⟩])
    else .error (.noValueTaken name)

/-- Options by their letters; what follows the letter of an option with a value is its value. -/
def readLetters (rules : List OptionRule) : List Char → Except UsageError Piece
  | [] => .ok (.complete [])
  | c :: rest =>
    match rules.find? fun r => r.letter = some c with
    | none => .error (.noSuchOption (String.ofList ['-', c]))
    | some r =>
      if !r.takesValue then (readLetters rules rest).map (Piece.withSetting ⟨r.name, none⟩)
      else if rest.isEmpty then .ok (.open [] r.name)
      else .ok (.complete [⟨r.name, some (String.ofList rest)⟩])

/-- An argument that begins with a hyphen. -/
def readOption (rules : List OptionRule) (arg : String) : Except UsageError Piece :=
  match readNamed? rules arg, arg.toList with
  | some r, _ => r
  | none, '-' :: c :: rest =>
    if c = '-' then .error (.noSuchOption arg) else readLetters rules (c :: rest)
  | none, _ => .error (.noSuchOption arg)

/-- Whether an argument is read as an option; a lone hyphen is not. -/
def isOption (arg : String) : Bool := arg.toList.head? = some '-' && arg ≠ "-"

/-- The options among arguments, up to two lone hyphens. Where options may not follow arguments,
they end at the first of those. -/
def readArguments (rules : List OptionRule) (anywhere : Bool) :
    List String → Except UsageError Arguments
  | [] => .ok ⟨[], []⟩
  | arg :: rest =>
    if arg = "--" then .ok ⟨[], rest⟩
    else if isOption arg then
      match readOption rules arg with
      | .error e => .error e
      | .ok (.complete ss) => (readArguments rules anywhere rest).map (·.withSettings ss)
      | .ok (.open ss last) =>
        match rest with
        | [] => .error (.missingValue last)
        | v :: rest =>
          (readArguments rules anywhere rest).map (·.withSettings (ss ++ [⟨last, some v⟩]))
    else if anywhere then (readArguments rules anywhere rest).map (·.withArgument arg)
    else .ok ⟨[], arg :: rest⟩

end OutOfBand.CommandLine
