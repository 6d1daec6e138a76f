import OutOfBand.Value
import OutOfBand.Text.Quoted

namespace OutOfBand

/-- The words of the value format that name no digits, quotes or brackets. -/
structure ValueFormat where
  null : String
  yes : String
  no : String
  emptySet : String
  deriving Repr

def ValueFormat.plain : ValueFormat := ⟨"None", "True", "False", "set()"⟩

/-- A length of whole minutes, shorter than a day, as days and seconds. -/
def offsetShown (o : Int) : String :=
  if o = 0 then "datetime.timezone.utc"
  else
    let length :=
      if o < 0 then "days=-1, seconds=" ++ intText (86400 + o * 60)
      else "seconds=" ++ intText (o * 60)
    "datetime.timezone(datetime.timedelta(" ++ length ++ "))"

def Date.shown (d : Date) : String :=
  "datetime.date(" ++ joinWith ", " ([d.year, d.month, d.day].map natText) ++ ")"

/-- Seconds and microseconds are shown as far as one of them is not zero. -/
def Moment.shown (t : Moment) : String :=
  let small :=
    if t.micro ≠ 0 then [t.second, t.micro] else if t.second ≠ 0 then [t.second] else []
  let fields := [t.date.year, t.date.month, t.date.day, t.hour, t.minute] ++ small
  let zone := match t.offset with
    | none => []
    | some o => ["tzinfo=" ++ offsetShown o]
  "datetime.datetime(" ++ joinWith ", " (fields.map natText ++ zone) ++ ")"

namespace Value

def boolText (b : Bool) : String := if b then ValueFormat.plain.yes else ValueFormat.plain.no

mutual
/-- The form that a value takes inside a collection. -/
def shown : Value → String
  | null => ValueFormat.plain.null
  | bool b => boolText b
  | int n => intText n
  | float x => floatText x
  | str s => quoted s
  | bytes bs => quotedBytes bs
  | date d => d.shown
  | moment t => t.shown
  | list xs => "[" ++ joinWith ", " (shownList xs) ++ "]"
  | pair a b => "(" ++ shown a ++ ", " ++ shown b ++ ")"
  | set [] => ValueFormat.plain.emptySet
  | set xs => "\x7b" ++ joinWith ", " (shownList xs) ++ "\x7d"
  | map es => "\x7b" ++ joinWith ", " (shownEntries es) ++ "\x7d"
  | enclosing true => "\x7b...\x7d"
  | enclosing false => "[...]"
def shownList : List Value → List String
  | [] => []
  | x :: xs => shown x :: shownList xs
def shownEntries : List (Value × Value) → List String
  | [] => []
  | (k, v) :: es => (shown k ++ ": " ++ shown v) :: shownEntries es
end

/-- The text of a value that stands alone. -/
def text : Value → String
  | str s => s
  | date d => d.text
  | moment t => t.text " "
  | v => v.shown

end Value

end OutOfBand
