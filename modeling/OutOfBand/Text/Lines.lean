import OutOfBand.Text.Blank

namespace OutOfBand

/-- Every carriage return, alone or before a line feed, is read as one line feed. -/
def unifyLines : List Char → List Char
  | '\r' :: '\n' :: r => '\n' :: unifyLines r
  | '\r' :: r => '\n' :: unifyLines r
  | c :: r => c :: unifyLines r
  | [] => []

/-- The text of a file; none if its bytes are not UTF-8. -/
def textOfBytes? (bs : ByteArray) : Option String :=
  (String.fromUTF8? bs).map fun s => String.ofList (unifyLines s.toList)

/-- Lines, each with a line feed at its end. -/
def linesText (ls : List String) : String := String.join (ls.map (· ++ "\n"))

/-- The pieces of a text between its line feeds; the last one is empty if the text ends with one. -/
def splitLines (s : String) : List String := (splitAt '\n' s.toList).map String.ofList

end OutOfBand
