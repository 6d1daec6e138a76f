import OutOfBand.Text.Blank
import OutOfBand.Text.Quoted

/-!
The parts of a URL: scheme, authority and path; query and fragment are cut off. Leading controls
and blanks, and tabs and line ends anywhere, are no part of a URL.
-/

namespace OutOfBand

structure Url where
  scheme : List Char
  authority : List Char
  path : List Char
  deriving DecidableEq, Repr

inductive UrlFault where
  /-- One square bracket in the authority without the other. -/
  | unpairedBracket
  /-- Something else than an address of version six or later between square brackets. -/
  | badBracketedHost (host : String)
  | version4InBrackets
  | badLaterVersion
  /-- A character that compatibility normalisation turns into a delimiter. -/
  | disguisedDelimiter (authority : String)
  deriving DecidableEq, Repr

def UrlFault.message : UrlFault → String
  | unpairedBracket => "Invalid IPv6 URL"
  | badBracketedHost host => quoted host ++ " does not appear to be an IPv4 or IPv6 address"
  | version4InBrackets => "An IPv4 address cannot be in brackets"
  | badLaterVersion => "IPvFuture address is invalid"
  | disguisedDelimiter authority =>
    "netloc '" ++ authority ++ "' contains invalid characters under NFKC normalization"

namespace Url

def isControlOrSpace (c : Char) : Bool := c.toNat ≤ 0x20

def isLineBreakOrTab (c : Char) : Bool := c = '\t' || c = '\r' || c = '\n'

def isSchemeChar (c : Char) : Bool := c.isAlphanum || c = '+' || c = '-' || c = '.'

def isAuthorityEnd (c : Char) : Bool := c = '/' || c = '?' || c = '#'

/-- A scheme in lower case and what follows its colon; without a scheme the text stays whole. -/
def takeScheme (s : List Char) : List Char × List Char :=
  let stem := s.takeWhile (· ≠ ':')
  let after := s.drop stem.length
  if stem.head?.any Char.isAlpha && stem.all isSchemeChar && !after.isEmpty then
    (lowerAscii stem, after.drop 1)
  else ([], s)

/-- Code points that stand for a text with `/`, `?`, `#`, `@` or `:` in it. -/
def disguisedDelimiters : List Nat :=
  [0x2047, 0x2048, 0x2049, 0x2100, 0x2101, 0x2105, 0x2106, 0x2A74, 0xFE13, 0xFE16, 0xFE55, 0xFE56,
    0xFE5F, 0xFE6B, 0xFF03, 0xFF0F, 0xFF1A, 0xFF1F, 0xFF20]

def isDisguised (c : Char) : Bool := disguisedDelimiters.contains c.toNat

/-- One to three digits of a number up to 255 without a zero in front. -/
def isOctet (s : List Char) : Bool :=
  !s.isEmpty && s.all Char.isDigit && s.length ≤ 3 && (s.length = 1 || s.head? ≠ some '0') &&
    s.foldl (fun n c => n * 10 + (c.toNat - 48)) 0 ≤ 255

def isVersion4 (s : List Char) : Bool :=
  let parts := splitAt '.' s
  parts.length = 4 && parts.all isOctet

def isHextet (s : List Char) : Bool :=
  !s.isEmpty && s.length ≤ 4 && s.all fun c => (hexValue? c).isSome

/-- Groups of an address of version six; an embedded address of version four counts as two. -/
def groups? (s : List Char) : Option (List (List Char)) :=
  let parts := splitAt ':' s
  match parts.getLast? with
  | some last =>
    if last.contains '.' then
      if isVersion4 last then some (parts.dropLast ++ [['0'], ['0']]) else none
    else some parts
  | none => none

/-- The groups before and after the one gap that stands for zeros, if there is one. -/
def fitsEightGroups (parts : List (List Char)) : Bool :=
  let inner := (parts.drop 1).dropLast
  match (inner.zipIdx.filter (·.1.isEmpty)).map (·.2) with
  | [] => parts.length = 8 && parts.all isHextet
  | [i] =>
    let before := parts.take (i + 1)
    let after := parts.drop (i + 2)
    let before := if before = [[]] then [] else before
    let after := if after = [[]] then [] else after
    before.length + after.length < 8 && before.all isHextet && after.all isHextet
  | _ => false

def isVersion6 (s : List Char) : Bool :=
  let address := s.takeWhile (· ≠ '%')
  let zone := s.drop address.length
  let zoneFits := zone.isEmpty || (1 < zone.length && !(zone.drop 1).contains '%')
  zoneFits && !s.contains '/' &&
    match groups? address with
    | some parts => 3 ≤ (splitAt ':' address).length && parts.length ≤ 9 && fitsEightGroups parts
    | none => false

/-- A later version: its number after a `v`, a point, and some text. -/
def isLaterVersion (s : List Char) : Bool :=
  let digits := (s.drop 1).takeWhile fun c => (hexValue? c).isSome
  match s.drop (digits.length + 1) with
  | '.' :: _ :: _ => !digits.isEmpty
  | _ => false

/-- What stands between the first pair of square brackets. -/
def bracketedHost (s : List Char) : List Char :=
  ((s.dropWhile (· ≠ '[')).drop 1).takeWhile (· ≠ ']')

def checkBracketedHost (s : List Char) : Except UrlFault Unit :=
  if s.head? = some 'v' then (if isLaterVersion s then .ok () else .error .badLaterVersion)
  else if isVersion6 s then .ok ()
  else if isVersion4 s then .error .version4InBrackets
  else .error (.badBracketedHost (String.ofList s))

def checkAuthority (s : List Char) : Except UrlFault Unit := do
  if s.contains '[' ≠ s.contains ']' then throw .unpairedBracket
  if s.contains '[' then checkBracketedHost (bracketedHost s)
  if s.any isDisguised then throw (.disguisedDelimiter (String.ofList s))

def split (s : List Char) : Except UrlFault Url := do
  let s := (s.dropWhile isControlOrSpace).filter (!isLineBreakOrTab ·)
  let (scheme, s) := takeScheme s
  let (authority, s) :=
    if "//".toList.isPrefixOf s then
      let authority := (s.drop 2).takeWhile (!isAuthorityEnd ·)
      (authority, (s.drop 2).drop authority.length)
    else ([], s)
  checkAuthority authority
  return ⟨scheme, authority, s.takeWhile fun c => c ≠ '?' && c ≠ '#'⟩

end Url

end OutOfBand
