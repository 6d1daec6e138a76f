/-!
Blank characters and the cutting of text. A text is worked on as its list of characters; what is
cut off at the ends is a run of blanks, and what is split keeps every character but the separators.
-/

namespace OutOfBand

/-- The white space of the Unicode character database. -/
def isSpace (c : Char) : Bool :=
  let n := c.val.toNat
  (9 ≤ n && n ≤ 13) || n == 32 || n == 0x85 || n == 0xA0 || n == 0x1680 ||
    (0x2000 ≤ n && n ≤ 0x200A) || n == 0x2028 || n == 0x2029 || n == 0x202F || n == 0x205F ||
    n == 0x3000

/-- White space and the four ASCII information separators. -/
def isBlank (c : Char) : Bool :=
  isSpace c || (28 ≤ c.val.toNat && c.val.toNat ≤ 31)

def dropEndWhile (p : Char → Bool) (s : List Char) : List Char := (s.reverse.dropWhile p).reverse

/-- A text without the characters of a class at its two ends. -/
def trimWith (p : Char → Bool) (s : List Char) : List Char := dropEndWhile p (s.dropWhile p)

def trim (s : List Char) : List Char := trimWith isBlank s

/-- The pieces between the separators: one more than there are separators. -/
def splitAt (sep : Char) : List Char → List (List Char)
  | [] => [[]]
  | c :: r =>
    if c = sep then [] :: splitAt sep r
    else match splitAt sep r with
      | [] => [[c]]
      | p :: ps => (c :: p) :: ps

theorem splitAt_ne_nil (sep : Char) (s : List Char) : splitAt sep s ≠ [] := by
  cases s with
  | nil => simp [splitAt]
  | cons c r =>
    simp only [splitAt]
    split
    next => simp
    next => split <;> simp

/-- What stands before and after the first occurrence of a pattern. -/
def cutAt (pat : List Char) : List Char → Option (List Char × List Char)
  | [] => if pat.isEmpty then some ([], []) else none
  | c :: r =>
    if pat.isPrefixOf (c :: r) then some ([], (c :: r).drop pat.length)
    else (cutAt pat r).map fun (before, after) => (c :: before, after)

def hasSub (pat s : List Char) : Bool := (cutAt pat s).isSome

/-- Lower case of the ASCII letters; every other character stays. -/
def lowerAscii (s : List Char) : List Char := s.map Char.toLower

/-- The texts with a separator between each two of them. -/
def joinWith (sep : String) : List String → String
  | [] => ""
  | [s] => s
  | s :: r => s ++ sep ++ joinWith sep r

end OutOfBand
