namespace OutOfBand

def isHighSurrogate (n : Nat) : Bool := 0xD800 ≤ n && n ≤ 0xDBFF

def isLowSurrogate (n : Nat) : Bool := 0xDC00 ≤ n && n ≤ 0xDFFF

/-- The code point of a pair of surrogates. -/
def joinSurrogates (high low : Nat) : Nat := 0x10000 + (high - 0xD800) * 0x400 + (low - 0xDC00)

def utf16Units (n : Nat) : List Nat :=
  if n < 0x10000 then [n]
  else [0xD800 + (n - 0x10000) / 0x400, 0xDC00 + (n - 0x10000) % 0x400]

/-- A unit on its own; half of a pair stands for no character. -/
def unitChar (n : Nat) : Char :=
  if isHighSurrogate n || isLowSurrogate n then Char.ofNat 0xFFFD else Char.ofNat n

theorem joinSurrogates_of_utf16Units {n high low : Nat} (h : utf16Units n = [high, low]) :
    joinSurrogates high low = n := by
  unfold utf16Units at h
  split at h
  · simp at h
  · obtain ⟨rfl, rfl⟩ : _ ∧ _ := by simpa using h
    unfold joinSurrogates
    omega

end OutOfBand
