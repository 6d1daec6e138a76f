import Mathlib
import OutOfBand.Url
import OutOfBand.Proofs.Text.Cutting

namespace OutOfBand.Url

/-- The text that counts of one that may begin with controls and be broken into lines. -/
def essence (s : List Char) : List Char :=
  (s.dropWhile isControlOrSpace).filter (!isLineBreakOrTab ·)

/-- The authority after two slashes and what follows it. -/
def takeAuthority (s : List Char) : List Char × List Char :=
  if "//".toList.isPrefixOf s then
    let authority := (s.drop 2).takeWhile (!isAuthorityEnd ·)
    (authority, (s.drop 2).drop authority.length)
  else ([], s)

/-- The part of a text in front of a query and a fragment. -/
def takePath (s : List Char) : List Char := s.takeWhile fun c => c ≠ '?' && c ≠ '#'

/-- The parts of a URL, whatever its authority is. -/
def parts (s : List Char) : Url :=
  let (scheme, rest) := takeScheme (essence s)
  let (authority, rest) := takeAuthority rest
  ⟨scheme, authority, takePath rest⟩

/-- Only the authority can keep a text from being a URL. -/
theorem split_eq (s : List Char) : split s = (do
    checkAuthority (parts s).authority
    return parts s) := rfl

/-- A letter, followed by characters of a scheme. -/
structure IsScheme (s : List Char) : Prop where
  head : ∃ c, s.head? = some c ∧ c.isAlpha = true
  chars : ∀ c ∈ s, isSchemeChar c = true

theorem IsScheme.of_check {s : List Char}
    (h : (s.head?.any Char.isAlpha && s.all isSchemeChar) = true) : IsScheme s := by
  obtain ⟨hhead, hchars⟩ := Bool.and_eq_true_iff.mp h
  refine ⟨?_, List.all_eq_true.mp hchars⟩
  cases hc : s.head? with
  | none => simp [hc] at hhead
  | some c => exact ⟨c, rfl, by simpa [hc] using hhead⟩

/-- An authority, and a path that begins with a slash, as they stand in a URL. -/
structure Fits (authority path : List Char) : Prop where
  inAuthority : ∀ c ∈ authority, isAuthorityEnd c = false ∧ isLineBreakOrTab c = false
  inPath : ∀ c ∈ path, c ≠ '?' ∧ c ≠ '#' ∧ isLineBreakOrTab c = false
  rooted : ∀ c ∈ path.head?, c = '/'

theorem IsScheme.of_lower {s : List Char} (h : IsScheme (lowerAscii s)) : IsScheme s := by
  obtain ⟨⟨c, hc, halpha⟩, hchars⟩ := h
  rw [lowerAscii, List.head?_map, Option.map_eq_some_iff] at hc
  obtain ⟨d, hd, rfl⟩ := hc
  refine ⟨⟨d, hd, by simpa using halpha⟩, fun e he => ?_⟩
  by_cases hupper : e.isUpper = true
  · simp [isSchemeChar, Char.isAlphanum, Char.isAlpha, hupper]
  · have hsame := Char.toLower_eq_of_not_isUpper hupper
    exact hsame ▸ hchars e.toLower (List.mem_map_of_mem he)

theorem Fits.of_prefix {authority path start : List Char} (h : Fits authority path)
    (hstart : start <+: path) : Fits authority start := by
  refine ⟨h.inAuthority, fun c hc => h.inPath c (hstart.subset hc), fun c hc => h.rooted c ?_⟩
  obtain ⟨rest, rfl⟩ := hstart
  rw [List.head?_append, Option.mem_def.mp hc]
  rfl

section Append

variable {scheme authority path tail : List Char}

theorem IsScheme.ne_colon (h : IsScheme scheme) : ∀ c ∈ scheme, c ≠ ':' := by
  rintro c hc rfl
  exact absurd (h.chars ':' hc) (by decide)

theorem toNat_of_isSchemeChar {c : Char} (h : isSchemeChar c = true) : 0x20 < c.toNat := by
  simp only [isSchemeChar, Char.isAlphanum, Char.isAlpha, Char.isUpper, Char.isLower, Char.isDigit,
    Bool.or_eq_true, Bool.and_eq_true, decide_eq_true_eq, ge_iff_le, UInt32.le_iff_toNat_le] at h
  rcases h with ((((⟨h, -⟩ | ⟨h, -⟩) | ⟨h, -⟩) | rfl) | rfl) | rfl
  · exact Nat.lt_of_lt_of_le (by decide) h
  · exact Nat.lt_of_lt_of_le (by decide) h
  · exact Nat.lt_of_lt_of_le (by decide) h
  · decide
  · decide
  · decide

theorem takeScheme_append (h : IsScheme scheme) (t : List Char) :
    takeScheme (scheme ++ ':' :: t) = (lowerAscii scheme, t) := by
  have hstem : (scheme ++ ':' :: t).takeWhile (· ≠ ':') = scheme :=
    takeWhile_append_of_head (fun c hc => by simpa using h.ne_colon c hc) (by simp)
  obtain ⟨c, hc, halpha⟩ := h.head
  rw [takeScheme, hstem]
  simp [hc, halpha, List.all_eq_true.mpr h.chars]

theorem takeAuthority_append (hauthority : ∀ c ∈ authority, isAuthorityEnd c = false)
    {rest : List Char} (hrest : ∀ c ∈ rest.head?, isAuthorityEnd c = true) :
    takeAuthority ('/' :: '/' :: (authority ++ rest)) = (authority, rest) := by
  have htake : (authority ++ rest).takeWhile (!isAuthorityEnd ·) = authority :=
    takeWhile_append_of_head (by simpa using hauthority) (by simpa using hrest)
  simp [takeAuthority, List.isPrefixOf, htake]

theorem essence_append (h : IsScheme scheme) (t : List Char) :
    essence (scheme ++ t) = scheme ++ t.filter (!isLineBreakOrTab ·) := by
  obtain ⟨c, hc, -⟩ := h.head
  have hstart : (scheme ++ t).dropWhile isControlOrSpace = scheme ++ t := by
    refine dropWhile_eq_self_of_head fun d hd => ?_
    rw [List.head?_append, hc] at hd
    cases hd
    have hd := toNat_of_isSchemeChar (h.chars c (List.mem_of_head? hc))
    simpa [isControlOrSpace] using hd
  have hkept : scheme.filter (!isLineBreakOrTab ·) = scheme := by
    refine List.filter_eq_self.mpr fun c hc => ?_
    have hc := toNat_of_isSchemeChar (h.chars c hc)
    simp only [isLineBreakOrTab, Bool.not_eq_true', Bool.or_eq_false_iff, decide_eq_false_iff_not]
    refine ⟨⟨?_, ?_⟩, ?_⟩ <;> rintro rfl <;> exact absurd hc (by decide)
  rw [essence, hstart, List.filter_append, hkept]

/-- What is put together is taken apart again; what follows the path does not matter. -/
theorem parts_append (h : IsScheme scheme) (hfits : Fits authority path)
    (htail : ∀ c ∈ tail.head?, c = '?' ∨ c = '#') :
    parts (scheme ++ ':' :: '/' :: '/' :: (authority ++ (path ++ tail))) =
      ⟨lowerAscii scheme, authority, path⟩ := by
  let tail' := tail.filter (!isLineBreakOrTab ·)
  have hfilter : (authority ++ (path ++ tail)).filter (!isLineBreakOrTab ·) =
      authority ++ (path ++ tail') := by
    have hauthority : authority.filter (!isLineBreakOrTab ·) = authority :=
      List.filter_eq_self.mpr fun c hc => by simp [(hfits.inAuthority c hc).2]
    have hpath : path.filter (!isLineBreakOrTab ·) = path :=
      List.filter_eq_self.mpr fun c hc => by simp [(hfits.inPath c hc).2.2]
    rw [List.filter_append, List.filter_append, hauthority, hpath]
  have htail' : ∀ c ∈ tail'.head?, c = '?' ∨ c = '#' := by
    cases tail with
    | nil => simp [tail']
    | cons c t =>
      have hc := htail c rfl
      have hkeep : isLineBreakOrTab c = false := by rcases hc with rfl | rfl <;> decide
      simpa [tail', hkeep] using hc
  have hessence : essence (scheme ++ ':' :: '/' :: '/' :: (authority ++ (path ++ tail))) =
      scheme ++ ':' :: '/' :: '/' :: (authority ++ (path ++ tail')) := by
    rw [essence_append h, ← hfilter]
    rfl
  have hstop : ∀ c ∈ (path ++ tail').head?, isAuthorityEnd c = true := by
    intro c hc
    rw [List.head?_append] at hc
    cases path with
    | nil => rcases htail' c hc with rfl | rfl <;> rfl
    | cons d p => rw [hfits.rooted c hc]; rfl
  have hpath : takePath (path ++ tail') = path := by
    refine takeWhile_append_of_head (fun c hc => ?_) fun c hc => ?_
    · simp [(hfits.inPath c hc).1, (hfits.inPath c hc).2.1]
    · rcases htail' c hc with rfl | rfl <;> rfl
  rw [parts, hessence, takeScheme_append h]
  dsimp only
  rw [takeAuthority_append (fun c hc => (hfits.inAuthority c hc).1) hstop, hpath]

end Append

theorem mem_essence {s : List Char} {c : Char} (h : c ∈ essence s) : isLineBreakOrTab c = false := by
  simpa using (List.mem_filter.mp h).2

theorem takeScheme_suffix (s : List Char) : (takeScheme s).2 <:+ s := by
  rw [takeScheme]
  split
  · exact (List.drop_suffix _ _).trans (List.drop_suffix _ _)
  · exact List.suffix_refl s

theorem takeAuthority_eq {s : List Char} (h : (takeAuthority s).1 ≠ []) :
    ∃ r, s = '/' :: '/' :: r ∧
      takeAuthority s = (r.takeWhile (!isAuthorityEnd ·), r.dropWhile (!isAuthorityEnd ·)) := by
  rw [takeAuthority] at h ⊢
  split at h
  next hslashes =>
    obtain ⟨r, rfl⟩ := List.isPrefixOf_iff_prefix.mp hslashes
    have hdrop : r.drop (r.takeWhile (!isAuthorityEnd ·)).length =
        r.dropWhile (!isAuthorityEnd ·) := by
      have hcut := List.prefix_append_drop (List.takeWhile_prefix (l := r) (!isAuthorityEnd ·))
      refine List.append_cancel_left (hcut.symm.trans ?_)
      exact List.takeWhile_append_dropWhile.symm
    exact ⟨r, rfl, by simp [hdrop]⟩
  next => exact absurd rfl h

theorem fits_parts {s : List Char} (h : (parts s).authority ≠ []) :
    Fits (parts s).authority (parts s).path := by
  let after := (takeScheme (essence s)).2
  have hkept : ∀ c ∈ after, isLineBreakOrTab c = false := fun c hc =>
    mem_essence ((takeScheme_suffix _).mem hc)
  obtain ⟨r, hr, htake⟩ := takeAuthority_eq (s := after) h
  have hauthority : (parts s).authority = r.takeWhile (!isAuthorityEnd ·) :=
    congrArg Prod.fst htake
  have hpath : (parts s).path = takePath (r.dropWhile (!isAuthorityEnd ·)) :=
    congrArg (fun q : List Char × List Char => takePath q.2) htake
  have hr' : ∀ c ∈ r, isLineBreakOrTab c = false := fun c hc => hkept c (by simp [hr, hc])
  rw [hauthority, hpath]
  constructor
  · intro c hc
    exact ⟨by simpa using List.mem_takeWhile_imp hc, hr' c ((List.takeWhile_sublist _).mem hc)⟩
  · intro c hc
    have hend := List.mem_takeWhile_imp hc
    have hmem := (List.dropWhile_sublist _).mem ((List.takeWhile_sublist _).mem hc)
    simp only [Bool.and_eq_true, decide_eq_true_eq] at hend
    exact ⟨hend.1, hend.2, hr' c hmem⟩
  · intro c hc
    -- the path begins where the authority ends, unless a query or a fragment does
    rw [takePath, List.head?_takeWhile] at hc
    obtain ⟨hhead, hin⟩ := Option.mem_filter_iff.mp hc
    have hend := List.head?_dropWhile_not (!isAuthorityEnd ·) r
    rw [Option.mem_def.mp hhead] at hend
    simp only [isAuthorityEnd, Bool.not_eq_false', Bool.or_eq_true, decide_eq_true_eq] at hend
    simp only [Bool.and_eq_true, decide_eq_true_eq] at hin
    obtain (hslash | hquery) | hfragment := hend
    · exact hslash
    · exact absurd hquery hin.1
    · exact absurd hfragment hin.2

end OutOfBand.Url
