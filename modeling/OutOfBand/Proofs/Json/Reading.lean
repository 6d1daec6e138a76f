import OutOfBand.Json.Printer
import OutOfBand.Json.Reader
import OutOfBand.Proofs.Text.Cutting
import OutOfBand.Proofs.Text.Numerals
import OutOfBand.Proofs.Value.Entries
import Mathlib.Data.List.Forall2
import Mathlib.Data.List.Nodup

namespace OutOfBand

/-- Printable ASCII and nothing else. -/
def PlainAscii (s : List Char) : Prop := ∀ c ∈ s, 0x20 ≤ c.toNat ∧ c.toNat < 0x7F

theorem PlainAscii.append {s t : List Char} (hs : PlainAscii s) (ht : PlainAscii t) :
    PlainAscii (s ++ t) := fun c hc => (List.mem_append.mp hc).elim (hs c) (ht c)

theorem plainAscii_flatMap {α : Type} {f : α → List Char} {xs : List α}
    (h : ∀ x ∈ xs, PlainAscii (f x)) : PlainAscii (xs.flatMap f) := by
  intro c hc
  obtain ⟨x, hx, hc⟩ := List.mem_flatMap.mp hc
  exact h x hx c hc

theorem PlainAscii.not_mem {s : List Char} {c : Char} (hs : PlainAscii s) (hc : c.toNat < 0x20) :
    c ∉ s := fun h => absurd (hs c h).1 (by omega)

theorem plainAscii_joinWith {sep : String} {ts : List String} (hsep : PlainAscii sep.toList)
    (h : ∀ t ∈ ts, PlainAscii t.toList) : PlainAscii (joinWith sep ts).toList := by
  induction ts with
  | nil => simp [joinWith, PlainAscii]
  | cons t ts ih =>
    obtain ⟨ht, hts⟩ := List.forall_mem_cons.mp h
    cases ts with
    | nil => simpa [joinWith] using ht
    | cons u us =>
      rw [joinWith, String.toList_append, String.toList_append]
      · exact (ht.append hsep).append (ih hts)
      · simp

section Digits

theorem digitChar_plain : ∀ d < 16, 0x20 ≤ (Nat.digitChar d).toNat ∧
    (Nat.digitChar d).toNat < 0x7F := by decide

theorem plainAscii_toDigits {base : Nat} (hb : 1 < base) (hb' : base ≤ 16) (n : Nat) :
    PlainAscii (Nat.toDigits base n) := by
  induction n using Nat.strongRecOn with
  | ind n ih =>
    by_cases hn : n < base
    · rw [Nat.toDigits_of_lt_base hn]
      simpa [PlainAscii] using digitChar_plain n (by omega)
    · rw [Nat.toDigits_of_base_le hb (by omega)]
      refine (ih (n / base) (Nat.div_lt_self (by omega) hb)).append ?_
      simpa [PlainAscii] using digitChar_plain (n % base) ((Nat.mod_lt n (by omega)).trans_le hb')

theorem digitsValue?_hexText (width n : Nat) : digitsValue? 16 (hexText width n) = some n := by
  have hzeros (k : Nat) : digitsValue? 16 (List.replicate k '0' ++ Nat.toDigits 16 n) = some n := by
    induction k with
    | zero => exact digitsValue?_toDigits (by decide) (by decide) n
    | succ k ih =>
      rw [List.replicate_succ, List.cons_append, digitsValue?_zero_cons (by decide)
        (by simp [Nat.toDigits_ne_nil]), ih]
  exact hzeros _

end Digits

namespace Json

section Text

theorem length_hexText {n : Nat} (h : n < 0x10000) : (hexText 4 n).length = 4 := by
  have hle : (Nat.toDigits 16 n).length ≤ 4 :=
    (Nat.length_toDigits_le_iff (by decide) (by decide)).mpr (by omega)
  simp only [hexText, List.length_append, List.length_replicate]
  omega

theorem readUnit?_unitEscape {n : Nat} (h : n < 0x10000) (r : List Char) :
    readUnit? (unitEscape n ++ r) = some (n, r) := by
  have hvalue := digitsValue?_hexText 4 n
  obtain ⟨a, b, c, d, hs⟩ := List.length_eq_four.mp (length_hexText h)
  rw [hs] at hvalue
  simp [unitEscape, hs, readUnit?, hvalue]

theorem plainAscii_unitEscape (n : Nat) : PlainAscii (unitEscape n) := by
  have hzeros (k : Nat) : PlainAscii (List.replicate k '0') := by
    intro c hc
    rw [List.eq_of_mem_replicate hc]
    decide
  have hmark : PlainAscii ['\\', 'u'] := by simp [PlainAscii]
  exact hmark.append ((hzeros _).append (plainAscii_toDigits (by decide) (by decide) n))

theorem not_surrogate (c : Char) :
    isHighSurrogate c.toNat = false ∧ isLowSurrogate c.toNat = false := by
  have hvalid : c.toNat < 0xD800 ∨ 0xDFFF < c.toNat ∧ c.toNat < 0x110000 := c.valid
  simp only [isHighSurrogate, isLowSurrogate, Bool.and_eq_false_iff, decide_eq_false_iff_not]
  omega

/-- The units of a character are one that is no surrogate, or a high and a low one. -/
theorem utf16Units_toNat (c : Char) :
    (c.toNat < 0x10000 ∧ utf16Units c.toNat = [c.toNat]) ∨
      ∃ high low, utf16Units c.toNat = [high, low] ∧ isHighSurrogate high = true ∧
        isLowSurrogate low = true := by
  have hvalid : c.toNat < 0xD800 ∨ 0xDFFF < c.toNat ∧ c.toNat < 0x110000 := c.valid
  by_cases h : c.toNat < 0x10000
  · exact .inl ⟨h, if_pos h⟩
  · refine .inr ⟨_, _, if_neg h, ?_, ?_⟩
    all_goals
      simp only [isHighSurrogate, isLowSurrogate, Bool.and_eq_true, decide_eq_true_eq]
      omega

theorem lt_of_isHighSurrogate {n : Nat} (h : isHighSurrogate n = true) : n < 0x10000 := by
  simp only [isHighSurrogate, Bool.and_eq_true, decide_eq_true_eq] at h
  omega

theorem lt_of_isLowSurrogate {n : Nat} (h : isLowSurrogate n = true) : n < 0x10000 := by
  simp only [isLowSurrogate, Bool.and_eq_true, decide_eq_true_eq] at h
  omega

theorem exists_of_readUnit? {s : List Char} {u : Nat × List Char} (h : readUnit? s = some u) :
    ∃ t, s = '\\' :: 'u' :: t := by
  rw [readUnit?.eq_def] at h
  split at h
  next => exact ⟨_, rfl⟩
  next => cases h

theorem readText_unit {n : Nat} {s r : List Char} (h : readUnit? s = some (n, r))
    (hn : isHighSurrogate n = false) (fuel : Nat) :
    readText (fuel + 1) s = (readText fuel r).map fun (t, r) => (unitChar n :: t, r) := by
  obtain ⟨t, rfl⟩ := exists_of_readUnit? h
  simp only [readText, h, hn, Option.bind_eq_bind, Option.bind_some, if_true]
  cases readText fuel r <;> rfl

theorem readText_pair {high low : Nat} {s r r' : List Char} (h : readUnit? s = some (high, r))
    (h' : readUnit? r = some (low, r')) (hhigh : isHighSurrogate high = true)
    (hlow : isLowSurrogate low = true) (fuel : Nat) :
    readText (fuel + 1) s =
      (readText fuel r').map fun (t, r) => (Char.ofNat (joinSurrogates high low) :: t, r) := by
  obtain ⟨t, rfl⟩ := exists_of_readUnit? h
  simp only [readText, h, h', hhigh, hlow, Option.bind_eq_bind, Option.bind_some, if_true]
  cases readText fuel r' <;> rfl

theorem readText_shortEscape {c d : Char} (hc : shortEscape? d = some c) (fuel : Nat)
    (s : List Char) :
    readText (fuel + 1) ('\\' :: d :: s) = (readText fuel s).map fun (t, r) => (c :: t, r) := by
  have hd : d ≠ 'u' := by
    rintro rfl
    cases hc
  simp only [readText, hd, hc, if_false, Option.bind_eq_bind, Option.bind_some]
  cases readText fuel s <;> rfl

theorem readText_self {c : Char} (hq : c ≠ '"') (hb : c ≠ '\\') (hc : 0x20 ≤ c.toNat)
    (fuel : Nat) (s : List Char) :
    readText (fuel + 1) (c :: s) = (readText fuel s).map fun (t, r) => (c :: t, r) := by
  rw [readText]
  · rw [if_neg (by omega)]
    cases readText fuel s <;> rfl
  · exact hq
  · exact fun _ _ h => absurd h hb

theorem readText_units (c : Char) (fuel : Nat) (s : List Char) :
    readText (fuel + 1) ((utf16Units c.toNat).flatMap unitEscape ++ s) =
      (readText fuel s).map fun (t, r) => (c :: t, r) := by
  obtain ⟨h, hunits⟩ | ⟨high, low, hunits, hhigh, hlow⟩ := utf16Units_toNat c
  · have hc : unitChar c.toNat = c := by simp [unitChar, not_surrogate c]
    simp only [hunits, List.flatMap_cons, List.flatMap_nil, List.append_nil]
    rw [readText_unit (readUnit?_unitEscape h s) (not_surrogate c).1, hc]
  · have hfirst := readUnit?_unitEscape (lt_of_isHighSurrogate hhigh) (unitEscape low ++ s)
    have hsecond := readUnit?_unitEscape (lt_of_isLowSurrogate hlow) s
    simp only [hunits, List.flatMap_cons, List.flatMap_nil, List.append_nil, List.append_assoc]
    rw [readText_pair hfirst hsecond hhigh hlow, joinSurrogates_of_utf16Units hunits,
      Char.ofNat_toNat]

/-- How a character is written: by a backslash and a letter, as it is, or by its units. -/
inductive Escaped (c : Char) : List Char → Prop
  | short (d : Char) (hd : 0x20 ≤ d.toNat ∧ d.toNat < 0x7F) (h : shortEscape? d = some c) :
      Escaped c ['\\', d]
  | self (hq : c ≠ '"') (hb : c ≠ '\\') (h : 0x20 ≤ c.toNat ∧ c.toNat < 0x7F) : Escaped c [c]
  | units : Escaped c ((utf16Units c.toNat).flatMap unitEscape)

theorem escaped_escape (c : Char) : Escaped c (escape c) := by
  rw [escape.eq_def]
  split
  case h_8 hq hb _ _ _ _ _ =>
    dsimp only
    split
    next h =>
      simp only [Bool.and_eq_true, decide_eq_true_eq] at h
      exact .self hq hb h
    next => exact .units
  all_goals exact .short _ (by decide) rfl

theorem Escaped.plainAscii {c : Char} {e : List Char} (h : Escaped c e) : PlainAscii e := by
  cases h with
  | short d hd h => simp [PlainAscii, hd]
  | self _ _ h => simpa [PlainAscii] using h
  | units => exact plainAscii_flatMap fun n _ => plainAscii_unitEscape n

theorem Escaped.readText {c : Char} {e : List Char} (h : Escaped c e) (fuel : Nat)
    (s : List Char) :
    readText (fuel + 1) (e ++ s) = (readText fuel s).map fun (t, r) => (c :: t, r) := by
  cases h with
  | short d _ h => exact readText_shortEscape h fuel s
  | self hq hb h => exact readText_self hq hb h.1 fuel s
  | units => exact readText_units c fuel s

theorem readText_flatMap_escape (t r : List Char) {fuel : Nat} (hfuel : t.length < fuel) :
    readText fuel (t.flatMap escape ++ '"' :: r) = some (t, r) := by
  induction t generalizing fuel with
  | nil =>
    obtain ⟨fuel, rfl⟩ := Nat.exists_eq_add_of_lt hfuel
    rfl
  | cons c t ih =>
    obtain ⟨fuel, rfl⟩ : ∃ n, fuel = n + 1 := ⟨fuel - 1, by omega⟩
    have hlength : t.length < fuel := by simpa using hfuel
    rw [List.flatMap_cons, List.append_assoc, (escaped_escape c).readText, ih hlength]
    rfl

theorem length_le_flatMap_escape (t : List Char) : t.length ≤ (t.flatMap escape).length := by
  induction t with
  | nil => simp
  | cons c t ih =>
    have hc : 0 < (escape c).length := List.length_pos_of_ne_nil fun h => by
      have hread := (escaped_escape c).readText 0 ['"']
      rw [h] at hread
      cases hread
    simp only [List.flatMap_cons, List.length_append, List.length_cons]
    omega

end Text

section Values

/-- What may follow a number without being read as part of it. -/
def Closed (r : List Char) : Prop := ∀ c, r.head? = some c → isNumberChar c = false

/-- A text that stands for a value in front of whatever does not carry a number on. -/
structure Spells (t : List Char) (v : Value) : Prop where
  begins : ∃ c r, t = c :: r ∧ isJsonSpace c = false ∧ c ≠ ']'
  plain : PlainAscii t
  reads : ∀ fuel r, t.length ≤ fuel → Closed r → readValue fuel (t ++ r) = some (v, r)

theorem closed_cons {c : Char} (h : isNumberChar c = false) (r : List Char) : Closed (c :: r) := by
  rintro _ ⟨⟩
  exact h

theorem skipSpace_cons {c : Char} (h : isJsonSpace c = false) (r : List Char) :
    skipSpace (c :: r) = c :: r := by simp [skipSpace, h]

theorem toList_textLiteral (s : String) :
    (textLiteral s).toList = '"' :: (s.toList.flatMap escape ++ ['"']) := by
  simp [textLiteral]

theorem plainAscii_textLiteral (s : String) : PlainAscii (textLiteral s).toList := by
  have hquote : PlainAscii ['"'] := by simp [PlainAscii]
  rw [toList_textLiteral]
  exact hquote.append ((plainAscii_flatMap fun c _ => (escaped_escape c).plainAscii).append hquote)

theorem readText_textLiteral (s : String) (r : List Char) :
    let q := s.toList.flatMap escape ++ '"' :: r
    readText (q.length + 1) q = some (s.toList, r) := by
  refine readText_flatMap_escape s.toList r ?_
  have hle := length_le_flatMap_escape s.toList
  simp only [List.length_append]
  omega

theorem spells_textLiteral (s : String) : Spells (textLiteral s).toList (.str s) := by
  refine ⟨⟨_, _, toList_textLiteral s, by decide, by decide⟩, plainAscii_textLiteral s, ?_⟩
  intro fuel r hfuel _
  rw [toList_textLiteral] at hfuel ⊢
  obtain ⟨fuel, rfl⟩ : ∃ n, fuel = n + 1 := ⟨fuel - 1, by simp at hfuel; omega⟩
  have hskip := skipSpace_cons (c := '"') (by decide) (s.toList.flatMap escape ++ '"' :: r)
  have hread := readText_textLiteral s r
  simp only [List.cons_append, List.append_assoc, List.nil_append, readValue, hskip] at hread ⊢
  rw [hread]
  simp

/-- A word that is no text, list or mapping is read by the last branch. -/
theorem readValue_word {c : Char} (hspace : isJsonSpace c = false) (hq : c ≠ '"') (hl : c ≠ '[')
    (hm : c ≠ '\x7b') (fuel : Nat) (s : List Char) :
    readValue (fuel + 1) (c :: s) =
      match wordValue? (c :: s) with
      | some found => some found
      | none => (readNumber? ((c :: s).takeWhile isNumberChar)).map
          (·, (c :: s).dropWhile isNumberChar) := by
  rw [readValue, skipSpace_cons hspace]
  split
  · simp_all
  · simp_all
  · simp_all
  · rfl

theorem spells_word {w : List Char} {v : Value} (hplain : PlainAscii w)
    (hbegins : ∃ c r, w = c :: r ∧ isJsonSpace c = false ∧ c ∉ ['"', '[', ']', '\x7b'])
    (hword : ∀ r, wordValue? (w ++ r) = some (v, r)) : Spells w v := by
  obtain ⟨c, t, rfl, hspace, hc⟩ := hbegins
  simp only [List.mem_cons, List.not_mem_nil, or_false, not_or] at hc
  refine ⟨⟨c, t, rfl, hspace, hc.2.2.1⟩, hplain, ?_⟩
  intro fuel r hfuel _
  obtain ⟨fuel, rfl⟩ : ∃ n, fuel = n + 1 := ⟨fuel - 1, by simp at hfuel; omega⟩
  have hword := hword r
  rw [List.cons_append] at hword ⊢
  rw [readValue_word hspace hc.1 hc.2.1 hc.2.2.2, hword]

theorem spells_null : Spells "null".toList .null :=
  spells_word (by simp [PlainAscii]) ⟨_, _, rfl, by decide, by decide⟩ fun _ => rfl

theorem spells_bool (b : Bool) : Spells (if b then "true" else "false").toList (.bool b) := by
  cases b
  · exact spells_word (by simp [PlainAscii]) ⟨_, _, rfl, by decide, by decide⟩ fun _ => rfl
  · exact spells_word (by simp [PlainAscii]) ⟨_, _, rfl, by decide, by decide⟩ fun _ => rfl

theorem wordValue?_digit {c : Char} (hc : c.isDigit = true) (s : List Char) :
    wordValue? (c :: s) = none := by
  have hne {d : Char} (hd : d.isDigit = false) : d ≠ c := by
    rintro rfl
    simp [hc] at hd
  simp [wordValue?, hne (d := 'n') rfl, hne (d := 't') rfl, hne (d := 'f') rfl,
    hne (d := 'N') rfl, hne (d := 'I') rfl, hne (d := '-') rfl]

theorem wordValue?_minus_digit {c : Char} (hc : c.isDigit = true) (s : List Char) :
    wordValue? ('-' :: c :: s) = none := by
  have hne : 'I' ≠ c := by
    rintro rfl
    cases hc
  simp [wordValue?, hne]

/-- A word of number characters that is no name of a value is read as a number. -/
theorem spells_number {c : Char} {t : List Char} {v : Value} (hplain : PlainAscii (c :: t))
    (hchars : ∀ d ∈ c :: t, isNumberChar d = true) (hword : ∀ r, wordValue? (c :: t ++ r) = none)
    (hread : readNumber? (c :: t) = some v) : Spells (c :: t) v := by
  have hc := hchars c List.mem_cons_self
  have hne {d : Char} (hd : isNumberChar d = false) : c ≠ d := by
    rintro rfl
    simp [hc] at hd
  have hspace : isJsonSpace c = false := by
    simp [isJsonSpace, hne (d := ' ') rfl, hne (d := '\t') rfl, hne (d := '\n') rfl,
      hne (d := '\r') rfl]
  refine ⟨⟨c, t, rfl, hspace, hne rfl⟩, hplain, ?_⟩
  intro fuel r hfuel hr
  obtain ⟨fuel, rfl⟩ : ∃ n, fuel = n + 1 := ⟨fuel - 1, by simp at hfuel; omega⟩
  have htake : (c :: t ++ r).takeWhile isNumberChar = c :: t := takeWhile_append_of_head hchars hr
  have hdrop : (c :: t ++ r).dropWhile isNumberChar = r := by
    rw [List.dropWhile_append_of_pos hchars, dropWhile_eq_self_of_head hr]
  have hword := hword r
  rw [List.cons_append] at htake hdrop hword ⊢
  rw [readValue_word hspace (hne rfl) (hne rfl) (hne rfl), hword]
  simp only
  rw [htake, hdrop, hread]
  rfl

theorem spells_natText (n : Nat) : Spells (natText n).toList (.int n) := by
  obtain ⟨c, ds, hds, hc, hall⟩ := exists_toDigits n
  have hplain : PlainAscii (Nat.toDigits 10 n) := plainAscii_toDigits (by decide) (by decide) n
  have hvalue : digitsValue? 10 (Nat.toDigits 10 n) = some n :=
    digitsValue?_toDigits (by decide) (by decide) n
  rw [natText, String.toList_ofList, hds]
  rw [hds] at hplain hvalue
  refine spells_number hplain (fun d hd => by simp [isNumberChar, hall d hd])
    (fun r => wordValue?_digit hc (ds ++ r)) ?_
  have hsign : c ≠ '-' := ne_of_isDigit hc rfl
  rw [readNumber?]
  · rw [if_pos (List.all_eq_true.mpr hall), hvalue]
    simp [hsign]
  · exact fun _ h => hsign (List.cons.inj h).1

theorem spells_negative (n : Nat) : Spells ("-" ++ natText n).toList (.int (-n)) := by
  obtain ⟨c, ds, hds, hc, hall⟩ := exists_toDigits n
  have hplain : PlainAscii (Nat.toDigits 10 n) := plainAscii_toDigits (by decide) (by decide) n
  have hvalue : digitsValue? 10 (Nat.toDigits 10 n) = some n :=
    digitsValue?_toDigits (by decide) (by decide) n
  have htext : ("-" ++ natText n).toList = '-' :: c :: ds := by simp [natText, hds]
  rw [htext]
  rw [hds] at hplain hvalue
  have hsign : PlainAscii ['-'] := by simp [PlainAscii]
  refine spells_number (hsign.append hplain) (fun d hd => ?_)
    (fun r => wordValue?_minus_digit hc (ds ++ r)) ?_
  · rcases List.mem_cons.mp hd with rfl | hd
    · rfl
    · simp [isNumberChar, hall d hd]
  · simp only [readNumber?]
    rw [if_pos (List.all_eq_true.mpr hall), hvalue]
    simp

theorem spells_intText (n : Int) : Spells (intText n).toList (.int n) := by
  cases n with
  | ofNat n => exact spells_natText n
  | negSucc n => exact spells_negative (n + 1)

end Values

section Collections

theorem skipSpace_space (s : List Char) : skipSpace (' ' :: s) = skipSpace s := by
  simp [skipSpace, isJsonSpace]

theorem readValue_space (fuel : Nat) (s : List Char) :
    readValue fuel (' ' :: s) = readValue fuel s := by
  cases fuel with
  | zero => rfl
  | succ fuel => rw [readValue, readValue, skipSpace_space]

theorem readItems_space (fuel : Nat) (s : List Char) :
    readItems fuel (' ' :: s) = readItems fuel s := by
  cases fuel with
  | zero => rfl
  | succ fuel => rw [readItems, readItems, readValue_space]

theorem readMembers_space (fuel : Nat) (es : Entries) (s : List Char) :
    readMembers fuel es (' ' :: s) = readMembers fuel es s := by
  cases fuel with
  | zero => rfl
  | succ fuel => rw [readMembers, readMembers, skipSpace_space]

theorem toList_joinWith_cons_cons (t u : String) (us : List String) :
    (joinWith ", " (t :: u :: us)).toList =
      t.toList ++ ',' :: ' ' :: (joinWith ", " (u :: us)).toList := by
  simp [joinWith]

section Items

variable {t : List Char} {v : Value} {fuel : Nat}

theorem readItems_last (ht : Spells t v) (hfuel : t.length ≤ fuel) (r : List Char) :
    readItems (fuel + 1) (t ++ ']' :: r) = some ([v], r) := by
  have hread := ht.reads fuel (']' :: r) hfuel (closed_cons rfl r)
  have hskip := skipSpace_cons (c := ']') rfl r
  simp only [readItems, hread, Option.bind_eq_bind, Option.bind_some, hskip]
  rfl

theorem readItems_next (ht : Spells t v) (hfuel : t.length ≤ fuel) (r : List Char) :
    readItems (fuel + 1) (t ++ ',' :: ' ' :: r) =
      (readItems fuel r).map fun (vs, r) => (v :: vs, r) := by
  have hread := ht.reads fuel (',' :: ' ' :: r) hfuel (closed_cons rfl _)
  have hskip := skipSpace_cons (c := ',') rfl (' ' :: r)
  simp only [readItems, hread, Option.bind_eq_bind, Option.bind_some, hskip, readItems_space]
  cases readItems fuel r <;> rfl

theorem readItems_joinWith {ts : List String} {vs : List Value}
    (h : List.Forall₂ (fun t v => Spells t.toList v) ts vs) (hne : ts ≠ []) (r : List Char)
    (hfuel : (joinWith ", " ts).toList.length < fuel) :
    readItems fuel ((joinWith ", " ts).toList ++ ']' :: r) = some (vs, r) := by
  induction h generalizing fuel with
  | nil => exact absurd rfl hne
  | @cons t v ts vs ht hts ih =>
    obtain ⟨fuel, rfl⟩ : ∃ n, fuel = n + 1 := ⟨fuel - 1, by omega⟩
    cases ts with
    | nil =>
      cases hts
      exact readItems_last ht (Nat.le_of_lt_succ hfuel) r
    | cons u us =>
      rw [toList_joinWith_cons_cons] at hfuel ⊢
      simp only [List.length_append, List.length_cons] at hfuel
      rw [List.append_assoc, List.cons_append, List.cons_append, readItems_next ht (by omega),
        ih (by simp) (by omega)]
      rfl

end Items

section Members

/-- A member of a mapping as an entry of the value that it belongs to. -/
def entry (m : String × Value) : Value × Value := (.str m.1, m.2)

/-- A member is written as its name, a colon and its value. -/
def SpellsMember (t : String) (m : String × Value) : Prop :=
  ∃ u, t = textLiteral m.1 ++ ": " ++ u ∧ Spells u.toList m.2

variable {t : String} {m : String × Value} {fuel : Nat} {es : Entries}

/-- What is read after a member: the next one behind a comma, or the end of the mapping. -/
theorem readMembers_member (ht : SpellsMember t m) (hfuel : t.toList.length ≤ fuel)
    {r : List Char} (hr : Closed r) :
    readMembers (fuel + 1) es (t.toList ++ r) =
      match skipSpace r with
      | ',' :: r => readMembers fuel (es.insert (.str m.1) m.2) r
      | '\x7d' :: r => some (es.insert (.str m.1) m.2, r)
      | _ => none := by
  obtain ⟨u, rfl, hu⟩ := ht
  obtain ⟨k, v⟩ := m
  have htext : (textLiteral k ++ ": " ++ u).toList ++ r =
      '"' :: (k.toList.flatMap escape ++ '"' :: ':' :: ' ' :: (u.toList ++ r)) := by
    simp [toList_textLiteral]
  have hlength : u.toList.length ≤ fuel := by
    simp only [String.toList_append, List.length_append] at hfuel
    omega
  have hname := readText_textLiteral k (':' :: ' ' :: (u.toList ++ r))
  have hvalue := hu.reads fuel r hlength hr
  have hquote := skipSpace_cons (c := '"') rfl
    (k.toList.flatMap escape ++ '"' :: ':' :: ' ' :: (u.toList ++ r))
  have hcolon := skipSpace_cons (c := ':') rfl (' ' :: (u.toList ++ r))
  rw [htext]
  simp only [readMembers, hquote]
  rw [hname]
  simp only [Option.bind_eq_bind, Option.bind_some, hcolon, readValue_space, hvalue,
    String.ofList_toList]
  rfl

theorem insert_of_not_mem {k : String} (h : .str k ∉ es.map Prod.fst) (v : Value) :
    es.insert (.str k) v = es ++ [(.str k, v)] := by
  refine Entries.insert_of_not_alike (fun e he => ?_) v
  rw [Bool.eq_false_iff, ne_eq, Value.str_alike_iff]
  exact fun hkey => h (List.mem_map.mpr ⟨e, he, hkey⟩)

/-- Members of a mapping, up to the brace that closes it, behind entries of other names. -/
theorem readMembers_joinWith {ts : List String} {ms : List (String × Value)}
    (h : List.Forall₂ SpellsMember ts ms) (hne : ts ≠ [])
    (hnames : ((es ++ ms.map entry).map Prod.fst).Nodup) (r : List Char)
    (hfuel : (joinWith ", " ts).toList.length < fuel) :
    readMembers fuel es ((joinWith ", " ts).toList ++ '\x7d' :: r) =
      some (es ++ ms.map entry, r) := by
  induction h generalizing fuel es with
  | nil => exact absurd rfl hne
  | @cons t m ts ms ht hts ih =>
    obtain ⟨fuel, rfl⟩ : ∃ n, fuel = n + 1 := ⟨fuel - 1, by omega⟩
    have hfresh : .str m.1 ∉ es.map Prod.fst := by
      rw [List.map_append, List.nodup_append] at hnames
      exact fun hm => hnames.2.2 _ hm _ (by simp [entry]) rfl
    have hinsert : es.insert (.str m.1) m.2 = es ++ [entry m] := insert_of_not_mem hfresh m.2
    cases ts with
    | nil =>
      cases hts
      rw [joinWith, readMembers_member ht (Nat.le_of_lt_succ hfuel) (closed_cons rfl r),
        skipSpace_cons rfl]
      simp [hinsert]
    | cons u us =>
      rw [toList_joinWith_cons_cons] at hfuel ⊢
      simp only [List.length_append, List.length_cons] at hfuel
      rw [List.append_assoc, List.cons_append, List.cons_append,
        readMembers_member ht (by omega) (closed_cons rfl _), skipSpace_cons rfl]
      simp only [readMembers_space, hinsert]
      rw [ih (by simp) (by simpa using hnames) (by omega)]
      simp

end Members

theorem SpellsMember.plain {t : String} {m : String × Value} (h : SpellsMember t m) :
    PlainAscii t.toList := by
  obtain ⟨u, rfl, hu⟩ := h
  have hcolon : PlainAscii (": " : String).toList := by simp [PlainAscii]
  rw [String.toList_append, String.toList_append]
  exact ((plainAscii_textLiteral m.1).append hcolon).append hu.plain

theorem SpellsMember.begins {t : String} {m : String × Value} (h : SpellsMember t m) :
    ∃ r, t.toList = '"' :: r := by
  obtain ⟨u, rfl, -⟩ := h
  rw [String.toList_append, String.toList_append, toList_textLiteral]
  exact ⟨_, rfl⟩

theorem readValue_list {c : Char} (hspace : isJsonSpace c = false) (hc : c ≠ ']') (fuel : Nat)
    (s : List Char) :
    readValue (fuel + 1) ('[' :: c :: s) =
      (readItems fuel (c :: s)).map fun (vs, r) => (.list vs, r) := by
  simp only [readValue, skipSpace_cons (c := '[') rfl, skipSpace_cons hspace]
  split
  next h => exact absurd (List.cons.inj h).1 hc
  next => rfl

theorem readValue_map (fuel : Nat) (s : List Char) :
    readValue (fuel + 1) ('\x7b' :: '"' :: s) =
      (readMembers fuel [] ('"' :: s)).map fun (es, r) => (.map es, r) := by
  simp only [readValue, skipSpace_cons (c := '\x7b') rfl, skipSpace_cons (c := '"') rfl]
  rfl

theorem exists_joinWith {c : Char} {r : List Char} {t : String} (h : t.toList = c :: r)
    (ts : List String) : ∃ r', (joinWith ", " (t :: ts)).toList = c :: r' := by
  cases ts with
  | nil => exact ⟨r, h⟩
  | cons u us =>
    rw [toList_joinWith_cons_cons, h]
    exact ⟨_, rfl⟩

theorem spells_list {ts : List String} {vs : List Value}
    (h : List.Forall₂ (fun t v => Spells t.toList v) ts vs) :
    Spells ("[" ++ joinWith ", " ts ++ "]").toList (.list vs) := by
  have htext : ("[" ++ joinWith ", " ts ++ "]").toList =
      '[' :: ((joinWith ", " ts).toList ++ [']']) := by simp
  have hplain : PlainAscii (joinWith ", " ts).toList :=
    plainAscii_joinWith (by simp [PlainAscii]) fun t ht => by
      obtain ⟨_, -, hspells⟩ := exists_of_mem_left h ht
      exact hspells.plain
  rw [htext]
  refine ⟨⟨_, _, rfl, rfl, by decide⟩, ?_, ?_⟩
  · have hopen : PlainAscii ['['] := by simp [PlainAscii]
    exact hopen.append (hplain.append (by simp [PlainAscii]))
  · intro fuel r hfuel _
    obtain ⟨fuel, rfl⟩ : ∃ n, fuel = n + 1 := ⟨fuel - 1, by simp at hfuel; omega⟩
    rw [List.cons_append, List.append_assoc, List.singleton_append]
    cases h with
    | nil => rfl
    | @cons t v ts vs ht hts =>
      obtain ⟨c, r', hc, hspace, hclose⟩ := ht.begins
      obtain ⟨s, hs⟩ := exists_joinWith hc ts
      have hlength : (joinWith ", " (t :: ts)).toList.length < fuel := by
        simp at hfuel
        omega
      have hread := readItems_joinWith (.cons ht hts) (by simp) r hlength
      rw [hs] at hread ⊢
      rw [List.cons_append] at hread ⊢
      rw [readValue_list hspace hclose, hread]
      rfl

theorem spells_map {ts : List String} {ms : List (String × Value)}
    (h : List.Forall₂ SpellsMember ts ms) (hnames : (ms.map Prod.fst).Nodup) :
    Spells ("\x7b" ++ joinWith ", " ts ++ "\x7d").toList (.map (ms.map entry)) := by
  have htext : ("\x7b" ++ joinWith ", " ts ++ "\x7d").toList =
      '\x7b' :: ((joinWith ", " ts).toList ++ ['\x7d']) := by simp
  have hplain : PlainAscii (joinWith ", " ts).toList :=
    plainAscii_joinWith (by simp [PlainAscii]) fun t ht => by
      obtain ⟨_, -, hspells⟩ := exists_of_mem_left h ht
      exact hspells.plain
  rw [htext]
  refine ⟨⟨_, _, rfl, rfl, by decide⟩, ?_, ?_⟩
  · have hopen : PlainAscii ['\x7b'] := by simp [PlainAscii]
    exact hopen.append (hplain.append (by simp [PlainAscii]))
  · intro fuel r hfuel _
    obtain ⟨fuel, rfl⟩ : ∃ n, fuel = n + 1 := ⟨fuel - 1, by simp at hfuel; omega⟩
    rw [List.cons_append, List.append_assoc, List.singleton_append]
    cases h with
    | nil => rfl
    | @cons t m ts ms ht hts =>
      obtain ⟨r', hc⟩ := ht.begins
      obtain ⟨s, hs⟩ := exists_joinWith hc ts
      have hkeys : ((([] : Entries) ++ (m :: ms).map entry).map Prod.fst).Nodup := by
        have hinj : Function.Injective Value.str := fun _ _ => Value.str.inj
        simpa [List.map_map, Function.comp_def, entry] using List.Nodup.map hinj hnames
      have hlength : (joinWith ", " (t :: ts)).toList.length < fuel := by
        simp at hfuel
        omega
      have hread := readMembers_joinWith (.cons ht hts) (by simp) hkeys r hlength
      rw [hs] at hread ⊢
      rw [List.cons_append] at hread ⊢
      rw [readValue_map, hread]
      rfl

end Collections

/-- Values of the kinds that the format knows, but for numbers that are no integers. -/
inductive Carried : Value → Prop
  | null : Carried .null
  | bool (b : Bool) : Carried (.bool b)
  | int (n : Int) : Carried (.int n)
  | str (s : String) : Carried (.str s)
  | list {vs : List Value} (items : ∀ v ∈ vs, Carried v) : Carried (.list vs)
  | map {ms : List (String × Value)} (names : (ms.map Prod.fst).Nodup)
      (members : ∀ m ∈ ms, Carried m.2) : Carried (.map (ms.map entry))

theorem exists_items {vs : List Value}
    (h : ∀ v ∈ vs, ∃ t, render? v = some t ∧ Spells t.toList v) :
    ∃ ts, renderItems? vs = some ts ∧ List.Forall₂ (fun t v => Spells t.toList v) ts vs := by
  induction vs with
  | nil => exact ⟨[], rfl, .nil⟩
  | cons v vs ih =>
    obtain ⟨⟨t, ht, hspells⟩, hvs⟩ := List.forall_mem_cons.mp h
    obtain ⟨ts, hts, hall⟩ := ih hvs
    exact ⟨t :: ts, by simp [renderItems?, ht, hts], .cons hspells hall⟩

theorem exists_members {ms : List (String × Value)}
    (h : ∀ m ∈ ms, ∃ t, render? m.2 = some t ∧ Spells t.toList m.2) :
    ∃ ts, renderMembers? (ms.map entry) = some ts ∧ List.Forall₂ SpellsMember ts ms := by
  induction ms with
  | nil => exact ⟨[], rfl, .nil⟩
  | cons m ms ih =>
    obtain ⟨⟨t, ht, hspells⟩, hms⟩ := List.forall_mem_cons.mp h
    obtain ⟨ts, hts, hall⟩ := ih hms
    exact ⟨_, by simp [renderMembers?, entry, keyText?, ht, hts], .cons ⟨t, rfl, hspells⟩ hall⟩

/-- Every value of these kinds has a text, in printable ASCII, and is read back from it. -/
theorem Carried.exists_spelling {v : Value} (h : Carried v) :
    ∃ t, render? v = some t ∧ Spells t.toList v := by
  induction h with
  | null => exact ⟨_, rfl, spells_null⟩
  | bool b => exact ⟨_, rfl, spells_bool b⟩
  | int n => exact ⟨_, rfl, spells_intText n⟩
  | str s => exact ⟨_, rfl, spells_textLiteral s⟩
  | list _ ih =>
    obtain ⟨ts, hts, hall⟩ := exists_items ih
    exact ⟨_, by rw [render?, hts]; rfl, spells_list hall⟩
  | map names _ ih =>
    obtain ⟨ts, hts, hall⟩ := exists_members ih
    exact ⟨_, by rw [render?, hts]; rfl, spells_map hall names⟩

example : render? (.list [.str "\\😀\u2028", .int (-3)]) =
    some "[\"\\\\\\ud83d\\ude00\\u2028\", -3]" := by decide +kernel

theorem read?_of_spells {t : String} {v : Value} (h : Spells t.toList v) : read? t = some v := by
  have hlength : t.toList.length ≤ 2 * t.length + 2 := by
    rw [String.length_toList]
    omega
  have hread := h.reads _ [] hlength (by simp [Closed])
  rw [List.append_nil] at hread
  rw [read?, hread]
  rfl

end Json

end OutOfBand
