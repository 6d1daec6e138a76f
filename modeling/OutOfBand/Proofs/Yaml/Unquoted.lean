import OutOfBand.Proofs.Sequence
import OutOfBand.Proofs.Text.Numerals
import OutOfBand.Value.Text
import OutOfBand.Yaml.Load

namespace OutOfBand

/-- A text that a label may have as its value: nothing, or letters, digits and three marks, with a
letter or a digit at both ends, 63 in all at most. -/
structure IsLabelValue (v : String) : Prop where
  short : v.length ≤ 63
  chars : ∀ c ∈ v.toList, c.isAlphanum = true ∨ c ∈ ['-', '_', '.']
  first : ∀ c ∈ v.toList.head?, c.isAlphanum = true
  last : ∀ c ∈ v.toList.getLast?, c.isAlphanum = true

instance (v : String) : Decidable (IsLabelValue v) :=
  decidable_of_iff (v.length ≤ 63 ∧
    (v.toList.all fun c => c.isAlphanum || ['-', '_', '.'].contains c) ∧
    v.toList.head?.all Char.isAlphanum ∧ v.toList.getLast?.all Char.isAlphanum)
    ⟨fun ⟨hshort, hchars, hfirst, hlast⟩ => ⟨hshort, by simpa using hchars,
        (Option.all_eq_true _ _).mp hfirst, (Option.all_eq_true _ _).mp hlast⟩,
      fun ⟨hshort, hchars, hfirst, hlast⟩ => ⟨hshort, by simpa using hchars,
        (Option.all_eq_true _ _).mpr hfirst, (Option.all_eq_true _ _).mpr hlast⟩⟩

namespace Yaml

/-- A plain text whose value is written as the text itself. -/
def ReadsBack (v : String) : Prop := ∃ w, scalarOf (plainType v) v = .ok w ∧ w.text = v

/-- What needs no quotes: what looks like nothing but a text, the truth values in their one
spelling, numbers as they are printed unless they are too long to be read, and the days of the
calendar. -/
inductive NeedsNoQuotes : String → Prop where
  | text {v : String} (h : plainType v = "str") : NeedsNoQuotes v
  | truth (b : Bool) : NeedsNoQuotes (Value.boolText b)
  | whole {n : Nat} (h : (natText n).length ≤ mostDigits) : NeedsNoQuotes (natText n)
  | fraction {v : String} {x : Float} (h : plainType v = "float") (hx : floatOf v = .ok x)
      (hv : floatText x = v) : NeedsNoQuotes v
  | day {d : Date} (h : d.isValid = true) : NeedsNoQuotes d.text

section Types

variable {s : List Char} {v : String}

theorem plainType_mem (v : String) : plainType v ∈
    ["null", "bool", "float", "int", "timestamp", "merge", "value", "yaml", "str"] := by
  rw [plainType]
  repeat' split
  all_goals simp

theorem mem_of_mem_unsigned {c : Char} (h : c ∈ unsigned s) : c ∈ s := by
  rw [unsigned] at h
  fun_cases takeSign s <;> simp_all [takeSign]

theorem mem_of_span {p : Char → Bool} {a b : List Char} (h : s.span p = (a, b)) {c : Char}
    (hc : c ∈ b) : c ∈ s := by
  rw [List.span_eq_takeWhile_dropWhile, Prod.mk.injEq] at h
  exact (List.dropWhile_suffix p).subset (h.2 ▸ hc)

theorem isFloat_eq_false (h : '.' ∉ s) : isFloat s = false := by
  have hu : '.' ∉ unsigned s := fun hc => h (mem_of_mem_unsigned hc)
  have hpoint : ∀ t ∈ [".inf".toList, ".Inf".toList, ".INF".toList, ".nan".toList, ".NaN".toList,
      ".NAN".toList], '.' ∈ t := by decide
  rw [Bool.eq_false_iff]
  intro hfloat
  simp only [isFloat, Bool.or_eq_true] at hfloat
  rcases hfloat with (hname | hname) | hfloat
  · have hmem := List.contains_iff_mem.mp hname
    exact hu (hpoint _ (List.mem_append_left [".nan".toList, ".NaN".toList, ".NAN".toList] hmem))
  · have hmem := List.contains_iff_mem.mp hname
    exact h (hpoint _ (List.mem_append_right [".inf".toList, ".Inf".toList, ".INF".toList] hmem))
  -- both forms that are left, in base ten and in base sixty, have a point
  · split at hfloat
    next hspan => exact hu (mem_of_span hspan List.mem_cons_self)
    next =>
      split at hfloat
      next last head parts hlast hparts =>
        split at hfloat
        next hspan =>
          have hmem : '.' ∈ last := mem_of_span hspan List.mem_cons_self
          exact hu ((exists_mem_splitAt_iff (by decide : '.' ≠ ':')).mp
            ⟨last, List.mem_of_getLast? hlast, hmem⟩)
        next => cases hfloat
      next => cases hfloat

theorem not_mem_of_all {p : Char → Bool} {c : Char} (hc : p c = false) (h : s.all p = true) :
    c ∉ s := by
  intro hmem
  rw [List.all_eq_true.mp h c hmem] at hc
  cases hc

theorem not_mem_of_isDecimalInt (h : isDecimalInt s = true) : '-' ∉ s := by
  simp only [isDecimalInt, Bool.or_eq_true, decide_eq_true_eq, Bool.and_eq_true] at h
  rcases h with rfl | h
  · decide
  · exact not_mem_of_all rfl h.2

theorem not_mem_of_isSixtieth (h : isSixtieth s = true) : '-' ∉ s := by
  have hdigit {c : Char} (hc : c.isDigit = true) : '-' ≠ c := (ne_of_isDigit hc rfl).symm
  unfold isSixtieth at h
  split at h
  next a => simpa using hdigit h
  next a b =>
    simp only [Bool.and_eq_true, decide_eq_true_eq] at h
    intro hmem
    rcases List.mem_cons.mp hmem with rfl | hmem
    · exact absurd h.1.1 (by decide)
    · exact hdigit h.2 (List.mem_singleton.mp hmem)
  next => cases h

theorem not_mem_of_isInt (h : isInt s = true) : '-' ∉ unsigned s := by
  have based {stem : List Char} {digit : Char → Bool} {u : List Char} (hstem : '-' ∉ stem)
      (hdigit : (digit '-' || '-' = '_') = false)
      (hu : (stem.isPrefixOf u && stem.length < u.length &&
        (u.drop stem.length).all fun c => digit c || c = '_') = true) : '-' ∉ u := by
    simp only [Bool.and_eq_true] at hu
    obtain ⟨rest, rfl⟩ := List.isPrefixOf_iff_prefix.mp hu.1.1
    rw [List.drop_left] at hu
    rw [List.mem_append, not_or]
    exact ⟨hstem, not_mem_of_all hdigit hu.2⟩
  simp only [isInt, Bool.or_eq_true] at h
  rcases h with (((h | h) | h) | h) | h
  · exact based (by decide) (by decide) h
  · exact based (by decide) (by decide) h
  · exact based (by decide) (by decide) h
  · exact not_mem_of_isDecimalInt h
  · split at h
    next head parts hparts =>
      simp only [Bool.and_eq_true, areSixtieths, List.all_eq_true] at h
      intro hmem
      obtain ⟨p, hp, hmem⟩ := (exists_mem_splitAt_iff (by decide : '-' ≠ ':')).mpr hmem
      rw [hparts] at hp
      rcases List.mem_cons.mp hp with rfl | hp
      · exact not_mem_of_isDecimalInt h.1.2 hmem
      · exact not_mem_of_isSixtieth (h.2.2 p hp) hmem
    next => cases h

theorem truthWord?_isSome {s : String} (h : (truthWord? s).isSome = true) :
    s ∈ ["yes", "true", "on", "no", "false", "off"] := by
  unfold truthWord? at h
  split at h <;> simp at h ⊢

theorem plainType_of_isDigit {c : Char} {r : List Char} (hc : c.isDigit = true)
    (hv : v.toList = c :: r) : plainType v =
      if isFloat v.toList then "float" else if isInt v.toList then "int"
      else if (stamp? v.toList).any fun t => t.time.isSome || t.full then "timestamp"
      else "str" := by
  have hhead {t : String} (ht : ∀ d ∈ t.toList.head?, d.isDigit = false) : v ≠ t := by
    rintro rfl
    rw [hv] at ht
    simp [hc] at ht
  have hlower {t : String} (ht : ∀ d ∈ t.toList.head?, d.isDigit = false) :
      String.ofList (lowerAscii v.toList) ≠ t := by
    rintro rfl
    rw [hv, String.toList_ofList, lowerAscii, List.map_cons] at ht
    simp [toLower_of_isDigit hc, hc] at ht
  have htruth : truthWord? (String.ofList (lowerAscii v.toList)) = none := by
    rw [← Option.not_isSome_iff_eq_none]
    intro hsome
    have hmem := truthWord?_isSome hsome
    have hwords : ∀ t ∈ ["yes", "true", "on", "no", "false", "off"],
        t.toList.head?.all (fun d => !d.isDigit) = true := by decide
    exact hlower (fun d hd => by simpa using (Option.all_eq_true _ _).mp (hwords _ hmem) d hd) rfl
  simp [plainType, hhead (t := "") (by simp), hhead (t := "~") (by simp),
    hlower (t := "null") (by simp), htruth, hhead (t := "<<") (by simp),
    hhead (t := "=") (by simp), hhead (t := "!") (by simp), hhead (t := "&") (by simp),
    hhead (t := "*") (by simp)]

end Types

section Integers

theorem intOf_natText {n : Nat} (hlength : (natText n).length ≤ mostDigits) :
    intOf (natText n) = .ok (n : Int) := by
  obtain ⟨c, ds, hds, hc, hall⟩ := exists_toDigits n
  have hne {d : Char} (hd : d.isDigit = false) : c ≠ d := ne_of_isDigit hc hd
  have hunderscores : (c :: ds).filter (· ≠ '_') = c :: ds :=
    List.filter_eq_self.mpr fun d hd => decide_eq_true (ne_of_isDigit (hall d hd) rfl)
  have hcolon : ¬ (':' = c ∨ ':' ∈ ds) := fun hmem =>
    ne_of_isDigit (hall ':' (List.mem_cons.mpr hmem)) rfl rfl
  have hfew : (c :: ds).length ≤ mostDigits := by
    rwa [← hds, ← natText_toList, String.length_toList]
  have hread : readLooseInt? 10 (c :: ds) = some (n : Int) := by
    rw [readLooseInt?_of_isDigit hall hfew, ← hds, digitsValue?_toDigits (by decide) (by decide)]
    rfl
  rcases Nat.eq_zero_or_pos n with rfl | hpos
  · rfl
  · have hzero : c ≠ '0' := by
      rintro rfl
      exact head_toDigits hpos (by rw [hds]; rfl)
    rw [intOf, natText_toList, hds, hunderscores]
    simp [hne (d := '-') rfl, hne (d := '+') rfl, hzero, hcolon, hread]

theorem plainType_natText (n : Nat) : plainType (natText n) = "int" := by
  obtain ⟨c, ds, hds, hc, hall⟩ := exists_toDigits n
  have hv : (natText n).toList = c :: ds := (natText_toList n).trans hds
  have hfloat : isFloat (c :: ds) = false :=
    isFloat_eq_false fun hmem => ne_of_isDigit (hall _ hmem) rfl rfl
  have hint : isInt (c :: ds) = true := by
    have hdecimal : isDecimalInt (c :: ds) = true := by
      rcases Nat.eq_zero_or_pos n with rfl | hpos
      · rw [← hds]
        rfl
      · have hzero : c ≠ '0' := by
          rintro rfl
          exact head_toDigits hpos (by rw [hds]; rfl)
        have hrange := forall_isDigit (p := fun c => c ≠ '0' → '1' ≤ c ∧ c ≤ '9') (by decide) hc
          hzero
        have hdigits : ∀ d ∈ c :: ds, isDigitOr_ d = true := fun d hd => by
          simp [isDigitOr_, hall d hd]
        simp only [List.mem_cons, forall_eq_or_imp] at hdigits
        simpa [isDecimalInt, hrange, hdigits.1] using Or.inr hdigits.2
    simp [isInt, unsigned, takeSign_of_head (s := c :: ds) (by simpa using hc), hdecimal]
  rw [plainType_of_isDigit hc hv, hv, hfloat, hint]
  rfl

end Integers

section Days

theorem natOf_append_singleton (s : List Char) (c : Char) :
    natOf (s ++ [c]) = natOf s * 10 + (c.toNat - 48) := by
  rw [natOf, natOf, List.foldl_append]
  rfl

theorem natOf_toDigits (n : Nat) : natOf (Nat.toDigits 10 n) = n := by
  induction n using Nat.strongRecOn with
  | ind n ih =>
    have hdigit : ∀ d < 10, (Nat.digitChar d).toNat - 48 = d := by decide
    by_cases hn : n < 10
    · rw [Nat.toDigits_of_lt_base hn]
      simpa [natOf] using hdigit n hn
    · rw [Nat.toDigits_of_base_le (by decide) (by omega), natOf_append_singleton,
        ih (n / 10) (by omega), hdigit (n % 10) (by omega)]
      omega

theorem natOf_padLeft (width n : Nat) : natOf (padLeft width (natText n)).toList = n := by
  have hzeros (k : Nat) (s : List Char) : natOf (List.replicate k '0' ++ s) = natOf s := by
    induction k with
    | zero => rfl
    | succ k ih => exact ih
  rw [padLeft_toList, hzeros, natOf_toDigits]

theorem takeDigits?_append {least most : Nat} {s : List Char} (hdigit : ∀ c ∈ s, c.isDigit = true)
    (hlength : s.length = most) (hleast : least ≤ most) (r : List Char) :
    takeDigits? least most (s ++ r) = some (s, r) := by
  have htake : (s.take most).takeWhile Char.isDigit = s := by
    rw [List.take_of_length_le hlength.le, List.takeWhile_eq_self_iff]
    exact hdigit
  simp only [takeDigits?, List.take_append_of_le_length hlength.ge, htake, hlength,
    if_pos hleast]
  rw [← hlength, List.drop_left]

theorem takeDigits?_padLeft {least width n : Nat} (hw : 0 < width) (hn : n < 10 ^ width)
    (hleast : least ≤ width) (r : List Char) :
    takeDigits? least width ((padLeft width (natText n)).toList ++ r) =
      some ((padLeft width (natText n)).toList, r) :=
  takeDigits?_append (fun _ => isDigit_of_mem_padLeft) (length_padLeft hw hn) hleast r

variable {d : Date}

theorem date_toList (d : Date) : d.text.toList = (padLeft 4 (natText d.year)).toList ++
    '-' :: ((padLeft 2 (natText d.month)).toList ++
      '-' :: (padLeft 2 (natText d.day)).toList) := by
  simp [Date.text]

theorem lt_of_isValid (h : d.isValid = true) :
    d.year < 10 ^ 4 ∧ d.month < 10 ^ 2 ∧ d.day < 10 ^ 2 := by
  simp only [Date.isValid, Bool.and_eq_true, decide_eq_true_eq] at h
  have hdays : daysInMonth d.year d.month ≤ 31 := by
    rw [daysInMonth]
    split_ifs <;> omega
  omega

theorem stamp?_text (h : d.isValid = true) : stamp? d.text.toList = some ⟨d, none, true⟩ := by
  obtain ⟨hyear, hmonth, hday⟩ := lt_of_isValid h
  have hm := length_padLeft (by decide) hmonth
  have hd := length_padLeft (by decide) hday
  have htakeMonth (r : List Char) : takeDigits? 1 2 ((padLeft 2 (natText d.month)).toList ++ r) =
      some ((padLeft 2 (natText d.month)).toList, r) :=
    takeDigits?_padLeft (by decide) hmonth (by decide) r
  have htakeDay : takeDigits? 1 2 ((padLeft 2 (natText d.day)).toList ++ []) =
      some ((padLeft 2 (natText d.day)).toList, []) :=
    takeDigits?_padLeft (by decide) hday (by decide) []
  rw [List.append_nil] at htakeDay
  rw [stamp?, date_toList, takeDigits?_padLeft (by decide) hyear (by decide)]
  simp [takeChar?, htakeMonth, htakeDay, natOf_padLeft, hm, hd]

theorem exists_date_eq_cons (d : Date) (h : d.year < 10 ^ 4) : ∃ c r, d.text.toList = c :: r ∧
    c.isDigit = true ∧ '-' ∈ r ∧ '.' ∉ r := by
  have hlength := length_padLeft (by decide) h
  have hdigits (width n : Nat) : '.' ∉ (padLeft width (natText n)).toList := fun hmem =>
    ne_of_isDigit (isDigit_of_mem_padLeft hmem) rfl rfl
  obtain ⟨c, y, hy⟩ : ∃ c y, (padLeft 4 (natText d.year)).toList = c :: y :=
    List.exists_cons_of_length_pos (by omega)
  have hpoint := hdigits 4 d.year
  rw [hy, List.mem_cons, not_or] at hpoint
  refine ⟨c, _, by rw [date_toList, hy, List.cons_append],
    isDigit_of_mem_padLeft (hy ▸ List.mem_cons_self), by simp, ?_⟩
  simp [hdigits, hpoint.2]

theorem plainType_date (h : d.isValid = true) : plainType d.text = "timestamp" := by
  obtain ⟨c, r, hv, hc, hminus, hpoint⟩ := exists_date_eq_cons d (lt_of_isValid h).1
  have hfloat : isFloat (c :: r) = false := by
    refine isFloat_eq_false fun hmem => ?_
    rcases List.mem_cons.mp hmem with rfl | hmem
    · cases hc
    · exact hpoint hmem
  have hint : isInt (c :: r) = false := by
    rw [Bool.eq_false_iff]
    refine fun hint => not_mem_of_isInt hint ?_
    rw [unsigned, takeSign_of_head (by simpa using hc)]
    exact List.mem_cons_of_mem c hminus
  rw [plainType_of_isDigit hc hv, stamp?_text h, hv, hfloat, hint]
  rfl

theorem timestampOf_date (h : d.isValid = true) : timestampOf d.text = .ok (.date d) := by
  simp [timestampOf, stamp?_text h, h]

end Days

section Labels

variable {v : String}

theorem space_not_mem (hv : IsLabelValue v) : ' ' ∉ v.toList := by
  intro hmem
  rcases hv.chars ' ' hmem with h | h <;> exact absurd h (by decide)

theorem needsNoQuotes_of_intText (hv : IsLabelValue v) {n : Int} (h : intText n = v) :
    NeedsNoQuotes v := by
  cases n with
  | ofNat n =>
    obtain rfl : natText n = v := h
    exact .whole (hv.short.trans (by decide))
  | negSucc n =>
    -- a label begins with no sign
    have hfirst := hv.first '-' (by rw [← h, intText, String.toList_append]; rfl)
    exact absurd hfirst (by decide)

theorem needsNoQuotes_of_timestamp (hv : IsLabelValue v) {w : Value} (h : timestampOf v = .ok w)
    (htext : w.text = v) : NeedsNoQuotes v := by
  unfold timestampOf at h
  split at h
  next => cases h
  next d full hstamp =>
    split at h
    next hvalid =>
      cases h
      exact htext ▸ .day hvalid
    next => cases h
  next t full hstamp =>
    split at h
    next =>
      -- a blank stands between day and time
      cases h
      refine absurd ?_ (space_not_mem hv)
      rw [← htext, Value.text, Moment.text]
      simp
    next => cases h

theorem readsBack_iff (hv : IsLabelValue v) : ReadsBack v ↔ NeedsNoQuotes v := by
  constructor
  · rintro ⟨w, hw, htext⟩
    have htype := plainType_mem v
    simp only [List.mem_cons, List.not_mem_nil, or_false] at htype
    rcases htype with h | h | h | h | h | h | h | h | h <;> rw [h] at hw
    · -- the text of nothing looks like a text
      cases hw
      obtain rfl : "None" = v := htext
      exact absurd h (by decide +kernel)
    · rw [scalarOf] at hw
      split at hw
      next b _ =>
        cases hw
        exact htext ▸ .truth b
      next => cases hw
    · obtain ⟨x, hx, rfl⟩ := map_eq_ok_iff.mp hw
      exact .fraction h hx htext
    · obtain ⟨n, -, rfl⟩ := map_eq_ok_iff.mp hw
      exact needsNoQuotes_of_intText hv htext
    · exact needsNoQuotes_of_timestamp hv hw htext
    · cases hw
    · cases hw
    · cases hw
    · exact .text h
  · intro h
    cases h with
    | text h => exact ⟨.str v, by rw [h]; rfl, rfl⟩
    | truth b =>
      have htype : plainType (Value.boolText b) = "bool" := by cases b <;> decide +kernel
      have hword : truthWord? (String.ofList (lowerAscii (Value.boolText b).toList)) = some b := by
        cases b <;> decide +kernel
      exact ⟨.bool b, by rw [htype, scalarOf, hword], rfl⟩
    | @whole n h => exact ⟨.int n, by rw [plainType_natText, scalarOf, intOf_natText h]; rfl, rfl⟩
    | fraction h hx ht => exact ⟨.float _, by rw [h, scalarOf, hx]; rfl, ht⟩
    | day h => exact ⟨.date _, by rw [plainType_date h, scalarOf, timestampOf_date h], rfl⟩

end Labels

end Yaml

end OutOfBand
