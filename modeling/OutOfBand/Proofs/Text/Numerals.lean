import Mathlib
import OutOfBand.Decimal.Reading
import OutOfBand.Proofs.Text.Cutting

namespace OutOfBand

theorem forall_ascii {p : Char → Prop} (h : ∀ n < 128, p (Char.ofNat n)) {c : Char}
    (hc : c.toNat < 128) : p c := by
  simpa [Char.ofNat_toNat] using h c.toNat hc

theorem toNat_lt_of_isAlphanum {c : Char} (h : c.isAlphanum = true) : c.toNat < 128 := by
  have hle {d e : Char} (h : d.val ≤ e.val) : d.toNat ≤ e.toNat := h
  simp only [Char.isAlphanum, Char.isAlpha, Char.isUpper, Char.isLower, Char.isDigit,
    Bool.or_eq_true, Bool.and_eq_true, decide_eq_true_eq] at h
  rcases h with (h | h) | h
  · exact Nat.lt_of_le_of_lt (hle h.2) (by decide)
  · exact Nat.lt_of_le_of_lt (hle h.2) (by decide)
  · exact Nat.lt_of_le_of_lt (hle h.2) (by decide)

theorem hexValue?_digitChar : ∀ d < 16, hexValue? (Nat.digitChar d) = some d := by decide

theorem digitsValue?_zero_cons {base : Nat} (hb : 0 < base) {s : List Char} (hs : s ≠ []) :
    digitsValue? base ('0' :: s) = digitsValue? base s := by
  cases s with
  | nil => exact absurd rfl hs
  | cons c s =>
    have hzero : hexValue? '0' = some 0 := rfl
    simp [digitsValue?, hzero, hb]

theorem digitsValue?_singleton {base d : Nat} {c : Char} (hc : hexValue? c = some d)
    (hd : d < base) : digitsValue? base [c] = some d := by
  simp [digitsValue?, hc, hd]

theorem digitsValue?_append_singleton {base d : Nat} {s : List Char} {c : Char} (hs : s ≠ [])
    (hc : hexValue? c = some d) (hd : d < base) :
    digitsValue? base (s ++ [c]) = (digitsValue? base s).map (· * base + d) := by
  cases s with
  | nil => exact absurd rfl hs
  | cons e s =>
    rw [List.cons_append, digitsValue?, digitsValue?, ← List.cons_append, List.foldlM_append]
    · simp [hc, hd, Option.map_eq_bind]
    · simp
    · simp

theorem digitsValue?_toDigits {base : Nat} (hb : 1 < base) (hb' : base ≤ 16) (n : Nat) :
    digitsValue? base (Nat.toDigits base n) = some n := by
  induction n using Nat.strongRecOn with
  | ind n ih =>
    by_cases hn : n < base
    · rw [Nat.toDigits_of_lt_base hn]
      exact digitsValue?_singleton (hexValue?_digitChar n (by omega)) hn
    · have hlt : n / base < n := Nat.div_lt_self (by omega) hb
      have hmod : n % base < base := Nat.mod_lt n (by omega)
      rw [Nat.toDigits_of_base_le hb (by omega), digitsValue?_append_singleton
        Nat.toDigits_ne_nil (hexValue?_digitChar _ (by omega)) hmod, ih _ hlt]
      simp [Nat.div_add_mod']

theorem exists_toDigits (n : Nat) : ∃ c ds, Nat.toDigits 10 n = c :: ds ∧ c.isDigit = true ∧
    ∀ d ∈ c :: ds, d.isDigit = true := by
  obtain ⟨c, ds, hds⟩ := List.exists_cons_of_ne_nil (Nat.toDigits_ne_nil (b := 10) (n := n))
  have hall : ∀ d ∈ c :: ds, d.isDigit = true := fun d hd =>
    Nat.isDigit_of_mem_toDigits (by decide) (by decide) (hds ▸ hd)
  exact ⟨c, ds, hds, hall c List.mem_cons_self, hall⟩

theorem ne_of_isDigit {c d : Char} (hc : c.isDigit = true) (hd : d.isDigit = false) : c ≠ d := by
  rintro rfl
  simp [hc] at hd

theorem natText_toList (n : Nat) : (natText n).toList = Nat.toDigits 10 n := String.toList_ofList

theorem head_toDigits {n : Nat} (h : 0 < n) : (Nat.toDigits 10 n).head? ≠ some '0' := by
  induction n using Nat.strongRecOn with
  | ind n ih =>
    by_cases hn : n < 10
    · rw [Nat.toDigits_of_lt_base hn]
      interval_cases n <;> decide
    · rw [Nat.toDigits_of_base_le (by decide) (by omega),
        List.head?_append_of_ne_nil _ Nat.toDigits_ne_nil]
      exact ih (n / 10) (by omega) (by omega)

theorem padLeft_toList (width n : Nat) : (padLeft width (natText n)).toList =
    List.replicate (width - (Nat.toDigits 10 n).length) '0' ++ Nat.toDigits 10 n := by
  simp [padLeft, natText, String.length_ofList]

theorem isDigit_of_mem_padLeft {width n : Nat} {c : Char}
    (h : c ∈ (padLeft width (natText n)).toList) : c.isDigit = true := by
  rw [padLeft_toList, List.mem_append] at h
  rcases h with h | h
  · rw [List.eq_of_mem_replicate h]
    rfl
  · exact Nat.isDigit_of_mem_toDigits (by decide) (by decide) h

theorem length_padLeft {width n : Nat} (hw : 0 < width) (h : n < 10 ^ width) :
    (padLeft width (natText n)).toList.length = width := by
  have hle := (Nat.length_toDigits_le_iff (b := 10) (by decide) hw).mpr h
  rw [padLeft_toList, List.length_append, List.length_replicate]
  omega

theorem forall_isDigit {p : Char → Prop} (h : ∀ d < 10, p (Nat.digitChar d)) {c : Char}
    (hc : c.isDigit = true) : p c := by
  obtain ⟨hlow, hhigh⟩ := Char.isDigit_iff_toNat.mp hc
  change 48 ≤ c.toNat at hlow
  change c.toNat ≤ 57 at hhigh
  have hchar : Nat.digitChar (c.toNat - 48) = c := by
    rw [← Char.toNat_inj]
    generalize c.toNat = n at hlow hhigh
    interval_cases n <;> rfl
  exact hchar ▸ h (c.toNat - 48) (by omega)

theorem toLower_of_isDigit {c : Char} : c.isDigit = true → c.toLower = c :=
  forall_isDigit (p := fun c => c.toLower = c) (by decide)

section Loose

variable {s : List Char}

theorem asciiDigits_of_isDigit (h : ∀ c ∈ s, c.isDigit = true) : asciiDigits s = s := by
  induction s with
  | nil => rfl
  | cons c s ih =>
    obtain ⟨hc, hs⟩ := List.forall_mem_cons.mp h
    have hdigit := forall_isDigit (p := fun c => asciiDigits [c] = [c]) (by decide) hc
    change asciiDigits [c] ++ asciiDigits s = c :: s
    rw [hdigit, ih hs, List.singleton_append]

theorem trimWith_of_forall {p : Char → Bool} (h : ∀ c ∈ s, p c = false) : trimWith p s = s := by
  have hdrop : s.dropWhile p = s :=
    dropWhile_eq_self_of_head fun c hc => h c (List.mem_of_head? hc)
  have hend : s.reverse.dropWhile p = s.reverse :=
    dropWhile_eq_self_of_head fun c hc => h c (List.mem_reverse.mp (List.mem_of_head? hc))
  rw [trimWith, hdrop, dropEndWhile, hend, List.reverse_reverse]

theorem takeSign_of_head (h : ∀ c ∈ s.head?, c.isDigit = true) : takeSign s = (false, s) := by
  cases s with
  | nil => rfl
  | cons c s =>
    have hc := h c rfl
    rw [takeSign]
    · exact fun r hr => ne_of_isDigit hc rfl (List.cons.inj hr).1
    · exact fun r hr => ne_of_isDigit hc rfl (List.cons.inj hr).1

theorem dropBaseMark_of_isDigit (h : ∀ c ∈ s, c.isDigit = true) : dropBaseMark 10 s = s := by
  cases s with
  | nil => rfl
  | cons d s =>
    cases s with
    | nil => simp [dropBaseMark]
    | cons c s =>
      have hc : c.toLower = c := toLower_of_isDigit (h c (by simp))
      by_cases hd : d = '0'
      · simp [hd, dropBaseMark, hc]
      · simp [dropBaseMark, hd]

theorem dropUnderscores?_of_not_mem {digit : Char → Bool} (h : '_' ∉ s) :
    dropUnderscores? digit s = some s := by
  induction s with
  | nil => rfl
  | cons c s ih =>
    simp only [List.mem_cons, not_or] at h
    rw [dropUnderscores?, ih h.2]
    · rfl
    · exact Ne.symm h.1
    · rintro d r rfl
      simp at h

/-- Digits without signs, blanks, marks and underscores are read as they stand, if there are not too
many of them. -/
theorem readLooseInt?_of_isDigit (h : ∀ c ∈ s, c.isDigit = true) (hlength : s.length ≤ mostDigits) :
    readLooseInt? 10 s = (digitsValue? 10 s).map (signed false) := by
  have hspace : ∀ c ∈ s, isSpace c = false := fun c hc =>
    forall_isDigit (p := fun c => isSpace c = false) (by decide) (h c hc)
  have hunderscore : '_' ∉ s := fun hc => ne_of_isDigit (h _ hc) rfl rfl
  rw [readLooseInt?, asciiDigits_of_isDigit h, trimWith_of_forall hspace,
    takeSign_of_head fun c hc => h c (List.mem_of_head? hc)]
  simp only [dropBaseMark_of_isDigit h, dropUnderscores?_of_not_mem hunderscore,
    Option.bind_eq_bind, Option.bind_some, hlength.not_gt, and_false, if_false]
  exact Option.map_eq_bind.symm

end Loose

end OutOfBand
