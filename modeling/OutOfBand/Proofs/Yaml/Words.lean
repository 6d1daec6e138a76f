import OutOfBand.Proofs.Text.Numerals
import OutOfBand.Yaml.Load

namespace OutOfBand.Yaml

/-- Letters, digits and four marks. -/
def IsWordText (w : List Char) : Prop :=
  ∀ c ∈ w, c.isAlphanum = true ∨ c ∈ ['-', '_', '.', '/']

instance (w : List Char) : Decidable (IsWordText w) :=
  decidable_of_iff (w.all fun c => c.isAlphanum || ['-', '_', '.', '/'].contains c) (by
    simp [IsWordText])

/-- A word begins with a letter or a digit. -/
structure IsWord (w : List Char) : Prop where
  begins : ∃ c r, w = c :: r ∧ c.isAlphanum = true
  chars : IsWordText w

/-- What of a character the tokens of words depend on. -/
structure IsInert (c : Char) : Prop where
  gap : isGap c = false
  mark : c ≠ byteOrderMark ∧ c ≠ ':' ∧ c ≠ '"' ∧ c ≠ '\\' ∧ c ≠ '\'' ∧ c ≠ '#'
  allowed : isAllowed c = true

theorem IsWordText.forall {p : Char → Prop}
    (h : ∀ n < 128, (Char.ofNat n).isAlphanum = true ∨ Char.ofNat n ∈ ['-', '_', '.', '/'] →
      p (Char.ofNat n)) {w : List Char} (hw : IsWordText w) {c : Char} (hc : c ∈ w) : p c := by
  have hchar := hw c hc
  have hrange : c.toNat < 128 := by
    rcases hchar with hchar | hchar
    · exact toNat_lt_of_isAlphanum hchar
    · simp only [List.mem_cons, List.not_mem_nil, or_false] at hchar
      rcases hchar with rfl | rfl | rfl | rfl <;> decide
  exact forall_ascii (p := fun c => c.isAlphanum = true ∨ c ∈ ['-', '_', '.', '/'] → p c) h hrange
    hchar

theorem IsWordText.inert {w : List Char} (hw : IsWordText w) : ∀ c ∈ w, IsInert c := by
  intro c hc
  have hchar := hw.forall (p := fun c => isGap c = false ∧
    (c ≠ byteOrderMark ∧ c ≠ ':' ∧ c ≠ '"' ∧ c ≠ '\\' ∧ c ≠ '\'' ∧ c ≠ '#') ∧
      isAllowed c = true) (by decide +kernel) hc
  exact ⟨hchar.1, hchar.2.1, hchar.2.2⟩

theorem isBreak_of_isGap {c : Char} (h : isGap c = false) :
    isBreak c = false ∧ isEnd c = false ∧ c ≠ ' ' ∧ c ≠ '\t' := by
  simp [isGap, isSpaceEnd, isLineEnd] at h
  simp [h]

/-- Characters that a token depends on if it begins with them. -/
def marks : List Char :=
  ['-', '.', '?', ':', ',', '[', ']', '\x7b', '\x7d', '#', '&', '*', '!', '|', '>', '\'', '"', '%',
    '@', Char.ofNat 0x60]

theorem not_mem_marks_of_isAlphanum {c : Char} (h : c.isAlphanum = true) : c ∉ marks :=
  forall_ascii (p := fun c => c.isAlphanum = true → c ∉ marks) (by decide +kernel)
    (toNat_lt_of_isAlphanum h) h

/-- What does not begin with a blank, a comment or a break. -/
def BeginsToken (r : List Char) : Prop := ∀ c ∈ r.head?, c ≠ ' ' ∧ c ≠ '#' ∧ isBreak c = false

section Tokens

variable {r : List Char} {i line column : Nat}

theorem BeginsToken.cons {c : Char} (h : c ≠ ' ' ∧ c ≠ '#' ∧ isBreak c = false) :
    BeginsToken (c :: r) := by simpa [BeginsToken] using h

theorem BeginsToken.head?_ne (h : BeginsToken r) : r.head? ≠ some ' ' := fun hspace =>
  (h ' ' hspace).1 rfl

theorem BeginsToken.peek (h : BeginsToken r) :
    Cursor.peek ⟨r, i, line, column⟩ 0 ≠ '#' ∧
      isBreak (Cursor.peek ⟨r, i, line, column⟩ 0) = false := by
  cases r with
  | nil => exact ⟨(by decide : Char.ofNat 0 ≠ '#'), (by decide : isBreak (Char.ofNat 0) = false)⟩
  | cons c r => exact (h c rfl).2

end Tokens

namespace IsWord

variable {w r : List Char} {i line column : Nat}

theorem of_head (h : w.head?.any (·.isAlphanum) = true) (hw : IsWordText w) : IsWord w := by
  cases w with
  | nil => cases h
  | cons c w => exact ⟨⟨c, w, rfl, h⟩, hw⟩

theorem ne_nil (h : IsWord w) : w ≠ [] := by
  obtain ⟨c, w, rfl, -⟩ := h.begins
  exact List.cons_ne_nil c w

theorem inert (h : IsWord w) : ∀ c ∈ w, IsInert c := h.chars.inert

theorem inert_head (h : IsWord w) : ∀ c ∈ (w ++ r).head?, IsInert c := by
  obtain ⟨c, w, rfl, -⟩ := h.begins
  simpa using h.inert c List.mem_cons_self

theorem beginsToken (h : IsWord w) : BeginsToken (w ++ r) := fun c hc =>
  have hinert := h.inert_head c hc
  have hbreak := isBreak_of_isGap hinert.gap
  ⟨hbreak.2.2.1, hinert.mark.2.2.2.2.2, hbreak.1⟩

/-- No line that begins with a word, after spaces or none, begins like a mark of documents. -/
theorem atDocumentMark (h : IsWord w) (m : Nat) :
    Cursor.atDocumentMark ⟨List.replicate m ' ' ++ (w ++ r), i, line, column⟩ = false := by
  obtain ⟨c, w, rfl, hc⟩ := h.begins
  have hmark := not_mem_marks_of_isAlphanum hc
  simp only [marks, List.mem_cons, not_or] at hmark
  cases m with
  | zero => simp [Cursor.atDocumentMark, hmark]
  | succ m => simp [Cursor.atDocumentMark, List.replicate_succ]

end IsWord

section Runs

variable {w r : List Char} {i line column : Nat}

theorem skip_spaces (m : Nat) : Cursor.skip m ⟨List.replicate m ' ' ++ r, i, line, column⟩ =
    ⟨r, i + m, line, column + m⟩ := by
  induction m generalizing i column with
  | zero => rfl
  | succ m ih =>
    have hnext : Cursor.next ⟨' ' :: (List.replicate m ' ' ++ r), i, line, column⟩ =
        ⟨List.replicate m ' ' ++ r, i + 1, line, column + 1⟩ := rfl
    rw [List.replicate_succ, List.cons_append, Cursor.skip, hnext, ih]
    simp
    omega

theorem skipWhile_spaces (hr : r.head? ≠ some ' ') (m : Nat) :
    Cursor.skipWhile (· = ' ') ⟨List.replicate m ' ' ++ r, i, line, column⟩ =
      ⟨r, i + m, line, column + m⟩ := by
  have hstop : r.takeWhile (fun c => decide (c = ' ')) = [] := by
    cases r with
    | nil => rfl
    | cons c r => simpa using hr
  have hrun : (List.replicate m ' ' ++ r).takeWhile (fun c => decide (c = ' ')) =
      List.replicate m ' ' := by
    rw [List.takeWhile_append_of_pos (by simp), hstop, List.append_nil]
  rw [Cursor.skipWhile, Cursor.span, hrun, List.length_replicate, skip_spaces]

theorem next_of_isInert {c : Char} (h : IsInert c) :
    Cursor.next ⟨c :: r, i, line, column⟩ = ⟨r, i + 1, line, column + 1⟩ := by
  obtain ⟨hbreak, -⟩ := isBreak_of_isGap h.gap
  simp [Cursor.next, hbreak, h.mark.1]

theorem plainRun_append (hw : ∀ c ∈ w, IsInert c)
    (hend : ∀ i line column, endsPlain false ⟨r, i, line, column⟩ = true) {fuel : Nat}
    (hfuel : w.length < fuel) :
    plainRun false fuel ⟨w ++ r, i, line, column⟩ =
      (w, ⟨r, i + w.length, line, column + w.length⟩) := by
  induction w generalizing fuel i column with
  | nil =>
    obtain ⟨fuel, rfl⟩ : ∃ n, fuel = n + 1 := ⟨fuel - 1, by simp at hfuel; omega⟩
    simp [plainRun, hend]
  | cons c w ih =>
    obtain ⟨hc, hw⟩ := List.forall_mem_cons.mp hw
    obtain ⟨fuel, rfl⟩ : ∃ n, fuel = n + 1 := ⟨fuel - 1, by simp at hfuel; omega⟩
    have hgoes : endsPlain false ⟨c :: (w ++ r), i, line, column⟩ = false := by
      simp [endsPlain, Cursor.peek, hc.gap, hc.mark]
    rw [List.cons_append, plainRun, hgoes, next_of_isInert hc,
      ih hw (by simp at hfuel; omega)]
    simp [Cursor.peek]
    omega

theorem quotedScalar_append (hw : ∀ c ∈ w, IsInert c) {fuel : Nat} (hfuel : w.length < fuel) :
    quotedScalar true fuel ⟨w ++ '"' :: r, i, line, column⟩ =
      .ok (w, ⟨r, i + w.length + 1, line, column + w.length + 1⟩) := by
  induction w generalizing fuel i column with
  | nil =>
    obtain ⟨fuel, rfl⟩ : ∃ n, fuel = n + 1 := ⟨fuel - 1, by simp at hfuel; omega⟩
    rfl
  | cons c w ih =>
    obtain ⟨hc, hw⟩ := List.forall_mem_cons.mp hw
    obtain ⟨fuel, rfl⟩ : ∃ n, fuel = n + 1 := ⟨fuel - 1, by simp at hfuel; omega⟩
    obtain ⟨hbreak, -, hspace, htab⟩ := isBreak_of_isGap hc.gap
    have hrest : quotedScalar true fuel ⟨w ++ '"' :: r, i + 1, line, column + 1⟩ =
        .ok (w, ⟨r, i + 1 + w.length + 1, line, column + 1 + w.length + 1⟩) :=
      ih hw (by simp at hfuel; omega)
    rw [List.cons_append, quotedScalar, next_of_isInert hc]
    simp [Cursor.peek, hc.mark, hbreak, hspace, htab, hrest]
    omega

-- the run must not be computed while the scalar is opened
seal plainRun plainGap Cursor.peek in
theorem plainScalar_succ (inFlow : Bool) (indent : Int) (fuel : Nat) (gap : List Char)
    (broke : Bool) (c : Cursor) :
    plainScalar inFlow indent (fuel + 1) gap broke c =
      if c.peek 0 = '#' then ([], broke, c)
      else
        let (run, c) := plainRun inFlow (c.rest.length + 1) c
        if run.isEmpty then ([], broke, c)
        else
          let g := plainGap c
          match g.text with
          | none => (gap ++ run, g.breaksLine, g.cursor)
          | some t =>
            if t.isEmpty || g.cursor.peek 0 = '#' || (!inFlow && g.cursor.column < indent) then
              (gap ++ run, g.breaksLine, g.cursor)
            else
              let (rest, broke, c) := plainScalar inFlow indent fuel t g.breaksLine g.cursor
              (gap ++ run ++ rest, broke, c) := rfl

/-- A scalar of one word ends where the gap behind the word does, if the scalar does not go on. -/
theorem plainScalar_word (hw : IsWord w) {indent : Int} {gap : PlainGap}
    (hend : ∀ i line column, endsPlain false ⟨r, i, line, column⟩ = true)
    (hgap : plainGap ⟨r, i + w.length, line, column + w.length⟩ = gap)
    (hdone : gap.text = none ∨ gap.cursor.column < indent) (fuel : Nat) :
    plainScalar false indent (fuel + 1) [] false ⟨w ++ r, i, line, column⟩ =
      (w, gap.breaksLine, gap.cursor) := by
  have hpeek : Cursor.peek ⟨w ++ r, i, line, column⟩ 0 ≠ '#' := hw.beginsToken.peek.1
  have hrun : plainRun false ((w ++ r).length + 1) ⟨w ++ r, i, line, column⟩ =
      (w, ⟨r, i + w.length, line, column + w.length⟩) :=
    plainRun_append hw.inert hend (by rw [List.length_append]; omega)
  rw [plainScalar_succ, if_neg hpeek, hrun]
  -- the scalar ends at a gap without text, or at a line that is not indented enough
  rcases hdone with htext | hcolumn
  · simp [hw.ne_nil, hgap, htext]
  · simp only [List.isEmpty_iff, hw.ne_nil, if_false, hgap]
    cases gap.text <;> simp [hcolumn]

theorem plainScalar_key (hw : IsWord w) {g : Char} (hg : isGap g = true) (indent : Int)
    (fuel : Nat) :
    plainScalar false indent (fuel + 1) [] false ⟨w ++ ':' :: g :: r, i, line, column⟩ =
      (w, false, ⟨':' :: g :: r, i + w.length, line, column + w.length⟩) :=
  plainScalar_word hw (fun _ _ _ => by simp [endsPlain, Cursor.peek, hg]) rfl (.inl rfl) fuel

theorem plainBreaks_spaces (hr : ∀ c ∈ r.head?, IsInert c) (m : Nat) {fuel : Nat}
    (hfuel : m < fuel) :
    plainBreaks fuel ⟨List.replicate m ' ' ++ r, i, line, column⟩ =
      (some [], ⟨r, i + m, line, column + m⟩) := by
  induction m generalizing fuel i column with
  | zero =>
    obtain ⟨fuel, rfl⟩ : ∃ n, fuel = n + 1 := ⟨fuel - 1, by omega⟩
    cases r with
    | nil => rfl
    | cons c r =>
      obtain ⟨hbreak, -, hspace, -⟩ := isBreak_of_isGap (hr c rfl).gap
      simp [plainBreaks, Cursor.peek, hbreak, hspace]
  | succ m ih =>
    obtain ⟨fuel, rfl⟩ : ∃ n, fuel = n + 1 := ⟨fuel - 1, by omega⟩
    have hnext : Cursor.next ⟨' ' :: (List.replicate m ' ' ++ r), i, line, column⟩ =
        ⟨List.replicate m ' ' ++ r, i + 1, line, column + 1⟩ := rfl
    rw [List.replicate_succ, List.cons_append, plainBreaks, hnext, ih (by omega)]
    simp [Cursor.peek]
    omega

theorem plainGap_newLine {m : Nat} (hr : ∀ c ∈ r.head?, IsInert c)
    (hmark : ∀ i line, Cursor.atDocumentMark ⟨List.replicate m ' ' ++ r, i, line, 0⟩ = false) :
    plainGap ⟨'\n' :: (List.replicate m ' ' ++ r), i, line, column⟩ =
      ⟨some [' '], true, ⟨r, i + 1 + m, line + 1, m⟩⟩ := by
  have hspan : Cursor.span (· = ' ') ⟨'\n' :: (List.replicate m ' ' ++ r), i, line, column⟩ =
      ([], ⟨'\n' :: (List.replicate m ' ' ++ r), i, line, column⟩) := rfl
  have hbreak : isBreak (Cursor.peek ⟨'\n' :: (List.replicate m ' ' ++ r), i, line, column⟩ 0) =
      true := rfl
  have hline : Cursor.lineBreak ⟨'\n' :: (List.replicate m ' ' ++ r), i, line, column⟩ =
      (['\n'], ⟨List.replicate m ' ' ++ r, i + 1, line + 1, 0⟩) := rfl
  have hbreaks : plainBreaks ((List.replicate m ' ' ++ r).length + 1)
      ⟨List.replicate m ' ' ++ r, i + 1, line + 1, 0⟩ =
      (some [], ⟨r, i + 1 + m, line + 1, 0 + m⟩) := plainBreaks_spaces hr m (by
      rw [List.length_append, List.length_replicate]
      omega)
  simp only [plainGap, hspan, hbreak, hline, hmark, hbreaks]
  simp [foldedText]

/-- A value ends with its line, if the next line is not indented. -/
theorem plainScalar_value (hw : IsWord w) {indent : Int} {m : Nat} (hm : m < indent)
    (hr : ∀ c ∈ r.head?, IsInert c)
    (hmark : ∀ i line, Cursor.atDocumentMark ⟨List.replicate m ' ' ++ r, i, line, 0⟩ = false)
    (fuel : Nat) :
    plainScalar false indent (fuel + 1) [] false
        ⟨w ++ '\n' :: (List.replicate m ' ' ++ r), i, line, column⟩ =
      (w, true, ⟨r, i + w.length + 1 + m, line + 1, m⟩) :=
  plainScalar_word hw (fun _ _ _ => rfl) (plainGap_newLine hr hmark) (.inr hm) fuel

end Runs

end OutOfBand.Yaml
