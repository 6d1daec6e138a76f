import OutOfBand.Proofs.Yaml.Words

namespace OutOfBand.Yaml

namespace Lexer

/-- A lexer between two words of block mappings. -/
def between (c : Cursor) (ts : List Token) (indent : Int) (indents : List Int) (allowed : Bool) :
    Lexer :=
  { cursor := c, tokens := ts.toArray, flow := 0, indent, indents, keyAllowed := allowed
    candidates := [] }

/-- Such a lexer after a word that may have begun a key. -/
def keyed (c : Cursor) (ts : List Token) (indent : Int) (indents : List Int) (k : KeyCandidate) :
    Lexer :=
  { between c ts indent indents false with candidates := [(0, k)] }

/-- The place of a key that begins with the next token. -/
def candidateAt (c : Cursor) (ts : List Token) (indent : Int) : KeyCandidate :=
  ⟨ts.length, indent = c.column, c.index, c.line, c.column⟩

/-- What a lexer does before it looks at the next token. -/
def Ready (l l' : Lexer) : Prop :=
  ∃ l₁, (l.skipBlank (l.cursor.rest.length + 1)).dropStale = .ok l₁ ∧
    l₁.unwind l₁.cursor.column = l'

variable {l l' : Lexer} {w r : List Char} {i line column m n fuel : Nat} {c : Cursor}
  {ts : List Token} {indent : Int} {indents : List Int} {allowed : Bool}

section Blanks

theorem skipBlank_spaces (hcursor : l.cursor = ⟨List.replicate m ' ' ++ r, i, line, column⟩)
    (hr : BeginsToken r) :
    skipBlank (fuel + 1) l = { l with cursor := ⟨r, i + m, line, column + m⟩ } := by
  rw [skipBlank, hcursor, skipWhile_spaces hr.head?_ne]
  simp [hr.peek]

theorem skipBlank_newLine
    (hcursor : l.cursor =
      ⟨List.replicate n ' ' ++ '\n' :: (List.replicate m ' ' ++ r), i, line, column⟩)
    (hr : BeginsToken r) :
    skipBlank (fuel + 2) l =
      { l with
        cursor := ⟨r, i + n + 1 + m, line + 1, m⟩
        keyAllowed := l.keyAllowed || l.flow = 0 } := by
  have hline (i line column : Nat) :
      Cursor.lineBreak ⟨'\n' :: (List.replicate m ' ' ++ r), i, line, column⟩ =
        (['\n'], ⟨List.replicate m ' ' ++ r, i + 1, line + 1, 0⟩) := rfl
  have hpeek (i line column : Nat) :
      Cursor.peek ⟨'\n' :: (List.replicate m ' ' ++ r), i, line, column⟩ 0 = '\n' := rfl
  have hbreak : isBreak '\n' = true := rfl
  rw [skipBlank, hcursor, skipWhile_spaces (by simp)]
  simp only [hpeek, hline, hbreak, if_true, if_neg (by decide : '\n' ≠ '#')]
  rw [skipBlank_spaces rfl hr]
  simp

theorem unwind_between {k : Int} (h : indent ≤ k) :
    (between c ts indent indents allowed).unwind k = between c ts indent indents allowed := by
  simp [unwind, between, Int.not_lt.mpr h]

theorem ready_spaces (hr : BeginsToken r) :
    Ready (between ⟨List.replicate m ' ' ++ r, i, line, column⟩ ts indent indents allowed)
      ((between ⟨r, i + m, line, column + m⟩ ts indent indents allowed).unwind
        (column + m : Nat)) := by
  refine ⟨between ⟨r, i + m, line, column + m⟩ ts indent indents allowed, ?_, rfl⟩
  rw [skipBlank_spaces rfl hr]
  rfl

theorem ready_newLine (hr : BeginsToken r) :
    Ready (between ⟨List.replicate n ' ' ++ '\n' :: (List.replicate m ' ' ++ r), i, line, column⟩
        ts indent indents allowed)
      ((between ⟨r, i + n + 1 + m, line + 1, m⟩ ts indent indents true).unwind m) := by
  refine ⟨between ⟨r, i + n + 1 + m, line + 1, m⟩ ts indent indents true, ?_, rfl⟩
  obtain ⟨fuel, hfuel⟩ : ∃ fuel,
      (List.replicate n ' ' ++ '\n' :: (List.replicate m ' ' ++ r)).length + 1 = fuel + 2 :=
    ⟨n + m + r.length, by simp; omega⟩
  change (skipBlank ((List.replicate n ' ' ++ '\n' :: (List.replicate m ' ' ++ r)).length + 1)
    _).dropStale = _
  rw [hfuel, skipBlank_newLine rfl hr]
  simp [between, dropStale]

theorem ready_word (hw : IsWord w) (m : Nat) (h : indent ≤ column + m) :
    Ready (between ⟨List.replicate m ' ' ++ (w ++ r), i, line, column⟩ ts indent indents allowed)
      (between ⟨w ++ r, i + m, line, column + m⟩ ts indent indents allowed) := by
  rw [← unwind_between (c := ⟨w ++ r, i + m, line, column + m⟩) (k := (column + m : Nat))
    (by simpa using h)]
  exact ready_spaces hw.beginsToken

theorem ready_nextWord (hw : IsWord w) (h : indent ≤ m) :
    Ready (between ⟨'\n' :: (List.replicate m ' ' ++ (w ++ r)), i, line, column⟩ ts indent indents
      allowed) (between ⟨w ++ r, i + 1 + m, line + 1, m⟩ ts indent indents true) := by
  rw [← unwind_between (c := ⟨w ++ r, i + 1 + m, line + 1, m⟩) (k := m) h]
  exact ready_newLine (n := 0) hw.beginsToken

/-- A candidate stays while its line goes on and not too far. -/
theorem ready_keyed {k : KeyCandidate} (hr : BeginsToken r) (hline : k.line = line)
    (hfar : i ≤ k.index + 1024) (h : indent ≤ column) :
    Ready (keyed ⟨r, i, line, column⟩ ts indent indents k)
      (keyed ⟨r, i, line, column⟩ ts indent indents k) := by
  have hstale : (1024 < i - k.index) = False := eq_false (by omega)
  refine ⟨keyed ⟨r, i, line, column⟩ ts indent indents k, ?_, ?_⟩
  · rw [skipBlank_spaces (m := 0) rfl hr]
    simp [dropStale, keyed, between, hline, hstale]
  · simp [unwind, keyed, between, Int.not_lt.mpr h]

end Blanks

section Steps

theorem step_word (h : Ready l l') (hw : IsWord w) (hrest : l'.cursor.rest = w ++ r) :
    l.step = l'.addPlain := by
  obtain ⟨l₁, hstale, hunwind⟩ := h
  obtain ⟨x, w, rfl, hx⟩ := hw.begins
  have hgap := (hw.inert x List.mem_cons_self).gap
  have hmark := not_mem_marks_of_isAlphanum hx
  have hgrave : x.toNat ≠ 0x60 := fun h => hmark (Char.ofNat_toNat x ▸ h ▸ by decide)
  have hpeek : l'.cursor.peek 0 = x := by simp [Cursor.peek, hrest]
  -- every branch before the last one is for a mark, and a word begins with none
  simp only [marks, List.mem_cons, List.not_mem_nil, or_false, not_or] at hmark
  have hstarts : l'.startsPlain = true := by simp [startsPlain, hpeek, hgap, hmark, hgrave]
  simp only [step, hstale, hunwind, bind, Except.bind, hpeek, hstarts]
  simp [hrest, Cursor.atDocumentMark, hmark]

theorem step_colon {g : Char} (h : Ready l l') (hg : isGap g = true)
    (hrest : l'.cursor.rest = ':' :: g :: r) : l.step = l'.addValue := by
  obtain ⟨l₁, hstale, hunwind⟩ := h
  have hpeek : l'.cursor.peek 0 = ':' ∧ l'.cursor.peek 1 = g := by simp [Cursor.peek, hrest]
  simp only [step, hstale, hunwind, bind, Except.bind, hpeek]
  simp [hrest, Cursor.atDocumentMark, hg]

theorem step_quote (h : Ready l l') (hrest : l'.cursor.rest = '"' :: r) :
    l.step = l'.addWord (readQuoted true) := by
  obtain ⟨l₁, hstale, hunwind⟩ := h
  have hpeek : l'.cursor.peek 0 = '"' := by simp [Cursor.peek, hrest]
  simp only [step, hstale, hunwind, bind, Except.bind, hpeek]
  simp [hrest, Cursor.atDocumentMark]

theorem step_nil (h : Ready l l') (hrest : l'.cursor.rest = []) : l.step = l'.addEnd := by
  obtain ⟨l₁, hstale, hunwind⟩ := h
  simp [step, hstale, hunwind, bind, Except.bind, hrest]

-- the step must not be computed while the run is opened
seal step in
theorem run_eq (fuel : Nat) (l : Lexer) :
    run (fuel + 1) l =
      match l.step with
      | .error f => (l.tokens, some f)
      | .ok l' => if l'.tokens.back? = some .streamEnd then (l'.tokens, none) else run fuel l' :=
  rfl

theorem run_of_step (h : l.step = .ok l') (hend : l'.tokens.back? ≠ some .streamEnd) :
    run (fuel + 1) l = run fuel l' := by
  rw [run_eq, h]
  exact if_neg hend

end Steps

section Words

variable {text : List Char} {broke : Bool} {g : Char}

theorem saveCandidate_of_allowed : (between c ts indent indents true).saveCandidate =
    .ok { keyed c ts indent indents (candidateAt c ts indent) with keyAllowed := true } := by
  simp [saveCandidate, keyed, between, dropCandidate, candidate?, candidateAt, bind, Except.bind,
    pure, Except.pure]

theorem saveCandidate_of_not_allowed : (between c ts indent indents false).saveCandidate =
    .ok (between c ts indent indents false) := rfl

theorem addPlain_eq (hsave : l.saveCandidate = .ok l') (hflow : l'.flow = 0)
    (h : plainScalar false (l'.indent + 1) (l'.cursor.rest.length + 1) [] false l'.cursor =
      (text, broke, c)) :
    l.addPlain =
      .ok ({ l' with keyAllowed := broke, cursor := c }.push
        (.scalar (String.ofList text) true)) := by
  simp only [addPlain, hsave, bind, Except.bind, pure, Except.pure, hflow, ne_eq, not_true,
    decide_false, h]

theorem addWord_eq {read : Cursor → Scan (Token × Cursor)} {t : Token}
    (hsave : l.saveCandidate = .ok l') (h : read l'.cursor = .ok (t, c)) :
    l.addWord read = .ok ({ l' with keyAllowed := false, cursor := c }.push t) := by
  simp only [addWord, hsave, bind, Except.bind, pure, Except.pure, h]

theorem step_keyText (hw : IsWord w) (hg : isGap g = true)
    (h : Ready l (between ⟨w ++ ':' :: g :: r, i, line, column⟩ ts indent indents true)) :
    l.step =
      .ok (keyed ⟨':' :: g :: r, i + w.length, line, column + w.length⟩
        (ts ++ [.scalar (String.ofList w) true]) indent indents
        (candidateAt ⟨w ++ ':' :: g :: r, i, line, column⟩ ts indent)) := by
  rw [step_word h hw rfl, addPlain_eq saveCandidate_of_allowed rfl (plainScalar_key hw hg _ _)]
  simp [push, keyed, between]

theorem insertIdx_append (s t : List Token) (x : Token) :
    (s ++ t).insertIdx s.length x = s ++ x :: t := by
  induction s with
  | nil => rfl
  | cons y s ih => simp [ih]

/-- The colon makes a key of a candidate, in a mapping that it opens if it stands deeper. -/
theorem step_keyColon {s : List Char} {j k : Nat} {t : Token} (hg : isGap g = true)
    (hfar : i ≤ j + 1024) (hcolumn : indent ≤ column) :
    (keyed ⟨':' :: g :: r, i, line, column⟩ (ts ++ [t]) indent indents
      (candidateAt ⟨s, j, line, k⟩ ts indent)).step =
      .ok (if indent < k then
        between ⟨g :: r, i + 1, line, column + 1⟩ (ts ++ [.blockMapping, .key, t, .value]) k
          (indent :: indents) false
      else between ⟨g :: r, i + 1, line, column + 1⟩ (ts ++ [.key, t, .value]) indent indents
        false) := by
  have hready : Ready (keyed ⟨':' :: g :: r, i, line, column⟩ (ts ++ [t]) indent indents
      (candidateAt ⟨s, j, line, k⟩ ts indent)) _ :=
    ready_keyed (.cons (by decide)) rfl hfar hcolumn
  have hskip : Cursor.skip 1 ⟨':' :: g :: r, i, line, column⟩ = ⟨g :: r, i + 1, line, column + 1⟩ :=
    rfl
  rw [step_colon hready hg rfl]
  simp only [addValue, candidate?, keyed, between, List.find?_cons, decide_true, Option.map_some,
    if_true, openBlock, addMark, candidateAt]
  by_cases hdeep : indent < k <;> simp [hdeep, hskip, insertIdx_append]

end Words

section Runs

variable {g : Char}

/-- A key that stands deeper than what is open is the first of a mapping. -/
theorem run_firstKey (hw : IsWord w) (hg : isGap g = true) (hfar : w.length ≤ 1024)
    (hdeep : indent < column)
    (h : Ready l (between ⟨w ++ ':' :: g :: r, i, line, column⟩ ts indent indents true)) :
    run (fuel + 2) l = run fuel (between ⟨g :: r, i + w.length + 1, line, column + w.length + 1⟩
      (ts ++ [.blockMapping, .key, .scalar (String.ofList w) true, .value]) column
      (indent :: indents) false) := by
  rw [run_of_step (step_keyText hw hg h) (by simp [keyed, between]), run_of_step
    (step_keyColon hg (Nat.add_le_add_left hfar i) (by omega)) (by simp [between, hdeep]),
    if_pos hdeep]

/-- A key that stands as deep as the mapping does is the next one of it. -/
theorem run_nextKey (hw : IsWord w) (hg : isGap g = true) (hfar : w.length ≤ 1024)
    (hcolumn : indent = column)
    (h : Ready l (between ⟨w ++ ':' :: g :: r, i, line, column⟩ ts indent indents true)) :
    run (fuel + 2) l = run fuel (between ⟨g :: r, i + w.length + 1, line, column + w.length + 1⟩
      (ts ++ [.key, .scalar (String.ofList w) true, .value]) indent indents false) := by
  rw [run_of_step (step_keyText hw hg h) (by simp [keyed, between]), run_of_step
    (step_keyColon hg (Nat.add_le_add_left hfar i) (by omega)) (by simp [between, hcolumn]),
    if_neg (by omega)]

theorem run_plain (hw : IsWord w) (hm : m ≤ indent) (hr : ∀ c ∈ r.head?, IsInert c)
    (hmark : ∀ i line, Cursor.atDocumentMark ⟨List.replicate m ' ' ++ r, i, line, 0⟩ = false)
    (h : Ready l (between ⟨w ++ '\n' :: (List.replicate m ' ' ++ r), i, line, column⟩ ts indent
      indents false)) :
    run (fuel + 1) l = run fuel (between ⟨r, i + w.length + 1 + m, line + 1, m⟩
      (ts ++ [.scalar (String.ofList w) true]) indent indents true) := by
  refine run_of_step ?_ (by simp [between])
  rw [step_word h hw rfl, addPlain_eq saveCandidate_of_not_allowed rfl
    (plainScalar_value hw (Int.lt_add_one_of_le hm) hr hmark _)]
  simp [push, between]

theorem run_quoted (hw : ∀ c ∈ w, IsInert c)
    (h : Ready l (between ⟨'"' :: w ++ '"' :: r, i, line, column⟩ ts indent indents false)) :
    run (fuel + 1) l = run fuel (between ⟨r, i + 1 + w.length + 1, line, column + 1 + w.length + 1⟩
      (ts ++ [.scalar (String.ofList w) false]) indent indents false) := by
  have hnext : Cursor.next ⟨'"' :: w ++ '"' :: r, i, line, column⟩ =
      ⟨w ++ '"' :: r, i + 1, line, column + 1⟩ := rfl
  have hread : readQuoted true ⟨'"' :: w ++ '"' :: r, i, line, column⟩ =
      .ok (.scalar (String.ofList w) false,
        ⟨r, i + 1 + w.length + 1, line, column + 1 + w.length + 1⟩) := by
    rw [readQuoted, hnext, quotedScalar_append hw (by simp; omega)]
    rfl
  refine run_of_step ?_ (by simp [between])
  rw [step_quote h rfl, addWord_eq saveCandidate_of_not_allowed hread]
  simp [push, between]

theorem run_end
    (h : Ready l ((between ⟨[], i, line, 0⟩ ts 4 [2, 0, -1] allowed).unwind (0 : Nat))) :
    run (fuel + 1) l =
      ((ts ++ [Token.blockEnd, .blockEnd, .blockEnd, .streamEnd]).toArray, none) := by
  have hunwind : (between ⟨[], i, line, 0⟩ ts 4 [2, 0, -1] allowed).unwind (0 : Nat) =
      between ⟨[], i, line, 0⟩ (ts ++ [.blockEnd, .blockEnd]) 0 [-1] allowed := by
    simp [unwind, between]
  rw [hunwind] at h
  rw [run_eq, step_nil h rfl]
  simp [addEnd, unwind, between, dropCandidate, candidate?, push, bind, Except.bind, pure,
    Except.pure]

end Runs

end Lexer

/-- A text that is read in a number of steps is read in as many as its length allows. -/
theorem Token.ofText_of_run {s : List Char} {ts : List Token}
    (hallowed : ∀ c ∈ s, isAllowed c = true) (hmark : s.head? ≠ some byteOrderMark) {k : Nat}
    (hk : k ≤ 2 * s.length + 2)
    (h : ∀ fuel, (Lexer.start s).run (fuel + k) = (ts.toArray, none)) :
    Token.ofText s = (ts, .malformed) := by
  obtain ⟨fuel, hfuel⟩ : ∃ fuel, 2 * s.length + 2 = fuel + k := ⟨2 * s.length + 2 - k, by omega⟩
  rw [Token.ofText, List.all_eq_true.mpr hallowed, if_neg hmark]
  simp [hfuel, h]

end OutOfBand.Yaml
