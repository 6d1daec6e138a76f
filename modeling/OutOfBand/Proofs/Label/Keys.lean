import OutOfBand.Proofs.Label.Reading

namespace OutOfBand

/-- A text that would be a key but for the blanks in it, none of which is a space. -/
structure Overlooked (k : String) : Prop where
  ne_empty : k ≠ ""
  blank : ∃ c ∈ k.toList, isBlank c = true
  form : ∀ c ∈ k.toList, c ∉ [' ', '!', '=', ',', '(', ')']

namespace Condition

/-- A choice from a set. -/
def IsChoice : Condition → Prop
  | within _ | without _ => True
  | equal _ | unequal _ | present | absent => False

/-- Values that an expression can hold, and that can be told from its form. -/
structure Readable (c : Condition) : Prop where
  values : ∀ v ∈ c.values, IsValueText v
  distinct : c.Distinct

end Condition

namespace Label

/-- The text that stands in the place of a term's key: before the word of a choice, after an
exclamation mark, before the first operator, or alone. -/
def keyText (t : List Char) : List Char :=
  match setTerm? t with
  | some r => r.key.toList
  | none => trim (plainTerm t).1

/-- Commas only behind an opening parenthesis. -/
def Sheltered (s : List Char) : Prop := ∀ u v, s = u ++ ',' :: v → '(' ∈ u

section Sheltered

variable {s : List Char} {c : Char}

theorem sheltered_nil : Sheltered [] := by
  intro u v h
  simp at h

theorem sheltered_cons_of_open (s : List Char) : Sheltered ('(' :: s) := by
  intro u v h
  cases u with
  | nil => simp at h
  | cons c u =>
    rw [List.cons_append, List.cons.injEq] at h
    exact h.1 ▸ List.mem_cons_self

theorem Sheltered.cons (h : Sheltered s) (hc : c ≠ ',') : Sheltered (c :: s) := by
  intro u v hs
  cases u with
  | nil => exact absurd (List.cons.inj hs).1 hc
  | cons d u => exact List.mem_cons_of_mem d (h u v (List.cons.inj hs).2)

theorem Sheltered.of_append {t : List Char} (h : Sheltered (s ++ t)) : Sheltered s := by
  rintro u v rfl
  exact h u (v ++ t) (by simp)

/-- What stands before a text does not shelter its commas unless it opens a parenthesis. -/
theorem Sheltered.drop {b : List Char} (h : Sheltered (b ++ s)) (hb : '(' ∉ b) : Sheltered s := by
  rintro u v rfl
  have hmem := h (b ++ u) v (by simp)
  exact (List.mem_append.mp hmem).resolve_left hb

theorem Sheltered.not_mem (h : Sheltered s) (hs : '(' ∉ s) : ',' ∉ s := by
  intro hmem
  obtain ⟨u, v, rfl⟩ := List.append_of_mem hmem
  exact hs (List.mem_append_left _ (h u v rfl))

/-- A comma ends a piece unless a parenthesis is open. -/
theorem sheltered_of_pieces {depth : Nat} {ps : List (List Char)} (h : pieces depth s = .ok ps) :
    (∀ p ∈ ps.tail, Sheltered p) ∧ (depth = 0 → ∀ p ∈ ps, Sheltered p) := by
  induction s generalizing depth ps with
  | nil =>
    rw [pieces_nil] at h
    split at h
    next =>
      cases h
      simp [sheltered_nil]
    next => cases h
  | cons c s ih =>
    obtain ⟨next, hnext, qs, hqs, rfl⟩ := pieces_cons_eq_ok_iff.mp h
    obtain ⟨q, qs, rfl⟩ := List.exists_cons_of_ne_nil (pieces_ne_nil hqs)
    obtain ⟨htail, hall⟩ := ih hqs
    rw [List.tail_cons] at htail
    by_cases hcut : c = ',' ∧ depth = 0
    · obtain ⟨rfl, rfl⟩ := hcut
      have hzero : next = 0 := (Option.some.inj hnext).symm
      rw [place, if_pos ⟨rfl, rfl⟩, List.tail_cons]
      exact ⟨hall hzero, fun _ => List.forall_mem_cons.mpr ⟨sheltered_nil, hall hzero⟩⟩
    · rw [place, if_neg hcut, extend, List.tail_cons]
      refine ⟨htail, fun hdepth => List.forall_mem_cons.mpr ⟨?_, htail⟩⟩
      by_cases hopen : c = '('
      · exact hopen ▸ sheltered_cons_of_open q
      · -- outside parentheses a character that opens none leaves it so
        have hzero : next = 0 := by
          rw [depthAfter?, if_neg hopen, hdepth] at hnext
          split at hnext
          next => simp at hnext
          next => exact (Option.some.inj hnext).symm
        exact (hall hzero q List.mem_cons_self).cons fun hc => hcut ⟨hc, hdepth⟩

end Sheltered

section Trim

theorem Sheltered.trim {s : List Char} (h : Sheltered s) : Sheltered (OutOfBand.trim s) := by
  obtain ⟨b, b', hb, -, hs⟩ := exists_trim s
  rw [hs] at h
  exact h.of_append.drop (not_mem_of_blanks hb rfl)

theorem sheltered_of_terms {s : List Char} {ts : List (List Char)} (h : terms s = .ok ts) :
    ∀ t ∈ ts, Sheltered t := by
  obtain ⟨ps, hps, rfl⟩ := map_eq_ok_iff.mp h
  intro t ht
  obtain ⟨p, hp, rfl⟩ := List.mem_map.mp (List.mem_of_mem_filter ht)
  exact ((sheltered_of_pieces hps).2 rfl p hp).trim

end Trim

section Terms

variable {t : List Char} {r : Requirement}

/-- The key of a term without a set is what stands before something, or after a mark. -/
theorem plainTerm_cases (t : List Char) : t = '!' :: (plainTerm t).1 ∨ (plainTerm t).1 <+: t := by
  by_cases hbang : t.head? = some '!'
  · obtain ⟨s, rfl⟩ := List.head?_eq_some_iff.mp hbang
    exact .inl rfl
  · right
    rw [plainTerm_of_head hbang]
    split
    next h => exact prefix_of_cutAt h
    next h => exact prefix_of_cutAt h
    next h => exact prefix_of_cutAt h
    next => exact List.prefix_rfl

theorem sheltered_plainTerm (h : Sheltered t) : Sheltered (plainTerm t).1 := by
  rcases plainTerm_cases t with ht | ⟨s, hs⟩
  · rw [ht] at h
    exact Sheltered.drop (b := ['!']) h (by simp)
  · rw [← hs] at h
    exact h.of_append

theorem isKeyText_of_setTerm? (h : setTerm? t = some r) : IsKeyText r.key := by
  have hkey : r.key = String.ofList (t.takeWhile isSetKeyChar) ∧ t.takeWhile isSetKeyChar ≠ [] := by
    simp only [setTerm?] at h
    split at h
    next => cases h
    next hne =>
      refine ⟨?_, by simpa using hne⟩
      obtain ⟨s, -, h⟩ := Option.bind_eq_some_iff.mp h
      split at h
      next =>
        obtain ⟨body, -, h⟩ := Option.bind_eq_some_iff.mp h
        cases h
        rfl
      next =>
        obtain ⟨body, -, h⟩ := Option.bind_eq_some_iff.mp h
        cases h
        rfl
      next => cases h
  obtain ⟨hkey, hne⟩ := hkey
  have hchars : ∀ c ∈ r.key.toList, isSetKeyChar c = true := by
    rw [hkey, String.toList_ofList]
    exact fun c hc => List.mem_takeWhile_imp hc
  have hform : ∀ c ∈ r.key.toList, isBlank c = false ∧ c ∉ ['!', '=', ',', '(', ')'] :=
    fun c hc => by simpa [isSetKeyChar] using hchars c hc
  exact ⟨by simpa [hkey] using hne, fun c hc => (hform c hc).1, fun c hc => (hform c hc).2⟩

theorem not_isChoice_plainTerm (t : List Char) : ¬ (plainTerm t).2.IsChoice := by
  by_cases hbang : t.head? = some '!'
  · obtain ⟨s, rfl⟩ := List.head?_eq_some_iff.mp hbang
    exact id
  · rw [plainTerm_of_head hbang]
    split <;> exact id

/-- A term that does not choose from a set is refused only for its key. -/
theorem parseTerm_of_not_setTerm (h : setTerm? t = none) :
    parseTerm t = if isKey (keyText t) then .ok ⟨String.ofList (keyText t), (plainTerm t).2⟩
      else .error (.badTerm (String.ofList t)) := by
  rw [parseTerm, keyText, h]

theorem isKeyText_or_overlooked {k : List Char} (h : isKey k = true) (hk : Sheltered k) :
    IsKeyText (String.ofList k) ∨ Overlooked (String.ofList k) := by
  rw [isKey, Bool.and_eq_true, Bool.not_eq_true', Bool.not_eq_true', List.any_eq_false] at h
  obtain ⟨hne, hforbidden⟩ := h
  have hne : String.ofList k ≠ "" := by simpa using hne
  have hsign : ∀ c ∈ k, c ∉ [' ', '=', '!', '(', ')'] := fun c hc => by
    simpa [isForbidden] using hforbidden c hc
  have hcomma : ',' ∉ k := hk.not_mem fun hopen => hsign _ hopen (by simp)
  have hform : ∀ c ∈ k, c ∉ [' ', '!', '=', ',', '(', ')'] := by
    intro c hc hmem
    have hother := hsign c hc
    have hnot : c ≠ ',' := fun h => hcomma (h ▸ hc)
    simp only [List.mem_cons, List.not_mem_nil, or_false] at hmem hother
    tauto
  rw [← String.toList_ofList (l := k)] at hform
  by_cases hblank : ∃ c ∈ (String.ofList k).toList, isBlank c = true
  · exact .inr ⟨hne, hblank, hform⟩
  · refine .inl ⟨hne, fun c hc => ?_, fun c hc hmem => hform c hc (List.mem_cons_of_mem _ hmem)⟩
    exact Bool.eq_false_iff.mpr fun h => hblank ⟨c, hc, h⟩

theorem keyText_of_not_setTerm (h : setTerm? t = none) : keyText t = trim (plainTerm t).1 := by
  rw [keyText, h]

theorem toList_key_of_parseTerm (h : parseTerm t = .ok r) : r.key.toList = keyText t := by
  cases hset : setTerm? t with
  | some r' =>
    rw [parseTerm, hset] at h
    cases h
    rw [keyText, hset]
  | none =>
    rw [parseTerm_of_not_setTerm hset] at h
    split at h
    next =>
      cases h
      exact String.toList_ofList
    next => cases h

/-- The key of a term that is accepted is well formed, or its blanks are overlooked. -/
theorem isKeyText_of_parseTerm (ht : Sheltered t) (h : parseTerm t = .ok r) :
    IsKeyText r.key ∨ Overlooked r.key ∧ ¬ r.condition.IsChoice := by
  cases hset : setTerm? t with
  | some r' =>
    rw [parseTerm, hset] at h
    cases h
    exact .inl (isKeyText_of_setTerm? hset)
  | none =>
    rw [parseTerm_of_not_setTerm hset] at h
    split at h
    next hkey =>
      cases h
      have hsheltered : Sheltered (keyText t) := by
        rw [keyText_of_not_setTerm hset]
        exact (sheltered_plainTerm ht).trim
      exact (isKeyText_or_overlooked hkey hsheltered).imp_right (⟨·, not_isChoice_plainTerm t⟩)
    next => cases h

end Terms

section Writing

theorem listed_spells (vs : List String) : Listed Spells vs (vs.map String.toList) := by
  induction vs with
  | nil => exact .nil
  | cons v vs ih =>
    have hv : Spells v v.toList := rfl
    simpa using Listed.item hv blanks_nil blanks_nil ih

theorem exists_chooses (word : List Char) (k : String) (vs : List String) :
    ∃ w, Chooses word k vs w := by
  have hblank : Blanks [' '] := by
    simp [Blanks]
    rfl
  exact ⟨_, [' '], [' '], vs, vs.map String.toList, hblank, by simp, hblank, by simp,
    listed_spells vs, fun _ => Iff.rfl, rfl⟩

theorem exists_compares (op : List Char) (k v : String) : ∃ w, Compares op k v w :=
  ⟨_, [], [], blanks_nil, blanks_nil, rfl⟩

theorem exists_writes (r : Requirement) : ∃ w, Writes r w := by
  obtain ⟨k, condition⟩ := r
  cases condition with
  | equal v =>
    obtain ⟨w, hw⟩ := exists_compares ['=', '='] k v
    exact ⟨w, .doubleEqual hw⟩
  | unequal v =>
    obtain ⟨w, hw⟩ := exists_compares ['!', '='] k v
    exact ⟨w, .unequal hw⟩
  | within vs =>
    obtain ⟨w, hw⟩ := exists_chooses ['i', 'n'] k vs
    exact ⟨w, .within hw⟩
  | without vs =>
    obtain ⟨w, hw⟩ := exists_chooses ['n', 'o', 't', 'i', 'n'] k vs
    exact ⟨w, .without hw⟩
  | present => exact ⟨_, .present k⟩
  | absent => exact ⟨_, .absent k blanks_nil⟩

theorem parse_of_writes {r : Requirement} {w : List Char} (hr : r.Writable) (h : Writes r w) :
    parse (String.ofList w) = .ok [r] := by
  have hwhole := whole_of_writes hr h blanks_nil blanks_nil
  obtain ⟨hne, hread⟩ := parseTerm_of_writes hr h blanks_nil blanks_nil
  rw [List.nil_append, List.append_nil] at hwhole hne hread
  have hterms : terms w = .ok [trim w] := by
    rw [terms, show pieces 0 w = .ok [w] from hwhole]
    simp [Except.map, hne]
  refine parse_eq_ok_iff.mpr ⟨[trim w], by rwa [String.toList_ofList], ?_⟩
  exact mapM_eq_ok_iff.mpr (.cons hread .nil)

end Writing

theorem isKeyText_of_parse {e : String} {rs : List Requirement} (h : parse e = .ok rs)
    {r : Requirement} (hr : r ∈ rs) :
    IsKeyText r.key ∨ Overlooked r.key ∧ ¬ r.condition.IsChoice := by
  obtain ⟨ts, hts, hread⟩ := parse_eq_ok_iff.mp h
  obtain ⟨t, ht, hterm⟩ := exists_of_mem_right (mapM_eq_ok_iff.mp hread) hr
  exact isKeyText_of_parseTerm (sheltered_of_terms hts t ht) hterm

/-- The keys that are accepted are texts without blanks, operators, commas and parentheses, but for
those whose blanks are overlooked where nothing is chosen from a set. An expression with a term of
another key is refused, and each condition can be asked for of the same keys. -/
theorem accepted_keys (e : String) (r : Requirement) :
    (∀ rs, parse e = .ok rs → r ∈ rs →
      IsKeyText r.key ∨ Overlooked r.key ∧ ¬ r.condition.IsChoice) ∧
    (∀ ts, terms e.toList = .ok ts → ∀ t ∈ ts, ¬ IsKeyText (String.ofList (keyText t)) →
      ¬ Overlooked (String.ofList (keyText t)) → ∃ f, parse e = .error f) ∧
    (r.condition.Readable → r.condition.IsChoice ∨ ¬ Overlooked r.key →
      ((∃ s rs, parse s = .ok rs ∧ r ∈ rs) ↔ IsKeyText r.key)) := by
  refine ⟨fun rs h hr => isKeyText_of_parse h hr, fun ts hts t ht hkey hseen => ?_,
    fun hr hseen => ⟨?_, fun hkey => ?_⟩⟩
  · cases h : parse e with
    | error f => exact ⟨f, rfl⟩
    | ok rs =>
      obtain ⟨ts', hts', hread⟩ := parse_eq_ok_iff.mp h
      cases hts.symm.trans hts'
      obtain ⟨q, hmem, hq⟩ := exists_of_mem_left (mapM_eq_ok_iff.mp hread) ht
      have hclass := isKeyText_of_parse h hmem
      rw [← toList_key_of_parseTerm hq, String.ofList_toList] at hkey hseen
      exact (hclass.elim hkey fun hodd => hseen hodd.1).elim
  · rintro ⟨s, rs, h, hmem⟩
    refine (isKeyText_of_parse h hmem).resolve_right fun ⟨hodd, hplain⟩ => ?_
    exact hseen.elim hplain fun hnot => hnot hodd
  · obtain ⟨w, hw⟩ := exists_writes r
    have hwritable : r.Writable := ⟨hkey, hr.values, hr.distinct⟩
    exact ⟨_, [r], parse_of_writes hwritable hw, List.mem_singleton.mpr rfl⟩

/-- A space in a key is seen, and so is an operator in the key of a choice. -/
theorem accepted_keys_of_spaced :
    (∃ f, parse "rack=r1,si te=1" = .error f) ∧
      ∀ e rs, parse e = .ok rs → ⟨"a!b", .within ["x"]⟩ ∉ rs := by
  obtain ⟨-, refused, same⟩ := accepted_keys "rack=r1,si te=1" ⟨"a!b", .within ["x"]⟩
  have hspace : ¬ IsKeyText "si te" := fun h => by
    have := h.blank ' ' (by simp)
    cases this
  have hsign : ¬ IsKeyText "a!b" := fun h => h.form '!' (by simp) (by simp)
  have hseen : ¬ Overlooked "si te" := fun h => h.form ' ' (by simp) (by simp)
  have hvalue : IsValueText "x" :=
    ⟨trimmed_of_forall (by simp [isBlank, isSpace]), by simp [Plain]⟩
  refine ⟨refused ["rack=r1".toList, "si te=1".toList] (by decide) _
    (List.mem_cons_of_mem _ List.mem_cons_self) hspace hseen, fun e rs h hmem => hsign ?_⟩
  have hread : (Condition.within ["x"]).Readable :=
    ⟨List.forall_mem_singleton.mpr hvalue, show _ ∧ _ by simp⟩
  exact (same hread (.inl trivial)).mp ⟨e, rs, h, hmem⟩

/-- A tab inside a key is overlooked, though a choice from a set refuses it. -/
theorem parse_of_tab_in_key :
    parse "a\tb" = .ok [⟨"a\tb", .present⟩] ∧ ¬ IsKeyText "a\tb" ∧
      parse "a\tb in (x)" = .error (.badTerm "a\tb in (x)") := by
  refine ⟨by decide, fun h => ?_, by decide⟩
  have hblank := h.blank '\t' (by decide)
  cases hblank

end Label

end OutOfBand
