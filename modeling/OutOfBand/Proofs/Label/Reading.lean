import OutOfBand.Proofs.Label.Writing

namespace OutOfBand

namespace Label

section Terms

variable {k v : String}

theorem afterWord?_append {word b t : List Char} (hb : Blanks b) (hne : b ≠ [])
    (ht : ∀ c, t.head? = some c → isBlank c = false) :
    afterWord? word (word ++ b ++ t) = some t := by
  obtain ⟨c, r, rfl⟩ := List.exists_cons_of_ne_nil hne
  have hc := hb c List.mem_cons_self
  have hdrop := dropWhile_blanks_append hb ht
  have hprefix : word.isPrefixOf (word ++ (c :: r) ++ t) = true := by
    rw [List.isPrefixOf_iff_prefix, List.append_assoc]
    exact List.prefix_append word _
  rw [afterWord?, hprefix, List.append_assoc, List.drop_left]
  simpa [hc] using hdrop

theorem mem_of_afterWord? {word s r : List Char} (h : afterWord? word s = some r) {c : Char}
    (hc : c ∈ r) : c ∈ s := by
  rw [afterWord?] at h
  split at h
  next =>
    rw [← Option.some.inj h] at hc
    exact List.mem_of_mem_drop ((List.dropWhile_sublist _).mem hc)
  next => cases h

theorem mem_of_inParentheses? {s body : List Char} (h : inParentheses? s = some body) :
    '(' ∈ s := by
  unfold inParentheses? at h
  split at h
  next => exact List.mem_cons_self
  next => cases h

theorem setTerm?_eq_none {t : List Char} (h : '(' ∉ t) : setTerm? t = none := by
  rw [Option.eq_none_iff_forall_ne_some]
  intro r hr
  simp only [setTerm?] at hr
  split at hr
  next => cases hr
  next =>
    obtain ⟨s, hs, hr⟩ := Option.bind_eq_some_iff.mp hr
    have inside {word group body : List Char} (hg : afterWord? word s = some group)
        (hbody : inParentheses? group = some body) : '(' ∈ t :=
      List.mem_of_mem_drop (mem_of_afterWord? hs
        (mem_of_afterWord? hg (mem_of_inParentheses? hbody)))
    split at hr
    next hg =>
      obtain ⟨body, hbody, -⟩ := Option.bind_eq_some_iff.mp hr
      exact h (inside hg hbody)
    next hg =>
      obtain ⟨body, hbody, -⟩ := Option.bind_eq_some_iff.mp hr
      exact h (inside hg hbody)
    next => cases hr

theorem inParentheses?_group {body : List Char} (h : ∀ c ∈ body, c ∉ ['(', ')']) :
    inParentheses? ('(' :: (body ++ [')'])) = some body := by
  have hbody : (body ++ [')']).takeWhile (fun c => c ≠ '(' && c ≠ ')') = body := by
    refine takeWhile_append_of_head (fun c hc => ?_) (by simp)
    simpa using h c hc
  simp only [inParentheses?]
  rw [hbody, List.drop_left, if_pos rfl]

theorem plain_of_members {ws : List String} {ps : List (List Char)}
    (h : Listed Spells ws ps) (hv : ∀ v ∈ ws, IsValueText v) :
    ∀ p ∈ ps, Plain p := by
  refine h.forall_mem (fun b hb => plain_of_blanks hb) ?_
  rintro v hmem _ b b' rfl hb hb'
  exact ((plain_of_blanks hb).append (hv v hmem).plain).append (plain_of_blanks hb')

theorem mem_intercalate {ps : List (List Char)} {c : Char} (h : c ∈ [','].intercalate ps) :
    c = ',' ∨ ∃ p ∈ ps, c ∈ p := by
  induction ps with
  | nil => simp at h
  | cons p ps ih =>
    cases ps with
    | nil =>
      rw [List.intercalate_singleton] at h
      exact .inr ⟨p, List.mem_cons_self, h⟩
    | cons q qs =>
      rw [List.intercalate_cons_cons, List.mem_append, List.mem_append, List.mem_singleton] at h
      rcases h with (h | h) | h
      · exact .inr ⟨p, List.mem_cons_self, h⟩
      · exact .inl h
      · refine (ih h).imp_right ?_
        rintro ⟨p', hp', hc⟩
        exact ⟨p', List.mem_cons_of_mem p hp', hc⟩

theorem forall_not_mem_of_group {ws : List String} {ps : List (List Char)}
    (h : Listed Spells ws ps) (hv : ∀ v ∈ ws, IsValueText v) :
    ∀ c ∈ [','].intercalate ps, c ∉ ['(', ')'] := by
  intro c hc hmem
  rcases mem_intercalate hc with rfl | ⟨p, hp, hc⟩
  · simp at hmem
  · exact plain_of_members h hv p hp c hc (List.mem_cons_of_mem _ hmem)

theorem members_intercalate {vs ws : List String} {ps : List (List Char)}
    (h : Listed Spells ws ps) (same : ∀ v, v ∈ ws ↔ v ∈ vs)
    (hv : ∀ v ∈ vs, IsValueText v) (hsorted : vs.Pairwise (· < ·)) (hempty : "" ∉ vs) :
    members ([','].intercalate ps) = vs := by
  have hws : ∀ v ∈ ws, IsValueText v := fun v hm => hv v ((same v).mp hm)
  have hcleared : cleared (splitAt ',' ([','].intercalate ps)) = cleared ps := by
    by_cases hne : ps = []
    · subst hne
      rfl
    · rw [splitAt_intercalate hne fun p hp hc =>
        plain_of_members h hws p hp _ hc List.mem_cons_self]
  have hread : ∀ v ∈ ws, ∀ w b b', Spells v w → Blanks b → Blanks b' →
      trim (b ++ w ++ b') ≠ [] ∧ String.ofList (trim (b ++ w ++ b')) = v := by
    intro v hm w b b' hw hb hb'
    rw [hw, trim_padded hb hb' (hws v hm).trimmed, String.ofList_toList]
    refine ⟨fun hnil => hempty ?_, rfl⟩
    rw [← String.toList_eq_nil_iff.mp hnil]
    exact (same v).mp hm
  have hmap : (cleared ps).map String.ofList = ws := by
    simpa using map_eq_of_forall₂ (g := id) (fun t v hv => hv) (h.forall₂_cleared hread)
  change textSet ((cleared (splitAt ',' ([','].intercalate ps))).map String.ofList) = vs
  rw [hcleared, hmap, textSet_eq hsorted same]

/-- What is read of a term that chooses from a set: its key, the word, and the members. -/
theorem reads_chooses {word : List Char} {vs : List String} {s : List Char} (hk : IsKeyText k)
    (h : Chooses word k vs s) (hword : ∀ c, word.head? = some c → isBlank c = false)
    (hne : word ≠ []) (hv : ∀ v ∈ vs, IsValueText v) (hsorted : vs.Pairwise (· < ·))
    (hempty : "" ∉ vs) :
    ∃ rest group body, s.takeWhile isSetKeyChar = k.toList ∧
      afterWord? [] (s.drop k.toList.length) = some rest ∧ word <+: rest ∧
      afterWord? word rest = some group ∧ inParentheses? group = some body ∧ members body = vs := by
  obtain ⟨b, b', ws, ps, hb, hbne, hb', hbne', hlist, same, rfl⟩ := h
  have hmembers := members_intercalate hlist same hv hsorted hempty
  have hplain := forall_not_mem_of_group hlist fun v hm => hv v ((same v).mp hm)
  generalize [','].intercalate ps = body at hmembers hplain
  have hgroup : ∀ c, ('(' :: (body ++ [')'])).head? = some c → isBlank c = false := by
    rintro c hc
    cases hc
    rfl
  have hrest : ∀ c, (word ++ b' ++ '(' :: (body ++ [')'])).head? = some c → isBlank c = false := by
    intro c hc
    rw [List.append_assoc, List.head?_append_of_ne_nil _ hne] at hc
    exact hword c hc
  have hkey : ∀ c, (b ++ (word ++ b' ++ '(' :: (body ++ [')']))).head? = some c →
      isSetKeyChar c = false := by
    intro c hc
    rw [List.head?_append_of_ne_nil _ hbne] at hc
    simp [isSetKeyChar, hb c (List.mem_of_head? hc)]
  have htext : k.toList ++ b ++ word ++ b' ++ '(' :: (body ++ [')']) =
      k.toList ++ (b ++ (word ++ b' ++ '(' :: (body ++ [')']))) := by simp
  refine ⟨_, '(' :: (body ++ [')']), body, ?_, ?_, ?_, afterWord?_append hb' hbne' hgroup,
    inParentheses?_group hplain, hmembers⟩
  · rw [htext, takeWhile_append_of_head hk.isSetKeyChar hkey]
  · rw [htext, List.drop_left]
    have hblanks : afterWord? [] ([] ++ b ++ _) = some _ := afterWord?_append hb hbne hrest
    exact hblanks
  · rw [List.append_assoc]
    exact List.prefix_append word _

theorem setTerm?_within {vs : List String} {s : List Char} (hk : IsKeyText k)
    (h : Chooses ['i', 'n'] k vs s) (hv : ∀ v ∈ vs, IsValueText v)
    (hd : vs.Pairwise (· < ·) ∧ "" ∉ vs) : setTerm? s = some ⟨k, .within vs⟩ := by
  have hword : ∀ c, ['i', 'n'].head? = some c → isBlank c = false := by
    rintro c ⟨⟩
    rfl
  obtain ⟨rest, group, body, hkey, hafter, -, hin, hbody, hmembers⟩ :=
    reads_chooses hk h hword (by simp) hv hd.1 hd.2
  have hempty : k.toList.isEmpty = false := List.isEmpty_eq_false_iff.mpr hk.ne_nil
  simp [setTerm?, hkey, hempty, hafter, hin, hbody, hmembers]

theorem setTerm?_without {vs : List String} {s : List Char} (hk : IsKeyText k)
    (h : Chooses ['n', 'o', 't', 'i', 'n'] k vs s) (hv : ∀ v ∈ vs, IsValueText v)
    (hd : vs.Pairwise (· < ·) ∧ "" ∉ vs) : setTerm? s = some ⟨k, .without vs⟩ := by
  have hword : ∀ c, ['n', 'o', 't', 'i', 'n'].head? = some c → isBlank c = false := by
    rintro c ⟨⟩
    rfl
  obtain ⟨rest, group, body, hkey, hafter, hprefix, hnotin, hbody, hmembers⟩ :=
    reads_chooses hk h hword (by simp) hv hd.1 hd.2
  have hempty : k.toList.isEmpty = false := List.isEmpty_eq_false_iff.mpr hk.ne_nil
  -- the shorter word is tried first, and does not begin like the longer one
  have hin : afterWord? ['i', 'n'] rest = none := by
    obtain ⟨t, rfl⟩ := hprefix
    rfl
  simp [setTerm?, hkey, hempty, hafter, hin, hnotin, hbody, hmembers]

theorem plainTerm_of_head {t : List Char} (h : t.head? ≠ some '!') :
    plainTerm t = match cutAt ['!', '='] t, cutAt ['=', '='] t, cutAt ['='] t with
      | some (k, v), _, _ => (k, .unequal (String.ofList (trim v)))
      | none, some (k, v), _ => (k, .equal (String.ofList (trim v)))
      | none, none, some (k, v) => (k, .equal (String.ofList (trim v)))
      | none, none, none => (t, .present) := by
  unfold plainTerm
  split
  next => simp at h
  next => rfl

theorem parseTerm_of_plain {t k' : List Char} {c : Condition} (ht : '(' ∉ t)
    (h : plainTerm t = (k', c)) (hk' : trim k' = k.toList) (hk : IsKeyText k) :
    parseTerm t = .ok ⟨k, c⟩ := by
  simp [parseTerm, setTerm?_eq_none ht, h, hk', hk.isKey]

section Compares

variable {op s : List Char}

theorem Compares.trim {p p' : List Char} (h : Compares op k v s) (hk : IsKeyText k)
    (hv : Trimmed v.toList) (hop : Trimmed op) (hne : op ≠ []) (hp : Blanks p) (hp' : Blanks p') :
    Compares op k v (trim (p ++ s ++ p')) := by
  obtain ⟨b, b', hb, hb', rfl⟩ := h
  by_cases hnil : v.toList = []
  · -- the blanks before an empty value stand at the end
    have hends := trimmed_append (m := b) hk.ne_nil hne hk.trimmed hop
    have htrim := trim_padded hp (hb'.append hp') hends
    refine ⟨b, [], hb, blanks_nil, ?_⟩
    have htext : p ++ (k.toList ++ b ++ op ++ b' ++ v.toList) ++ p' =
        p ++ (k.toList ++ b ++ op) ++ (b' ++ p') := by simp [hnil]
    rw [htext, htrim, hnil]
    simp
  · have htrim := trim_padded hp hp'
      (trimmed_append (m := b ++ op ++ b') hk.ne_nil hnil hk.trimmed hv)
    refine ⟨b, b', hb, hb', ?_⟩
    simpa using htrim

theorem Compares.plain (h : Compares op k v s) (hk : IsKeyText k) (hv : IsValueText v)
    (hop : Plain op) : Plain s := by
  obtain ⟨b, b', hb, hb', rfl⟩ := h
  have hbefore := (hk.plain.append (plain_of_blanks hb)).append hop
  exact (hbefore.append (plain_of_blanks hb')).append hv.plain

theorem Compares.head (h : Compares op k v s) (hk : IsKeyText k) : s.head? ≠ some '!' := by
  obtain ⟨b, b', -, -, rfl⟩ := h
  simp only [List.append_assoc]
  rw [List.head?_append_of_ne_nil _ hk.ne_nil]
  exact fun hc => hk.not_mem (by simp) (List.mem_of_head? hc)

/-- A comparison is cut at its operator if neither its key nor a blank begins like it. -/
theorem Compares.cutAt {c : Char} {rest : List Char} (h : Compares (c :: rest) k v s)
    (hk : IsKeyText k) (hc : c ∈ ['!', '=', ',', '(', ')']) (hblank : isBlank c = false)
    (hv : Trimmed v.toList) :
    ∃ b after, Blanks b ∧ cutAt (c :: rest) s = some (k.toList ++ b, after) ∧
      OutOfBand.trim after = v.toList := by
  obtain ⟨b, b', hb, hb', rfl⟩ := h
  have hbefore : c ∉ k.toList ++ b :=
    fun hmem => (List.mem_append.mp hmem).elim (hk.not_mem hc) (not_mem_of_blanks hb hblank)
  refine ⟨b, b' ++ v.toList, hb, ?_, ?_⟩
  · have hcut : OutOfBand.cutAt (c :: rest) (k.toList ++ b ++ (c :: rest ++ (b' ++ v.toList))) =
        some (k.toList ++ b, b' ++ v.toList) := cutAt_append hbefore _
    simpa using hcut
  · simpa using trim_padded hb' blanks_nil hv

theorem trim_key {b : List Char} (hk : IsKeyText k) (hb : Blanks b) :
    OutOfBand.trim (k.toList ++ b) = k.toList := by
  simpa using trim_padded blanks_nil hb hk.trimmed

/-- A comparison does not hold the opposite operator where neither its value nor its operator
does. -/
theorem Compares.cutAt_unequal (h : Compares op k v s) (hk : IsKeyText k) (hop : '!' ∉ op)
    (hv : ¬ ['!', '='] <:+: v.toList) : OutOfBand.cutAt ['!', '='] s = none := by
  obtain ⟨b, b', hb, hb', rfl⟩ := h
  have hbefore : '!' ∉ k.toList ++ b ++ op ++ b' := by
    simp only [List.mem_append, not_or]
    exact ⟨⟨⟨hk.not_mem (by simp), not_mem_of_blanks hb rfl⟩, hop⟩, not_mem_of_blanks hb' rfl⟩
  rw [cutAt_append_of_not_mem hbefore, cutAt_eq_none_of_not_infix hv]
  rfl

theorem parseTerm_unequal (h : Compares ['!', '='] k v s) (hk : IsKeyText k) (hv : IsValueText v) :
    parseTerm s = .ok ⟨k, .unequal v⟩ := by
  have hplain := h.plain hk hv (by simp [Plain])
  obtain ⟨b, after, hb, hcut, htrim⟩ := h.cutAt hk (by simp) rfl hv.trimmed
  refine parseTerm_of_plain (fun hmem => hplain _ hmem (by simp)) ?_ (trim_key hk hb) hk
  rw [plainTerm_of_head (h.head hk), hcut]
  simp [htrim]

theorem parseTerm_doubleEqual (h : Compares ['=', '='] k v s) (hk : IsKeyText k)
    (hv : IsValueText v) (hd : ¬ ['!', '='] <:+: v.toList) : parseTerm s = .ok ⟨k, .equal v⟩ := by
  have hplain := h.plain hk hv (by simp [Plain])
  obtain ⟨b, after, hb, hcut, htrim⟩ := h.cutAt hk (by simp) rfl hv.trimmed
  refine parseTerm_of_plain (fun hmem => hplain _ hmem (by simp)) ?_ (trim_key hk hb) hk
  rw [plainTerm_of_head (h.head hk), h.cutAt_unequal hk (by simp) hd, hcut]
  simp [htrim]

/-- A single equals sign is not taken for a double one. -/
theorem Compares.cutAt_doubleEqual (h : Compares ['='] k v s) (hk : IsKeyText k)
    (first : v.toList.head? ≠ some '=') (inner : ¬ ['=', '='] <:+: v.toList) :
    OutOfBand.cutAt ['=', '='] s = none := by
  obtain ⟨b, b', hb, hb', rfl⟩ := h
  have hbefore : '=' ∉ k.toList ++ b :=
    fun hmem => (List.mem_append.mp hmem).elim (hk.not_mem (by simp)) (not_mem_of_blanks hb rfl)
  have hb'' := not_mem_of_blanks hb' (c := '=') rfl
  have hrest : OutOfBand.cutAt ['=', '='] (b' ++ v.toList) = none := by
    rw [cutAt_append_of_not_mem hb'', cutAt_eq_none_of_not_infix inner]
    rfl
  have hnext : (b' ++ v.toList).head? ≠ some '=' := by
    cases b' with
    | nil => exact first
    | cons c b' =>
      intro hc
      exact hb'' (List.mem_of_head? hc)
  have hsign : OutOfBand.cutAt ['=', '='] ('=' :: (b' ++ v.toList)) = none := by
    have hprefix : ['=', '='].isPrefixOf ('=' :: (b' ++ v.toList)) = false := by
      cases ht : b' ++ v.toList with
      | nil => rfl
      | cons c t =>
        rw [ht] at hnext
        have hc : '=' ≠ c := fun hc => hnext (by simp [← hc])
        simp [List.isPrefixOf, hc]
    simp [OutOfBand.cutAt, hprefix, hrest]
  have htext : k.toList ++ b ++ ['='] ++ b' ++ v.toList =
      k.toList ++ b ++ '=' :: (b' ++ v.toList) := by simp
  rw [htext, cutAt_append_of_not_mem hbefore, hsign]
  rfl

theorem parseTerm_equal (h : Compares ['='] k v s) (hk : IsKeyText k) (hv : IsValueText v)
    (hd : ¬ ['!', '='] <:+: v.toList) (first : v.toList.head? ≠ some '=')
    (inner : ¬ ['=', '='] <:+: v.toList) : parseTerm s = .ok ⟨k, .equal v⟩ := by
  have hplain := h.plain hk hv (by simp [Plain])
  obtain ⟨b, after, hb, hcut, htrim⟩ := h.cutAt hk (by simp) rfl hv.trimmed
  refine parseTerm_of_plain (fun hmem => hplain _ hmem (by simp)) ?_ (trim_key hk hb) hk
  rw [plainTerm_of_head (h.head hk), h.cutAt_unequal hk (by simp) hd,
    h.cutAt_doubleEqual hk first inner, hcut]
  simp [htrim]

end Compares

theorem parseTerm_present (hk : IsKeyText k) : parseTerm k.toList = .ok ⟨k, .present⟩ := by
  refine parseTerm_of_plain (hk.not_mem (by simp)) ?_ (trim_of_trimmed hk.trimmed) hk
  have hhead : k.toList.head? ≠ some '!' := fun hc => hk.not_mem (by simp) (List.mem_of_head? hc)
  have hbang : '!' ∉ k.toList := hk.not_mem (by simp)
  have hsign : '=' ∉ k.toList := hk.not_mem (by simp)
  rw [plainTerm_of_head hhead, cutAt_eq_none_of_not_mem hbang, cutAt_eq_none_of_not_mem hsign,
    cutAt_eq_none_of_not_mem hsign]

theorem parseTerm_absent {b : List Char} (hb : Blanks b) (hk : IsKeyText k) :
    parseTerm ('!' :: (b ++ k.toList)) = .ok ⟨k, .absent⟩ := by
  refine parseTerm_of_plain ?_ (show plainTerm _ = (b ++ k.toList, .absent) from rfl) ?_ hk
  · have hopen := hk.not_mem (c := '(') (by simp)
    have hblank := not_mem_of_blanks hb (c := '(') rfl
    simp [hopen, hblank]
  · simpa using trim_padded hb blanks_nil hk.trimmed

section Writes

variable {r : Requirement} {p p' w : List Char}

theorem Compares.ne_nil {op : List Char} (h : Compares op k v w) (hk : IsKeyText k) : w ≠ [] := by
  obtain ⟨b, b', -, -, rfl⟩ := h
  simp [hk.ne_empty]

theorem Chooses.trimmed {word : List Char} {vs : List String} (h : Chooses word k vs w)
    (hk : IsKeyText k) : w ≠ [] ∧ Trimmed w := by
  obtain ⟨b, b', ws, ps, -, -, -, -, -, -, rfl⟩ := h
  have hclose : Trimmed [')'] := trimmed_of_signs (by simp)
  have htext : k.toList ++ b ++ word ++ b' ++ '(' :: ([','].intercalate ps ++ [')']) =
      k.toList ++ (b ++ word ++ b' ++ '(' :: [','].intercalate ps) ++ [')'] := by simp
  rw [htext]
  exact ⟨by simp, trimmed_append hk.ne_nil (by simp) hk.trimmed hclose⟩

/-- However a requirement is written, and whatever blanks stand around it, it is read again. -/
theorem parseTerm_of_writes (hr : r.Writable) (h : Writes r w) (hp : Blanks p) (hp' : Blanks p') :
    trim (p ++ w ++ p') ≠ [] ∧ parseTerm (trim (p ++ w ++ p')) = .ok r := by
  obtain ⟨hk, hv, hd⟩ := hr
  have hread {vs : List String} {word : List Char} (hc : Chooses word r.key vs w)
      (hset : setTerm? w = some r) :
      trim (p ++ w ++ p') ≠ [] ∧ parseTerm (trim (p ++ w ++ p')) = .ok r := by
    obtain ⟨hne, htrimmed⟩ := hc.trimmed hk
    rw [trim_padded hp hp' htrimmed]
    exact ⟨hne, by simp [parseTerm, hset]⟩
  cases h with
  | present k =>
    rw [trim_padded hp hp' hk.trimmed]
    exact ⟨hk.ne_nil, parseTerm_present hk⟩
  | @absent k b hb =>
    have hbang : Trimmed ['!'] := trimmed_of_signs (by simp)
    have htrimmed : Trimmed ('!' :: (b ++ k.toList)) :=
      trimmed_append (m := b) (by simp) hk.ne_nil hbang hk.trimmed
    rw [trim_padded hp hp' htrimmed]
    exact ⟨by simp, parseTerm_absent hb hk⟩
  | @equal k v s h first inner =>
    have hvalue := hv v List.mem_cons_self
    have htrim := h.trim hk hvalue.trimmed (trimmed_of_signs (by simp)) (by simp) hp hp'
    exact ⟨htrim.ne_nil hk, parseTerm_equal htrim hk hvalue hd first inner⟩
  | @doubleEqual k v s h =>
    have hvalue := hv v List.mem_cons_self
    have htrim := h.trim hk hvalue.trimmed (trimmed_of_signs (by simp)) (by simp) hp hp'
    exact ⟨htrim.ne_nil hk, parseTerm_doubleEqual htrim hk hvalue hd⟩
  | @unequal k v s h =>
    have hvalue := hv v List.mem_cons_self
    have htrim := h.trim hk hvalue.trimmed (trimmed_of_signs (by simp)) (by simp) hp hp'
    exact ⟨htrim.ne_nil hk, parseTerm_unequal htrim hk hvalue⟩
  | within h => exact hread h (setTerm?_within hk h hv hd)
  | without h => exact hread h (setTerm?_without hk h hv hd)

theorem whole_of_chooses {word : List Char} {vs : List String} (h : Chooses word k vs w)
    (hk : IsKeyText k) (hv : ∀ v ∈ vs, IsValueText v) (hword : Plain word)
    (hp : Blanks p) (hp' : Blanks p') : Whole (p ++ w ++ p') := by
  obtain ⟨b, b', ws, ps, hb, -, hb', -, hlist, same, rfl⟩ := h
  have hkey := ((plain_of_blanks hp).append hk.plain).append (plain_of_blanks hb)
  have hpre := (hkey.append hword).append (plain_of_blanks hb')
  have hinner := forall_not_mem_of_group hlist fun v hm => hv v ((same v).mp hm)
  have hgroup := whole_of_group hpre hinner (plain_of_blanks hp')
  simpa using hgroup

theorem whole_of_writes (hr : r.Writable) (h : Writes r w) (hp : Blanks p) (hp' : Blanks p') :
    Whole (p ++ w ++ p') := by
  obtain ⟨hk, hv, -⟩ := hr
  have hpad (hw : Plain w) : Whole (p ++ w ++ p') :=
    whole_of_plain (((plain_of_blanks hp).append hw).append (plain_of_blanks hp'))
  cases h with
  | present k => exact hpad hk.plain
  | @absent k b hb =>
    have hbang : Plain ['!'] := by simp [Plain]
    exact hpad (hbang.append ((plain_of_blanks hb).append hk.plain))
  | @equal k v s h first inner =>
    exact hpad (h.plain hk (hv v List.mem_cons_self) (by simp [Plain]))
  | @doubleEqual k v s h => exact hpad (h.plain hk (hv v List.mem_cons_self) (by simp [Plain]))
  | @unequal k v s h => exact hpad (h.plain hk (hv v List.mem_cons_self) (by simp [Plain]))
  | within h => exact whole_of_chooses h hk hv (by simp [Plain]) hp hp'
  | without h => exact whole_of_chooses h hk hv (by simp [Plain]) hp hp'

end Writes

end Terms

end Label

section Truth

variable {ls : Labels}

theorem Labels.find?_eq_lookup (k : String) : ls.find? k = ls.lookup k := by
  induction ls with
  | nil => rfl
  | cons l ls ih =>
    rw [Labels.find?] at ih ⊢
    rw [List.find?_cons, List.lookup_cons, ← ih]
    by_cases h : l.1 = k
    · simp [h]
    · have hne : (k == l.1) = false := by simpa using Ne.symm h
      simp [h, hne]

theorem Requirement.holds_iff (r : Requirement) : r.holds ls = true ↔ r.MetBy ls := by
  rw [Requirement.holds, Requirement.MetBy, Labels.find?_eq_lookup]
  generalize ls.lookup r.key = found
  cases r.condition <;> cases found <;> simp [Condition.holds]

end Truth

namespace Label

/-- The reading of expressions is the inverse of their writing: requirements that are written as an
expression, in whatever way, are what is read from it, in their order; and the expression is true
of labels exactly if they meet each requirement. -/
theorem parse_written {rs : List Requirement} {e : String} (hr : ∀ r ∈ rs, r.Writable)
    (h : Written rs e) :
    parse e = .ok rs ∧ ∀ ls : Labels, holdAll rs ls = true ↔ ∀ r ∈ rs, r.MetBy ls := by
  obtain ⟨ps, hlist, he⟩ := h
  constructor
  · have hwhole : ∀ p ∈ ps, Whole p :=
      hlist.forall_mem (fun b hb => whole_of_plain (plain_of_blanks hb))
        fun r hmem w b b' hw hb hb' => whole_of_writes (hr r hmem) hw hb hb'
    have hread := hlist.forall₂_cleared (Q := fun t r => parseTerm t = .ok r)
      fun r hmem w b b' hw hb hb' => parseTerm_of_writes (hr r hmem) hw hb hb'
    refine parse_eq_ok_iff.mpr ⟨cleared ps, ?_, mapM_eq_ok_iff.mpr hread⟩
    rw [he, terms_intercalate hwhole]
  · intro ls
    simp only [holdAll, List.all_eq_true, Requirement.holds_iff]

theorem parse_written_spaced :
    let rs : List Requirement := [⟨"a", .equal "x"⟩, ⟨"b", .within ["x", "y"]⟩, ⟨"c", .absent⟩,
      ⟨"d", .unequal ""⟩]
    let e := " a = x ,, b in ( y , x,, y ) ,!  c , d!="
    (∀ r ∈ rs, r.Writable) ∧ Written rs e ∧ parse e = .ok rs ∧
      ∀ ls : Labels, holdAll rs ls = true ↔ ∀ r ∈ rs, r.MetBy ls := by
  intro rs e
  have key {k : String} (hne : k ≠ "") (h : ∀ c ∈ k.toList,
      isBlank c = false ∧ c ∉ ['!', '=', ',', '(', ')']) : IsKeyText k :=
    ⟨hne, fun c hc => (h c hc).1, fun c hc => (h c hc).2⟩
  have value {v : String} (h : ∀ c ∈ v.toList, isBlank c = false ∧ c ∉ [',', '(', ')']) :
      IsValueText v :=
    ⟨trimmed_of_forall fun c hc => (h c hc).1, fun c hc => (h c hc).2⟩
  have hr : ∀ r ∈ rs, r.Writable := by
    have hx : IsValueText "x" := value (by simp [isBlank, isSpace])
    have hy : IsValueText "y" := value (by simp [isBlank, isSpace])
    have hnone : IsValueText "" := value (by simp [isBlank, isSpace])
    have ha : Requirement.Writable ⟨"a", .equal "x"⟩ :=
      ⟨key (by simp) (by simp [isBlank, isSpace]), List.forall_mem_singleton.mpr hx,
        fun h => by simpa using h.length_le⟩
    have hb : Requirement.Writable ⟨"b", .within ["x", "y"]⟩ :=
      ⟨key (by simp) (by simp [isBlank, isSpace]), by simpa [Condition.values] using ⟨hx, hy⟩,
        show _ ∧ _ by decide⟩
    have hc : Requirement.Writable ⟨"c", .absent⟩ :=
      ⟨key (by simp) (by simp [isBlank, isSpace]), by simp [Condition.values], trivial⟩
    have hd : Requirement.Writable ⟨"d", .unequal ""⟩ :=
      ⟨key (by simp) (by simp [isBlank, isSpace]), List.forall_mem_singleton.mpr hnone, trivial⟩
    simpa [rs] using ⟨ha, hb, hc, hd⟩
  have h : Written rs e := by
    have b₁ : Blanks [' '] := by simp [Blanks]; decide
    have b₂ : Blanks [' ', ' '] := b₁.append b₁
    have spelt (v : String) : Spells v v.toList := rfl
    have hset : Listed Spells ["y", "x", "y"] _ :=
      .item (spelt "y") b₁ b₁ (.item (spelt "x") b₁ blanks_nil (.skip blanks_nil
        (.item (spelt "y") b₁ b₁ .nil)))
    have ha : Compares ['='] "a" "x" "a = x".toList := ⟨[' '], [' '], b₁, b₁, rfl⟩
    have hb : Chooses ['i', 'n'] "b" ["x", "y"] "b in ( y , x,, y )".toList :=
      ⟨[' '], [' '], _, _, b₁, by simp, b₁, by simp, hset, by grind, rfl⟩
    have hd : Compares ['!', '='] "d" "" "d!=".toList := ⟨[], [], blanks_nil, blanks_nil, rfl⟩
    have hlist : Listed Writes rs _ :=
      .item (.equal ha (by decide) (by decide)) b₁ b₁ (.skip blanks_nil
        (.item (.within hb) b₁ b₁ (.item (.absent "c" b₂) blanks_nil b₁
          (.item (.unequal hd) b₁ blanks_nil .nil))))
    exact ⟨_, hlist, by decide⟩
  have hread := parse_written hr h
  exact ⟨hr, h, hread⟩

end Label

end OutOfBand
