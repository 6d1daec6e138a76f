import OutOfBand.Proofs.Label.Conjunction
import OutOfBand.Proofs.Text.Cutting
import Mathlib.Data.List.Sort
import Mathlib.Data.String.Basic

namespace OutOfBand

section TextSet

theorem mem_insertText {v w : String} {vs : List String} :
    w ∈ insertText v vs ↔ w = v ∨ w ∈ vs := by
  induction vs with
  | nil => simp [insertText]
  | cons u vs ih =>
    rw [insertText]
    split
    next h => simp [h]
    next =>
      split
      next => simp
      next =>
        simp only [List.mem_cons, ih]
        tauto

theorem mem_textSet {v : String} {vs : List String} : v ∈ textSet vs ↔ v ∈ vs := by
  induction vs with
  | nil => simp [textSet]
  | cons u vs ih =>
    change v ∈ insertText u (textSet vs) ↔ _
    rw [mem_insertText, ih, List.mem_cons]

theorem pairwise_insertText {v : String} {vs : List String} (h : vs.Pairwise (· < ·)) :
    (insertText v vs).Pairwise (· < ·) := by
  induction vs with
  | nil => simp [insertText]
  | cons u vs ih =>
    obtain ⟨hfirst, hrest⟩ := List.pairwise_cons.mp h
    rw [insertText]
    split
    next => exact h
    next hne =>
      split
      next hlt =>
        refine List.pairwise_cons.mpr ⟨fun w hw => ?_, h⟩
        rcases List.mem_cons.mp hw with rfl | hw
        · exact hlt
        · exact hlt.trans (hfirst w hw)
      next hge =>
        refine List.pairwise_cons.mpr ⟨fun w hw => ?_, ih hrest⟩
        rcases mem_insertText.mp hw with rfl | hw
        · exact lt_of_le_of_ne (not_lt.mp hge) (Ne.symm hne)
        · exact hfirst w hw

theorem pairwise_textSet (vs : List String) : (textSet vs).Pairwise (· < ·) := by
  induction vs with
  | nil => exact .nil
  | cons v vs ih => exact pairwise_insertText ih

theorem textSet_eq {vs ws : List String} (h : vs.Pairwise (· < ·)) (same : ∀ v, v ∈ ws ↔ v ∈ vs) :
    textSet ws = vs :=
  (pairwise_textSet ws).eq_of_mem_iff h fun v => mem_textSet.trans (same v)

end TextSet

/-- A text that may be the key of a requirement. -/
structure IsKeyText (k : String) : Prop where
  ne_empty : k ≠ ""
  blank : ∀ c ∈ k.toList, isBlank c = false
  form : ∀ c ∈ k.toList, c ∉ ['!', '=', ',', '(', ')']

/-- Without commas and parentheses. -/
def Plain (s : List Char) : Prop := ∀ c ∈ s, c ∉ [',', '(', ')']

/-- A text that may be a value of a requirement. -/
structure IsValueText (v : String) : Prop where
  trimmed : Trimmed v.toList
  plain : Plain v.toList

/-- Values that can be told from the form of an expression: what a key is to be equal to does not
look like the opposite, and a set has each of its members once, in order, and no empty one. -/
def Condition.Distinct : Condition → Prop
  | .equal v => ¬ ['!', '='] <:+: v.toList
  | .within vs | .without vs => vs.Pairwise (· < ·) ∧ "" ∉ vs
  | .unequal _ | .present | .absent => True

/-- A requirement that an expression can ask for. -/
structure Requirement.Writable (r : Requirement) : Prop where
  key : IsKeyText r.key
  values : ∀ v ∈ r.condition.values, IsValueText v
  distinct : r.condition.Distinct

/-- Whether labels meet a requirement, by what they hold under its key. -/
def Requirement.MetBy (r : Requirement) (ls : Labels) : Prop :=
  match r.condition with
  | .equal v => ls.lookup r.key = some v
  | .within vs => ∃ v ∈ vs, ls.lookup r.key = some v
  | .unequal v => ls.lookup r.key = none ∨ ∃ w, ls.lookup r.key = some w ∧ w ≠ v
  | .without vs => ls.lookup r.key = none ∨ ∃ w, ls.lookup r.key = some w ∧ w ∉ vs
  | .present => ∃ w, ls.lookup r.key = some w
  | .absent => ls.lookup r.key = none

theorem Plain.append {s t : List Char} (hs : Plain s) (ht : Plain t) : Plain (s ++ t) :=
  List.forall_mem_append.mpr ⟨hs, ht⟩

namespace IsKeyText

variable {k : String}

theorem ne_nil (h : IsKeyText k) : k.toList ≠ [] := by simpa using h.ne_empty

theorem trimmed (h : IsKeyText k) : Trimmed k.toList := trimmed_of_forall h.blank

theorem not_mem (h : IsKeyText k) {c : Char} (hc : c ∈ ['!', '=', ',', '(', ')']) :
    c ∉ k.toList := fun hk => h.form c hk hc

theorem plain (h : IsKeyText k) : Plain k.toList := fun c hc hmem =>
  h.form c hc (List.mem_cons_of_mem _ (List.mem_cons_of_mem _ hmem))

theorem isKey (h : IsKeyText k) : Label.isKey k.toList = true := by
  have hany : k.toList.any Label.isForbidden = false := by
    refine List.any_eq_false.mpr fun c hc => ?_
    have hform := h.form c hc
    simp only [List.mem_cons, List.not_mem_nil, or_false, not_or] at hform
    have hspace : c ≠ ' ' := by
      rintro rfl
      cases h.blank _ hc
    simp [Label.isForbidden, hspace, hform]
  simp [Label.isKey, hany, h.ne_empty]

/-- The key of a set term ends at the first character that a key cannot have. -/
theorem isSetKeyChar (h : IsKeyText k) : ∀ c ∈ k.toList, Label.isSetKeyChar c = true := by
  intro c hc
  have hform := h.form c hc
  simp only [List.mem_cons, List.not_mem_nil, or_false, not_or] at hform
  simp [Label.isSetKeyChar, h.blank c hc, hform]

end IsKeyText

namespace Label

/-- Items with commas between them, each with any blanks around it; places between commas may hold
no item. -/
inductive Listed {α : Type} (Writes : α → List Char → Prop) : List α → List (List Char) → Prop
  | nil : Listed Writes [] []
  | skip {b : List Char} {xs : List α} {ps : List (List Char)} (hb : Blanks b)
      (rest : Listed Writes xs ps) : Listed Writes xs (b :: ps)
  | item {x : α} {w b b' : List Char} {xs : List α} {ps : List (List Char)} (hw : Writes x w)
      (hb : Blanks b) (hb' : Blanks b') (rest : Listed Writes xs ps) :
      Listed Writes (x :: xs) ((b ++ w ++ b') :: ps)

def Spells (v : String) (w : List Char) : Prop := w = v.toList

/-- A key, an operator and a value. -/
def Compares (operator : List Char) (k v : String) (s : List Char) : Prop :=
  ∃ b b', Blanks b ∧ Blanks b' ∧ s = k.toList ++ b ++ operator ++ b' ++ v.toList

/-- A key, a word, and the members of a set in parentheses, in any order and as often as one
likes. -/
def Chooses (word : List Char) (k : String) (vs : List String) (s : List Char) : Prop :=
  ∃ b b' ws ps, Blanks b ∧ b ≠ [] ∧ Blanks b' ∧ b' ≠ [] ∧
    Listed Spells ws ps ∧ (∀ v, v ∈ ws ↔ v ∈ vs) ∧
    s = k.toList ++ b ++ word ++ b' ++ '(' :: ([','].intercalate ps ++ [')'])

/-- The ways to write a requirement as a term. A single equals sign must not seem to be doubled by
the value after it. -/
inductive Writes : Requirement → List Char → Prop
  | present (k : String) : Writes ⟨k, .present⟩ k.toList
  | absent (k : String) {b : List Char} (hb : Blanks b) :
      Writes ⟨k, .absent⟩ ('!' :: (b ++ k.toList))
  | equal {k v : String} {s : List Char} (h : Compares ['='] k v s)
      (first : v.toList.head? ≠ some '=') (inner : ¬ ['=', '='] <:+: v.toList) :
      Writes ⟨k, .equal v⟩ s
  | doubleEqual {k v : String} {s : List Char} (h : Compares ['=', '='] k v s) :
      Writes ⟨k, .equal v⟩ s
  | unequal {k v : String} {s : List Char} (h : Compares ['!', '='] k v s) :
      Writes ⟨k, .unequal v⟩ s
  | within {k : String} {vs : List String} {s : List Char} (h : Chooses ['i', 'n'] k vs s) :
      Writes ⟨k, .within vs⟩ s
  | without {k : String} {vs : List String} {s : List Char}
      (h : Chooses ['n', 'o', 't', 'i', 'n'] k vs s) : Writes ⟨k, .without vs⟩ s

/-- Requirements as an expression. -/
def Written (rs : List Requirement) (e : String) : Prop :=
  ∃ ps, Listed Writes rs ps ∧ e.toList = [','].intercalate ps

section Blank

variable {b s : List Char} {c : Char}

theorem not_mem_of_blanks (hb : Blanks b) (hc : isBlank c = false) : c ∉ b := by
  intro h
  rw [hb c h] at hc
  cases hc

theorem trimmed_of_signs (h : ∀ c ∈ s, c ∈ ['!', '=', ')']) : Trimmed s := by
  refine trimmed_of_forall fun c hc => ?_
  have hsign := h c hc
  simp only [List.mem_cons, List.not_mem_nil, or_false] at hsign
  rcases hsign with rfl | rfl | rfl <;> rfl

theorem plain_of_blanks (hb : Blanks b) : Plain b := by
  intro c hc hmem
  have hblank := hb c hc
  simp only [List.mem_cons, List.not_mem_nil, or_false] at hmem
  rcases hmem with rfl | rfl | rfl <;> cases hblank

end Blank

/-- The places that hold something, without the blanks around it. -/
def cleared (ps : List (List Char)) : List (List Char) := (ps.map trim).filter (!·.isEmpty)

/-- Trimming finds the items of a list and skips the empty places. -/
theorem Listed.forall₂_cleared {α : Type} {R : α → List Char → Prop} {Q : List Char → α → Prop}
    {xs : List α} {ps : List (List Char)} (h : Listed R xs ps)
    (hR : ∀ x ∈ xs, ∀ w b b', R x w → Blanks b → Blanks b' →
      trim (b ++ w ++ b') ≠ [] ∧ Q (trim (b ++ w ++ b')) x) :
    List.Forall₂ Q (cleared ps) xs := by
  induction h with
  | nil => exact .nil
  | @skip b xs ps hb rest ih => simpa [cleared, trim_of_blanks hb] using ih hR
  | @item x w b b' xs ps hw hb hb' rest ih =>
    obtain ⟨hne, hQ⟩ := hR x List.mem_cons_self w b b' hw hb hb'
    have hrest := ih fun y hy => hR y (List.mem_cons_of_mem x hy)
    rw [cleared, List.map_cons, List.filter_cons_of_pos (by rwa [Bool.not_eq_true',
      List.isEmpty_eq_false_iff])]
    exact .cons hQ hrest

/-- Whatever holds of blanks and of padded items holds at every place. -/
theorem Listed.forall_mem {α : Type} {R : α → List Char → Prop} {P : List Char → Prop}
    {xs : List α} {ps : List (List Char)} (h : Listed R xs ps) (blank : ∀ b, Blanks b → P b)
    (hR : ∀ x ∈ xs, ∀ w b b', R x w → Blanks b → Blanks b' → P (b ++ w ++ b')) :
    ∀ p ∈ ps, P p := by
  induction h with
  | nil => simp
  | @skip b xs ps hb rest ih => exact List.forall_mem_cons.mpr ⟨blank b hb, ih hR⟩
  | @item x w b b' xs ps hw hb hb' rest ih =>
    refine List.forall_mem_cons.mpr ⟨hR x List.mem_cons_self w b b' hw hb hb', ?_⟩
    exact ih fun y hy => hR y (List.mem_cons_of_mem x hy)

section Pieces

theorem foldr_extend (s p : List Char) (ps : List (List Char)) :
    s.foldr extend (p :: ps) = (s ++ p) :: ps := by
  induction s with
  | nil => rfl
  | cons c s ih => rw [List.foldr_cons, ih, extend, List.cons_append]

/-- A text that is one piece. -/
def Whole (s : List Char) : Prop := pieces 0 s = .ok [s]

theorem depthAfter?_of_plain (depth : Nat) {c : Char} (h : c ∉ [',', '(', ')']) :
    depthAfter? depth c = some depth ∧ ¬(c = ',' ∧ depth = 0) := by
  simp only [List.mem_cons, List.not_mem_nil, or_false, not_or] at h
  simp [depthAfter?, h.1, h.2.1, h.2.2]

theorem whole_of_plain {s : List Char} (h : Plain s) : Whole s := by
  have happend := pieces_append_of_plain (fun c hc => depthAfter?_of_plain 0 (h c hc)) []
  rw [List.append_nil, pieces_nil] at happend
  rw [Whole, happend, if_pos rfl]
  simp [Except.map, foldr_extend]

theorem whole_of_group {pre inner post : List Char} (hpre : Plain pre)
    (hinner : ∀ c ∈ inner, c ∉ ['(', ')']) (hpost : Plain post) :
    Whole (pre ++ '(' :: (inner ++ ')' :: post)) := by
  have hin : ∀ c ∈ inner, depthAfter? 1 c = some 1 ∧ ¬(c = ',' ∧ 1 = 0) := by
    intro c hc
    have hne := hinner c hc
    simp only [List.mem_cons, List.not_mem_nil, or_false, not_or] at hne
    simp [depthAfter?, hne.1, hne.2]
  have hopen : depthAfter? 0 '(' = some 1 := rfl
  have hclose : depthAfter? 1 ')' = some 0 := rfl
  have hbefore : ∀ c ∈ pre, depthAfter? 0 c = some 0 ∧ ¬(c = ',' ∧ 0 = 0) :=
    fun c hc => depthAfter?_of_plain 0 (hpre c hc)
  rw [Whole, pieces_append_of_plain hbefore, pieces_cons, hopen]
  dsimp only
  rw [pieces_append_of_plain hin, pieces_cons, hclose]
  dsimp only
  rw [whole_of_plain hpost]
  simp [Except.map, place, extend, foldr_extend]

theorem pieces_intercalate {ps : List (List Char)} (hne : ps ≠ []) (h : ∀ p ∈ ps, Whole p) :
    pieces 0 ([','].intercalate ps) = .ok ps := by
  induction ps with
  | nil => exact absurd rfl hne
  | cons p ps ih =>
    obtain ⟨hp, hps⟩ := List.forall_mem_cons.mp h
    cases ps with
    | nil =>
      rw [List.intercalate_singleton]
      exact hp
    | cons q qs =>
      rw [List.intercalate_cons_cons, List.append_assoc, List.singleton_append,
        pieces_append_comma hp, ih (by simp) hps]
      rfl

theorem terms_intercalate {ps : List (List Char)} (h : ∀ p ∈ ps, Whole p) :
    terms ([','].intercalate ps) = .ok (cleared ps) := by
  by_cases hne : ps = []
  · subst hne
    rfl
  · rw [terms, pieces_intercalate hne h]
    rfl

end Pieces

end Label

end OutOfBand
