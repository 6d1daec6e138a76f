import OutOfBand.Label.Expression
import OutOfBand.Proofs.Sequence
import Mathlib.Data.List.Infix

namespace OutOfBand

namespace Label

/-- The parentheses of a text close those that are open before it, and no others. -/
def Closes (depth : Nat) (s : List Char) : Prop :=
  (∀ t, t <+: s → t.count ')' ≤ depth + t.count '(') ∧ s.count ')' = depth + s.count '('

/-- No parenthesis is closed before it is opened, and all of them are closed in the end. -/
def Balanced (s : List Char) : Prop := Closes 0 s

/-- How many parentheses are open after one more character; none if it closes one too many. -/
def depthAfter? (depth : Nat) (c : Char) : Option Nat :=
  if c = '(' then some (depth + 1)
  else if c = ')' then (if depth = 0 then none else some (depth - 1))
  else some depth

theorem closes_nil {depth : Nat} : Closes depth [] ↔ depth = 0 := by
  constructor
  · intro h
    have := h.2
    simp at this
    omega
  · rintro rfl
    exact ⟨fun t ht => by simp [List.prefix_nil.mp ht], rfl⟩

theorem forall_prefix_cons {c : Char} {s : List Char} {p : List Char → Prop} :
    (∀ t, t <+: c :: s → p t) ↔ p [] ∧ ∀ t, t <+: s → p (c :: t) := by
  constructor
  · intro h
    exact ⟨h [] List.nil_prefix, fun t ht => h _ ((List.prefix_cons_inj c).mpr ht)⟩
  · rintro ⟨hnil, hcons⟩ t ht
    rcases List.prefix_cons_iff.mp ht with rfl | ⟨u, rfl, hu⟩
    · exact hnil
    · exact hcons u hu

theorem closes_cons {depth : Nat} {c : Char} {s : List Char} :
    Closes depth (c :: s) ↔ ∃ next, depthAfter? depth c = some next ∧ Closes next s := by
  simp only [Closes, forall_prefix_cons, List.count_cons, List.count_nil, depthAfter?]
  by_cases hopen : c = '('
  · subst hopen
    simp
    grind
  · by_cases hclose : c = ')'
    · subst hclose
      by_cases hzero : depth = 0
      · -- the empty rest shows that one is closed too many
        subst hzero
        simp
        intro h
        have := h [] List.nil_prefix
        simp at this
      · simp [hzero]
        grind
    · simp [hopen, hclose]

/-- What a character does to the pieces of what follows it. -/
def place (depth : Nat) (c : Char) (ps : List (List Char)) : List (List Char) :=
  if c = ',' ∧ depth = 0 then [] :: ps else extend c ps

theorem pieces_nil {depth : Nat} :
    pieces depth [] = if depth = 0 then .ok [[]] else .error .unclosed := by
  cases depth <;> simp [pieces]

theorem pieces_cons (depth : Nat) (c : Char) (s : List Char) :
    pieces depth (c :: s) = match depthAfter? depth c with
      | none => .error .unopened
      | some next => (pieces next s).map (place depth c) := by
  rw [pieces.eq_def]
  unfold place depthAfter?
  by_cases hopen : c = '('
  · cases depth <;> simp [hopen]
  · by_cases hclose : c = ')'
    · cases depth <;> simp [hclose]
    · by_cases hcut : c = ',' ∧ depth = 0
      · obtain ⟨rfl, rfl⟩ := hcut
        simp
      · cases depth <;> simp_all

theorem place_append {depth : Nat} {c : Char} {ps : List (List Char)} (h : ps ≠ [])
    (qs : List (List Char)) : place depth c (ps ++ qs) = place depth c ps ++ qs := by
  obtain ⟨p, rest, rfl⟩ := List.exists_cons_of_ne_nil h
  unfold place
  split <;> simp [extend]

theorem place_ne_nil (depth : Nat) (c : Char) (ps : List (List Char)) : place depth c ps ≠ [] := by
  unfold place
  split
  next => simp
  next => cases ps <;> simp [extend]

theorem pieces_cons_eq_ok_iff {depth : Nat} {c : Char} {s : List Char} {ps : List (List Char)} :
    pieces depth (c :: s) = .ok ps ↔ ∃ next, depthAfter? depth c = some next ∧
      ∃ qs, pieces next s = .ok qs ∧ place depth c qs = ps := by
  rw [pieces_cons]
  cases depthAfter? depth c with
  | none => simp
  | some next => simp [map_eq_ok_iff]

theorem pieces_ne_nil {depth : Nat} {s : List Char} {ps : List (List Char)}
    (h : pieces depth s = .ok ps) : ps ≠ [] := by
  cases s with
  | nil =>
    rw [pieces_nil] at h
    split at h
    next => simp [← Except.ok.inj h]
    next => cases h
  | cons c s =>
    obtain ⟨next, -, qs, -, rfl⟩ := pieces_cons_eq_ok_iff.mp h
    exact place_ne_nil depth c qs

/-- A text can be cut into pieces exactly if its parentheses close those that are open. -/
theorem exists_pieces_iff {depth : Nat} {s : List Char} :
    (∃ ps, pieces depth s = .ok ps) ↔ Closes depth s := by
  induction s generalizing depth with
  | nil =>
    rw [closes_nil, pieces_nil]
    split <;> simp_all
  | cons c s ih =>
    rw [closes_cons]
    simp only [pieces_cons_eq_ok_iff, ← ih]
    grind

theorem pieces_append_comma {depth : Nat} {s : List Char} {ps : List (List Char)}
    (h : pieces depth s = .ok ps) (t : List Char) :
    pieces depth (s ++ ',' :: t) = (pieces 0 t).map (ps ++ ·) := by
  induction s generalizing depth ps with
  | nil =>
    rw [pieces_nil] at h
    split at h
    next hzero =>
      subst hzero
      cases h
      rfl
    next => cases h
  | cons c s ih =>
    obtain ⟨next, hnext, qs, hqs, rfl⟩ := pieces_cons_eq_ok_iff.mp h
    rw [List.cons_append, pieces_cons, hnext]
    dsimp only
    rw [ih hqs]
    -- the piece that the character belongs to is one of the text's own
    cases pieces 0 t with
    | error e => rfl
    | ok us => simp [Except.map, place_append (pieces_ne_nil hqs)]

/-- Characters that neither end a piece nor open or close a parenthesis stay in the first piece. -/
theorem pieces_append_of_plain {depth : Nat} {s : List Char}
    (h : ∀ c ∈ s, depthAfter? depth c = some depth ∧ ¬(c = ',' ∧ depth = 0)) (t : List Char) :
    pieces depth (s ++ t) = (pieces depth t).map fun ps => s.foldr extend ps := by
  induction s with
  | nil =>
    rw [List.nil_append]
    cases pieces depth t <;> rfl
  | cons c s ih =>
    obtain ⟨⟨hdepth, hcut⟩, hs⟩ := List.forall_mem_cons.mp h
    rw [List.cons_append, pieces_cons, hdepth]
    dsimp only
    rw [ih hs]
    cases pieces depth t <;> simp [Except.map, place, hcut]

end Label

end OutOfBand
