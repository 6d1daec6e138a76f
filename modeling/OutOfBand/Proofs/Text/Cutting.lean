import OutOfBand.Text.Blank
import Mathlib.Data.List.Basic
import Mathlib.Data.List.Infix
import Mathlib.Data.List.TakeWhile

namespace OutOfBand

/-- Blanks and nothing else. -/
def Blanks (s : List Char) : Prop := ∀ c ∈ s, isBlank c = true

/-- No blank at either end. -/
def Trimmed (s : List Char) : Prop :=
  (∀ c, s.head? = some c → isBlank c = false) ∧ ∀ c, s.getLast? = some c → isBlank c = false

theorem blanks_nil : Blanks [] := by simp [Blanks]

theorem Blanks.append {b b' : List Char} (hb : Blanks b) (hb' : Blanks b') : Blanks (b ++ b') := by
  intro c hc
  rcases List.mem_append.mp hc with hc | hc
  · exact hb c hc
  · exact hb' c hc

theorem trimmed_of_forall {s : List Char} (h : ∀ c ∈ s, isBlank c = false) : Trimmed s :=
  ⟨fun c hc => h c (List.mem_of_head? hc), fun c hc => h c (List.mem_of_getLast? hc)⟩

/-- Only the two ends of a text that is put together count. -/
theorem trimmed_append {s m t : List Char} (hs : s ≠ []) (ht : t ≠ []) (hs' : Trimmed s)
    (ht' : Trimmed t) : Trimmed (s ++ m ++ t) := by
  constructor
  · intro c hc
    rw [List.append_assoc, List.head?_append_of_ne_nil _ hs] at hc
    exact hs'.1 c hc
  · intro c hc
    rw [List.getLast?_append_of_ne_nil _ ht] at hc
    exact ht'.2 c hc

theorem dropWhile_eq_self_of_head {p : Char → Bool} {s : List Char}
    (h : ∀ c, s.head? = some c → p c = false) : s.dropWhile p = s := by
  cases s with
  | nil => rfl
  | cons c s => simp [h c rfl]

theorem takeWhile_append_of_head {p : Char → Bool} {s t : List Char} (hs : ∀ c ∈ s, p c = true)
    (ht : ∀ c, t.head? = some c → p c = false) : (s ++ t).takeWhile p = s := by
  rw [List.takeWhile_append_of_pos hs]
  cases t with
  | nil => simp
  | cons c t => simp [ht c rfl]

theorem dropWhile_blanks_append {b s : List Char} (hb : Blanks b)
    (h : ∀ c, s.head? = some c → isBlank c = false) : (b ++ s).dropWhile isBlank = s := by
  rw [List.dropWhile_append_of_pos hb, dropWhile_eq_self_of_head h]

theorem trim_of_blanks {b : List Char} (hb : Blanks b) : trim b = [] := by
  have hdrop : b.dropWhile isBlank = [] := List.dropWhile_eq_nil_iff.mpr hb
  simp [trim, trimWith, hdrop, dropEndWhile]

theorem trim_padded {b w b' : List Char} (hb : Blanks b) (hb' : Blanks b') (hw : Trimmed w) :
    trim (b ++ w ++ b') = w := by
  by_cases hnil : w = []
  · subst hnil
    rw [List.append_nil]
    exact trim_of_blanks (hb.append hb')
  · have hdrop : (b ++ w ++ b').dropWhile isBlank = w ++ b' := by
      rw [List.append_assoc]
      refine dropWhile_blanks_append hb fun c hc => hw.1 c ?_
      rwa [List.head?_append_of_ne_nil _ hnil] at hc
    have hend : (w ++ b').reverse.dropWhile isBlank = w.reverse := by
      rw [List.reverse_append]
      refine dropWhile_blanks_append (fun c hc => hb' c (List.mem_reverse.mp hc)) fun c hc => ?_
      rw [List.head?_reverse] at hc
      exact hw.2 c hc
    rw [trim, trimWith, hdrop, dropEndWhile, hend, List.reverse_reverse]

theorem trim_of_trimmed {w : List Char} (hw : Trimmed w) : trim w = w := by
  simpa using trim_padded blanks_nil blanks_nil hw

theorem exists_trim (s : List Char) : ∃ b b', Blanks b ∧ Blanks b' ∧ s = b ++ trim s ++ b' := by
  let r := s.dropWhile isBlank
  refine ⟨s.takeWhile isBlank, (r.reverse.takeWhile isBlank).reverse, ?_, ?_, ?_⟩
  · exact fun c hc => List.mem_takeWhile_imp hc
  · exact fun c hc => List.mem_takeWhile_imp (List.mem_reverse.mp hc)
  · have hend : trim s ++ (r.reverse.takeWhile isBlank).reverse = r := by
      rw [trim, trimWith, dropEndWhile, ← List.reverse_append, List.takeWhile_append_dropWhile,
        List.reverse_reverse]
    rw [List.append_assoc, hend, List.takeWhile_append_dropWhile]

section Split

variable {sep : Char}

theorem splitAt_of_not_mem {s : List Char} (h : sep ∉ s) : splitAt sep s = [s] := by
  induction s with
  | nil => rfl
  | cons c s ih =>
    simp only [List.mem_cons, not_or] at h
    simp [splitAt, Ne.symm h.1, ih h.2]

theorem splitAt_append {s : List Char} (h : sep ∉ s) (t : List Char) :
    splitAt sep (s ++ sep :: t) = s :: splitAt sep t := by
  induction s with
  | nil => simp [splitAt]
  | cons c s ih =>
    simp only [List.mem_cons, not_or] at h
    simp [splitAt, Ne.symm h.1, ih h.2]

/-- Texts without separators are found again between the separators. -/
theorem splitAt_intercalate {ps : List (List Char)} (hne : ps ≠ []) (h : ∀ p ∈ ps, sep ∉ p) :
    splitAt sep ([sep].intercalate ps) = ps := by
  induction ps with
  | nil => exact absurd rfl hne
  | cons p ps ih =>
    obtain ⟨hp, hps⟩ := List.forall_mem_cons.mp h
    cases ps with
    | nil => simpa using splitAt_of_not_mem hp
    | cons q qs =>
      have hrest := ih (by simp) hps
      rw [List.intercalate_cons_cons, List.append_assoc, List.singleton_append, splitAt_append hp,
        hrest]

/-- Every character but the separators is in one of the parts. -/
theorem exists_mem_splitAt_iff {c : Char} (hne : c ≠ sep) {s : List Char} :
    (∃ p ∈ splitAt sep s, c ∈ p) ↔ c ∈ s := by
  induction s with
  | nil => simp [splitAt]
  | cons d s ih =>
    by_cases hd : d = sep
    · simp [splitAt, hd, hne, ih]
    · obtain ⟨q, qs, hqs⟩ := List.exists_cons_of_ne_nil (splitAt_ne_nil sep s)
      rw [hqs] at ih
      simp only [splitAt, if_neg hd, hqs, List.mem_cons, exists_eq_or_imp, ← ih, or_assoc]

end Split

section Cut

variable {c : Char} {pat : List Char}

theorem prefix_of_cutAt {t before after : List Char} (h : cutAt pat t = some (before, after)) :
    before <+: t := by
  induction t generalizing before with
  | nil =>
    rw [cutAt] at h
    split at h
    next =>
      cases h
      exact List.prefix_rfl
    next => cases h
  | cons c t ih =>
    rw [cutAt] at h
    split at h
    next =>
      cases h
      exact List.nil_prefix
    next =>
      obtain ⟨⟨before', after'⟩, hcut, h⟩ := Option.map_eq_some_iff.mp h
      cases h
      exact (List.prefix_cons_inj c).mpr (ih hcut)

theorem cutAt_append_of_not_mem {s : List Char} (h : c ∉ s) (t : List Char) :
    cutAt (c :: pat) (s ++ t) =
      (cutAt (c :: pat) t).map fun (before, after) => (s ++ before, after) := by
  induction s with
  | nil => simp
  | cons d s ih =>
    simp only [List.mem_cons, not_or] at h
    have hprefix : (c :: pat).isPrefixOf (d :: (s ++ t)) = false := by
      simp [List.isPrefixOf, h.1]
    rw [List.cons_append, cutAt, hprefix, ih h.2]
    cases cutAt (c :: pat) t <;> simp

theorem cutAt_prefix (pat t : List Char) : cutAt pat (pat ++ t) = some ([], t) := by
  cases pat with
  | nil => cases t <;> simp [cutAt]
  | cons c pat => simp [cutAt, List.isPrefixOf_iff_prefix]

/-- The first occurrence of a pattern that cannot begin before it. -/
theorem cutAt_append {s : List Char} (h : c ∉ s) (t : List Char) :
    cutAt (c :: pat) (s ++ (c :: pat ++ t)) = some (s, t) := by
  rw [cutAt_append_of_not_mem h, cutAt_prefix]
  simp

theorem cutAt_eq_none_of_not_infix {s : List Char} (h : ¬ c :: pat <:+: s) :
    cutAt (c :: pat) s = none := by
  induction s with
  | nil => simp [cutAt]
  | cons d s ih =>
    have hprefix : (c :: pat).isPrefixOf (d :: s) = false := by
      rw [Bool.eq_false_iff, ne_eq, List.isPrefixOf_iff_prefix]
      exact fun hp => h hp.isInfix
    have hrest : ¬ c :: pat <:+: s := fun hs => h (hs.trans (List.suffix_cons d s).isInfix)
    simp [cutAt, hprefix, ih hrest]

theorem cutAt_eq_none_of_not_mem {s : List Char} (h : c ∉ s) :
    cutAt (c :: pat) s = none :=
  cutAt_eq_none_of_not_infix fun hs => h (hs.subset List.mem_cons_self)

end Cut

end OutOfBand
