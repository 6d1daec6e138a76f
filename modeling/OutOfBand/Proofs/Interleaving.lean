import Mathlib.Data.List.Perm.Basic

namespace OutOfBand

variable {α β : Type}

/-- A list is made by taking items from the fronts of several lists until all of them are empty. -/
inductive Interleaves : List (List α) → List α → Prop
  | nil {ls : List (List α)} (h : ∀ l ∈ ls, l = []) : Interleaves ls []
  | cons {ls : List (List α)} {i : Nat} {a : α} {rest as : List α} (h : ls[i]? = some (a :: rest))
      (more : Interleaves (ls.set i rest) as) : Interleaves ls (a :: as)

theorem exists_split_of_getElem? {xs : List α} {i : Nat} {x : α} (h : xs[i]? = some x) :
    ∃ pre post, pre.length = i ∧ xs = pre ++ x :: post ∧
      ∀ y, xs.set i y = pre ++ y :: post := by
  obtain ⟨hi, rfl⟩ := List.getElem?_eq_some_iff.mp h
  refine ⟨xs.take i, xs.drop (i + 1), by simp; omega, ?_, fun y => ?_⟩
  · rw [← List.drop_eq_getElem_cons hi, List.take_append_drop]
  · rw [List.set_eq_take_append_cons_drop, if_pos hi]

namespace Interleaves

theorem prepend {ls : List (List α)} {i : Nat} {pre rest as : List α}
    (h : ls[i]? = some (pre ++ rest)) (more : Interleaves (ls.set i rest) as) :
    Interleaves ls (pre ++ as) := by
  induction pre generalizing ls with
  | nil =>
    obtain ⟨hi, heq⟩ := List.getElem?_eq_some_iff.mp h
    rw [List.nil_append] at heq ⊢
    rwa [← heq, List.set_getElem_self] at more
  | cons a pre ih =>
    -- the first item is taken, and the rest of them stands at the front of what is left
    refine .cons h (ih ?_ ?_)
    · obtain ⟨hi, -⟩ := List.getElem?_eq_some_iff.mp h
      exact List.getElem?_set_self hi
    · rwa [List.set_set]

theorem cons_nil {ls : List (List α)} {as : List α} (h : Interleaves ls as) :
    Interleaves ([] :: ls) as := by
  induction h with
  | nil h => exact .nil (by simpa using h)
  | @cons ls i a rest as h _ ih => exact .cons (i := i + 1) h ih

theorem flatten (ls : List (List α)) : Interleaves ls ls.flatten := by
  induction ls with
  | nil => exact .nil (by simp)
  | cons l ls ih => exact prepend (i := 0) (by simp) ih.cons_nil

theorem append {ls ls' : List (List α)} {as as' : List α} (h : Interleaves ls as)
    (h' : Interleaves ls' as') (hlength : ls.length = ls'.length) :
    Interleaves (List.zipWith (· ++ ·) ls ls') (as ++ as') := by
  induction h with
  | @nil ls hnil =>
    have hls : List.zipWith (· ++ ·) ls ls' = ls' := by
      refine List.ext_getElem (by simp [hlength]) fun i hi hi' => ?_
      rw [List.getElem_zipWith, hnil _ (List.getElem_mem _), List.nil_append]
    rwa [hls]
  | @cons ls i a rest as hi _ ih =>
    obtain ⟨hlt, heq⟩ := List.getElem?_eq_some_iff.mp hi
    have hlt' : i < ls'.length := hlength ▸ hlt
    have hset : (List.zipWith (· ++ ·) ls ls').set i (rest ++ ls'[i]) =
        List.zipWith (· ++ ·) (ls.set i rest) ls' := by
      refine List.ext_getElem (by simp) fun j hj hj' => ?_
      by_cases hij : i = j
      · subst hij
        simp
      · simp [List.getElem_set_ne hij]
    have hnext : (List.zipWith (· ++ ·) ls ls')[i]? = some (a :: (rest ++ ls'[i])) := by
      rw [List.getElem?_zipWith, hi, List.getElem?_eq_getElem hlt']
      rfl
    refine .cons hnext ?_
    rw [hset]
    exact ih (by simpa using hlength)

theorem perm_flatten {ls : List (List α)} {as : List α} (h : Interleaves ls as) :
    as.Perm ls.flatten := by
  induction h with
  | nil h => rw [List.flatten_eq_nil_iff.mpr h]
  | cons h _ ih =>
    obtain ⟨pre, post, -, hls, hset⟩ := exists_split_of_getElem? h
    rw [hset] at ih
    rw [hls]
    simp only [List.flatten_append, List.flatten_cons, List.cons_append] at ih ⊢
    exact (ih.cons _).trans List.perm_middle.symm

theorem filterMap {ls : List (List α)} {as : List α} (f : α → Option β) (h : Interleaves ls as) :
    Interleaves (ls.map (List.filterMap f)) (as.filterMap f) := by
  induction h with
  | nil h =>
    refine .nil fun l hl => ?_
    obtain ⟨l', hl', rfl⟩ := List.mem_map.mp hl
    rw [h l' hl', List.filterMap_nil]
  | @cons ls i a rest as h _ ih =>
    rw [List.map_set] at ih
    have hi : (ls.map (List.filterMap f))[i]? = some ((f a).toList ++ rest.filterMap f) := by
      rw [List.getElem?_map, h, Option.map_some, List.filterMap_cons]
      cases f a <;> rfl
    have hhead : (a :: as).filterMap f = (f a).toList ++ as.filterMap f := by
      rw [List.filterMap_cons]
      cases f a <;> rfl
    rw [hhead]
    exact prepend hi ih

/-- Items of a kind that only one of the lists has stand as they stand in it. -/
theorem filter_eq_of_only {ls : List (List α)} {as l : List α} {p : α → Bool}
    (h : Interleaves ls as) {i : Nat} (hi : ls[i]? = some l)
    (others : ∀ j (l : List α), ls[j]? = some l → j ≠ i → l.filter p = []) :
    as.filter p = l.filter p := by
  induction h generalizing l with
  | nil h => rw [h l (List.mem_of_getElem? hi)]
  | @cons ls k a rest as hk _ ih =>
    have hlt := (List.getElem?_eq_some_iff.mp hk).1
    by_cases hki : k = i
    · subst hki
      obtain rfl : a :: rest = l := Option.some.inj (hk.symm.trans hi)
      have has := ih (List.getElem?_set_self hlt) fun j l hl hj =>
        others j l (by rwa [List.getElem?_set_ne (Ne.symm hj)] at hl) hj
      rw [List.filter_cons, List.filter_cons, has]
    · have hnone := List.filter_eq_nil_iff.mp (others k _ hk hki)
      have has := ih (l := l) (by rwa [List.getElem?_set_ne hki]) fun j l hl hj => by
        by_cases hkj : k = j
        · subst hkj
          rw [List.getElem?_set_self hlt] at hl
          cases hl
          exact List.filter_eq_nil_iff.mpr fun x hx => hnone x (List.mem_cons_of_mem a hx)
        · exact others j l (by rwa [List.getElem?_set_ne hkj] at hl) hj
      rw [List.filter_cons_of_neg (hnone a List.mem_cons_self), has]

/-- Where only one of the lists has items of a kind, they are in one order in all interleavings. -/
theorem filter_eq {ls : List (List α)} {as : List α} {p : α → Bool} (h : Interleaves ls as)
    {i : Nat} (others : ∀ j (l : List α), ls[j]? = some l → j ≠ i → l.filter p = []) :
    as.filter p = ls.flatten.filter p := by
  cases hi : ls[i]? with
  | some l =>
    have hflat := (flatten ls).filter_eq_of_only hi others
    exact (h.filter_eq_of_only hi others).trans hflat.symm
  | none =>
    have hnone : ls.flatten.filter p = [] := by
      rw [List.filter_flatten, List.flatten_eq_nil_iff]
      intro l hl
      obtain ⟨l', hl', rfl⟩ := List.mem_map.mp hl
      obtain ⟨j, hj⟩ := List.mem_iff_getElem?.mp hl'
      refine others j l' hj ?_
      rintro rfl
      cases hi.symm.trans hj
    have hperm := h.perm_flatten.filter p
    rw [hnone] at hperm ⊢
    exact hperm.eq_nil

end Interleaves

end OutOfBand
