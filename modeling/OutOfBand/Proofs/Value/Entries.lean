import OutOfBand.Proofs.Sequence
import OutOfBand.Proofs.Value.Key

namespace OutOfBand

/-- Entries of one key whose values are related under it. -/
def EntryRel (R : Value → Value → Value → Prop) (e f : Value × Value) : Prop :=
  e.1 = f.1 ∧ R e.1 e.2 f.2

/-- Relations that do not tell apart what is one key. -/
def Lenient (R : Value → Value → Value → Prop) : Prop :=
  ∀ k k' v w, k.alike k' = true → R k v w → R k' v w

namespace Entries

section Related

variable {R : Value → Value → Value → Prop}

theorem insert_rel (hR : Lenient R) {es fs : Entries}
    (h : List.Forall₂ (EntryRel R) es fs) {k v w : Value} (hvw : R k v w) :
    List.Forall₂ (EntryRel R) (insert es k v) (insert fs k w) := by
  induction h with
  | nil => exact .cons ⟨rfl, hvw⟩ .nil
  | @cons e f es fs hef hrest ih =>
    obtain ⟨k', v'⟩ := e
    obtain ⟨k'', w'⟩ := f
    obtain ⟨rfl, hval⟩ := hef
    rw [insert, insert]
    split
    next halike => exact .cons ⟨rfl, hR _ _ _ _ halike hvw⟩ hrest
    next => exact .cons ⟨rfl, hval⟩ ih

/-- The mapping that entries make one after the other. -/
def insertAll (vs : List (Value × Value)) : Entries :=
  vs.foldl (fun es (k, v) => insert es k v) []

theorem insertAll_rel (hR : Lenient R) {vs ws : List (Value × Value)}
    (h : List.Forall₂ (EntryRel R) vs ws) :
    List.Forall₂ (EntryRel R) (insertAll vs) (insertAll ws) := by
  suffices ∀ es fs : Entries, List.Forall₂ (EntryRel R) es fs → List.Forall₂ (EntryRel R)
      (vs.foldl (fun es (k, v) => insert es k v) es)
      (ws.foldl (fun es (k, v) => insert es k v) fs) from this [] [] .nil
  induction h with
  | nil => exact fun es fs hes => hes
  | @cons e f vs ws hef _ ih =>
    obtain ⟨k, v⟩ := e
    obtain ⟨k', w⟩ := f
    obtain ⟨rfl, hval⟩ := hef
    exact fun es fs hes => ih _ _ (insert_rel hR hes hval)

end Related

theorem get?_cons (k v : Value) (es : Entries) (s : String) :
    get? ((k, v) :: es) s =
      if (Value.str s).alike k then some v else get? es s := by
  simp only [get?, find?, List.find?_cons]
  split <;> simp_all

theorem get?_insert (es : Entries) (k v : Value) (s : String) :
    get? (insert es k v) s =
      if (Value.str s).alike k then some v else get? es s := by
  induction es with
  | nil => exact get?_cons k v [] s
  | cons e es ih =>
    obtain ⟨k', v'⟩ := e
    rw [insert]
    split
    next halike =>
      -- a text is one key with nothing but itself
      have hkeys : (Value.str s).alike k' = (Value.str s).alike k := by
        rw [Bool.eq_iff_iff, Value.str_alike_iff, Value.str_alike_iff]
        constructor <;> rintro rfl
        · exact Value.alike_str_iff.mp halike
        · exact Value.str_alike_iff.mp halike
      rw [get?_cons, get?_cons, hkeys]
      split <;> rfl
    next halike =>
      rw [get?_cons, get?_cons, ih]
      by_cases hk' : (Value.str s).alike k' = true
      · have hk : (Value.str s).alike k = false := by
          rw [Bool.eq_false_iff, ne_eq, Value.str_alike_iff]
          rintro rfl
          exact halike hk'
        simp [hk, hk']
      · simp [hk']

theorem get?_insertAll {us ws : List (Value × Value)} {s : String} (w : Value)
    (h : ∀ e ∈ ws, e.1 ≠ .str s) :
    get? (insertAll (us ++ (.str s, w) :: ws)) s = some w := by
  have hws (es : Entries) : get? (ws.foldl (fun es (k, v) => insert es k v) es) s =
      get? es s := by
    induction ws generalizing es with
    | nil => rfl
    | cons e ws ih =>
      obtain ⟨k, v⟩ := e
      obtain ⟨hk, hws⟩ := List.forall_mem_cons.mp h
      rw [List.foldl_cons, ih hws, get?_insert, if_neg (fun h => hk (Value.str_alike_iff.mp h))]
  rw [insertAll, List.foldl_append, List.foldl_cons, hws, get?_insert,
    if_pos (Value.str_alike_iff.mpr rfl)]

theorem insert_of_not_alike {es : Entries} {k : Value} (h : ∀ e ∈ es, k.alike e.1 = false)
    (v : Value) : insert es k v = es ++ [(k, v)] := by
  induction es with
  | nil => rfl
  | cons e es ih =>
    obtain ⟨hk, hes⟩ := List.forall_mem_cons.mp h
    rw [insert, hk, if_neg (by simp), ih hes, List.cons_append]

theorem mem_insert_of_mem {es : Entries} {e : Value × Value} (he : e ∈ es) {k : Value}
    (hk : k.alike e.1 = false) (v : Value) : e ∈ insert es k v := by
  induction es with
  | nil => cases he
  | cons e' es ih =>
    rw [insert]
    rcases List.mem_cons.mp he with rfl | he
    · rw [hk, if_neg (by simp)]
      exact List.mem_cons_self
    · split
      next => exact List.mem_cons_of_mem _ he
      next => exact List.mem_cons_of_mem _ (ih he)

theorem of_mem_insert {es : Entries} {k v : Value} {e : Value × Value}
    (he : e ∈ insert es k v) :
    e ∈ es ∨ e = (k, v) ∨ ∃ e' ∈ es, e'.1 = e.1 ∧ k.alike e.1 = true := by
  induction es with
  | nil => exact .inr (.inl (List.mem_singleton.mp he))
  | cons e' es ih =>
    rw [insert] at he
    split at he
    next halike =>
      rcases List.mem_cons.mp he with rfl | he
      · exact .inr (.inr ⟨e', List.mem_cons_self, rfl, halike⟩)
      · exact .inl (List.mem_cons_of_mem e' he)
    next =>
      rcases List.mem_cons.mp he with rfl | he
      · exact .inl List.mem_cons_self
      · rcases ih he with h | h | ⟨e'', he'', h⟩
        · exact .inl (List.mem_cons_of_mem e' h)
        · exact .inr (.inl h)
        · exact .inr (.inr ⟨e'', List.mem_cons_of_mem e' he'', h⟩)

theorem foldl_insert_induction {P : Entries → Prop} {us : List (Value × Value)} {es : Entries}
    (hes : P es) (h : ∀ es, P es → ∀ u ∈ us, P (insert es u.1 u.2)) :
    P (us.foldl (fun es (k, v) => insert es k v) es) := by
  induction us generalizing es with
  | nil => exact hes
  | cons u us ih =>
    exact ih (h es hes u List.mem_cons_self) fun es hes u hu =>
      h es hes u (List.mem_cons_of_mem _ hu)

/-- An entry whose key is like no other is in the mapping, next to entries of the other keys. -/
theorem mem_insertAll {us ws : List (Value × Value)} {key : Value} (w : Value)
    (h : ∀ e ∈ us ++ ws, key.alike e.1 = false ∧ e.1.alike key = false) :
    (key, w) ∈ insertAll (us ++ (key, w) :: ws) ∧
      ∀ e ∈ insertAll (us ++ (key, w) :: ws), e = (key, w) ∨ ∃ u ∈ us ++ ws, u.1 = e.1 := by
  -- until the entry comes no key is like its own, and after it none is
  have hbefore : ∀ e ∈ insertAll us, ∃ u ∈ us ++ ws, u.1 = e.1 := by
    refine foldl_insert_induction (P := fun es => ∀ e ∈ es, ∃ u ∈ us ++ ws, u.1 = e.1)
      (by simp) fun es hes u hu e he => ?_
    rcases of_mem_insert he with he | rfl | ⟨e', he', hkey, -⟩
    · exact hes e he
    · exact ⟨u, List.mem_append_left ws hu, rfl⟩
    · exact hkey ▸ hes e' he'
  have hinsert : insert (insertAll us) key w = insertAll us ++ [(key, w)] :=
    insert_of_not_alike (fun e he => by
      obtain ⟨u, hu, hkey⟩ := hbefore e he
      exact hkey ▸ (h u hu).1) w
  have hfirst : (key, w) ∈ insert (insertAll us) key w ∧
      ∀ e ∈ insert (insertAll us) key w, e = (key, w) ∨ ∃ u ∈ us ++ ws, u.1 = e.1 := by
    rw [hinsert]
    refine ⟨List.mem_append_right _ (List.mem_singleton.mpr rfl), fun e he => ?_⟩
    rcases List.mem_append.mp he with he | he
    · exact .inr (hbefore e he)
    · exact .inl (List.mem_singleton.mp he)
  rw [insertAll, List.foldl_append, List.foldl_cons]
  refine foldl_insert_induction (P := fun es => (key, w) ∈ es ∧
    ∀ e ∈ es, e = (key, w) ∨ ∃ u ∈ us ++ ws, u.1 = e.1) hfirst fun es hes u hu => ?_
  obtain ⟨hmem, hes⟩ := hes
  have hu := List.mem_append_right us hu
  refine ⟨mem_insert_of_mem hmem (h u hu).2 u.2, fun e he => ?_⟩
  rcases of_mem_insert he with he | rfl | ⟨e', he', hkey, halike⟩
  · exact hes e he
  · exact .inr ⟨u, hu, rfl⟩
  · rcases hes e' he' with rfl | ⟨u', hu', hkey'⟩
    · rw [← hkey, (h u hu).2] at halike
      cases halike
    · exact .inr ⟨u', hu', hkey'.trans hkey⟩

end Entries

end OutOfBand
