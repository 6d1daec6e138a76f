import OutOfBand.Proofs.Value.Matching
import OutOfBand.Yaml.Load

namespace OutOfBand.Yaml

theorem coreType?_coreTag (name : String) : coreType? (coreTag name) = some name := by
  -- the stem is long, so it is not to be computed with
  obtain ⟨stem, htag⟩ : ∃ stem : String, ∀ name, coreTag name = stem ++ name := ⟨_, fun _ => rfl⟩
  have hprefix : stem.toList.isPrefixOf (stem.toList ++ name.toList) = true :=
    List.isPrefixOf_iff_prefix.mpr (List.prefix_append _ _)
  simp [coreType?, htag, hprefix, ← String.length_toList]

theorem liftAt_eq_ok_iff {α : Type} {depth : Nat} {x : Except Fault α} {a : α} :
    liftAt depth x = .ok a ↔ x = .ok a := by
  cases x <;> simp [liftAt, failAt]

/-- A node that stands for a value wherever it is. -/
def Node.Stands (n : Node) (v : Value) : Prop := ∀ fuel depth, build (fuel + 1) depth n = .ok v

section Merging

/-- A key as its mapping takes it: the mark of a default key is a text like any other. -/
def Node.asKey (k : Node) : Node :=
  if k.fullTag = coreTag "value" then
    match k with
    | .scalar _ text plain => .scalar (some (coreTag "str")) text plain
    | n => n
  else k

theorem splitMerged_cons (k v : Node) (es : List (Node × Node)) :
    splitMerged ((k, v) :: es) =
      if k.fullTag = coreTag "merge" then do
        let here ← v.merged
        let (taken, own) ← splitMerged es
        return (here ++ taken, own)
      else do
        let (taken, own) ← splitMerged es
        return (taken, (k.asKey, v) :: own) := by
  cases k <;> rfl

theorem splitMerged_append (xs ys : List (Node × Node)) :
    splitMerged (xs ++ ys) = do
      let (taken, own) ← splitMerged xs
      let (taken', own') ← splitMerged ys
      return (taken ++ taken', own ++ own') := by
  induction xs with
  | nil => cases h : splitMerged ys <;> simp [splitMerged, h, bind, Except.bind, pure, Except.pure]
  | cons x xs ih =>
    obtain ⟨k, v⟩ := x
    rw [List.cons_append, splitMerged_cons, splitMerged_cons, ih]
    split
    next =>
      cases v.merged <;> cases splitMerged xs <;> cases splitMerged ys <;>
        simp [bind, Except.bind, pure, Except.pure]
    next =>
      cases splitMerged xs <;> cases splitMerged ys <;> simp [bind, Except.bind, pure, Except.pure]

theorem Node.Stands.fullTag_ne {n : Node} {v : Value} (h : n.Stands v) {mark : String}
    (hmark : mark ∈ ["merge", "value"]) : n.fullTag ≠ coreTag mark := by
  intro htag
  -- both marks are scalar types with which no scalar can be built
  have hbuild := h 0 0
  have hscalar : isCollectionType mark = false ∧ "" ≠ coreTag mark ∧
      ∀ text, scalarOf mark text = .error .malformed := by
    simp only [List.mem_cons, List.not_mem_nil, or_false] at hmark
    rcases hmark with rfl | rfl
    · exact ⟨by decide, by decide, fun _ => rfl⟩
    · exact ⟨by decide, by decide, fun _ => rfl⟩
  cases n with
  | cycle => exact hscalar.2.1 htag
  | _ =>
    simp only [build, htag, coreType?_coreTag, hscalar] at hbuild
    split at hbuild
    next hcollection => cases hcollection
    next => split at hbuild <;> cases hbuild

theorem splitMerged_cons_of_stands {k n : Node} {v : Value} (h : k.Stands v)
    (es : List (Node × Node)) :
    splitMerged ((k, n) :: es) =
      (splitMerged es).map fun (taken, own) => (taken, (k, n) :: own) := by
  have hkey : k.asKey = k := if_neg (h.fullTag_ne (by simp))
  rw [splitMerged_cons, if_neg (h.fullTag_ne (by simp)), hkey]
  cases splitMerged es <;> rfl

theorem splitMerged_of_stands {es : List (Node × Node)} (h : ∀ e ∈ es, ∃ v, e.1.Stands v) :
    splitMerged es = .ok ([], es) := by
  induction es with
  | nil => rfl
  | cons e es ih =>
    obtain ⟨⟨v, hv⟩, hrest⟩ := List.forall_mem_cons.mp h
    rw [splitMerged_cons_of_stands hv, ih hrest]
    rfl

end Merging

section Keys

theorem Node.scalarText?_asKey (k : Node) : k.asKey.scalarText? = k.scalarText? := by
  cases k <;> simp only [Node.asKey] <;> split <;> simp [Node.scalarText?]

theorem exists_of_mem_splitMerged {es taken own : List (Node × Node)}
    (h : splitMerged es = .ok (taken, own)) {e : Node × Node} (he : e ∈ own) :
    ∃ x ∈ es, e.1 = x.1.asKey := by
  induction es generalizing taken own with
  | nil =>
    cases h
    cases he
  | cons x es ih =>
    obtain ⟨k, v⟩ := x
    rw [splitMerged_cons] at h
    split at h
    next =>
      obtain ⟨here, -, h⟩ := bind_eq_ok_iff.mp h
      obtain ⟨⟨taken', own'⟩, hrest, h⟩ := bind_eq_ok_iff.mp h
      cases h
      obtain ⟨x, hx, hkey⟩ := ih hrest he
      exact ⟨x, List.mem_cons_of_mem _ hx, hkey⟩
    next =>
      obtain ⟨⟨taken', own'⟩, hrest, h⟩ := bind_eq_ok_iff.mp h
      cases h
      rcases List.mem_cons.mp he with rfl | he
      · exact ⟨(k, v), List.mem_cons_self, rfl⟩
      · obtain ⟨x, hx, hkey⟩ := ih hrest he
        exact ⟨x, List.mem_cons_of_mem _ hx, hkey⟩

theorem eq_of_scalarOf_str {type text s : String} (h : scalarOf type text = .ok (.str s)) :
    text = s := by
  unfold scalarOf at h
  split at h
  · cases h
  · split at h <;> cases h
  · obtain ⟨n, -, hn⟩ := map_eq_ok_iff.mp h
    cases hn
  · obtain ⟨x, -, hx⟩ := map_eq_ok_iff.mp h
    cases hx
  · unfold timestampOf at h
    repeat' split at h
    all_goals cases h
  · simp only [bytesOf] at h
    repeat' split at h
    all_goals cases h
  · cases h
    rfl
  · cases h

theorem buildCollection_ne_str (fuel depth : Nat) (type : String) (n : Node) (s : String) :
    buildCollection fuel depth type n ≠ .ok (.str s) := by
  intro h
  cases fuel with
  | zero => simp [buildCollection, failAt] at h
  | succ fuel =>
    unfold buildCollection at h
    split at h <;> simp [bind_eq_ok_iff, pure, Except.pure, failAt] at h

theorem scalarText?_of_build {fuel depth : Nat} {n : Node} {s : String}
    (h : build fuel depth n = .ok (.str s)) : n.scalarText? = some s := by
  cases fuel with
  | zero => simp [build, failAt] at h
  | succ fuel =>
    by_cases hn : ∃ anchor mapping, n = .cycle anchor mapping
    · obtain ⟨anchor, mapping, rfl⟩ := hn
      simp [build] at h
    · rw [build] at h
      · split at h
        next => simp [failAt] at h
        next type _ =>
          split at h
          next => exact absurd h (buildCollection_ne_str _ _ _ _ _)
          next =>
            split at h
            next => simp [failAt] at h
            next text htext =>
              rw [htext, eq_of_scalarOf_str (liftAt_eq_ok_iff.mp h)]
      · exact fun anchor mapping h => hn ⟨anchor, mapping, h⟩

end Keys

section Collecting

variable {α β : Type} {R : α → β → Prop}

theorem collect_cons (x : Build α) (xs : List (Build α)) :
    collect (x :: xs) = match x, collect xs with
      | .ok v, .ok vs => .ok (v :: vs)
      | .error f, .ok _ => .error f
      | .ok _, .error f => .error f
      | .error f, .error g => .error (if g.depth < f.depth then g else f) := rfl

theorem collect_agree {xs : List (Build α)} {ys : List (Build β)}
    (h : List.Forall₂ (Agree R) xs ys) : Agree (List.Forall₂ R) (collect xs) (collect ys) := by
  induction h with
  | nil => exact .ok .nil
  | @cons x y xs ys hxy _ ih =>
    rw [collect_cons, collect_cons]
    generalize collect xs = vs at ih
    generalize collect ys = ws at ih
    cases hxy with
    | ok hab =>
      cases ih with
      | ok hrest => exact .ok (.cons hab hrest)
      | error f => exact .error f
    | error f =>
      cases ih with
      | ok hrest => exact .error f
      | error g => exact .error _

theorem collect_eq_ok_iff {xs : List (Build α)} {vs : List α} :
    collect xs = .ok vs ↔ List.Forall₂ (fun x v => x = .ok v) xs vs := by
  induction xs generalizing vs with
  | nil =>
    rw [collect, List.forall₂_nil_left_iff]
    exact ⟨fun h => (Except.ok.inj h).symm, fun h => congrArg _ h.symm⟩
  | cons x xs ih =>
    rw [collect_cons, List.forall₂_cons_left_iff]
    simp only [← ih]
    cases x <;> cases collect xs <;> simp [eq_comm]

end Collecting

section Entries

variable {R : Value → Value → Value → Prop}

theorem buildEntry_of_stands {k n : Node} {key : Value} (hk : k.Stands key) (fuel depth : Nat) :
    buildEntry (fuel + 2) depth (k, n) =
      if key.isKey then (build (fuel + 1) depth n).map (key, ·) else failAt depth .malformed := by
  rw [buildEntry, hk fuel depth]
  cases h : key.isKey <;> simp [h]

theorem buildEntry_agree {k x y : Node} {key : Value} {fuel depth : Nat} (hk : k.Stands key)
    (h : Agree (R key) (build (fuel + 1) depth x) (build (fuel + 1) depth y)) :
    Agree (EntryRel R) (buildEntry (fuel + 2) depth (k, x))
      (buildEntry (fuel + 2) depth (k, y)) := by
  rw [buildEntry_of_stands hk, buildEntry_of_stands hk]
  split
  · generalize build (fuel + 1) depth x = v at h ⊢
    generalize build (fuel + 1) depth y = w at h ⊢
    cases h with
    | ok hvw => exact .ok ⟨rfl, hvw⟩
    | error f => exact .error f
  · exact .error _

theorem exists_build_key {fuel depth : Nat} {e : Node × Node} {u : Value × Value}
    (h : buildEntry fuel depth e = .ok u) :
    ∃ fuel, build fuel depth e.1 = .ok u.1 ∧ u.1.isKey = true := by
  cases fuel with
  | zero => simp [buildEntry, failAt] at h
  | succ fuel =>
    rw [buildEntry] at h
    split at h
    next => split at h <;> simp [failAt] at h
    next key hkey =>
      split at h
      next => simp [failAt] at h
      next hisKey =>
        obtain ⟨v, -, rfl⟩ := map_eq_ok_iff.mp h
        exact ⟨fuel, hkey, by simpa using hisKey⟩

/-- An entry whose key stands, and what it is built as. -/
def EntryStands (fuel depth : Nat) (e : Node × Node) (u : Value × Value) : Prop :=
  e.1.Stands u.1 ∧ u.1.isKey = true ∧ build (fuel + 1) depth e.2 = .ok u.2

theorem build_mapping_of_stands {fuel depth : Nat} {es : List (Node × Node)}
    {us : List (Value × Value)} (h : List.Forall₂ (EntryStands fuel (depth + 1)) es us)
    (hus : Entries.insertAll us = us) : build (fuel + 4) depth (.mapping none es) = .ok (.map us) := by
  have hcollection : isCollectionType "map" = true := by decide
  have hmerged : (Node.mapping none es).merged = .ok es := by
    rw [Node.merged, splitMerged_of_stands fun e he => ?_]
    · rfl
    · obtain ⟨u, -, hstands, -⟩ := exists_of_mem_left h he
      exact ⟨u.1, hstands⟩
  have hentries : collect (es.map (buildEntry (fuel + 2) (depth + 1))) = .ok us := by
    rw [collect_eq_ok_iff, List.forall₂_map_left_iff]
    refine h.imp fun e u ⟨hstands, hkey, hvalue⟩ => ?_
    rw [buildEntry_of_stands hstands, if_pos hkey, hvalue]
    rfl
  simp only [build, Node.fullTag, Option.getD_none, coreType?_coreTag, hcollection, if_true,
    buildCollection, hmerged, liftAt]
  change (collect (es.map (buildEntry (fuel + 2) (depth + 1))) >>= _) = _
  rw [hentries]
  exact congrArg (Except.ok ∘ Value.map) hus

end Entries

/-- The place of one entry in a mapping: what stands around its value. -/
structure Place (key : Value) where
  tag : Option String
  before : List (Node × Node)
  name : Node
  after : List (Node × Node)
  isMap : tag.getD (coreTag "map") = coreTag "map"
  stands : name.Stands key

namespace Place

variable {key : Value} {R : Value → Value → Value → Prop}

/-- The mapping with a value at the place. -/
def fill (p : Place key) (n : Node) : Node := .mapping p.tag (p.before ++ (p.name, n) :: p.after)

/-- The other entries, those before and those after the place in what is left after merging. -/
def others (p : Place key) : Except Fault (List (Node × Node) × List (Node × Node)) := do
  let (taken, own) ← splitMerged p.before
  let (taken', own') ← splitMerged p.after
  return (taken ++ taken' ++ own, own')

theorem merged_fill (p : Place key) (n : Node) :
    (p.fill n).merged = p.others.map fun (pre, post) => pre ++ (p.name, n) :: post := by
  rw [fill, Node.merged, splitMerged_append, splitMerged_cons_of_stands p.stands, others]
  cases splitMerged p.before <;> cases splitMerged p.after <;>
    simp [bind, Except.bind, pure, Except.pure, Except.map]

theorem build_fill (p : Place key) (n : Node) (fuel depth : Nat) :
    build (fuel + 2) depth (p.fill n) = do
      let (pre, post) ← liftAt (depth + 1) p.others
      let vs ← collect ((pre ++ (p.name, n) :: post).map (buildEntry fuel (depth + 1)))
      return .map (Entries.insertAll vs) := by
  have hcollection : isCollectionType "map" = true := by decide
  have htag : (p.fill n).fullTag = coreTag "map" := p.isMap
  rw [fill] at htag ⊢
  simp only [build, htag, coreType?_coreTag, hcollection, if_true, buildCollection]
  rw [← fill, merged_fill]
  cases p.others with
  | error f => rfl
  | ok es => rfl

/-- Mappings differ as the values at one place in them do. -/
theorem build_fill_agree (p : Place key) (hrefl : ∀ k v, R k v v)
    (hR : Lenient R) {x y : Node} {fuel depth : Nat}
    (h : Agree (R key) (build (fuel + 1) (depth + 1) x) (build (fuel + 1) (depth + 1) y)) :
    Agree (Value.Matching R) (build (fuel + 4) depth (p.fill x))
      (build (fuel + 4) depth (p.fill y)) := by
  have hsame (es : List (Node × Node)) : List.Forall₂ (Agree (EntryRel R))
      (es.map (buildEntry (fuel + 2) (depth + 1))) (es.map (buildEntry (fuel + 2) (depth + 1))) :=
    List.forall₂_same.mpr fun x _ => Agree.refl (fun e => ⟨rfl, hrefl e.1 e.2⟩) x
  rw [build_fill, build_fill]
  refine (Agree.same _).bind fun es es' hes => ?_
  subst hes
  obtain ⟨pre, post⟩ := es
  have hentries : List.Forall₂ (Agree (EntryRel R))
      ((pre ++ (p.name, x) :: post).map (buildEntry (fuel + 2) (depth + 1)))
      ((pre ++ (p.name, y) :: post).map (buildEntry (fuel + 2) (depth + 1))) := by
    rw [List.map_append, List.map_append]
    exact List.rel_append (hsame pre) (.cons (buildEntry_agree p.stands h) (hsame post))
  exact (collect_agree hentries).bind fun vs ws hvs => .ok (.map (Entries.insertAll_rel hR hvs))

theorem build_fill_eq_ok {p : Place key} {n : Node} {fuel depth : Nat} {v : Value}
    (h : build (fuel + 4) depth (p.fill n) = .ok v) :
    ∃ pre post us ws w, p.others = .ok (pre, post) ∧ key.isKey = true ∧
      build (fuel + 1) (depth + 1) n = .ok w ∧
      List.Forall₂ (fun e u => buildEntry (fuel + 2) (depth + 1) e = .ok u) pre us ∧
      List.Forall₂ (fun e u => buildEntry (fuel + 2) (depth + 1) e = .ok u) post ws ∧
      v = .map (Entries.insertAll (us ++ (key, w) :: ws)) := by
  rw [build_fill, bind_eq_ok_iff] at h
  obtain ⟨⟨pre, post⟩, hothers, h⟩ := h
  obtain ⟨vs, hvs, h⟩ := bind_eq_ok_iff.mp h
  rw [collect_eq_ok_iff, List.forall₂_map_left_iff] at hvs
  obtain ⟨us, vs', hus, hvs', rfl⟩ := exists_of_forall₂_append hvs
  obtain ⟨e, ws, he, hws, rfl⟩ := List.forall₂_cons_left_iff.mp hvs'
  rw [buildEntry_of_stands p.stands] at he
  split at he
  next hkey =>
    obtain ⟨w, hw, rfl⟩ := map_eq_ok_iff.mp he
    exact ⟨pre, post, us, ws, w, liftAt_eq_ok_iff.mp hothers, hkey, hw, hus, hws,
      (Except.ok.inj h).symm⟩
  next => cases he

/-- The key at the place is not written again behind it. -/
def IsLast {s : String} (p : Place (.str s)) : Prop := ∀ e ∈ p.after, e.1.scalarText? ≠ some s

/-- No other entry, its own or merged, has a key that is one with the key at the place, or is
written like it. -/
def IsSole (p : Place key) : Prop :=
  ∀ pre post, p.others = .ok (pre, post) → ∀ e ∈ pre ++ post, ∀ fuel depth k,
    build fuel depth e.1 = .ok k → key.alike k = false ∧ k.text ≠ key.text

theorem get?_of_build_fill {s : String} {p : Place (.str s)} (hlast : p.IsLast) {n : Node}
    {fuel depth : Nat} {v : Value} (h : build (fuel + 4) depth (p.fill n) = .ok v) :
    ∃ es w, v = .map es ∧ build (fuel + 1) (depth + 1) n = .ok w ∧ Entries.get? es s = some w := by
  obtain ⟨pre, post, us, ws, w, hothers, -, hw, -, hws, rfl⟩ := build_fill_eq_ok h
  refine ⟨_, w, rfl, hw, Entries.get?_insertAll w fun u hu => ?_⟩
  obtain ⟨e, he, hentry⟩ := exists_of_mem_right hws hu
  obtain ⟨f, hkey, -⟩ := exists_build_key hentry
  -- what is left behind the place was written there: merged entries come before it
  obtain ⟨⟨taken, own⟩, -, hothers⟩ := bind_eq_ok_iff.mp hothers
  obtain ⟨⟨taken', own'⟩, hafter, hothers⟩ := bind_eq_ok_iff.mp hothers
  cases hothers
  obtain ⟨x, hx, hasKey⟩ := exists_of_mem_splitMerged hafter he
  intro hs
  rw [hs, hasKey] at hkey
  exact hlast x hx ((Node.scalarText?_asKey x.1).symm.trans (scalarText?_of_build hkey))

theorem mem_of_build_fill {p : Place key} (hsole : p.IsSole) {n : Node} {fuel depth : Nat}
    {v : Value} (h : build (fuel + 4) depth (p.fill n) = .ok v) :
    ∃ es w, v = .map es ∧ build (fuel + 1) (depth + 1) n = .ok w ∧ (key, w) ∈ es ∧
      ∀ e ∈ es, e.1.text = key.text → e = (key, w) := by
  obtain ⟨pre, post, us, ws, w, hothers, hisKey, hw, hus, hws, rfl⟩ := build_fill_eq_ok h
  have hkeys : ∀ u ∈ us ++ ws, u.1.isKey = true ∧ key.alike u.1 = false ∧ u.1.text ≠ key.text := by
    intro u hu
    obtain ⟨e, he, hentry⟩ := exists_of_mem_right (List.rel_append hus hws) hu
    obtain ⟨f, hkey, hisKey⟩ := exists_build_key hentry
    exact ⟨hisKey, hsole pre post hothers e he f _ u.1 hkey⟩
  obtain ⟨hmem, honly⟩ := Entries.mem_insertAll w fun u hu => by
    obtain ⟨hisKey', halike, -⟩ := hkeys u hu
    refine ⟨halike, ?_⟩
    rw [Bool.eq_false_iff] at halike ⊢
    exact fun hback => halike (Value.alike_symm hisKey' hisKey hback)
  refine ⟨_, w, rfl, hw, hmem, fun e he htext => ?_⟩
  rcases honly e he with h | ⟨u, hu, hkey⟩
  · exact h
  · exact absurd (hkey ▸ htext) (hkeys u hu).2.2

theorem exists_depth_fill (p : Place key) : ∃ m, ∀ n, (p.fill n).depth = max m n.depth + 1 := by
  have happend (xs ys : List (Node × Node)) : Node.depth.depthEntries (xs ++ ys) =
      max (Node.depth.depthEntries xs) (Node.depth.depthEntries ys) := by
    induction xs with
    | nil => simp [Node.depth.depthEntries]
    | cons x xs ih => simp [Node.depth.depthEntries, ih, Nat.max_assoc]
  refine ⟨max (Node.depth.depthEntries p.before)
    (max p.name.depth (Node.depth.depthEntries p.after)), fun n => ?_⟩
  rw [fill, Node.depth, happend, Node.depth.depthEntries]
  grind

end Place

end OutOfBand.Yaml
