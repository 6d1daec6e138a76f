import OutOfBand.Inventory.Bundle
import OutOfBand.Proofs.Label.Pieces

namespace OutOfBand

namespace Label

theorem parse_eq_ok_iff {e : String} {rs : List Requirement} :
    parse e = .ok rs ↔ ∃ ts, terms e.toList = .ok ts ∧ ts.mapM parseTerm = .ok rs := by
  rw [parse]
  cases terms e.toList with
  | ok ts => simp
  | error i => cases i <;> simp

theorem closes_of_terms {s : List Char} {ts : List (List Char)} (h : terms s = .ok ts) :
    Balanced s := by
  obtain ⟨ps, hps, -⟩ := map_eq_ok_iff.mp h
  exact exists_pieces_iff.mp ⟨ps, hps⟩

theorem terms_append_comma {s : List Char} (h : Balanced s) :
    ∃ ts, terms s = .ok ts ∧ ∀ t, terms (s ++ ',' :: t) = (terms t).map (ts ++ ·) := by
  obtain ⟨ps, hps⟩ := exists_pieces_iff.mpr h
  refine ⟨_, by rw [terms, hps]; rfl, fun t => ?_⟩
  rw [terms, terms, pieces_append_comma hps]
  cases pieces 0 t <;> simp [Except.map]

theorem mapM_append_eq_ok_iff {ε α β : Type} {f : α → Except ε β} {xs ys : List α} {zs : List β} :
    (xs ++ ys).mapM f = .ok zs ↔
      ∃ us vs, xs.mapM f = .ok us ∧ ys.mapM f = .ok vs ∧ zs = us ++ vs := by
  rw [List.mapM_append]
  simp only [bind_eq_ok_iff]
  constructor
  · rintro ⟨us, hus, vs, hvs, h⟩
    exact ⟨us, vs, hus, hvs, (Except.ok.inj h).symm⟩
  · rintro ⟨us, vs, hus, hvs, rfl⟩
    exact ⟨us, hus, vs, hvs, rfl⟩

/-- Two expressions with a comma between them. -/
def both (e₁ e₂ : String) : String := e₁ ++ "," ++ e₂

theorem parse_both_eq_ok_iff {e₁ e₂ : String} (h : Balanced e₁.toList) {rs : List Requirement} :
    parse (both e₁ e₂) = .ok rs ↔
      ∃ rs₁ rs₂, parse e₁ = .ok rs₁ ∧ parse e₂ = .ok rs₂ ∧ rs = rs₁ ++ rs₂ := by
  obtain ⟨ts, hts, hjoined⟩ := terms_append_comma h
  have htext : (both e₁ e₂).toList = e₁.toList ++ ',' :: e₂.toList := by simp [both]
  simp only [parse_eq_ok_iff, htext, hjoined, hts, map_eq_ok_iff]
  constructor
  · rintro ⟨_, ⟨us, hus, rfl⟩, hrs⟩
    obtain ⟨rs₁, rs₂, h₁, h₂, rfl⟩ := mapM_append_eq_ok_iff.mp hrs
    exact ⟨rs₁, rs₂, ⟨ts, rfl, h₁⟩, ⟨us, hus, h₂⟩, rfl⟩
  · rintro ⟨rs₁, rs₂, ⟨_, ⟨⟩, h₁⟩, ⟨us, hus, h₂⟩, rfl⟩
    exact ⟨ts ++ us, ⟨us, hus, rfl⟩, mapM_append_eq_ok_iff.mpr ⟨rs₁, rs₂, h₁, h₂, rfl⟩⟩

theorem balanced_of_parse {e : String} {rs : List Requirement} (h : parse e = .ok rs) :
    Balanced e.toList := by
  obtain ⟨ts, hts, -⟩ := parse_eq_ok_iff.mp h
  exact closes_of_terms hts

end Label

theorem holdAll_append (rs₁ rs₂ : List Requirement) (ls : Labels) :
    holdAll (rs₁ ++ rs₂) ls = (holdAll rs₁ ls && holdAll rs₂ ls) := List.all_append

namespace Query

/-- Whether a query can be answered for a document, and accepts it. -/
def selects (q : Query) (d : Document) : Bool :=
  match q.accepts d with
  | .ok accepted => accepted
  | .error _ => false

/-- The labels of a document that meets all other conditions of a query. -/
def labelsOf? (q : Query) (d : Document) : Except DocumentError (Option Labels) := do
  if !(← liftShape (fieldHolds q.kind d.kind)) then return none
  if !(← liftShape (fieldHolds q.name d.name)) then return none
  if !(← liftShape (fieldHolds q.namespaceName d.namespaceOf)) then return none
  return some (← liftShape d.labels)

theorem withLabel_eq_ok_iff {q r : Query} {e : String} :
    q.withLabel e = .ok r ↔ (∃ rs, Label.parse e = .ok rs) ∧ r = { q with label := some e } := by
  simp only [withLabel, bind_eq_ok_iff]
  constructor
  · rintro ⟨rs, hrs, h⟩
    exact ⟨⟨rs, hrs⟩, (Except.ok.inj h).symm⟩
  · rintro ⟨⟨rs, hrs⟩, rfl⟩
    exact ⟨rs, hrs, rfl⟩

theorem accepts_withLabel (q : Query) {e : String} {rs : List Requirement}
    (h : Label.parse e = .ok rs) (d : Document) :
    accepts { q with label := some e } d = (q.labelsOf? d).map fun ls => ls.any (holdAll rs) := by
  simp only [accepts, labelsOf?, requirements, h]
  cases liftShape (fieldHolds q.kind d.kind) with
  | error f => rfl
  | ok kind =>
    cases kind with
    | false => rfl
    | true =>
      cases liftShape (fieldHolds q.name d.name) with
      | error f => rfl
      | ok name =>
        cases name with
        | false => rfl
        | true =>
          cases liftShape (fieldHolds q.namespaceName d.namespaceOf) with
          | error f => rfl
          | ok ns =>
            cases ns with
            | false => rfl
            | true => cases liftShape d.labels <;> rfl

end Query

namespace Bundle

/-- A query selects the documents that it accepts, unless it cannot be answered for one of them. -/
theorem select_eq (b : Bundle) (q : Query) :
    b.select q = match b.documents.findSome? fun d => faultOf? (q.accepts d) with
      | some e => .error e
      | none => .ok (b.documents.filter q.selects) := by
  rw [select]
  induction b.documents with
  | nil => rfl
  | cons d ds ih =>
    rw [accepted, ih, List.findSome?_cons, List.filter_cons, Query.selects]
    generalize ds.findSome? (fun d => faultOf? (q.accepts d)) = fault
    cases q.accepts d with
    | error e => rfl
    | ok here => cases fault <;> cases here <;> rfl

end Bundle

namespace Label

theorem faultOf?_accepts (q : Query) {e : String} {rs : List Requirement} (h : parse e = .ok rs)
    (d : Document) :
    faultOf? (Query.accepts { q with label := some e } d) = faultOf? (q.labelsOf? d) := by
  rw [Query.accepts_withLabel q h]
  cases q.labelsOf? d <;> rfl

theorem selects_both (q : Query) {e₁ e₂ : String} {rs₁ rs₂ : List Requirement}
    (h₁ : parse e₁ = .ok rs₁) (h₂ : parse e₂ = .ok rs₂) (d : Document) :
    Query.selects { q with label := some (both e₁ e₂) } d =
      (Query.selects { q with label := some e₁ } d &&
        Query.selects { q with label := some e₂ } d) := by
  have hboth := (parse_both_eq_ok_iff (balanced_of_parse h₁)).mpr ⟨rs₁, rs₂, h₁, h₂, rfl⟩
  simp only [Query.selects, Query.accepts_withLabel q h₁, Query.accepts_withLabel q h₂,
    Query.accepts_withLabel q hboth]
  cases q.labelsOf? d with
  | error e => rfl
  | ok ls => cases ls <;> simp [Except.map, holdAll_append]

/-- A comma is a conjunction. Two expressions with a comma between them have the requirements of
both, and if the parentheses of the first are balanced, only expressions can be joined to one. A
query for both selects from every bundle what the two queries select, in the order of the bundle;
where one of them cannot be answered, none can. -/
theorem comma_conjunction (e₁ e₂ : String) :
    (∀ rs₁ rs₂, parse e₁ = .ok rs₁ → parse e₂ = .ok rs₂ →
      parse (e₁ ++ "," ++ e₂) = .ok (rs₁ ++ rs₂)) ∧
    (Balanced e₁.toList → ∀ rs, parse (e₁ ++ "," ++ e₂) = .ok rs →
      ∃ rs₁ rs₂, parse e₁ = .ok rs₁ ∧ parse e₂ = .ok rs₂ ∧ rs = rs₁ ++ rs₂) ∧
    ∀ q q₁ q₂ : Query, q.withLabel e₁ = .ok q₁ → q.withLabel e₂ = .ok q₂ →
      ∃ q₁₂, q.withLabel (e₁ ++ "," ++ e₂) = .ok q₁₂ ∧ ∀ b : Bundle,
        (∃ e, b.select q₁ = .error e ∧ b.select q₂ = .error e ∧ b.select q₁₂ = .error e) ∨
        (b.select q₁ = .ok (b.documents.filter q₁.selects) ∧
          b.select q₂ = .ok (b.documents.filter q₂.selects) ∧
          b.select q₁₂ = .ok (b.documents.filter fun d => q₁.selects d && q₂.selects d)) := by
  refine ⟨fun rs₁ rs₂ h₁ h₂ => ?_, fun hbal rs h => ?_, fun q q₁ q₂ hq₁ hq₂ => ?_⟩
  · exact (parse_both_eq_ok_iff (balanced_of_parse h₁)).mpr ⟨rs₁, rs₂, h₁, h₂, rfl⟩
  · exact (parse_both_eq_ok_iff hbal).mp h
  · obtain ⟨⟨rs₁, h₁⟩, rfl⟩ := Query.withLabel_eq_ok_iff.mp hq₁
    obtain ⟨⟨rs₂, h₂⟩, rfl⟩ := Query.withLabel_eq_ok_iff.mp hq₂
    have h₁₂ := (parse_both_eq_ok_iff (balanced_of_parse h₁)).mpr ⟨rs₁, rs₂, h₁, h₂, rfl⟩
    refine ⟨_, Query.withLabel_eq_ok_iff.mpr ⟨⟨_, h₁₂⟩, rfl⟩, fun b => ?_⟩
    have hselects := selects_both q h₁ h₂
    rw [both] at h₁₂ hselects
    -- which documents cannot be read does not depend on the expression
    simp only [Bundle.select_eq, faultOf?_accepts q h₁, faultOf?_accepts q h₂,
      faultOf?_accepts q h₁₂, ← hselects]
    cases b.documents.findSome? fun d => faultOf? (q.labelsOf? d) with
    | some e => exact .inl ⟨e, rfl, rfl, rfl⟩
    | none => exact .inr ⟨rfl, rfl, rfl⟩

end Label

namespace Sample

/-- A document with labels and nothing else. -/
def labelled (ls : Labels) : Document :=
  ⟨.map [(.str "metadata", .map [(.str "labels", .map (ls.map fun (k, v) => (.str k, .str v)))])],
    none⟩

/-- Two documents of one rack and one of another, one of them a spare. -/
def racks : Bundle :=
  ⟨[labelled [("rack", "r1")], labelled [("rack", "r2"), ("spare", "")], labelled [("rack", "r1")]]⟩

end Sample

open Sample in
theorem Label.comma_conjunction_of_racks :
    Balanced "rack in (r1,r2)".toList ∧
      parse "rack in (r1,r2),!spare" = .ok [⟨"rack", .within ["r1", "r2"]⟩, ⟨"spare", .absent⟩] ∧
      (∃ rs₁ rs₂, parse "rack in (r1,r2)" = .ok rs₁ ∧ parse "!spare" = .ok rs₂) ∧
      ∃ q₁ q₂ q₁₂, Query.all.withLabel "rack in (r1,r2)" = .ok q₁ ∧
        Query.all.withLabel "!spare" = .ok q₂ ∧
        Query.all.withLabel "rack in (r1,r2),!spare" = .ok q₁₂ ∧
        racks.select q₁₂ = .ok [labelled [("rack", "r1")], labelled [("rack", "r1")]] := by
  obtain ⟨hjoin, hsplit, hselect⟩ := comma_conjunction "rack in (r1,r2)" "!spare"
  have h₁ : parse "rack in (r1,r2)" = .ok [⟨"rack", .within ["r1", "r2"]⟩] := rfl
  have h₂ : parse "!spare" = .ok [⟨"spare", .absent⟩] := rfl
  have hbalanced := balanced_of_parse h₁
  have h₁₂ := hjoin _ _ h₁ h₂
  obtain ⟨rs₁, rs₂, hrs₁, hrs₂, -⟩ := hsplit hbalanced _ h₁₂
  obtain ⟨q₁₂, hq₁₂, hb⟩ := hselect Query.all _ _ rfl rfl
  refine ⟨hbalanced, h₁₂, ⟨rs₁, rs₂, hrs₁, hrs₂⟩, _, _, q₁₂, rfl, rfl, hq₁₂, ?_⟩
  rcases hb racks with ⟨e, he, -⟩ | ⟨-, -, h⟩
  · cases he
  · rw [h]
    rfl

end OutOfBand
