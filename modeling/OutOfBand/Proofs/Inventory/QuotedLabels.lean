import OutOfBand.Proofs.Inventory.Selection
import OutOfBand.Proofs.Label.Keys
import OutOfBand.Proofs.Yaml.Mappings
import OutOfBand.Proofs.Yaml.Unquoted
import OutOfBand.Proofs.Yaml.Words

namespace OutOfBand

open Yaml (Node Place IsWordText build plainType scalarOf ReadsBack NeedsNoQuotes)

/-- Values with one text. -/
def LabelText (_ v w : Value) : Prop := v.text = w.text

/-- Equal values, or labels with the same texts. -/
def LabelField (key v w : Value) : Prop :=
  v = w ∨ key = .str "labels" ∧ v.Matching LabelText w

/-- Equal values, or metadata whose labels have the same texts. -/
def LabelledField (key v w : Value) : Prop :=
  v = w ∨ key = .str "metadata" ∧ v.Matching LabelField w

theorem lenient_labelText : Lenient LabelText := fun _ _ _ _ _ h => h

theorem lenient_labelField : Lenient LabelField := by
  rintro k k' v w halike (rfl | ⟨rfl, h⟩)
  · exact .inl rfl
  · exact .inr ⟨Value.str_alike_iff.mp halike, h⟩

theorem lenient_labelledField : Lenient LabelledField := by
  rintro k k' v w halike (rfl | ⟨rfl, h⟩)
  · exact .inl rfl
  · exact .inr ⟨Value.str_alike_iff.mp halike, h⟩

/-- Documents that differ in the values behind the texts of their labels, and in nothing else. -/
def Document.SameButSpelling (d e : Document) : Prop := d.raw.Matching LabelledField e.raw

theorem LabelField.eq {key : String} (hkey : key ≠ "labels") {v w : Value}
    (h : LabelField (.str key) v w) : v = w := by simpa [LabelField, hkey] using h

theorem LabelField.labels {v w : Value} (h : LabelField (.str "labels") v w) :
    v.Matching LabelText w := by
  rcases h with rfl | ⟨-, h⟩
  · exact .same v
  · exact h

theorem LabelledField.eq {key : String} (hkey : key ≠ "metadata") {v w : Value}
    (h : LabelledField (.str key) v w) : v = w := by simpa [LabelledField, hkey] using h

theorem LabelledField.metadata {v w : Value} (h : LabelledField (.str "metadata") v w) :
    v.Matching LabelField w := by
  rcases h with rfl | ⟨-, h⟩
  · exact .same v
  · exact h

/-- The labels that entries make, after others. -/
def Document.labelsAfter (ls : Labels) (es : Entries) : Labels :=
  es.foldl (fun ls (k, v) => putLabel ls k.text v.text) ls

theorem Document.labelsAfter_eq {es fs : Entries}
    (h : List.Forall₂ (EntryRel LabelText) es fs) (ls : Labels) :
    labelsAfter ls es = labelsAfter ls fs := by
  induction h generalizing ls with
  | nil => rfl
  | @cons e f es fs hef _ ih =>
    obtain ⟨hkey, htext⟩ := hef
    rw [labelsAfter, labelsAfter, List.foldl_cons, List.foldl_cons, ← labelsAfter, ← labelsAfter,
      ih]
    simp only [hkey, show e.2.text = f.2.text from htext]

section Labels

theorem find?_cons (k v : String) (ls : Labels) (x : String) :
    Labels.find? ((k, v) :: ls) x = if k = x then some v else ls.find? x := by
  by_cases h : k = x <;> simp [Labels.find?, h]

theorem find?_putLabel (ls : Labels) (k v x : String) :
    (Document.putLabel ls k v).find? x = if k = x then some v else ls.find? x := by
  induction ls with
  | nil => exact find?_cons k v [] x
  | cons l ls ih =>
    obtain ⟨k', v'⟩ := l
    rw [Document.putLabel]
    by_cases hk : k = k'
    · subst hk
      rw [if_pos rfl, find?_cons, find?_cons]
      split <;> rfl
    · rw [if_neg hk, find?_cons, find?_cons, ih]
      split
      next hk' => simp [hk'.symm ▸ hk]
      next => rfl

theorem find?_labelsAfter {es : Entries} {x t : String}
    (hall : ∀ e ∈ es, e.1.text = x → e.2.text = t) {ls : Labels}
    (h : ls.find? x = some t ∨ ∃ e ∈ es, e.1.text = x) :
    (Document.labelsAfter ls es).find? x = some t := by
  induction es generalizing ls with
  | nil => simpa [Document.labelsAfter] using h
  | cons e es ih =>
    obtain ⟨k, v⟩ := e
    obtain ⟨hhere, hrest⟩ := List.forall_mem_cons.mp hall
    refine ih hrest ?_
    by_cases hk : k.text = x
    · exact .inl (by rw [find?_putLabel, if_pos hk, hhere hk])
    · rcases h with h | ⟨e, he, hkey⟩
      · exact .inl (by rw [find?_putLabel, if_neg hk, h])
      · rcases List.mem_cons.mp he with rfl | he
        · exact absurd hkey hk
        · exact .inr ⟨e, he, hkey⟩

end Labels

namespace Document.SameButSpelling

variable {d e : Document}

theorem kind (h : d.SameButSpelling e) : d.kind = e.kind := by
  have hmember := Value.Matching.member (fun _ _ => .inl rfl) h "kind"
  rw [Document.kind, Document.kind]
  generalize d.raw.member "kind" = x at hmember ⊢
  generalize e.raw.member "kind" = y at hmember ⊢
  cases hmember with
  | error f => rfl
  | ok hrel =>
    cases hrel with
    | none => rfl
    | some hvw => rw [hvw.eq (by decide)]

theorem metadata (h : d.SameButSpelling e) :
    Agree (Value.Matching LabelField) d.metadata e.metadata := by
  have hmember := Value.Matching.member (fun _ _ => .inl rfl) h "metadata"
  rw [Document.metadata, Document.metadata]
  generalize d.raw.member "metadata" = x at hmember ⊢
  generalize e.raw.member "metadata" = y at hmember ⊢
  cases hmember with
  | error f => exact .error f
  | ok hrel => exact .ok (orElse_matching LabelledField.metadata hrel _)

theorem member_metadata (h : d.SameButSpelling e) (key : String) :
    Agree (Option.Rel (LabelField (.str key))) (d.metadata >>= (·.member key))
      (e.metadata >>= (·.member key)) :=
  h.metadata.bind fun _ _ hvw => hvw.member (fun _ _ => .inl rfl) key

theorem metadataField (h : d.SameButSpelling e) {key : String} (hkey : key ≠ "labels")
    (other : Value) : d.metadataField key other = e.metadataField key other := by
  have hmember := h.member_metadata key
  rw [Document.metadataField, Document.metadataField, ← bind_assoc, ← bind_assoc]
  generalize d.metadata >>= (·.member key) = x at hmember ⊢
  generalize e.metadata >>= (·.member key) = y at hmember ⊢
  cases hmember with
  | error f => rfl
  | ok hrel =>
    cases hrel with
    | none => rfl
    | some hvw => rw [hvw.eq hkey]

theorem metadataField_labels (h : d.SameButSpelling e) (other : Value) :
    Agree (Value.Matching LabelText) (d.metadataField "labels" other)
      (e.metadataField "labels" other) := by
  rw [Document.metadataField, Document.metadataField, ← bind_assoc, ← bind_assoc]
  exact (h.member_metadata "labels").bind fun _ _ hrel =>
    .ok (orElse_matching LabelField.labels hrel other)

theorem labels (h : d.SameButSpelling e) : d.labels = e.labels := by
  have hfield := h.metadataField_labels (.map [])
  rw [Document.labels, Document.labels]
  generalize d.metadataField "labels" (.map []) = x at hfield ⊢
  generalize e.metadataField "labels" (.map []) = y at hfield ⊢
  cases hfield with
  | error f => rfl
  | ok hlabels =>
    cases hlabels with
    | same => rfl
    | map hes => exact congrArg Except.ok (labelsAfter_eq hes [])

theorem isHost (h : d.SameButSpelling e) : d.isHost = e.isHost := by
  rw [Document.isHost, Document.isHost, h.kind]

theorem accepts (h : d.SameButSpelling e) (q : Query) : q.accepts d = q.accepts e := by
  have hname : d.name = e.name := h.metadataField (by decide) _
  have hnamespace : d.namespaceOf = e.namespaceOf := h.metadataField (by decide) _
  simp only [Query.accepts, h.kind, hname, hnamespace, h.labels]

end Document.SameButSpelling

/-- Bundles of such documents. -/
def Bundle.SameButSpelling (b c : Bundle) : Prop :=
  List.Forall₂ Document.SameButSpelling b.documents c.documents

section Texts

variable {t u : String} {n m : Node}

theorem loadAll_of_ofText (h : Node.ofText t = ([n], none)) :
    Yaml.reader.all t = n.toValue.map ([·]) := by
  simp only [Yaml.reader, Yaml.loadAll, h, List.mapM_cons, List.mapM_nil]
  cases n.toValue <;> rfl

theorem Bundle.ofText_agree (ht : Node.ofText t = ([n], none)) (hu : Node.ofText u = ([m], none))
    (h : Agree (Value.Matching LabelledField) n.toValue m.toValue) :
    Agree Bundle.SameButSpelling (Bundle.ofText t) (Bundle.ofText u) := by
  rw [Bundle.ofText, Bundle.ofText, Bundle.ofTextBy, Bundle.ofTextBy, Bundle.readText, Bundle.readText,
    loadAll_of_ofText ht, loadAll_of_ofText hu]
  generalize n.toValue = x at h ⊢
  generalize m.toValue = y at h ⊢
  cases h with
  | error f => cases f <;> exact .error _
  | @ok v w hvw =>
    have hkind : v.get? "kind" = w.get? "kind" := by
      have hget := hvw.get? (fun _ _ => .inl rfl) "kind"
      generalize v.get? "kind" = o at hget ⊢
      generalize w.get? "kind" = o' at hget ⊢
      cases hget with
      | none => rfl
      | some h => rw [h.eq (by decide)]
    refine .ok ?_
    simp only [Bundle.SameButSpelling, Document.ofValues, List.filter_cons, hkind]
    split
    · exact .cons hvw .nil
    · exact .nil

end Texts

/-- The place of a label in a document. -/
structure LabelPlace (key : Value) where
  metadata : Place (.str "metadata")
  labels : Place (.str "labels")
  label : Place key

namespace LabelPlace

variable {key : Value}

/-- The document with a value for the label. -/
def fill (p : LabelPlace key) (n : Node) : Node := p.metadata.fill (p.labels.fill (p.label.fill n))

/-- What is written at the place is what the document has as its label. -/
structure InForce (p : LabelPlace key) : Prop where
  metadata : p.metadata.IsLast
  labels : p.labels.IsLast
  label : p.label.IsSole

theorem exists_fuel (p : LabelPlace key) {x y : Node} (h : x.depth = y.depth) : ∃ fuel,
    3 * (p.fill x).depth + 3 = fuel + 10 ∧ 3 * (p.fill y).depth + 3 = fuel + 10 := by
  obtain ⟨m, hm⟩ := p.metadata.exists_depth_fill
  obtain ⟨m', hm'⟩ := p.labels.exists_depth_fill
  obtain ⟨m'', hm''⟩ := p.label.exists_depth_fill
  have hdepth : (p.fill x).depth = (p.fill y).depth := by
    simp only [fill, hm, hm', hm'', h]
  have hle : 3 ≤ (p.fill y).depth := by
    simp only [fill, hm, hm', hm'']
    omega
  exact ⟨3 * (p.fill y).depth - 7, by omega, by omega⟩

theorem toValue_agree (p : LabelPlace key) {x y : Node} (hdepth : x.depth = y.depth)
    (h : ∀ fuel depth,
      Agree (LabelText key) (build (fuel + 1) depth x) (build (fuel + 1) depth y)) :
    Agree (Value.Matching LabelledField) (p.fill x).toValue (p.fill y).toValue := by
  obtain ⟨fuel, hx, hy⟩ := p.exists_fuel hdepth
  have hlabel := p.label.build_fill_agree (R := LabelText) (fun _ _ => rfl) lenient_labelText
    (h fuel 3)
  have hlabels := p.labels.build_fill_agree (R := LabelField) (fun _ _ => .inl rfl)
    lenient_labelField (hlabel.mono fun _ _ h => .inr ⟨rfl, h⟩)
  have hroot := p.metadata.build_fill_agree (R := LabelledField) (fun _ _ => .inl rfl)
    lenient_labelledField (hlabels.mono fun _ _ h => .inr ⟨rfl, h⟩)
  rw [Node.toValue, Node.toValue, hx, hy]
  change Agree _ (build (fuel + 10) 0 (p.fill x)) (build (fuel + 10) 0 (p.fill y)) at hroot
  generalize build (fuel + 10) 0 (p.fill x) = v at hroot ⊢
  generalize build (fuel + 10) 0 (p.fill y) = w at hroot ⊢
  cases hroot with
  | ok hvw => exact .ok hvw
  | error f => exact .error f.fault

theorem label_of_toValue {p : LabelPlace key} (hp : p.InForce) {n : Node} {raw : Value}
    (h : (p.fill n).toValue = .ok raw) : ∃ fuel depth w, build (fuel + 1) depth n = .ok w ∧
      ∀ source, ∃ ls, Document.labels ⟨raw, source⟩ = .ok ls ∧
        ls.find? key.text = some w.text := by
  obtain ⟨fuel, hfuel, -⟩ := p.exists_fuel (x := n) rfl
  rw [Node.toValue, hfuel] at h
  split at h
  next v hroot =>
    cases h
    obtain ⟨es, m, rfl, hmetadata, hes⟩ := Place.get?_of_build_fill hp.metadata hroot
    obtain ⟨ms, l, rfl, hlabels, hms⟩ := Place.get?_of_build_fill hp.labels hmetadata
    obtain ⟨ls, w, rfl, hw, hmem, honly⟩ := Place.mem_of_build_fill hp.label hlabels
    refine ⟨_, _, w, hw, fun source => ⟨Document.labelsAfter [] ls, ?_, ?_⟩⟩
    · have hraw : Document.metadata ⟨.map es, source⟩ = .ok (.map ms) := by
        rw [Document.metadata, Value.member, hes]
        exact congrArg Except.ok (orElse_map ms)
      have hfield : Document.metadataField ⟨.map es, source⟩ "labels" (.map []) =
          .ok (.map ls) := by
        rw [Document.metadataField, hraw]
        change Except.ok (orElse (Entries.get? ms "labels") (.map [])) = _
        rw [hms, orElse_map]
      rw [Document.labels, hfield]
      rfl
    · exact find?_labelsAfter (fun e he htext => by rw [honly e he htext])
        (.inr ⟨(key, w), hmem, rfl⟩)
  next => cases h

end LabelPlace

section Scalars

theorem build_plain (v : String) (fuel depth : Nat) :
    build (fuel + 1) depth (.scalar none v true) =
      Yaml.liftAt depth (scalarOf (plainType v) v) := by
  have hscalar : Yaml.isCollectionType (plainType v) = false := by
    have hnames : ∀ type ∈ ["null", "bool", "float", "int", "timestamp", "merge", "value", "yaml",
        "str"], Yaml.isCollectionType type = false := by decide
    exact hnames _ (Yaml.plainType_mem v)
  simp [build, Node.fullTag, Yaml.coreType?_coreTag, hscalar, Node.scalarText?]

theorem build_quoted (v : String) (fuel depth : Nat) :
    build (fuel + 1) depth (.scalar none v false) = .ok (.str v) := by
  have hscalar : Yaml.isCollectionType "str" = false := by decide
  simp [build, Node.fullTag, Yaml.coreType?_coreTag, hscalar, Node.scalarText?, scalarOf,
    Yaml.liftAt]

theorem build_agree_of_readsBack {v : String} (h : ReadsBack v) (key : Value) (fuel depth : Nat) :
    Agree (LabelText key) (build (fuel + 1) depth (.scalar none v true))
      (build (fuel + 1) depth (.scalar none v false)) := by
  obtain ⟨w, hw, htext⟩ := h
  rw [build_plain, build_quoted, hw]
  exact .ok htext

end Scalars

section Selecting

variable {d e : Document} {k v expression t u : String}

/-- Letters, digits and the four marks mean nothing in an expression. -/
theorem plain_of_isWordText {w : List Char} (hw : IsWordText w) {c : Char} (hc : c ∈ w) :
    isBlank c = false ∧ c ∉ ['!', '=', ',', '(', ')'] :=
  hw.forall (p := fun c => isBlank c = false ∧ c ∉ ['!', '=', ',', '(', ')']) (by decide +kernel) hc

theorem isWordText_of_isLabelValue (hv : IsLabelValue v) : IsWordText v.toList :=
  fun c hc => (hv.chars c hc).imp_right (List.mem_append_left ['/'])

theorem isValueText_of_isLabelValue (h : IsLabelValue v) : IsValueText v where
  trimmed := trimmed_of_forall fun _ hc => (plain_of_isWordText (isWordText_of_isLabelValue h) hc).1
  plain _ hc hmem := (plain_of_isWordText (isWordText_of_isLabelValue h) hc).2
    (List.mem_cons_of_mem _ (List.mem_cons_of_mem _ hmem))

theorem parse_equal (hk : IsKeyText k) (hv : IsLabelValue v) :
    Label.parse (k ++ "=" ++ v) = .ok [⟨k, .equal v⟩] := by
  have hnot {c : Char} (hc : c ∈ ['!', '=', ',', '(', ')']) : c ∉ v.toList := fun hmem =>
    (plain_of_isWordText (isWordText_of_isLabelValue hv) hmem).2 hc
  have hwritable : Requirement.Writable ⟨k, .equal v⟩ :=
    ⟨hk, List.forall_mem_singleton.mpr (isValueText_of_isLabelValue hv),
      fun h => hnot (by decide) (h.subset List.mem_cons_self)⟩
  have hcompares : Label.Compares ['='] k v (k.toList ++ '=' :: v.toList) :=
    ⟨[], [], blanks_nil, blanks_nil, by simp⟩
  have hwrites : Label.Writes ⟨k, .equal v⟩ (k.toList ++ '=' :: v.toList) :=
    .equal hcompares (fun h => hnot (by decide) (List.mem_of_head? h))
      fun h => hnot (by decide) (h.subset List.mem_cons_self)
  have htext : k ++ "=" ++ v = String.ofList (k.toList ++ '=' :: v.toList) := by
    simp [← String.toList_inj]
  rw [htext]
  exact Label.parse_of_writes hwritable hwrites

theorem documents_byLabel_iff : (HostSelector.byLabel expression).documents ⟨[d]⟩ = .ok [d] ↔
    ∃ q, (HostSelector.byLabel expression).query = .ok q ∧ q.accepts d = .ok true := by
  simp only [HostSelector.documents, HostSelector.query]
  cases hq : (Query.ofKind baremetalHostKind).withLabel expression with
  | error f => exact iff_of_false (by rintro ⟨⟩) (by rintro ⟨q, h, -⟩; cases h)
  | ok q =>
    simp only [Bundle.select, Bundle.accepted]
    cases ha : q.accepts d with
    | error f =>
      exact iff_of_false (by rintro ⟨⟩) (by rintro ⟨q', h, hq'⟩; cases h; simp [ha] at hq')
    | ok accepted =>
      cases accepted with
      | false =>
        exact iff_of_false (by rintro ⟨⟩) (by rintro ⟨q', h, hq'⟩; cases h; simp [ha] at hq')
      | true => exact iff_of_true rfl ⟨q, rfl, ha⟩

/-- A document with labels is selected by one of them if it is a host that has it. -/
theorem documents_byLabel_equal_iff (hk : IsKeyText k) (hv : IsLabelValue v) {ls : Labels}
    (hls : d.labels = .ok ls) :
    (HostSelector.byLabel (k ++ "=" ++ v)).documents ⟨[d]⟩ = .ok [d] ↔
      d.isHost = true ∧ ls.find? k = some v := by
  have hparse := parse_equal hk hv
  have hquery : (HostSelector.byLabel (k ++ "=" ++ v)).query =
      .ok { Query.ofKind baremetalHostKind with label := some (k ++ "=" ++ v) } :=
    Query.withLabel_eq_ok_iff.mpr ⟨⟨_, hparse⟩, rfl⟩
  -- a document that has labels has a name and a kind, so the query gets as far as its labels
  obtain ⟨n, hname⟩ := Document.name_of_labels hls
  obtain ⟨kind, hkind⟩ := Document.kind_of_name hname
  simp only [documents_byLabel_iff, hquery, Except.ok.injEq, exists_eq_left']
  rw [Query.accepts_host rfl rfl, hkind, hls]
  simp only [Query.requirements, hparse]
  cases d.isHost with
  | false => exact iff_of_false (by rintro ⟨⟩) (by rintro ⟨⟨⟩, -⟩)
  | true =>
    change Except.ok (holdAll [⟨k, .equal v⟩] ls) = .ok true ↔ _
    simp [holdAll, Requirement.holds, Condition.holds]

/-- Documents that every query treats alike. -/
def Document.SameSelection (d e : Document) : Prop := ∀ q : Query, q.accepts d = q.accepts e

/-- Texts that are refused alike, or read as documents that every query treats alike. -/
def SelectedAlike (t u : String) : Prop :=
  Agree (fun b c : Bundle => List.Forall₂ Document.SameSelection b.documents c.documents)
    (Bundle.ofText t) (Bundle.ofText u)

/-- A text that is read as one document, which an expression selects. -/
def IsSelectedBy (t expression : String) : Prop :=
  ∃ d, Bundle.ofText t = .ok ⟨[d]⟩ ∧ (HostSelector.byLabel expression).documents ⟨[d]⟩ = .ok [d]

/-- A text that is read as one host. -/
def HoldsHost (t : String) : Prop := ∃ d : Document, d.isHost = true ∧ Bundle.ofText t = .ok ⟨[d]⟩

theorem SelectedAlike.isSelectedBy (h : SelectedAlike t u) (hu : IsSelectedBy u expression) :
    IsSelectedBy t expression := by
  obtain ⟨d, hd, hselected⟩ := hu
  rw [SelectedAlike, hd] at h
  rw [IsSelectedBy]
  generalize Bundle.ofText t = x at h ⊢
  cases h with
  | @ok b _ hbd =>
    obtain ⟨ds⟩ := b
    obtain ⟨e, _, hed, hnil, rfl⟩ := List.forall₂_cons_right_iff.mp hbd
    obtain rfl := List.forall₂_nil_right_iff.mp hnil
    obtain ⟨q, hq, haccepts⟩ := documents_byLabel_iff.mp hselected
    exact ⟨e, rfl, documents_byLabel_iff.mpr ⟨q, hq, (hed q).trans haccepts⟩⟩

end Selecting

section Quotes

variable {key : Value} {v t u : String}

/-- A document with a plain label, by its text. -/
def LabelPlace.IsWrittenPlain (p : LabelPlace key) (v t : String) : Prop :=
  Node.ofText t = ([p.fill (.scalar none v true)], none)

/-- A document with a label in quotes, by its text. -/
def LabelPlace.IsWrittenQuoted (p : LabelPlace key) (v t : String) : Prop :=
  Node.ofText t = ([p.fill (.scalar none v false)], none)

theorem toValue_of_ofText {n : Node} {d : Document} (h : Node.ofText t = ([n], none))
    (hd : Bundle.ofText t = .ok ⟨[d]⟩) : n.toValue = .ok d.raw := by
  rw [Bundle.ofText, Bundle.ofTextBy, Bundle.readText, loadAll_of_ofText h] at hd
  cases hn : n.toValue with
  | error f => cases f <;> simp [hn, Except.map] at hd
  | ok v =>
    rw [hn] at hd
    have hdocuments : Document.ofValues none [v] = [d] := by simpa [Except.map] using hd
    rw [Document.ofValues, List.filter_cons] at hdocuments
    split at hdocuments <;> simp at hdocuments
    rw [← hdocuments]

namespace LabelPlace

variable {p : LabelPlace key}

theorem ofText_agree_of_readsBack (h : ReadsBack v) (ht : p.IsWrittenPlain v t)
    (hu : p.IsWrittenQuoted v u) :
    Agree Bundle.SameButSpelling (Bundle.ofText t) (Bundle.ofText u) :=
  Bundle.ofText_agree ht hu (p.toValue_agree rfl (build_agree_of_readsBack h key))

/-- In quotes a label has the text that is written. -/
theorem labels_of_quoted (hp : p.InForce) (hu : p.IsWrittenQuoted v u) {d : Document}
    (hd : Bundle.ofText u = .ok ⟨[d]⟩) :
    ∃ ls, d.labels = .ok ls ∧ ls.find? key.text = some v := by
  obtain ⟨fuel, depth, w, hw, hlabels⟩ := label_of_toValue hp (toValue_of_ofText hu hd)
  rw [build_quoted] at hw
  cases hw
  exact hlabels d.source

/-- Without quotes it has the text of the value that it looks like. -/
theorem labels_of_plain (hp : p.InForce) (ht : p.IsWrittenPlain v t) {d : Document}
    (hd : Bundle.ofText t = .ok ⟨[d]⟩) :
    ∃ w ls, scalarOf (plainType v) v = .ok w ∧ d.labels = .ok ls ∧
      ls.find? key.text = some w.text := by
  obtain ⟨fuel, depth, w, hw, hlabels⟩ := label_of_toValue hp (toValue_of_ofText ht hd)
  rw [build_plain, Yaml.liftAt_eq_ok_iff] at hw
  obtain ⟨ls, hls⟩ := hlabels d.source
  exact ⟨w, ls, hw, hls⟩

theorem selectedAlike_of_needsNoQuotes (hv : IsLabelValue v) (h : NeedsNoQuotes v)
    (ht : p.IsWrittenPlain v t) (hu : p.IsWrittenQuoted v u) : SelectedAlike t u :=
  (ofText_agree_of_readsBack ((Yaml.readsBack_iff hv).mpr h) ht hu).mono fun _ _ hbc =>
    hbc.imp fun _ _ hde => hde.accepts

theorem isSelectedBy_quoted (hp : p.InForce) (hk : IsKeyText key.text) (hv : IsLabelValue v)
    (hu : p.IsWrittenQuoted v u) (hhost : HoldsHost u) :
    IsSelectedBy u (key.text ++ "=" ++ v) := by
  obtain ⟨d, hhost, hd⟩ := hhost
  obtain ⟨ls, hls, hfind⟩ := labels_of_quoted hp hu hd
  exact ⟨d, hd, (documents_byLabel_equal_iff hk hv hls).mpr ⟨hhost, hfind⟩⟩

theorem needsNoQuotes_of_isSelectedBy (hp : p.InForce) (hk : IsKeyText key.text)
    (hv : IsLabelValue v) (ht : p.IsWrittenPlain v t)
    (h : IsSelectedBy t (key.text ++ "=" ++ v)) : NeedsNoQuotes v := by
  obtain ⟨e, he, hselected⟩ := h
  obtain ⟨w, ls, hw, hls, hfind⟩ := labels_of_plain hp ht he
  rw [documents_byLabel_equal_iff hk hv hls, hfind] at hselected
  exact (Yaml.readsBack_iff hv).mp ⟨w, hw, Option.some.inj hselected.2⟩

theorem selectedAlike_iff (hp : p.InForce) (hk : IsKeyText key.text) (hv : IsLabelValue v)
    (ht : p.IsWrittenPlain v t) (hu : p.IsWrittenQuoted v u) (hhost : HoldsHost u) :
    SelectedAlike t u ↔ NeedsNoQuotes v :=
  ⟨fun h => needsNoQuotes_of_isSelectedBy hp hk hv ht
    (h.isSelectedBy (isSelectedBy_quoted hp hk hv hu hhost)),
    fun h => selectedAlike_of_needsNoQuotes hv h ht hu⟩

theorem isSelectedBy_plain_iff (hp : p.InForce) (hk : IsKeyText key.text) (hv : IsLabelValue v)
    (ht : p.IsWrittenPlain v t) (hu : p.IsWrittenQuoted v u) (hhost : HoldsHost u) :
    IsSelectedBy t (key.text ++ "=" ++ v) ↔ NeedsNoQuotes v :=
  ⟨needsNoQuotes_of_isSelectedBy hp hk hv ht, fun h =>
    (selectedAlike_of_needsNoQuotes hv h ht hu).isSelectedBy
      (isSelectedBy_quoted hp hk hv hu hhost)⟩

end LabelPlace

end Quotes

end OutOfBand
