import OutOfBand.Proofs.Inventory.Credentials
import OutOfBand.Proofs.Inventory.Listing
import OutOfBand.Proofs.Yaml.Exactly
import OutOfBand.Proofs.Label.Conjunction
import OutOfBand.Proofs.Report.Logging

namespace OutOfBand

theorem Value.sorted?_texts (ns : List String) :
    sorted? (ns.map .str) = some ((ns.mergeSort fun a b => a ≤ b).map .str) := by
  match ns with
  | [] => simp [sorted?]
  | [n] => simp [sorted?]
  | n :: n' :: ns =>
    have hcomparable : ((n' :: ns).map .str).all (Value.str n).isComparable = true := by
      simp [isComparable, before?]
    rw [List.map_mergeSort (s := fun a b => before? b a ≠ some true)]
    · exact if_pos hcomparable
    · intro a _ b _
      simp [before?, -String.lt_iff_ltb]

namespace Document

/-- A document of the kind of phases. -/
def isPhase (d : Document) : Bool :=
  match d.kind with
  | .ok (.str kind) => kind = phaseKind
  | _ => false

theorem isPhase_of_kind {d : Document} {v : Value} (h : d.kind = .ok v) :
    d.isPhase = (Value.str phaseKind).same v := by
  rw [Bool.eq_iff_iff, Value.same_str_iff, isPhase, h]
  cases v <;> simp

/-- What a document gives for the entry point of its phase. -/
def entry? (d : Document) : Option Value :=
  (d.get? "config.documentEntryPoint").filter Value.isGiven

/-- A document of a phase as it is meant to be: its name is a text, its labels can be read, and its
entry point, if it gives one, is a text. -/
structure RegularPhase (d : Document) : Prop extends d.Regular where
  entry : ∀ v, d.entry? = some v → ∃ s, v = .str s

theorem labels_of_raw {d d' : Document} (h : d.raw = d'.raw) : d.labels = d'.labels := by
  simp only [labels, metadataField, metadata, h]

theorem kind_of_hasKind {d : Document} (h : d.raw.HasKind) : ∃ k, d.kind = .ok k := by
  obtain ⟨es, k, hraw, -⟩ := h
  exact ⟨_, by rw [kind, hraw]; rfl⟩

end Document

namespace Bundle

variable {b : Bundle} {m : Machine} {root : Path}

theorem hasKind_of_ofPath (h : ofPath m root = .ok b) : ∀ d ∈ b.documents, d.raw.HasKind := by
  rw [ofPath] at h
  split at h
  next => cases h
  next t _ =>
    obtain ⟨dss, hread, hb⟩ := bind_eq_ok_iff.mp h
    cases hb
    intro d hd
    obtain ⟨ds, hds, hmem⟩ := List.mem_flatten.mp hd
    obtain ⟨f, -, hf⟩ := exists_of_mem_right (mapM_eq_ok_iff.mp hread) hds
    obtain ⟨text, b, -, hb, rfl⟩ := readFile_eq_ok_iff.mp hf
    obtain ⟨d', hd', rfl⟩ := List.mem_map.mp hmem
    obtain ⟨vs, -, hraws⟩ := documents_of_text hb
    have hraw : d'.raw ∈ vs.filter (·.HasKind) := hraws ▸ List.mem_map_of_mem hd'
    exact of_decide_eq_true (List.mem_filter.mp hraw).2

theorem select_of_accepts {q : Query} {f : Document → Bool}
    (h : ∀ d ∈ b.documents, q.accepts d = .ok (f d)) :
    b.select q = .ok (b.documents.filter f) := by
  have hfault : b.documents.findSome? (fun d => faultOf? (q.accepts d)) = none := by
    rw [List.findSome?_eq_none_iff]
    intro d hd
    rw [h d hd]
    rfl
  rw [select_eq, hfault]
  refine congrArg _ (List.filter_congr fun d hd => ?_)
  rw [Query.selects, h d hd]

end Bundle

namespace Document

variable {d : Document}

/-- Whether a document is of the phase of a name. -/
def isPhaseOf (name : String) (d : Document) : Bool := d.isPhase && d.hasName name

theorem accepts_phase {k : Value} (hk : d.kind = .ok k)
    (hlabels : d.isPhase = true → ∃ ls, d.labels = .ok ls) :
    (Query.ofKind phaseKind).accepts d = .ok d.isPhase := by
  have hkind : Query.fieldHolds (some (.str phaseKind)) d.kind = .ok d.isPhase := by
    rw [Query.fieldHolds_of_ok hk, isPhase_of_kind hk]
  cases hphase : d.isPhase with
  | false =>
    simp only [Query.accepts, Query.ofKind, hkind, hphase]
    rfl
  | true =>
    obtain ⟨ls, hls⟩ := hlabels hphase
    simp only [Query.accepts, Query.ofKind, hkind, hphase, hls]
    rfl

theorem accepts_phase_withName (name : String) {k : Value} (hk : d.kind = .ok k)
    (hname : d.isPhase = true → ∃ v, d.name = .ok v)
    (hlabels : d.isPhaseOf name = true → ∃ ls, d.labels = .ok ls) :
    ((Query.ofKind phaseKind).withName (.str name)).accepts d = .ok (d.isPhaseOf name) := by
  have hkind : Query.fieldHolds (some (.str phaseKind)) d.kind = .ok d.isPhase := by
    rw [Query.fieldHolds_of_ok hk, isPhase_of_kind hk]
  cases hphase : d.isPhase with
  | false =>
    simp only [Query.accepts, Query.ofKind, Query.withName, hkind, hphase, isPhaseOf]
    rfl
  | true =>
    obtain ⟨v, hv⟩ := hname hphase
    have hnamed : Query.fieldHolds (some (.str name)) d.name = .ok (d.hasName name) := by
      rw [Query.fieldHolds_of_ok hv, hasName_of_name name hv]
    cases hhas : d.hasName name with
    | false =>
      simp only [Query.accepts, Query.ofKind, Query.withName, hkind, hphase, hnamed, hhas,
        isPhaseOf]
      rfl
    | true =>
      obtain ⟨ls, hls⟩ := hlabels (by rw [isPhaseOf, hphase, hhas]; rfl)
      simp only [Query.accepts, Query.ofKind, Query.withName, hkind, hphase, hnamed, hhas,
        isPhaseOf, hls]
      rfl

end Document

namespace Phases

variable {b : Bundle}

/-- The documents of the phase of a name. -/
def documentsOf (b : Bundle) (name : String) : List Document :=
  b.documents.filter (·.isPhaseOf name)

theorem namesIn_eq (hkinds : ∀ d ∈ b.documents, d.raw.HasKind)
    (hregular : ∀ d ∈ b.documents, d.isPhase = true → d.Regular) :
    ∃ ms : List String, List.Forall₂ (fun d n => d.name = .ok (.str n))
        (b.documents.filter (·.isPhase)) ms ∧
      namesIn b = .ok ((ms.mergeSort fun a b => a ≤ b).map .str) := by
  have hselect : b.select (.ofKind phaseKind) = .ok (b.documents.filter (·.isPhase)) := by
    refine Bundle.select_of_accepts fun d hd => ?_
    obtain ⟨k, hk⟩ := Document.kind_of_hasKind (hkinds d hd)
    exact Document.accepts_phase hk fun h => (hregular d hd h).labels
  obtain ⟨ms, hms⟩ := exists_forall₂ (R := fun (d : Document) n => d.name = .ok (.str n))
    fun d hd => (hregular d (List.mem_of_mem_filter hd) (List.mem_filter.mp hd).2).name
  have hnames : (b.documents.filter (·.isPhase)).mapM Document.name = .ok (ms.map .str) :=
    mapM_eq_ok_iff.mpr (List.forall₂_map_right_iff.mpr hms)
  refine ⟨ms, hms, ?_⟩
  rw [namesIn, hselect]
  simp only [Except.mapError, bind, Except.bind, hnames, Query.liftShape, Value.sorted?_texts]

/-- What the documents of a phase say of its folder: there must be one of them. -/
def outcome (p : Phases) (name : String) : List Document → Except PhaseError Path
  | [] => .error (.notFound name)
  | [d] => (entryPoint name d).map p.rootOf
  | ds => .error (.document (.notUnique ((Query.ofKind phaseKind).withName (.str name)) ds.length))

theorem rootIn_eq (p : Phases) (name : String) (hkinds : ∀ d ∈ b.documents, d.raw.HasKind)
    (hnames : ∀ d ∈ b.documents, d.isPhase = true → ∃ v, d.name = .ok v)
    (hlabels : ∀ d ∈ documentsOf b name, ∃ ls, d.labels = .ok ls) :
    p.rootIn name b = p.outcome name (documentsOf b name) := by
  have hselect : b.select ((Query.ofKind phaseKind).withName (.str name)) =
      .ok (documentsOf b name) := by
    refine Bundle.select_of_accepts fun d hd => ?_
    obtain ⟨k, hk⟩ := Document.kind_of_hasKind (hkinds d hd)
    exact Document.accepts_phase_withName name hk (hnames d hd) fun h =>
      hlabels d (List.mem_filter.mpr ⟨hd, h⟩)
  rw [rootIn, documentOf, Bundle.selectOne, hselect]
  rcases documentsOf b name with _ | ⟨d, _ | ⟨d', ds⟩⟩
  · rfl
  · change entryPoint name d >>= _ = (entryPoint name d).map p.rootOf
    cases entryPoint name d <;> rfl
  · rfl

theorem outcome_of_perm (p : Phases) (name : String) {ds ds' : List Document}
    (h : (ds'.map (·.raw)).Perm (ds.map (·.raw))) : p.outcome name ds' = p.outcome name ds := by
  have hlength : ds'.length = ds.length := by simpa using h.length_eq
  match ds, ds', hlength with
  | [], [], _ => rfl
  | [d], [d'], _ =>
    have hraw : d'.raw = d.raw := by simpa using h
    simp only [outcome, entryPoint, Document.get?, hraw]
  | d₁ :: d₂ :: ds, d₁' :: d₂' :: ds', hlength => simp only [outcome, hlength]

theorem root_of_loaded (p : Phases) (name : String)
    (loaded : Bundle.ofPath p.machine p.folder = .ok b)
    (hnames : ∀ d ∈ b.documents, d.isPhase = true → ∃ v, d.name = .ok v)
    (hlabels : ∀ d ∈ documentsOf b name, ∃ ls, d.labels = .ok ls) :
    ((p.root name).run []).1 = p.outcome name (documentsOf b name) := by
  rw [p.ends_root name [], loaded]
  exact p.rootIn_eq name (Bundle.hasKind_of_ofPath loaded) hnames hlabels

theorem count_eq_length {ds : List Document} {ms : List String}
    (h : List.Forall₂ (fun d n => d.name = .ok (.str n)) ds ms) (name : String) :
    ms.count name = (ds.filter (·.hasName name)).length := by
  induction h with
  | nil => rfl
  | @cons d n ds ms hd _ ih =>
    have hname : d.hasName name = (n == name) := by
      rw [Document.hasName, hd]
      rfl
    rw [List.count_cons, List.filter_cons, hname, ih]
    cases n == name <;> rfl

theorem entryPoint_eq (name : String) {d : Document} (h : d.RegularPhase) :
    (d.entry? = none ∧ entryPoint name d = .error (.noEntryPoint name)) ∨
      ∃ s, d.entry? = some (.str s) ∧ entryPoint name d = .ok s := by
  cases he : d.entry? with
  | none =>
    refine .inl ⟨rfl, ?_⟩
    rw [Document.entry?] at he
    rw [entryPoint, he]
  | some v =>
    obtain ⟨s, rfl⟩ := h.entry v he
    refine .inr ⟨s, rfl, ?_⟩
    rw [Document.entry?] at he
    rw [entryPoint, he]

/-- Which outcome there is tells how many documents there are, and the other way round. -/
theorem outcome_iff (p : Phases) (name : String) {ds : List Document}
    (regular : ∀ d ∈ ds, d.RegularPhase) :
    (p.outcome name ds = .error (.notFound name) ↔ ds.length = 0) ∧
    ((∃ q k, p.outcome name ds = .error (.document (.notUnique q k))) ↔ 1 < ds.length) ∧
    (p.outcome name ds = .error (.noEntryPoint name) ↔
      ds.length = 1 ∧ ∃ d ∈ ds, d.entry? = none) ∧
    ∀ path, p.outcome name ds = .ok path ↔
      ds.length = 1 ∧ ∃ d ∈ ds, ∃ s, d.entry? = some (.str s) ∧ path = p.rootOf s := by
  rcases ds with _ | ⟨d, _ | ⟨d', ds⟩⟩
  · simp [outcome]
  · obtain ⟨hnone, hpoint⟩ | ⟨s, hsome, hpoint⟩ := entryPoint_eq name (regular d (by simp))
    · simp [outcome, hpoint, hnone, Except.map]
    · simp [outcome, hpoint, hsome, Except.map, eq_comm]
  · simp [outcome]

/-- The names of all phases and the folder of each of them agree. The names are sorted, one for each
document. A name has no folder because there is no such name, because it is there more than once, or
because the document of the one phase gives no entry point; else its folder is that of the entry
point. Phases of other names have no part in it. -/
theorem names_and_roots_agree {p : Phases} {b : Bundle}
    (loaded : Bundle.ofPath p.machine p.folder = .ok b)
    (regular : ∀ d ∈ b.documents, d.isPhase = true → d.RegularPhase) :
    ∃ ns : List String, (p.names.run []).1 = .ok (ns.map .str) ∧ ns.Pairwise (· ≤ ·) ∧
      (∃ ms, List.Forall₂ (fun d n => d.name = .ok (.str n)) (b.documents.filter (·.isPhase)) ms ∧
        ns.Perm ms) ∧
      ∀ n, let root := ((p.root n).run []).1
        (root = .error (.notFound n) ↔ n ∉ ns) ∧
        ((∃ q k, root = .error (.document (.notUnique q k))) ↔ 1 < ns.count n) ∧
        (root = .error (.noEntryPoint n) ↔
          ns.count n = 1 ∧ ∃ d ∈ documentsOf b n, d.entry? = none) ∧
        (∀ path, root = .ok path ↔ ns.count n = 1 ∧
          ∃ d ∈ documentsOf b n, ∃ s, d.entry? = some (.str s) ∧ path = p.rootOf s) ∧
        ∀ m b', Bundle.ofPath m p.folder = .ok b' →
          (∀ d ∈ b'.documents, d.isPhase = true → ∃ v, d.name = .ok v) →
          ((documentsOf b' n).map (·.raw)).Perm ((documentsOf b n).map (·.raw)) →
          (({ p with machine := m }.root n).run []).1 = root := by
  have hkinds := Bundle.hasKind_of_ofPath loaded
  obtain ⟨ms, hms, hnames⟩ := namesIn_eq hkinds fun d hd h => (regular d hd h).toRegular
  refine ⟨ms.mergeSort fun a b => a ≤ b, ?_, ?_, ⟨ms, hms, List.mergeSort_perm _ _⟩, fun n => ?_⟩
  · rw [p.ends_names [], loaded]
    exact hnames
  · have hsorted : (ms.mergeSort fun a b => a ≤ b).Pairwise fun a b => decide (a ≤ b) = true :=
      List.pairwise_mergeSort (fun a b c => by simpa using le_trans)
        (fun a b => by simpa using le_total a b) ms
    exact hsorted.imp of_decide_eq_true
  · have hphase : ∀ d ∈ documentsOf b n, d.RegularPhase := by
      intro d hd
      obtain ⟨hmem, hof⟩ := List.mem_filter.mp hd
      exact regular d hmem (Bool.and_eq_true_iff.mp hof).1
    have hroot : ((p.root n).run []).1 = p.outcome n (documentsOf b n) :=
      p.root_of_loaded n loaded (fun d hd h => ⟨_, (regular d hd h).name.choose_spec⟩)
        fun d hd => (hphase d hd).labels
    have hcount : (ms.mergeSort fun a b => a ≤ b).count n = (documentsOf b n).length := by
      rw [(List.mergeSort_perm _ _).count_eq, count_eq_length hms, List.filter_filter]
      simp only [documentsOf, Document.isPhaseOf, Bool.and_comm]
    intro root
    rw [show root = _ from hroot, ← List.count_eq_zero, hcount]
    obtain ⟨hnone, hmany, hclosed, hfound⟩ := p.outcome_iff n hphase
    refine ⟨hnone, hmany, hclosed, hfound, fun m b' loaded' hnames' hperm => ?_⟩
    have hlabels : ∀ d ∈ documentsOf b' n, ∃ ls, d.labels = .ok ls := by
      intro d hd
      obtain ⟨d', hd', hraw⟩ := List.mem_map.mp (hperm.mem_iff.mp (List.mem_map_of_mem hd))
      obtain ⟨ls, hls⟩ := (hphase d' hd').labels
      exact ⟨ls, (Document.labels_of_raw hraw.symm).trans hls⟩
    have hroot' := root_of_loaded { p with machine := m } n loaded' hnames' hlabels
    exact hroot'.trans (p.outcome_of_perm n hperm)

end Phases

namespace Sample

/-- Phases whose folder has some files, each with a text. -/
def phasesOf (files : List (String × String)) : Phases :=
  ⟨⟨.folder [("t", .folder [("p", .ofTexts files)])], ⟨"/", []⟩, [], Yaml.reader⟩,
    ⟨"/t", "p", "s"⟩, ⟨"/", ["t"]⟩⟩

def phaseValue (metadata fields : Entries) : Value :=
  .map ((.str "kind", .str "Phase") :: (.str "metadata", .map metadata) :: fields)

def placeOf (file : String) : Path := ⟨"/", ["t", "p", file]⟩

/-- A phase of one of the files, by its metadata and what else it has. -/
def phaseIn (file : String) (metadata fields : Entries) : Document :=
  ⟨phaseValue metadata fields, some (placeOf file)⟩

theorem yields_phaseIn {file text : String} {metadata fields : Entries}
    (htext : '\r' ∉ text.toList) (hload : Yaml.loadAll text = .ok [phaseValue metadata fields]) :
    Bundle.Yields Yaml.reader (placeOf file, text.toUTF8) [phaseIn file metadata fields] :=
  Bundle.yields_of_one htext hload ⟨_, .str "Phase", rfl, rfl, rfl⟩

theorem ofPath_phasesOf (files : List (String × String)) {dss : List (List Document)}
    (hyaml : ∀ f ∈ files, Bundle.isYaml (placeOf f.1) = true)
    (hsorted : files.Pairwise fun f g => (placeOf f.1).le (placeOf g.1) = true)
    (h : List.Forall₂ (fun f ds => Bundle.Yields Yaml.reader (placeOf f.1, f.2.toUTF8) ds)
      files dss) :
    Bundle.ofPath (phasesOf files).machine (phasesOf files).folder = .ok ⟨dss.flatten⟩ := by
  have hfolder : (phasesOf files).folder = ⟨"/", ["t", "p"]⟩ := by
    change (Path.mk "/" ["t"]).join (Path.ofText "p") = _
    decide
  have hlookup : (phasesOf files).machine.lookup? ⟨"/", ["t", "p"]⟩ = some (.ofTexts files) := by
    simp [phasesOf, Machine.lookup?, Path.isAbsolute, Tree.walk?, Tree.isFile, Tree.find?,
      Tree.entries]
  rw [hfolder]
  exact Bundle.ofPath_ofTexts hlookup hyaml hsorted h

def namedPhase (file name : String) : Document := phaseIn file [(.str "name", .str name)] []

def openPhase (file name entry : String) : Document :=
  phaseIn file [(.str "name", .str name)]
    [(.str "config", .map [(.str "documentEntryPoint", .str entry)])]

theorem name_phaseIn (file name : String) (fields : Entries) :
    (phaseIn file [(.str "name", .str name)] fields).name = .ok (.str name) := by
  change Except.ok (orElse (some (.str name)) (.str "")) = _
  rw [orElse]
  by_cases h : name = "" <;> simp [Value.isGiven, h]

theorem regularPhase_namedPhase (file name : String) : (namedPhase file name).RegularPhase :=
  ⟨⟨⟨name, name_phaseIn file name _⟩, ⟨[], rfl⟩⟩, nofun⟩

theorem regularPhase_openPhase (file name entry : String) :
    (openPhase file name entry).RegularPhase := by
  refine ⟨⟨⟨name, name_phaseIn file name _⟩, ⟨[], rfl⟩⟩, fun v hv => ?_⟩
  have hentry : (some (Value.str entry)).filter Value.isGiven = some v := hv
  exact ⟨entry, (Option.some.inj (Option.filter_eq_some_iff.mp hentry).1).symm⟩

end Sample

open Sample in
/-- A phase that is there twice and one without an entry point have no folder; the one beside them
keeps its folder where the others go and its file gets another place. -/
theorem Phases.names_and_roots_agree_for_twins :
    let a := "kind: Phase\nmetadata: {name: a}"
    let b := "kind: Phase\nmetadata: {name: b}\nconfig: {documentEntryPoint: e}"
    let c := "kind: Phase\nmetadata: {name: c}"
    let p := phasesOf [("1.yaml", a), ("2.yaml", b), ("3.yaml", c), ("4.yaml", a)]
    let q := phasesOf [("3.yaml", c), ("5.yaml", b)]
    (p.names.run []).1 = .ok [.str "a", .str "a", .str "b", .str "c"] ∧
      (∃ asked k, ((p.root "a").run []).1 = .error (.document (.notUnique asked k))) ∧
      ((p.root "b").run []).1 = .ok ⟨"/", ["t", "s", "e"]⟩ ∧
      ((p.root "c").run []).1 = .error (.noEntryPoint "c") ∧
      ((p.root "d").run []).1 = .error (.notFound "d") ∧
      (({ p with machine := q.machine }.root "b").run []).1 = .ok ⟨"/", ["t", "s", "e"]⟩ := by
  intro a b c p q
  have hloadA : Yaml.loadAll a = .ok [phaseValue [(.str "name", .str "a")] []] :=
    Yaml.loadAll_of_areExactly (by decide +kernel)
  have hloadB : Yaml.loadAll b = .ok [phaseValue [(.str "name", .str "b")]
      [(.str "config", .map [(.str "documentEntryPoint", .str "e")])]] :=
    Yaml.loadAll_of_areExactly (by decide +kernel)
  have hloadC : Yaml.loadAll c = .ok [phaseValue [(.str "name", .str "c")] []] :=
    Yaml.loadAll_of_areExactly (by decide +kernel)
  have ha (file : String) : Bundle.Yields Yaml.reader (placeOf file, a.toUTF8)
      [namedPhase file "a"] := yields_phaseIn (by decide) hloadA
  have hb (file : String) : Bundle.Yields Yaml.reader (placeOf file, b.toUTF8)
      [openPhase file "b" "e"] := yields_phaseIn (by decide) hloadB
  have hc (file : String) : Bundle.Yields Yaml.reader (placeOf file, c.toUTF8)
      [namedPhase file "c"] := yields_phaseIn (by decide) hloadC
  have loaded : Bundle.ofPath p.machine p.folder = .ok ⟨[namedPhase "1.yaml" "a",
      openPhase "2.yaml" "b" "e", namedPhase "3.yaml" "c", namedPhase "4.yaml" "a"]⟩ :=
    ofPath_phasesOf [("1.yaml", a), ("2.yaml", b), ("3.yaml", c), ("4.yaml", a)] (by decide)
      (by decide) (.cons (ha "1.yaml") (.cons (hb "2.yaml") (.cons (hc "3.yaml")
        (.cons (ha "4.yaml") .nil))))
  have moved : Bundle.ofPath q.machine q.folder =
      .ok ⟨[namedPhase "3.yaml" "c", openPhase "5.yaml" "b" "e"]⟩ :=
    ofPath_phasesOf [("3.yaml", c), ("5.yaml", b)] (by decide) (by decide)
      (.cons (hc "3.yaml") (.cons (hb "5.yaml") .nil))
  have regular : ∀ d ∈ [namedPhase "1.yaml" "a", openPhase "2.yaml" "b" "e",
      namedPhase "3.yaml" "c", namedPhase "4.yaml" "a"], d.isPhase = true → d.RegularPhase := by
    simp [regularPhase_namedPhase, regularPhase_openPhase]
  obtain ⟨ns, hnames, hsorted, ⟨ms, hms, hperm⟩, hroot⟩ :=
    Phases.names_and_roots_agree loaded regular
  have hms' : ms = ["a", "b", "c", "a"] := by
    have unique : Relator.RightUnique fun (d : Document) n => d.name = .ok (.str n) :=
      fun d n m hn hm => Value.str.inj (Except.ok.inj (hn.symm.trans hm))
    refine List.right_unique_forall₂' unique hms ?_
    exact .cons rfl (.cons rfl (.cons rfl (.cons rfl .nil)))
  have hns : ns = ["a", "a", "b", "c"] := by
    have hperm' : ns.Perm ["a", "a", "b", "c"] := (hperm.trans (by rw [hms'])).trans (by decide)
    exact hperm'.eq_of_pairwise' hsorted (by decide)
  subst hns
  have hb : ((p.root "b").run []).1 = .ok ⟨"/", ["t", "s", "e"]⟩ := by
    obtain ⟨-, -, -, hfound, -⟩ := hroot "b"
    exact (hfound _).mpr ⟨rfl, openPhase "2.yaml" "b" "e", List.mem_singleton.mpr rfl, "e", rfl,
      by decide⟩
  obtain ⟨-, -, hclosed, -⟩ := hroot "c"
  obtain ⟨-, -, -, -, hkept⟩ := hroot "b"
  refine ⟨hnames, (hroot "a").2.1.mpr (by decide), hb,
    hclosed.mpr ⟨rfl, namedPhase "3.yaml" "c", List.mem_singleton.mpr rfl, rfl⟩,
    (hroot "d").1.mpr (by decide), ?_⟩
  rw [← hb]
  refine hkept q.machine _ moved ?_ (.refl _)
  simp [namedPhase, openPhase, name_phaseIn]

open Sample in
/-- Labels that are no mapping keep the phases from being listed and found. -/
theorem Phases.names_of_listed_labels :
    let a := "kind: Phase\nmetadata: {name: a, labels: [x]}"
    let p := phasesOf [("1.yaml", a)]
    let d := phaseIn "1.yaml" [(.str "name", .str "a"), (.str "labels", .list [.str "x"])] []
    let e : PhaseError := .document (.shape (.noMembers (.list [.str "x"]) "items"))
    Bundle.ofPath p.machine p.folder = .ok ⟨[d]⟩ ∧ d.isPhase = true ∧ d.name = .ok (.str "a") ∧
      d.entry? = none ∧ (p.names.run []).1 = .error e ∧ ((p.root "a").run []).1 = .error e := by
  intro a p d e
  have hload : Yaml.loadAll a = .ok [d.raw] :=
    Yaml.loadAll_of_areExactly (by decide +kernel)
  have loaded : Bundle.ofPath p.machine p.folder = .ok ⟨[d]⟩ :=
    ofPath_phasesOf [("1.yaml", a)] (by decide) (by decide)
      (.cons (yields_phaseIn (by decide) hload) .nil)
  refine ⟨loaded, rfl, rfl, rfl, ?_, ?_⟩
  · rw [p.ends_names [], loaded]
    rfl
  · rw [p.ends_root "a" [], loaded]
    rfl

end OutOfBand
