import OutOfBand.Inventory.Bundle
import OutOfBand.Proofs.Files.Tree
import OutOfBand.Proofs.Sequence
import Mathlib.Data.List.Lex
import Mathlib.Data.List.Sort
import Mathlib.Data.String.Basic

namespace OutOfBand

namespace Path

theorem partsLe_iff : ∀ {a b : List String}, partsLe a b = true ↔ a < b ∨ a = b
  | [], [] => by simp [partsLe]
  | [], y :: b => by simp [partsLe]
  | x :: a, [] => by simp [partsLe]
  | x :: a, y :: b => by
    rw [partsLe, List.cons_lt_cons_iff, List.cons.injEq]
    split
    next h => simp [h, partsLe_iff]
    next h => simp [h]

theorem le_iff {p q : Path} : p.le q = true ↔ p.parts ≤ q.parts :=
  partsLe_iff.trans le_iff_lt_or_eq.symm

theorem parts_below_inj {root : Path} {names names' : List String}
    (h : parts ⟨root.root, root.names ++ names⟩ = parts ⟨root.root, root.names ++ names'⟩) :
    names = names' := by
  rw [parts, parts, isAbsolute, isAbsolute] at h
  split_ifs at h
  · exact List.append_cancel_left (List.cons.inj h).2
  · exact List.append_cancel_left h

end Path

/-- A mapping with a kind. -/
def Value.HasKind (v : Value) : Prop :=
  ∃ es kind, v = .map es ∧ Entries.get? es "kind" = some kind ∧ kind.isGiven = true

theorem Value.hasKind_iff {v : Value} : v.HasKind ↔ (v.get? "kind").any isGiven = true := by
  rw [Option.any_eq_true]
  constructor
  · rintro ⟨es, kind, rfl, hkind, hgiven⟩
    exact ⟨kind, hkind, hgiven⟩
  · rintro ⟨kind, hkind, hgiven⟩
    cases v with
    | map es => exact ⟨es, kind, rfl, hkind, hgiven⟩
    | _ => cases hkind

theorem unifyLines_eq_self {s : List Char} (h : '\r' ∉ s) : unifyLines s = s := by
  fun_induction unifyLines s with
  | case1 | case2 => simp at h
  | case3 c r _ _ ih => rw [ih fun hr => h (List.mem_cons_of_mem c hr)]
  | case4 => rfl

theorem textOfBytes?_toUTF8 {text : String} (h : '\r' ∉ text.toList) :
    textOfBytes? text.toUTF8 = some text := by
  have hvalid : String.fromUTF8? text.toUTF8 = some text := dif_pos text.isValidUTF8
  rw [textOfBytes?, hvalid, Option.map_some, unifyLines_eq_self h, String.ofList_toList]

namespace Tree

/-- A folder of nothing but files that are texts. -/
def ofTexts (files : List (String × String)) : Tree :=
  .folder (files.map fun f => (f.1, .file f.2.toUTF8))

theorem files_ofTexts (files : List (String × String)) :
    (ofTexts files).files = files.map fun f => ([f.1], f.2.toUTF8) := by
  rw [ofTexts, Tree.files]
  induction files with
  | nil => rfl
  | cons f files ih =>
    rw [List.map_cons, Tree.filesOf, Tree.files, ih]
    rfl

end Tree

instance : DecidablePred Value.HasKind := fun _ => decidable_of_iff _ Value.hasKind_iff.symm

namespace Bundle

variable {r : Yaml.Reader} {root p : Path} {t t' : Tree} {fs fs' : List (Path × ByteArray)}
  {c : ByteArray} {ds : List Document} {e : DocumentError}

/-- A file below a folder whose name ends as those of YAML files do: its path and its content. -/
structure YamlFile (root : Path) (t : Tree) (p : Path) (c : ByteArray) : Prop where
  ending : p.ending = ".yaml" ∨ p.ending = ".yml"
  below : ∃ names, p = ⟨root.root, root.names ++ names⟩ ∧ t.Holds names c

/-- The YAML files below a folder in the order of their paths: part by part, a path before those
below it. -/
structure Listing (root : Path) (t : Tree) (fs : List (Path × ByteArray)) : Prop where
  mem_iff : ∀ p c, (p, c) ∈ fs ↔ YamlFile root t p c
  order : fs.Pairwise fun f g => f.1.parts < g.1.parts

theorem Listing.unique (h : Listing root t fs) (h' : Listing root t fs') : fs = fs' := by
  have : Std.Irrefl fun f g : Path × ByteArray => f.1.parts < g.1.parts :=
    ⟨fun f => lt_irrefl f.1.parts⟩
  have : Std.Antisymm fun f g : Path × ByteArray => f.1.parts < g.1.parts :=
    ⟨fun _ _ hfg hgf => absurd hfg hgf.asymm⟩
  exact h.order.eq_of_mem_iff h'.order fun f => (h.mem_iff f.1 f.2).trans (h'.mem_iff f.1 f.2).symm

theorem YamlFile.relisted (h : YamlFile root t p c) (ht : t.Relisted t') : YamlFile root t' p c :=
  ⟨h.ending, h.below.imp fun _ ⟨hp, hc⟩ => ⟨hp, ht.holds hc⟩⟩

theorem Listing.relisted (h : Listing root t fs) (ht : t.Relisted t') : Listing root t' fs :=
  ⟨fun p c => (h.mem_iff p c).trans ⟨(·.relisted ht), (·.relisted ht.symm)⟩, h.order⟩

theorem isYaml_iff : isYaml p = true ↔ p.ending = ".yaml" ∨ p.ending = ".yml" := by
  simp [isYaml]

theorem yamlFile_iff_mem {es : List (String × Tree)} : YamlFile root (.folder es) p c ↔
    (p, c) ∈ ((Tree.folder es).files.map fun f => (root.join ⟨"", f.1⟩, f.2)).filter
      fun f => isYaml f.1 := by
  rw [List.mem_filter, isYaml_iff, List.mem_map]
  simp only [Prod.exists, Prod.mk.injEq, Tree.mem_files_iff]
  constructor
  · rintro ⟨hending, names, rfl, hc⟩
    exact ⟨⟨names, c, hc, rfl, rfl⟩, hending⟩
  · rintro ⟨⟨names, _, hc, rfl, rfl⟩, hending⟩
    exact ⟨hending, names, rfl, hc⟩

theorem listing_filesAt {es : List (String × Tree)} (proper : (Tree.folder es).Proper) :
    Listing root (.folder es) (filesAt root (.folder es)) := by
  constructor
  · intro p c
    rw [filesAt, List.mem_mergeSort, yamlFile_iff_mem]
  · have hparts : ((Tree.folder es).files.map fun f =>
        Path.parts ⟨root.root, root.names ++ f.1⟩).Nodup := by
      have hinj : Function.Injective fun names => Path.parts ⟨root.root, root.names ++ names⟩ :=
        fun _ _ => Path.parts_below_inj
      have h := (Tree.nodup_files proper).map hinj
      rwa [List.map_map] at h
    have hdistinct : (filesAt root (.folder es)).Pairwise fun f g => f.1.parts ≠ g.1.parts := by
      rw [filesAt, ← List.pairwise_map]
      refine ((List.mergeSort_perm _ _).map _).nodup_iff.mpr ?_
      refine List.Nodup.sublist (List.filter_sublist.map _) ?_
      rwa [List.map_map]
    have hsorted : (filesAt root (.folder es)).Pairwise fun f g => f.1.le g.1 = true := by
      refine List.pairwise_mergeSort (fun f g h hfg hgh => ?_) (fun f g => ?_) _
      · exact Path.le_iff.mpr ((Path.le_iff.mp hfg).trans (Path.le_iff.mp hgh))
      · rw [Bool.or_eq_true, Path.le_iff, Path.le_iff]
        exact le_total _ _
    exact (hsorted.and hdistinct).imp fun h => (Path.le_iff.mp h.1).lt_of_ne h.2

/-- The bytes of a file are no text, or its text is no stream, or one with a scalar that no value
stands for. -/
inductive Unread (r : Yaml.Reader) (p : Path) (c : ByteArray) : DocumentError → Prop
  | notText (h : textOfBytes? c = none) : Unread r p c (.notText p)
  | malformed {text : String} (htext : textOfBytes? c = some text)
      (h : r.all text = .error .malformed) : Unread r p c (.unreadable (some p))
  | badScalar {text : String} {f : Yaml.Fault} (htext : textOfBytes? c = some text)
      (h : r.all text = .error f) (hf : f ≠ .malformed) : Unread r p c (.badScalar f)

/-- The documents of a file are those of its text, with the file as their source. -/
def Yields (r : Yaml.Reader) (f : Path × ByteArray) (ds : List Document) : Prop :=
  ∃ text b, textOfBytes? f.2 = some text ∧ ofTextBy r text = .ok b ∧
    ds = b.documents.map fun d => { d with source := some f.1 }

theorem readText_eq_ok_iff {source : Option Path} {text : String} :
    readText r source text = .ok ds ↔
      ∃ vs, r.all text = .ok vs ∧ ds = (vs.filter (·.HasKind)).map (⟨·, source⟩) := by
  have hfilter (vs : List Value) : Document.ofValues source vs =
      (vs.filter (·.HasKind)).map (⟨·, source⟩) := by
    simp only [Document.ofValues, Value.hasKind_iff, Bool.decide_eq_true]
  rw [readText]
  split
  next vs hvs => simp [hfilter, hvs, eq_comm]
  next h => simp [h]
  next h => simp [h]

theorem ofText_eq_ok_iff {text : String} {b : Bundle} :
    ofTextBy r text = .ok b ↔ readText r none text = .ok b.documents := by
  rw [ofTextBy]
  cases readText r none text with
  | ok ds => exact ⟨fun h => by cases h; rfl, fun h => by cases h; rfl⟩
  | error e => exact ⟨nofun, nofun⟩

/-- The documents of a text are its mappings with a kind, one after the other. -/
theorem documents_of_text {text : String} {b : Bundle} (h : ofTextBy r text = .ok b) :
    ∃ vs, r.all text = .ok vs ∧ b.documents.map (·.raw) = vs.filter (·.HasKind) := by
  obtain ⟨vs, hvs, hds⟩ := readText_eq_ok_iff.mp (ofText_eq_ok_iff.mp h)
  refine ⟨vs, hvs, ?_⟩
  rw [hds, List.map_map]
  exact List.map_id _

theorem readFile_eq_ok_iff : readFile r p c = .ok ds ↔ Yields r (p, c) ds := by
  rw [readFile]
  constructor
  · intro h
    split at h
    next text htext =>
      obtain ⟨vs, hvs, rfl⟩ := readText_eq_ok_iff.mp h
      have hb : ofTextBy r text = .ok ⟨(vs.filter (·.HasKind)).map (⟨·, none⟩)⟩ :=
        ofText_eq_ok_iff.mpr (readText_eq_ok_iff.mpr ⟨vs, hvs, rfl⟩)
      exact ⟨text, _, htext, hb, by simp⟩
    next => cases h
  · rintro ⟨text, b, htext, hb, rfl⟩
    obtain ⟨vs, hvs, hds⟩ := readText_eq_ok_iff.mp (ofText_eq_ok_iff.mp hb)
    rw [htext]
    exact readText_eq_ok_iff.mpr ⟨vs, hvs, by simp [hds]⟩

theorem readFile_eq_error_iff : readFile r p c = .error e ↔ Unread r p c e := by
  rw [readFile]
  constructor
  · intro h
    split at h
    next text htext =>
      rw [readText] at h
      split at h
      next => cases h
      next hload =>
        cases h
        exact .malformed htext hload
      next f hf hload =>
        cases h
        exact .badScalar htext hload hf
    next htext =>
      cases h
      exact .notText htext
  · rintro (htext | ⟨htext, hload⟩ | ⟨htext, hload, hf⟩)
    · rw [htext]
    · simp only [htext, readText, hload]
    · simp only [htext, readText, hload]

theorem ofPath_folder {m : Machine} {es : List (String × Tree)}
    (hroot : m.lookup? root = some (.folder es)) (hfs : Listing root (.folder es) fs)
    (proper : (Tree.folder es).Proper) :
    (∃ dss, List.Forall₂ (Yields m.yaml) fs dss ∧ ofPath m root = .ok ⟨dss.flatten⟩) ∨
      ∃ pre f post dss e, fs = pre ++ f :: post ∧ List.Forall₂ (Yields m.yaml) pre dss ∧
        Unread m.yaml f.1 f.2 e ∧ ofPath m root = .error e := by
  have hpath : ofPath m root =
      fs.mapM (fun f => readFile m.yaml f.1 f.2) >>= fun dss => .ok ⟨dss.flatten⟩ := by
    rw [hfs.unique (listing_filesAt proper), ofPath, hroot]
    rfl
  cases hread : fs.mapM fun f => readFile m.yaml f.1 f.2 with
  | ok dss =>
    rw [hread] at hpath
    exact .inl ⟨dss, (mapM_eq_ok_iff.mp hread).imp fun _ _ => readFile_eq_ok_iff.mp, hpath⟩
  | error e =>
    rw [hread] at hpath
    obtain ⟨pre, f, post, dss, hsplit, hpre, hf⟩ := mapM_eq_error_iff.mp hread
    exact .inr ⟨pre, f, post, dss, e, hsplit, hpre.imp fun _ _ => readFile_eq_ok_iff.mp,
      readFile_eq_error_iff.mp hf, hpath⟩

section Texts

variable {files : List (String × String)}

theorem yields_of_one {text : String} {v : Value} (htext : '\r' ∉ text.toList)
    (hall : r.all text = .ok [v]) (hkind : v.HasKind) :
    Yields r (p, text.toUTF8) [⟨v, some p⟩] := by
  refine readFile_eq_ok_iff.mp ?_
  rw [readFile, textOfBytes?_toUTF8 htext]
  refine readText_eq_ok_iff.mpr ⟨[v], hall, ?_⟩
  rw [List.filter_cons_of_pos (by simpa using hkind)]
  rfl

theorem filesAt_ofTexts (hyaml : ∀ f ∈ files, isYaml (root.join ⟨"", [f.1]⟩) = true)
    (hsorted : files.Pairwise fun f g =>
      (root.join ⟨"", [f.1]⟩).le (root.join ⟨"", [g.1]⟩) = true) :
    filesAt root (.ofTexts files) = files.map fun f => (root.join ⟨"", [f.1]⟩, f.2.toUTF8) := by
  change List.mergeSort (((Tree.ofTexts files).files.map _).filter _) _ = _
  rw [Tree.files_ofTexts, List.map_map, List.filter_eq_self.mpr]
  · exact List.mergeSort_of_pairwise (List.pairwise_map.mpr hsorted)
  · intro f hf
    obtain ⟨g, hg, rfl⟩ := List.mem_map.mp hf
    exact hyaml g hg

theorem ofPath_ofTexts {m : Machine} {dss : List (List Document)}
    (hroot : m.lookup? root = some (.ofTexts files))
    (hyaml : ∀ f ∈ files, isYaml (root.join ⟨"", [f.1]⟩) = true)
    (hsorted : files.Pairwise fun f g =>
      (root.join ⟨"", [f.1]⟩).le (root.join ⟨"", [g.1]⟩) = true)
    (h : List.Forall₂ (fun f ds => Yields m.yaml (root.join ⟨"", [f.1]⟩, f.2.toUTF8) ds)
      files dss) : ofPath m root = .ok ⟨dss.flatten⟩ := by
  have hread : (files.map fun f => (root.join ⟨"", [f.1]⟩, f.2.toUTF8)).mapM
      (fun f => readFile m.yaml f.1 f.2) = .ok dss :=
    mapM_eq_ok_iff.mpr (List.forall₂_map_left_iff.mpr (h.imp fun _ _ => readFile_eq_ok_iff.mpr))
  rw [ofPath, hroot]
  change (filesAt root (.ofTexts files)).mapM (fun f => readFile m.yaml f.1 f.2) >>= _ = _
  rw [filesAt_ofTexts hyaml hsorted, hread]
  rfl

end Texts

/-- The bytes are a text that is a stream of documents or breaks the format. -/
def Legible (r : Yaml.Reader) (c : ByteArray) : Prop :=
  ∃ text, textOfBytes? c = some text ∧ ∀ f, r.all text = .error f → f = .malformed

theorem legible_of_malformed {text : String} (htext : textOfBytes? c = some text)
    (hload : r.all text = .error .malformed) : Legible r c :=
  ⟨text, htext, fun _ hf => Except.error.inj (hf.symm.trans hload)⟩

theorem Legible.eq_unreadable (h : Legible r c) (he : Unread r p c e) :
    e = .unreadable (some p) ∧
      ∃ text, textOfBytes? c = some text ∧ r.all text = .error .malformed := by
  obtain ⟨text, htext, hload⟩ := h
  cases he with
  | notText hnone => cases htext.symm.trans hnone
  | malformed htext' hbad => exact ⟨rfl, _, htext', hbad⟩
  | badScalar htext' hbad hf =>
    cases htext.symm.trans htext'
    exact absurd (hload _ hbad) hf

/-- A folder whose YAML files are texts gives the documents of all of them, file after file in the
order of their paths and each as it stands in its file; or the first file that is no YAML is named
and there is no bundle. In what order the folders list their entries makes no difference. -/
theorem folder_loaded {m : Machine} {root : Path} {es : List (String × Tree)}
    (proper : m.top.Proper) (hroot : m.lookup? root = some (.folder es))
    (legible : ∀ p c, YamlFile root (.folder es) p c → Legible m.yaml c) :
    (∃ fs, Listing root (.folder es) fs ∧
      ((∃ dss, List.Forall₂ (Yields m.yaml) fs dss ∧ ofPath m root = .ok ⟨dss.flatten⟩) ∨
        ∃ pre p c post dss text, fs = pre ++ (p, c) :: post ∧ List.Forall₂ (Yields m.yaml) pre dss ∧
          textOfBytes? c = some text ∧ m.yaml.all text = .error .malformed ∧
          ofPath m root = .error (.unreadable (some p)))) ∧
    (∀ text b, ofTextBy m.yaml text = .ok b →
      ∃ vs, m.yaml.all text = .ok vs ∧ b.documents.map (·.raw) = vs.filter (·.HasKind)) ∧
    ∀ top, m.top.Relisted top → ofPath { m with top := top } root = ofPath m root := by
  have hproper := m.proper_of_lookup? proper hroot
  have hfs : Listing root (.folder es) (filesAt root (.folder es)) := listing_filesAt hproper
  refine ⟨⟨_, hfs, ?_⟩, fun _ _ => documents_of_text, fun top htop => ?_⟩
  · rcases ofPath_folder hroot hfs hproper with
      hall | ⟨pre, ⟨p, c⟩, post, dss, e, hsplit, hpre, hunread, hpath⟩
    · exact .inl hall
    · have hfile := (hfs.mem_iff p c).mp (hsplit ▸ List.mem_append_right pre List.mem_cons_self)
      obtain ⟨rfl, text, htext, hbad⟩ := (legible p c hfile).eq_unreadable hunread
      exact .inr ⟨pre, p, c, post, dss, text, hsplit, hpre, htext, hbad, hpath⟩
  · obtain ⟨t, ht, hrel⟩ := m.exists_lookup?_relisted proper htop hroot
    cases t with
    | file c => cases hrel.isFile_eq
    | folder es' =>
      have hsame : filesAt root (.folder es') = filesAt root (.folder es) :=
        (listing_filesAt (hrel.proper hproper)).unique (hfs.relisted hrel)
      rw [ofPath, ofPath, ht, hroot]
      simp only [hsame]

/-- A folder comes before the file beside it whose name only begins as its own. -/
theorem folder_loaded_of_two_bad :
    let bad : Tree := .file "]".toUTF8
    let below := [("a-b.yaml", bad), ("a", .folder [("c.yml", bad), ("c.bin", .file ⟨#[0xff]⟩)])]
    ofPath ⟨.folder [("d", .folder below)], ⟨"/", []⟩, [], Yaml.reader⟩ ⟨"/", ["d"]⟩ =
      .error (.unreadable (some ⟨"/", ["d", "a", "c.yml"]⟩)) := by
  intro bad below
  have htext : textOfBytes? "]".toUTF8 = some "]" := textOfBytes?_toUTF8 (by decide)
  have hload : Yaml.reader.all "]" = .error .malformed :=
    eq_error_of_faultOf? (by decide +kernel)
  have hfiles (p : Path) (c : ByteArray) : YamlFile ⟨"/", ["d"]⟩ (.folder below) p c ↔
      (p, c) ∈ [(⟨"/", ["d", "a-b.yaml"]⟩, "]".toUTF8), (⟨"/", ["d", "a", "c.yml"]⟩, "]".toUTF8)] :=
    yamlFile_iff_mem
  have hlisting : Listing ⟨"/", ["d"]⟩ (.folder below)
      [(⟨"/", ["d", "a", "c.yml"]⟩, "]".toUTF8), (⟨"/", ["d", "a-b.yaml"]⟩, "]".toUTF8)] := by
    refine ⟨fun p c => ?_, by decide⟩
    rw [hfiles]
    exact (List.Perm.swap _ _ _).mem_iff
  have hbad {f : Path × ByteArray} {ds : List Document} (hf : f.2 = "]".toUTF8) :
      ¬ Yields Yaml.reader f ds := by
    rintro ⟨text, b, htext', hb, -⟩
    rw [hf, htext, Option.some.injEq] at htext'
    obtain ⟨vs, hvs, -⟩ := documents_of_text hb
    rw [← htext', hload] at hvs
    cases hvs
  have hlegible (p : Path) (c : ByteArray) (h : YamlFile ⟨"/", ["d"]⟩ (.folder below) p c) :
      Legible Yaml.reader c := by
    have hc : c = "]".toUTF8 := by
      have hmem := (hlisting.mem_iff p c).mpr h
      simp only [List.mem_cons, Prod.mk.injEq, List.not_mem_nil, or_false] at hmem
      exact hmem.elim And.right And.right
    exact legible_of_malformed (hc ▸ htext) hload
  have proper : (Tree.folder [("d", .folder below)]).Proper := by
    simp [below, bad, Tree.proper_folder_iff, Tree.Proper.file]
  obtain ⟨⟨fs, hfs, hread⟩, -, -⟩ := folder_loaded (m := ⟨_, ⟨"/", []⟩, [], Yaml.reader⟩) proper rfl hlegible
  obtain rfl := hfs.unique hlisting
  rcases hread with ⟨dss, hall, -⟩ | ⟨pre, p, c, post, dss, text, hsplit, hpre, -, -, hpath⟩
  · cases hall with
    | cons hfirst => exact absurd hfirst (hbad rfl)
  · cases hpre with
    | nil =>
      cases hsplit
      exact hpath
    | cons hfirst =>
      obtain ⟨rfl, -⟩ := List.cons.inj hsplit
      exact absurd hfirst (hbad rfl)

end Bundle

end OutOfBand
