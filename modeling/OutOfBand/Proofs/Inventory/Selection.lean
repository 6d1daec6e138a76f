import OutOfBand.Fleet.Selection
import OutOfBand.Proofs.Sequence
import OutOfBand.Proofs.Value.Key

namespace OutOfBand

theorem orElse_str (s : String) : orElse (some (.str s)) (.str "") = .str s := by
  by_cases hs : s = "" <;> simp [orElse, Value.isGiven, hs]

theorem orElse_map (es : Entries) : orElse (some (.map es)) (.map []) = .map es := by
  cases es <;> rfl

namespace Document

/-- A document as selection supposes it: its name is a text and its labels can be read. -/
structure Regular (d : Document) : Prop where
  name : ∃ s, d.name = .ok (.str s)
  labels : ∃ ls, d.labels = .ok ls

def isHost (d : Document) : Bool :=
  match d.kind with
  | .ok (.str kind) => kind = baremetalHostKind
  | _ => false

def hasName (d : Document) (name : String) : Bool :=
  match d.name with
  | .ok (.str s) => s = name
  | _ => false

/-- Whether the labels of a document satisfy an expression. -/
def satisfies (d : Document) (expression : String) : Bool :=
  match Label.parse expression, d.labels with
  | .ok rs, .ok ls => holdAll rs ls
  | _, _ => false

end Document

namespace HostSelector

/-- Whether a selector asks for a document. -/
def picks (s : HostSelector) (d : Document) : Bool :=
  d.isHost && match s with
    | byName name => d.hasName name
    | byLabel expression => d.satisfies expression

/-- The documents of a bundle that a selector asks for. -/
def picked (s : HostSelector) (b : Bundle) : List Document := b.documents.filter s.picks

def query : HostSelector → Except LabelError Query
  | byName name => .ok ((Query.ofKind baremetalHostKind).withName (.str name))
  | byLabel expression => (Query.ofKind baremetalHostKind).withLabel expression

/-- What is wrong with a selector in a bundle: its expression, or the number of documents. -/
def mismatch? (s : HostSelector) (b : Bundle) : Option DocumentError :=
  match s.query with
  | .error e => some (.label e)
  | .ok q =>
    match s, s.picked b with
    | _, [] => some (.notFound q)
    | byName _, ds => if ds.length = 1 then none else some (.notUnique q ds.length)
    | byLabel _, _ => none

end HostSelector

namespace Document

theorem isHost_of_kind {d : Document} {v : Value} (h : d.kind = .ok v) :
    d.isHost = (Value.str baremetalHostKind).same v := by
  rw [Bool.eq_iff_iff, Value.same_str_iff, isHost, h]
  cases v <;> simp

theorem hasName_of_name {d : Document} {v : Value} (name : String) (h : d.name = .ok v) :
    d.hasName name = (Value.str name).same v := by
  rw [Bool.eq_iff_iff, Value.same_str_iff, hasName, h]
  cases v <;> simp

/-- Metadata and labels that are mappings, or nothing, and a name that is a text, or nothing. -/
theorem regular_of_entries {d : Document} {es ms ls : Entries} {name : String}
    (hr : d.raw = .map es) (hm : orElse (Entries.get? es "metadata") (.map []) = .map ms)
    (hl : orElse (Entries.get? ms "labels") (.map []) = .map ls)
    (hn : orElse (Entries.get? ms "name") (.str "") = .str name) : d.Regular := by
  have hmeta : d.metadata = .ok (.map ms) := by rw [metadata, hr, ← hm]; rfl
  constructor
  · refine ⟨name, ?_⟩
    rw [Document.name, metadataField, hmeta, ← hn]
    rfl
  · refine ⟨ls.foldl (fun ls e => putLabel ls e.1.text e.2.text) [], ?_⟩
    have hfield : d.metadataField "labels" (.map []) = .ok (.map ls) := by
      rw [metadataField, hmeta, ← hl]
      rfl
    rw [labels, hfield]
    rfl

theorem raw_of_name {d : Document} {v : Value} (h : d.name = .ok v) : ∃ es, d.raw = .map es := by
  cases hr : d.raw with
  | map es => exact ⟨es, rfl⟩
  | _ => simp [name, metadataField, metadata, hr, Value.member, bind, Except.bind, Except.map] at h

theorem kind_of_name {d : Document} {v : Value} (h : d.name = .ok v) : ∃ k, d.kind = .ok k := by
  obtain ⟨es, hr⟩ := raw_of_name h
  exact ⟨_, by rw [kind, hr]; rfl⟩

theorem metadata_of_labels {d : Document} {ls : Labels} (h : d.labels = .ok ls) :
    ∃ ms, d.metadata = .ok (.map ms) := by
  simp only [labels, metadataField, bind_eq_ok_iff] at h
  obtain ⟨es, ⟨md, hmd, x, hx, -⟩, -⟩ := h
  cases md with
  | map ms => exact ⟨ms, hmd⟩
  | _ => simp [Value.member] at hx

theorem name_of_labels {d : Document} {ls : Labels} (h : d.labels = .ok ls) :
    ∃ n, d.name = .ok n := by
  obtain ⟨ms, hmeta⟩ := metadata_of_labels h
  exact ⟨_, by rw [name, metadataField, hmeta]; rfl⟩

end Document

namespace Query

theorem liftShape_eq_ok_iff {α : Type} {x : Except ShapeFault α} {a : α} :
    liftShape x = .ok a ↔ x = .ok a := by
  cases x <;> simp [liftShape]

/-- Reading a document goes on until a condition fails. -/
theorem accepts_host {q : Query} {d : Document} (hk : q.kind = some (.str baremetalHostKind))
    (hn : q.namespaceName = none) :
    q.accepts d = do
      let _ ← liftShape d.kind
      if d.isHost then
        if ← liftShape (fieldHolds q.name d.name) then
          let labels ← liftShape d.labels
          match q.requirements with
          | .ok rs => return holdAll rs labels
          | .error e => throw (.label e)
        else return false
      else return false := by
  simp only [accepts, hk, hn, fieldHolds, bind, Except.bind]
  cases h : d.kind with
  | error f => rfl
  | ok v =>
    rw [Document.isHost_of_kind h]
    simp only [Except.map, liftShape]
    cases (Value.str baremetalHostKind).same v with
    | false => rfl
    | true =>
      cases q.name with
      | none => rfl
      | some name =>
        cases d.name with
        | error f => rfl
        | ok v =>
          cases hv : name.same v with
          | false => simp [hv]
          | true =>
            simp only [hv]
            rfl

end Query

namespace HostSelector

theorem query_byLabel {e : String} {q : Query} (h : (byLabel e).query = .ok q) :
    ∃ rs, Label.parse e = .ok rs ∧ q = { Query.ofKind baremetalHostKind with label := some e } := by
  simp only [query, Query.withLabel, bind, Except.bind] at h
  cases hp : Label.parse e with
  | error f => simp [hp] at h
  | ok rs =>
    rw [hp] at h
    cases h
    exact ⟨rs, rfl, rfl⟩

theorem kind_of_query {s : HostSelector} {q : Query} (h : s.query = .ok q) :
    q.kind = some (.str baremetalHostKind) ∧ q.namespaceName = none := by
  cases s with
  | byName name =>
    cases h
    exact ⟨rfl, rfl⟩
  | byLabel e =>
    obtain ⟨rs, -, rfl⟩ := query_byLabel h
    exact ⟨rfl, rfl⟩

/-- A query that can tell accepts what its selector picks. -/
theorem picks_of_accepts {s : HostSelector} {q : Query} {d : Document} {t : Bool}
    (hq : s.query = .ok q) (h : q.accepts d = .ok t) : s.picks d = t := by
  obtain ⟨hk, hn⟩ := kind_of_query hq
  rw [Query.accepts_host hk hn] at h
  cases hkind : d.kind with
  | error f => simp [hkind, Query.liftShape, bind, Except.bind] at h
  | ok kind =>
    simp only [hkind, Query.liftShape, bind, Except.bind] at h
    cases hhost : d.isHost with
    | false =>
      simp only [hhost] at h
      cases h
      simp [picks, hhost]
    | true =>
      simp only [hhost, if_true] at h
      cases s with
      | byName name =>
        cases hq
        cases hname : d.name with
        | error f =>
          simp [Query.withName, Query.fieldHolds, hname, Except.map] at h
        | ok v =>
          have hsame := Document.hasName_of_name name hname
          simp only [Query.withName, Query.fieldHolds, hname, Except.map, ← hsame] at h
          cases hlabels : d.labels <;> cases hn : d.hasName name <;>
            simp_all [picks, Query.requirements, Query.ofKind, Query.all, holdAll, pure,
              Except.pure]
      | byLabel e =>
        obtain ⟨rs, hrs, rfl⟩ := query_byLabel hq
        cases hlabels : d.labels with
        | error f => simp [Query.fieldHolds, Query.ofKind, Query.all, hlabels] at h
        | ok ls =>
          simp [Query.fieldHolds, Query.ofKind, Query.all, hlabels, Query.requirements, hrs] at h
          cases h
          simp [picks, hhost, Document.satisfies, hrs, hlabels]

theorem accepts_of_regular {s : HostSelector} {q : Query} {d : Document} (hq : s.query = .ok q)
    (hd : d.Regular) : q.accepts d = .ok (s.picks d) := by
  suffices ∃ t, q.accepts d = .ok t by
    obtain ⟨t, ht⟩ := this
    rw [ht, picks_of_accepts hq ht]
  obtain ⟨hk, hn⟩ := kind_of_query hq
  obtain ⟨name, hname⟩ := hd.name
  obtain ⟨ls, hls⟩ := hd.labels
  obtain ⟨kind, hkind⟩ := Document.kind_of_name hname
  rw [Query.accepts_host hk hn, hkind]
  simp only [Query.liftShape, bind, Except.bind, hname, hls]
  cases d.isHost with
  | false => exact ⟨false, rfl⟩
  | true =>
    cases s with
    | byName n =>
      cases hq
      cases hv : (Value.str n).same (.str name) with
      | false => exact ⟨false, by simp [Query.fieldHolds, Query.withName, Except.map, hv]; rfl⟩
      | true => exact ⟨true, by simp [Query.fieldHolds, Query.withName, Except.map, hv]; rfl⟩
    | byLabel e =>
      obtain ⟨rs, hrs, rfl⟩ := query_byLabel hq
      refine ⟨holdAll rs ls, ?_⟩
      simp [Query.fieldHolds, Query.ofKind, Query.all, Query.requirements, hrs]
      rfl

end HostSelector

namespace Bundle

theorem accepts_of_mem_accepted {q : Query} {ds xs : List Document} (h : accepted q ds = .ok xs) :
    ∀ d ∈ xs, d ∈ ds ∧ q.accepts d = .ok true := by
  induction ds generalizing xs with
  | nil =>
    cases h
    simp
  | cons e ds ih =>
    obtain ⟨here, hhere, h⟩ := bind_eq_ok_iff.mp h
    obtain ⟨rest, hrest, h⟩ := bind_eq_ok_iff.mp h
    cases h
    intro d hd
    cases here with
    | false => exact (ih hrest d hd).imp_left (List.mem_cons_of_mem e)
    | true =>
      rcases List.mem_cons.mp hd with rfl | hd
      · exact ⟨List.mem_cons_self, hhere⟩
      · exact (ih hrest d hd).imp_left (List.mem_cons_of_mem e)

theorem accepts_of_selectOne {b : Bundle} {q : Query} {d : Document} (h : b.selectOne q = .ok d) :
    d ∈ b.documents ∧ q.accepts d = .ok true := by
  obtain ⟨ds, hds, h⟩ := bind_eq_ok_iff.mp h
  split at h
  next e =>
    cases h
    exact accepts_of_mem_accepted hds _ List.mem_cons_self
  next => cases h
  next => cases h

theorem accepted_insert {q : Query} {d : Document} (h : q.accepts d = .ok false)
    (pre post : List Document) : accepted q (pre ++ d :: post) = accepted q (pre ++ post) := by
  induction pre with
  | nil =>
    rw [List.nil_append, List.nil_append, accepted, h]
    cases accepted q post <;> rfl
  | cons e pre ih => rw [List.cons_append, List.cons_append, accepted, accepted, ih]

theorem selectOne_insert {q : Query} {d : Document} (h : q.accepts d = .ok false)
    (pre post : List Document) :
    selectOne ⟨pre ++ d :: post⟩ q = selectOne ⟨pre ++ post⟩ q := by
  rw [selectOne, selectOne, select, select, accepted_insert h]

theorem accepted_eq_ok {s : HostSelector} {q : Query} (hq : s.query = .ok q) :
    ∀ {ds xs : List Document}, accepted q ds = .ok xs → xs = ds.filter s.picks
  | [], xs, h => (Except.ok.inj h).symm
  | d :: ds, xs, h => by
    simp only [accepted, bind, Except.bind] at h
    cases hd : q.accepts d with
    | error e => simp [hd] at h
    | ok t =>
      cases hds : accepted q ds with
      | error e => simp [hd, hds] at h
      | ok ys =>
        have ih := accepted_eq_ok hq hds
        simp only [hd, hds] at h
        cases h
        rw [List.filter_cons, HostSelector.picks_of_accepts hq hd, ih]

theorem accepted_of_regular {s : HostSelector} {q : Query} (hq : s.query = .ok q) :
    ∀ {ds : List Document}, (∀ d ∈ ds, d.Regular) → accepted q ds = .ok (ds.filter s.picks)
  | [], _ => rfl
  | d :: ds, h => by
    have hd := HostSelector.accepts_of_regular hq (h d (by simp))
    have ih := accepted_of_regular hq fun e he => h e (List.mem_cons_of_mem d he)
    simp only [accepted, hd, ih, bind, Except.bind, List.filter_cons]
    rfl

end Bundle

namespace HostSelector

/-- What a selector yields where its query can be answered. -/
def yields (s : HostSelector) (b : Bundle) : Except DocumentError (List Document) :=
  match s.mismatch? b with
  | some e => .error e
  | none => .ok (s.picked b)

theorem yields_eq_ok_iff {s : HostSelector} {b : Bundle} {ds : List Document} :
    s.yields b = .ok ds ↔ s.mismatch? b = none ∧ s.picked b = ds := by
  rw [yields]
  cases s.mismatch? b <;> simp

theorem documents_of_select {s : HostSelector} {q : Query} {b : Bundle} (hq : s.query = .ok q)
    (h : b.select q = .ok (s.picked b)) : s.documents b = s.yields b := by
  cases s with
  | byName name =>
    cases hq
    simp only [documents, Bundle.selectOne, h, bind, Except.bind, yields, mismatch?, query]
    cases (byName name).picked b with
    | nil => rfl
    | cons d ds =>
      cases ds with
      | nil => rfl
      | cons e ds => simp [throw, throwThe, MonadExceptOf.throw]
  | byLabel e =>
    simp only [yields, mismatch?, hq]
    change (Query.ofKind baremetalHostKind).withLabel e = _ at hq
    simp only [documents, hq, h, bind, Except.bind]
    cases (byLabel e).picked b <;> rfl

theorem documents_of_bad_query {s : HostSelector} {e : LabelError} {b : Bundle}
    (hq : s.query = .error e) : s.documents b = s.yields b := by
  cases s with
  | byName name => cases hq
  | byLabel l =>
    simp only [yields, mismatch?, hq]
    change (Query.ofKind baremetalHostKind).withLabel l = _ at hq
    simp only [documents, hq]
    rfl

/-- Among documents that can be read, a selector yields those that it picks, or what is wrong. -/
theorem documents_of_regular {b : Bundle} (hb : ∀ d ∈ b.documents, d.Regular) (s : HostSelector) :
    s.documents b = s.yields b := by
  cases hq : s.query with
  | error e => exact documents_of_bad_query hq
  | ok q => exact documents_of_select hq (Bundle.accepted_of_regular hq hb)

theorem yields_of_documents {s : HostSelector} {b : Bundle} {ds : List Document}
    (h : s.documents b = .ok ds) : s.yields b = .ok ds := by
  cases hq : s.query with
  | error e => rw [← documents_of_bad_query hq, h]
  | ok q =>
    suffices ∃ xs, b.select q = .ok xs by
      obtain ⟨xs, hxs⟩ := this
      rw [← h, documents_of_select hq (hxs.trans (congrArg _ (Bundle.accepted_eq_ok hq hxs)))]
    cases hs : b.select q with
    | ok xs => exact ⟨xs, rfl⟩
    | error e =>
      cases s with
      | byName name =>
        cases hq
        simp [documents, Bundle.selectOne, hs, bind, Except.bind] at h
      | byLabel l =>
        change (Query.ofKind baremetalHostKind).withLabel l = _ at hq
        simp [documents, hq, hs, bind, Except.bind] at h

end HostSelector

end OutOfBand
