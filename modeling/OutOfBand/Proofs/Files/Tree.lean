import OutOfBand.Files.Tree
import Mathlib.Data.List.Nodup

namespace OutOfBand

namespace Tree

/-- A file with its content stands at the end of the names that lead to it. -/
inductive Holds : Tree → List String → ByteArray → Prop
  | file (content : ByteArray) : Holds (.file content) [] content
  | folder {es : List (String × Tree)} {name : String} {t : Tree} {names : List String}
      {content : ByteArray} (entry : (name, t) ∈ es) (below : Holds t names content) :
      Holds (.folder es) (name :: names) content

/-- No folder has two entries of one name. -/
inductive Proper : Tree → Prop
  | file (content : ByteArray) : Proper (.file content)
  | folder {es : List (String × Tree)} (names : (es.map (·.1)).Nodup)
      (below : ∀ e ∈ es, Proper e.2) : Proper (.folder es)

/-- The same tree, whose folders may list their entries in another order. -/
inductive Relisted : Tree → Tree → Prop
  | refl (t : Tree) : Relisted t t
  | order {es es' : List (String × Tree)} (h : es.Perm es') : Relisted (.folder es) (.folder es')
  | entry {t t' : Tree} (pre post : List (String × Tree)) (name : String) (h : Relisted t t') :
      Relisted (.folder (pre ++ (name, t) :: post)) (.folder (pre ++ (name, t') :: post))
  | trans {t u v : Tree} (h : Relisted t u) (h' : Relisted u v) : Relisted t v

theorem holds_file_iff {names : List String} {content content' : ByteArray} :
    Holds (.file content) names content' ↔ names = [] ∧ content' = content := by
  constructor
  · rintro ⟨⟩
    exact ⟨rfl, rfl⟩
  · rintro ⟨rfl, rfl⟩
    exact .file _

theorem holds_folder_iff {es : List (String × Tree)} {names : List String} {content : ByteArray} :
    Holds (.folder es) names content ↔
      ∃ name t rest, names = name :: rest ∧ (name, t) ∈ es ∧ Holds t rest content := by
  constructor
  · rintro (_ | ⟨entry, below⟩)
    exact ⟨_, _, _, rfl, entry, below⟩
  · rintro ⟨name, t, rest, rfl, entry, below⟩
    exact .folder entry below

theorem proper_folder_iff {es : List (String × Tree)} :
    Proper (.folder es) ↔ (es.map (·.1)).Nodup ∧ ∀ e ∈ es, e.2.Proper := by
  constructor
  · rintro (_ | ⟨names, below⟩)
    exact ⟨names, below⟩
  · rintro ⟨names, below⟩
    exact .folder names below

theorem Proper.entry_unique {es : List (String × Tree)} (h : Proper (.folder es)) {name : String}
    {t u : Tree} (ht : (name, t) ∈ es) (hu : (name, u) ∈ es) : t = u := by
  have hinj := List.inj_on_of_nodup_map (proper_folder_iff.mp h).1
  exact congrArg Prod.snd (hinj ht hu rfl)

theorem Proper.find?_eq_some_iff {t u : Tree} (h : t.Proper) {name : String} :
    t.find? name = some u ↔ (name, u) ∈ t.entries := by
  have found {e : String × Tree} (he : t.entries.find? (·.1 = name) = some e) :
      e.1 = name ∧ e ∈ t.entries :=
    ⟨of_decide_eq_true (List.find?_some he :), List.mem_of_find?_eq_some he⟩
  constructor
  · intro hu
    obtain ⟨⟨n, v⟩, he, rfl⟩ := Option.map_eq_some_iff.mp hu
    obtain ⟨rfl, hmem⟩ := found he
    exact hmem
  · intro hu
    obtain ⟨⟨n, v⟩, he⟩ : ∃ e, t.entries.find? (·.1 = name) = some e :=
      Option.isSome_iff_exists.mp (List.find?_isSome.mpr ⟨_, hu, by simp⟩)
    obtain ⟨rfl, hmem⟩ := found he
    cases t with
    | file c => cases hu
    | folder es => rw [find?, he, h.entry_unique hmem hu, Option.map_some]

theorem Proper.of_find? {t u : Tree} (h : t.Proper) {name : String} (hu : t.find? name = some u) :
    u.Proper := by
  have hmem := h.find?_eq_some_iff.mp hu
  cases t with
  | file c => cases hmem
  | folder es => exact (proper_folder_iff.mp h).2 _ hmem

/-- One name of a walk; above the top there is the top. -/
theorem walk?_cons (above : List Tree) (t : Tree) (name : String) (rest : List String) :
    walk? above t (name :: rest) =
      if t.isFile then none
      else if name = ".." then walk? above.tail (above.headD t) rest
      else (t.find? name).bind fun child => walk? (t :: above) child rest := by
  cases above <;> rw [walk?] <;> cases t.find? name <;> rfl

theorem Proper.of_walk? {names : List String} {above : List Tree} {t u : Tree} (h : t.Proper)
    (habove : ∀ x ∈ above, x.Proper) (hu : walk? above t names = some u) : u.Proper := by
  induction names generalizing above t with
  | nil =>
    obtain rfl := Option.some.inj hu
    exact h
  | cons name rest ih =>
    rw [walk?_cons] at hu
    split_ifs at hu
    · cases above with
      | nil => exact ih h habove hu
      | cons x above =>
        obtain ⟨hx, habove⟩ := List.forall_mem_cons.mp habove
        exact ih hx habove hu
    · obtain ⟨child, hchild, hu⟩ := Option.bind_eq_some_iff.mp hu
      exact ih (h.of_find? hchild) (List.forall_mem_cons.mpr ⟨h, habove⟩) hu

mutual
theorem mem_files_iff : ∀ (t : Tree) {names : List String} {content : ByteArray},
    (names, content) ∈ t.files ↔ t.Holds names content
  | .file c, names, content => by
    rw [files, List.mem_singleton, Prod.mk.injEq, holds_file_iff]
  | .folder es, names, content => by rw [files, mem_filesOf_iff es, holds_folder_iff]
theorem mem_filesOf_iff : ∀ (es : List (String × Tree)) {names : List String}
    {content : ByteArray}, (names, content) ∈ filesOf es ↔
      ∃ name t rest, names = name :: rest ∧ (name, t) ∈ es ∧ t.Holds rest content
  | [], names, content => by simp [filesOf]
  | (name, t) :: es, names, content => by
    rw [filesOf, List.mem_append, mem_filesOf_iff es]
    simp only [List.mem_map, Prod.exists, Prod.mk.injEq, List.mem_cons]
    constructor
    · rintro (⟨rest, c, hmem, rfl, rfl⟩ | ⟨n, u, rest, rfl, hu, hrest⟩)
      · exact ⟨name, t, rest, rfl, .inl ⟨rfl, rfl⟩, (mem_files_iff t).mp hmem⟩
      · exact ⟨n, u, rest, rfl, .inr hu, hrest⟩
    · rintro ⟨n, u, rest, rfl, ⟨rfl, rfl⟩ | hu, hrest⟩
      · exact .inl ⟨rest, content, (mem_files_iff u).mpr hrest, rfl, rfl⟩
      · exact .inr ⟨n, u, rest, rfl, hu, hrest⟩
end

mutual
theorem nodup_files : ∀ {t : Tree}, t.Proper → (t.files.map (·.1)).Nodup
  | .file c, _ => by simp [files]
  | .folder es, h => by
    rw [files]
    exact nodup_filesOf (proper_folder_iff.mp h).1 (proper_folder_iff.mp h).2
theorem nodup_filesOf : ∀ {es : List (String × Tree)}, (es.map (·.1)).Nodup →
    (∀ e ∈ es, e.2.Proper) → ((filesOf es).map (·.1)).Nodup
  | [], _, _ => by simp [filesOf]
  | (name, t) :: es, hnames, hbelow => by
    obtain ⟨hname, hrest⟩ := List.nodup_cons.mp hnames
    obtain ⟨ht, hes⟩ := List.forall_mem_cons.mp hbelow
    have hfirst : ((t.files.map fun f => (name :: f.1, f.2)).map (·.1)).Nodup := by
      have h := List.Nodup.map (List.cons_injective (a := name)) (nodup_files ht)
      rwa [List.map_map] at h ⊢
    rw [filesOf, List.map_append]
    refine List.Nodup.append hfirst (nodup_filesOf hrest hes) fun names hmem hmem' => hname ?_
    obtain ⟨⟨_, c⟩, hf, rfl⟩ := List.mem_map.mp hmem
    obtain ⟨⟨_, c⟩, -, hf⟩ := List.mem_map.mp hf
    cases hf
    obtain ⟨⟨_, c'⟩, hf', hsame⟩ := List.mem_map.mp hmem'
    obtain ⟨n, u, rest, hn, hu, -⟩ := (mem_filesOf_iff es).mp hf'
    obtain ⟨rfl, -⟩ := List.cons.inj (hn.symm.trans hsame)
    exact List.mem_map.mpr ⟨_, hu, rfl⟩
end

namespace Relisted

variable {t t' : Tree}

theorem symm (h : Relisted t t') : Relisted t' t := by
  induction h with
  | refl t => exact .refl t
  | order h => exact .order h.symm
  | entry pre post name _ ih => exact .entry pre post name ih
  | trans _ _ ih ih' => exact ih'.trans ih

theorem isFile_eq (h : Relisted t t') : t.isFile = t'.isFile := by
  induction h with
  | refl t => rfl
  | order h => rfl
  | entry pre post name _ ih => rfl
  | trans _ _ ih ih' => exact ih.trans ih'

theorem proper (h : Relisted t t') (ht : t.Proper) : t'.Proper := by
  induction h with
  | refl t => exact ht
  | order h =>
    obtain ⟨names, below⟩ := proper_folder_iff.mp ht
    exact .folder ((h.map _).nodup_iff.mp names) fun e he => below e (h.mem_iff.mpr he)
  | @entry u u' pre post name _ ih =>
    obtain ⟨names, below⟩ := proper_folder_iff.mp ht
    refine .folder (by simpa using names) fun e he => ?_
    rcases List.mem_append.mp he with he | he
    · exact below e (List.mem_append_left _ he)
    · rcases List.mem_cons.mp he with rfl | he
      · exact ih (below (name, u) (by simp))
      · exact below e (by simp [he])
  | trans _ _ ih ih' => exact ih' (ih ht)

theorem holds (h : Relisted t t') {names : List String} {content : ByteArray}
    (ht : t.Holds names content) : t'.Holds names content := by
  induction h generalizing names with
  | refl t => exact ht
  | order h =>
    obtain ⟨name, u, rest, rfl, hu, hrest⟩ := holds_folder_iff.mp ht
    exact .folder (h.mem_iff.mp hu) hrest
  | @entry u u' pre post name _ ih =>
    obtain ⟨n, v, rest, rfl, hv, hrest⟩ := holds_folder_iff.mp ht
    rcases List.mem_append.mp hv with hv | hv
    · exact .folder (List.mem_append_left _ hv) hrest
    · rcases List.mem_cons.mp hv with hv | hv
      · cases hv
        exact .folder (by simp) (ih hrest)
      · exact .folder (by simp [hv]) hrest
  | trans _ _ ih ih' => exact ih' (ih ht)

/-- Each entry is still there, itself perhaps relisted. -/
theorem exists_entry (h : Relisted t t') {name : String} {u : Tree} (hu : (name, u) ∈ t.entries) :
    ∃ u', (name, u') ∈ t'.entries ∧ Relisted u u' := by
  induction h generalizing u with
  | refl t => exact ⟨u, hu, .refl u⟩
  | order h => exact ⟨u, h.mem_iff.mp hu, .refl u⟩
  | @entry v v' pre post n hv _ =>
    rcases List.mem_append.mp hu with hu | hu
    · exact ⟨u, List.mem_append_left _ hu, .refl u⟩
    · rcases List.mem_cons.mp hu with hu | hu
      · cases hu
        exact ⟨v', List.mem_append_right _ List.mem_cons_self, hv⟩
      · exact ⟨u, List.mem_append_right _ (List.mem_cons_of_mem _ hu), .refl u⟩
  | trans _ _ ih ih' =>
    obtain ⟨v, hv, huv⟩ := ih hu
    obtain ⟨w, hw, hvw⟩ := ih' hv
    exact ⟨w, hw, huv.trans hvw⟩

/-- A walk comes to the same place, itself perhaps relisted. -/
theorem exists_walk? {names : List String} {above above' : List Tree} {u : Tree}
    (h : Relisted t t') (ht : t.Proper) (habove : List.Forall₂ Relisted above above')
    (hproper : ∀ x ∈ above, x.Proper) (hu : walk? above t names = some u) :
    ∃ u', walk? above' t' names = some u' ∧ Relisted u u' := by
  induction names generalizing above above' t t' with
  | nil =>
    obtain rfl := Option.some.inj hu
    exact ⟨t', rfl, h⟩
  | cons name rest ih =>
    rw [walk?_cons] at hu ⊢
    rw [← h.isFile_eq]
    split_ifs at hu ⊢
    · cases habove with
      | nil => exact ih h ht .nil hproper hu
      | cons hx habove =>
        obtain ⟨hxp, hproper⟩ := List.forall_mem_cons.mp hproper
        exact ih hx hxp habove hproper hu
    · obtain ⟨child, hchild, hu⟩ := Option.bind_eq_some_iff.mp hu
      obtain ⟨child', hmem, hrel⟩ := h.exists_entry (ht.find?_eq_some_iff.mp hchild)
      rw [(h.proper ht).find?_eq_some_iff.mpr hmem, Option.bind_some]
      exact ih hrel (ht.of_find? hchild) (.cons h habove)
        (List.forall_mem_cons.mpr ⟨ht, hproper⟩) hu

end Relisted

end Tree

namespace Machine

variable {m : Machine} {p : Path} {t : Tree}

theorem proper_of_lookup? (h : m.top.Proper) (ht : m.lookup? p = some t) : t.Proper :=
  h.of_walk? (by simp) ht

/-- A path leads to the same files however the folders list their entries. -/
theorem exists_lookup?_relisted {top : Tree} (h : m.top.Proper) (htop : m.top.Relisted top)
    (ht : m.lookup? p = some t) :
    ∃ t', { m with top := top }.lookup? p = some t' ∧ t.Relisted t' :=
  htop.exists_walk? h .nil (by simp) ht

end Machine

end OutOfBand
