import OutOfBand.CommandLine.Invocation
import OutOfBand.Proofs.Inventory.QuotedLabels
import OutOfBand.Proofs.Yaml.Lines

namespace OutOfBand

open Yaml (Node Token IsWord IsWordText build plainType NeedsNoQuotes)
open Yaml.Lexer
open CommandLine (ephemeralLabel)

/-- A text that is written without quotes and looks like nothing else. -/
structure IsBareText (s : String) : Prop where
  word : IsWord s.toList
  type : plainType s = "str"
  short : s.toList.length ≤ 1024

/-- A host with one label, as it is written. -/
def hostText (name key value : String) : String :=
  "kind: BareMetalHost\nmetadata:\n  name: " ++ name ++ "\n  labels:\n    " ++ key ++ ": " ++
    value ++ "\n"

/-- A text in quotes. -/
def inQuotes (v : String) : String := "\"" ++ v ++ "\""

theorem isWord_of_isLabelValue {v : String} (hv : IsLabelValue v) :
    v.toList = [] ∨ IsWord v.toList := by
  have hchars := isWordText_of_isLabelValue hv
  have hfirst := hv.first
  cases hs : v.toList with
  | nil => exact .inl rfl
  | cons c r => exact .inr ⟨⟨c, r, rfl, hfirst c (hs ▸ rfl)⟩, hs ▸ hchars⟩

section Tokens

/-- A line break and the indentation of the line after it. -/
def newLine (m : Nat) (r : List Char) : List Char := '\n' :: (List.replicate m ' ' ++ r)

/-- The words of a host up to the colon behind the key of the label, and the rest. -/
def hostChars (name key : String) (r : List Char) : List Char :=
  "kind".toList ++ ':' :: ' ' :: ("BareMetalHost".toList ++ newLine 0 ("metadata".toList ++ ':' ::
    newLine 2 ("name".toList ++ ':' :: ' ' :: (name.toList ++ newLine 2 ("labels".toList ++ ':' ::
    newLine 4 (key.toList ++ ':' :: ' ' :: r))))))

theorem hostText_toList (name key value : String) :
    (hostText name key value).toList = hostChars name key (value.toList ++ ['\n']) := by
  -- an equation for the text would be computed through it
  delta hostText
  simp only [String.toList_append, List.append_assoc]
  rfl

/-- The tokens up to the value of the label. -/
def hostTokens (name key : String) : List Token :=
  [.blockMapping, .key, .scalar "kind" true, .value, .scalar "BareMetalHost" true, .key,
    .scalar "metadata" true, .value, .blockMapping, .key, .scalar "name" true, .value,
    .scalar name true, .key, .scalar "labels" true, .value, .blockMapping, .key, .scalar key true,
    .value]

/-- The tokens behind it. -/
def endTokens : List Token := [.blockEnd, .blockEnd, .blockEnd, .streamEnd]

variable {name key v : String} {r : List Char} {value : List Token}

theorem run_hostChars (hname : IsBareText name) (hkey : IsBareText key) :
    ∃ i line, ∀ fuel, run (fuel + 12) (start (hostChars name key r)) =
      run fuel (between ⟨' ' :: r, i, line, 4 + key.toList.length + 1⟩ (hostTokens name key) 4
        [2, 0, -1] false) := by
  have hkind : IsWord "kind".toList := .of_head rfl (by decide)
  have hhost : IsWord "BareMetalHost".toList := .of_head rfl (by decide)
  have hmetadata : IsWord "metadata".toList := .of_head rfl (by decide)
  have hnameKey : IsWord "name".toList := .of_head rfl (by decide)
  have hlabels : IsWord "labels".toList := .of_head rfl (by decide)
  apply Exists.intro
  apply Exists.intro
  intro fuel
  -- one step for each word and each colon, line by line
  rw [hostChars]
  refine (run_firstKey hkind rfl (by decide) (by decide) (ready_word hkind 0 (by decide))).trans ?_
  refine (run_plain (m := 0) hhost (by decide) hmetadata.inert_head
    (fun _ _ => hmetadata.atDocumentMark 0) (ready_word hhost 1 (by simp))).trans ?_
  refine (run_nextKey hmetadata rfl (by decide) rfl (ready_word hmetadata 0 (by decide))).trans ?_
  refine (run_firstKey hnameKey rfl (by decide) (by decide)
    (ready_nextWord hnameKey (by decide))).trans ?_
  refine (run_plain hname.word (by decide) hlabels.inert_head
    (fun _ _ => hlabels.atDocumentMark 2) (ready_word hname.word 1 (by simp))).trans ?_
  refine (run_nextKey hlabels rfl (by decide) rfl (ready_word hlabels 0 (by decide))).trans ?_
  refine (run_firstKey hkey.word rfl hkey.short (by decide)
    (ready_nextWord hkey.word (by decide))).trans ?_
  simp only [String.ofList_toList]
  rfl

theorem run_plainLabel (hname : IsBareText name) (hkey : IsBareText key) (hv : IsLabelValue v)
    (fuel : Nat) :
    run (fuel + 14) (start (hostChars name key (v.toList ++ ['\n']))) =
      ((hostTokens name key ++ (if v.toList = [] then [] else [Token.scalar v true]) ++
        endTokens).toArray, none) := by
  obtain ⟨i, line, hrun⟩ := run_hostChars (r := v.toList ++ ['\n']) hname hkey
  refine (hrun (fuel + 2)).trans ?_
  rcases isWord_of_isLabelValue hv with hnil | hword
  · rw [hnil]
    refine (run_end (ready_newLine (n := 1) (m := 0) (r := []) nofun)).trans ?_
    simp [endTokens]
  · refine (run_plain (m := 0) (r := []) hword (by decide) nofun (fun _ _ => rfl)
      (ready_word hword 1 (by omega))).trans ?_
    refine (run_end (ready_spaces (m := 0) (r := []) nofun)).trans ?_
    simp [hword.ne_nil, endTokens]

theorem run_quotedLabel (hname : IsBareText name) (hkey : IsBareText key) (hv : IsLabelValue v)
    (fuel : Nat) :
    run (fuel + 14) (start (hostChars name key ((inQuotes v).toList ++ ['\n']))) =
      ((hostTokens name key ++ [Token.scalar v false] ++ endTokens).toArray, none) := by
  have hquoted : (inQuotes v).toList ++ ['\n'] = '"' :: v.toList ++ ['"', '\n'] := by
    simp [inQuotes]
  obtain ⟨i, line, hrun⟩ := run_hostChars (r := (inQuotes v).toList ++ ['\n']) hname hkey
  refine (hrun (fuel + 2)).trans ?_
  have hready : Ready (between ⟨List.replicate 1 ' ' ++ ('"' :: v.toList ++ ['"', '\n']), i, line,
      4 + key.toList.length + 1⟩ (hostTokens name key) 4 [2, 0, -1] false) _ :=
    ready_spaces (.cons (by decide))
  rw [unwind_between (by omega)] at hready
  rw [hquoted]
  refine (run_quoted (isWordText_of_isLabelValue hv).inert hready).trans ?_
  refine (run_end (ready_newLine (n := 0) (m := 0) (r := []) nofun)).trans ?_
  simp [endTokens]

theorem allowed_hostChars (hname : IsBareText name) (hkey : IsBareText key)
    (hr : ∀ c ∈ r, Yaml.isAllowed c = true) :
    ∀ c ∈ hostChars name key r, Yaml.isAllowed c = true := by
  have hname : ∀ c ∈ name.toList, Yaml.isAllowed c = true := fun c hc =>
    (hname.word.inert c hc).allowed
  have hkey : ∀ c ∈ key.toList, Yaml.isAllowed c = true := fun c hc =>
    (hkey.word.inert c hc).allowed
  simp only [hostChars, newLine, List.forall_mem_append, List.forall_mem_cons]
  have hwords (w : List Char) (hw : w.all Yaml.isAllowed = true) :
      ∀ c ∈ w, Yaml.isAllowed c = true := List.all_eq_true.mp hw
  refine ⟨?_, rfl, rfl, ?_, rfl, ?_, ?_, rfl, rfl, ?_, ?_, rfl, rfl, hname, rfl, ?_, ?_, rfl, rfl,
    ?_, hkey, rfl, rfl, hr⟩ <;> exact hwords _ (by decide)

theorem tokens_hostText {x : String} (hname : IsBareText name) (hkey : IsBareText key)
    (hx : ∀ c ∈ x.toList, Yaml.isAllowed c = true)
    (h : ∀ fuel, run (fuel + 14) (start (hostChars name key (x.toList ++ ['\n']))) =
      ((hostTokens name key ++ value ++ endTokens).toArray, none)) :
    Token.ofText (hostText name key x).toList =
      (hostTokens name key ++ value ++ endTokens, .malformed) := by
  rw [hostText_toList]
  refine Yaml.Token.ofText_of_run (allowed_hostChars hname hkey ?_) (k := 14) ?_ ?_ h
  · exact List.forall_mem_append.mpr ⟨hx, List.forall_mem_singleton.mpr rfl⟩
  · exact fun h => (by decide : 'k' ≠ Yaml.byteOrderMark) (Option.some.inj h)
  · simp [hostChars]
    omega

end Tokens

section Nodes

/-- The tokens of a label's value, none for an empty one, and its node. -/
def LabelToken (value : List Token) (label : Node) : Prop :=
  value = [] ∧ label = .scalar none "" true ∨
    ∃ v plain, value = [.scalar v plain] ∧ label = .scalar none v plain

/-- The nodes of a host with one label. -/
def hostNode (name key : String) (label : Node) : Node :=
  .mapping none [(.scalar none "kind" true, .scalar none "BareMetalHost" true),
    (.scalar none "metadata" true, .mapping none
      [(.scalar none "name" true, .scalar none name true),
        (.scalar none "labels" true, .mapping none [(.scalar none key true, label)])])]

variable {name key v : String} {value : List Token} {label : Node}

theorem readDocument_hostTokens (h : LabelToken value label) :
    (Node.readDocument true).run
      ⟨hostTokens name key ++ value ++ endTokens, .malformed, Node.defaultHandles, []⟩ =
      .ok (some (hostNode name key label),
        ⟨[.streamEnd], .malformed, Node.defaultHandles, []⟩) := by
  -- the tokens are all there, whatever words they carry, so reading them is a computation
  rcases h with ⟨rfl, rfl⟩ | ⟨v, _ | _, rfl, rfl⟩
  · rfl
  · rfl
  · rfl

theorem ofText_of_hostTokens {t : String}
    (ht : Token.ofText t.toList = (hostTokens name key ++ value ++ endTokens, .malformed))
    (h : LabelToken value label) : Node.ofText t = ([hostNode name key label], none) := by
  have hsource : Node.sourceOf t =
      ⟨hostTokens name key ++ value ++ endTokens, .malformed, Node.defaultHandles, []⟩ := by
    rw [Node.sourceOf, ht]
  have hlength : (hostTokens name key ++ value ++ endTokens).length + 2 =
      value.length + 24 + 1 + 1 := by simp [hostTokens, endTokens]
  rw [Node.ofText, hsource, hlength, Node.readAll, readDocument_hostTokens h]
  rfl

theorem allowed_of_isLabelValue (hv : IsLabelValue v) : ∀ c ∈ v.toList, Yaml.isAllowed c = true :=
  fun c hc => ((isWordText_of_isLabelValue hv).inert c hc).allowed

theorem ofText_hostText_plain (hname : IsBareText name) (hkey : IsBareText key)
    (hv : IsLabelValue v) :
    Node.ofText (hostText name key v) = ([hostNode name key (.scalar none v true)], none) := by
  refine ofText_of_hostTokens
    (tokens_hostText hname hkey (allowed_of_isLabelValue hv) (run_plainLabel hname hkey hv)) ?_
  split
  next h => exact .inl ⟨rfl, by rw [String.toList_eq_nil_iff.mp h]⟩
  next => exact .inr ⟨v, true, rfl, rfl⟩

theorem ofText_hostText_quoted (hname : IsBareText name) (hkey : IsBareText key)
    (hv : IsLabelValue v) :
    Node.ofText (hostText name key (inQuotes v)) =
      ([hostNode name key (.scalar none v false)], none) := by
  refine ofText_of_hostTokens (tokens_hostText hname hkey ?_ (run_quotedLabel hname hkey hv))
    (.inr ⟨v, false, rfl, rfl⟩)
  have hquoted : (inQuotes v).toList = '"' :: v.toList ++ ['"'] := by simp [inQuotes]
  rw [hquoted]
  exact List.forall_mem_append.mpr
    ⟨List.forall_mem_cons.mpr ⟨rfl, allowed_of_isLabelValue hv⟩, List.forall_mem_singleton.mpr rfl⟩

end Nodes

section Loading

theorem stands_of_plainType {s : String} (h : plainType s = "str") :
    (Node.scalar none s true).Stands (.str s) := fun fuel depth => by
  rw [build_plain, h]
  rfl

/-- The place of the only label of a host. -/
def hostPlace (name : String) {key : String} (hkey : IsBareText key) : LabelPlace (.str key) where
  metadata :=
    { tag := none, name := .scalar none "metadata" true, after := []
      before := [(.scalar none "kind" true, .scalar none "BareMetalHost" true)]
      isMap := rfl, stands := stands_of_plainType (by decide +kernel) }
  labels :=
    { tag := none, name := .scalar none "labels" true, after := []
      before := [(.scalar none "name" true, .scalar none name true)]
      isMap := rfl, stands := stands_of_plainType (by decide +kernel) }
  label :=
    { tag := none, name := .scalar none key true, before := [], after := []
      isMap := rfl, stands := stands_of_plainType hkey.type }

variable {name key v : String}

theorem inForce_hostPlace {hkey : IsBareText key} : (hostPlace name hkey).InForce where
  metadata := nofun
  labels := nofun
  label := by
    rintro pre post hothers e he
    cases hothers
    simp at he

theorem isWrittenPlain_hostText (hname : IsBareText name) (hkey : IsBareText key)
    (hv : IsLabelValue v) : (hostPlace name hkey).IsWrittenPlain v (hostText name key v) :=
  ofText_hostText_plain hname hkey hv

theorem isWrittenQuoted_hostText (hname : IsBareText name) (hkey : IsBareText key)
    (hv : IsLabelValue v) :
    (hostPlace name hkey).IsWrittenQuoted v (hostText name key (inQuotes v)) :=
  ofText_hostText_quoted hname hkey hv

/-- A host with one label, as it is loaded. -/
def hostDocument (name key v : String) : Document :=
  ⟨.map [(.str "kind", .str "BareMetalHost"), (.str "metadata", .map [(.str "name", .str name),
    (.str "labels", .map [(.str key, .str v)])])], none⟩

theorem toValue_hostNode (hname : IsBareText name) (hkey : IsBareText key) :
    (hostNode name key (.scalar none v false)).toValue = .ok (hostDocument name key v).raw := by
  let p := hostPlace name hkey
  have hentry {k x : String} (hk : plainType k = "str") (hx : plainType x = "str")
      (fuel depth : Nat) : Yaml.EntryStands fuel depth (.scalar none k true, .scalar none x true)
        (.str k, .str x) :=
    ⟨stands_of_plainType hk, rfl, stands_of_plainType hx fuel depth⟩
  obtain ⟨fuel, hfuel, -⟩ := p.exists_fuel (x := .scalar none v false) rfl
  have hlabels : build (fuel + 4) 2 (p.label.fill (.scalar none v false)) =
      .ok (.map [(.str key, .str v)]) :=
    Yaml.build_mapping_of_stands (.cons ⟨p.label.stands, rfl, build_quoted v fuel 3⟩ .nil) rfl
  have hmetadata : build (fuel + 7) 1 (p.labels.fill (p.label.fill (.scalar none v false))) =
      .ok (.map [(.str "name", .str name), (.str "labels", .map [(.str key, .str v)])]) :=
    Yaml.build_mapping_of_stands (.cons (hentry (by decide +kernel) hname.type _ _)
      (.cons ⟨p.labels.stands, rfl, hlabels⟩ .nil)) rfl
  have hroot : build (fuel + 10) 0 (p.fill (.scalar none v false)) =
      .ok (hostDocument name key v).raw :=
    Yaml.build_mapping_of_stands (.cons (hentry (by decide +kernel) (by decide +kernel) _ _)
      (.cons ⟨p.metadata.stands, rfl, hmetadata⟩ .nil)) rfl
  change (p.fill (.scalar none v false)).toValue = _
  rw [Node.toValue, hfuel, hroot]

theorem holdsHost_hostText (hname : IsBareText name) (hkey : IsBareText key)
    (hv : IsLabelValue v) : HoldsHost (hostText name key (inQuotes v)) := by
  refine ⟨hostDocument name key v, rfl, ?_⟩
  rw [Bundle.ofText, Bundle.ofTextBy, Bundle.readText, loadAll_of_ofText (ofText_hostText_quoted hname hkey hv),
    toValue_hostNode hname hkey]
  rfl

end Loading

section Quotes

variable {v : String}

theorem IsBareText.isKeyText {key : String} (h : IsBareText key) : IsKeyText key where
  ne_empty := fun hnil => h.word.ne_nil (by rw [hnil]; rfl)
  blank _ hc := (plain_of_isWordText h.word.chars hc).1
  form _ hc := (plain_of_isWordText h.word.chars hc).2

/-- Quotes around the value of a label matter exactly if it needs them: then a host whose label is
written without them is not selected by it. -/
theorem quotes_matter_iff (hv : IsLabelValue v) :
    (∀ (key : Value) (p : LabelPlace key) (t u : String), p.IsWrittenPlain v t →
      p.IsWrittenQuoted v u →
      (NeedsNoQuotes v → SelectedAlike t u) ∧
      (p.InForce → IsKeyText key.text → HoldsHost u →
        IsSelectedBy u (key.text ++ "=" ++ v) ∧
        (IsSelectedBy t (key.text ++ "=" ++ v) ↔ NeedsNoQuotes v) ∧
        (SelectedAlike t u ↔ NeedsNoQuotes v))) ∧
    ∀ name key : String, IsBareText name → IsBareText key →
      IsSelectedBy (hostText name key (inQuotes v)) (key ++ "=" ++ v) ∧
      (IsSelectedBy (hostText name key v) (key ++ "=" ++ v) ↔ NeedsNoQuotes v) ∧
      (SelectedAlike (hostText name key v) (hostText name key (inQuotes v)) ↔ NeedsNoQuotes v) := by
  have hplaces (key : Value) (p : LabelPlace key) (t u : String) (ht : p.IsWrittenPlain v t)
      (hu : p.IsWrittenQuoted v u) (hp : p.InForce) (hk : IsKeyText key.text)
      (hhost : HoldsHost u) :
      IsSelectedBy u (key.text ++ "=" ++ v) ∧
      (IsSelectedBy t (key.text ++ "=" ++ v) ↔ NeedsNoQuotes v) ∧
      (SelectedAlike t u ↔ NeedsNoQuotes v) :=
    ⟨LabelPlace.isSelectedBy_quoted hp hk hv hu hhost,
      LabelPlace.isSelectedBy_plain_iff hp hk hv ht hu hhost,
      LabelPlace.selectedAlike_iff hp hk hv ht hu hhost⟩
  refine ⟨fun key p t u ht hu => ⟨fun h => LabelPlace.selectedAlike_of_needsNoQuotes hv h ht hu,
    hplaces key p t u ht hu⟩, fun name key hname hkey => ?_⟩
  exact hplaces _ (hostPlace name hkey) _ _ (isWrittenPlain_hostText hname hkey hv)
    (isWrittenQuoted_hostText hname hkey hv) inForce_hostPlace hkey.isKeyText
    (holdsHost_hostText hname hkey hv)

theorem quotes_do_not_matter_for_node :
    IsLabelValue "node-1" ∧
      IsSelectedBy (hostText "a" "metalctl.io/role" "node-1") "metalctl.io/role=node-1" ∧
      SelectedAlike (hostText "a" "metalctl.io/role" "node-1")
        (hostText "a" "metalctl.io/role" (inQuotes "node-1")) := by
  have hv : IsLabelValue "node-1" := by decide
  have hname : IsBareText "a" := ⟨.of_head rfl (by decide), by decide +kernel, by decide⟩
  have hkey : IsBareText "metalctl.io/role" :=
    ⟨.of_head rfl (by decide), by decide +kernel, by decide⟩
  have hneeds : NeedsNoQuotes "node-1" := .text (by decide +kernel)
  obtain ⟨hplaces, htexts⟩ := quotes_matter_iff hv
  exact ⟨hv, (htexts "a" "metalctl.io/role" hname hkey).2.1.mpr hneeds,
    (hplaces _ (hostPlace "a" hkey) _ _ (isWrittenPlain_hostText hname hkey hv)
      (isWrittenQuoted_hostText hname hkey hv)).1 hneeds⟩

/-- The label by which hosts are selected if nothing else is asked for selects none that has it
without quotes. -/
theorem ephemeral_label_needs_quotes :
    IsLabelValue "true" ∧ ephemeralLabel = "metalctl.io/ephemeral-node" ++ "=" ++ "true" ∧
      IsSelectedBy (hostText "a" "metalctl.io/ephemeral-node" (inQuotes "true")) ephemeralLabel ∧
      ¬ IsSelectedBy (hostText "a" "metalctl.io/ephemeral-node" "true") ephemeralLabel := by
  have hv : IsLabelValue "true" := by decide
  have hname : IsBareText "a" := ⟨.of_head rfl (by decide), by decide +kernel, by decide⟩
  have hkey : IsBareText "metalctl.io/ephemeral-node" :=
    ⟨.of_head rfl (by decide), by decide +kernel, by decide⟩
  have hlabel : ephemeralLabel = "metalctl.io/ephemeral-node" ++ "=" ++ "true" := by decide +kernel
  have htype : plainType "true" = "bool" := by decide +kernel
  refine ⟨hv, hlabel, ?_, fun hselected => ?_⟩
  · exact hlabel ▸ LabelPlace.isSelectedBy_quoted inForce_hostPlace hkey.isKeyText hv
      (isWrittenQuoted_hostText hname hkey hv) (holdsHost_hostText hname hkey hv)
  · have hneeds := LabelPlace.needsNoQuotes_of_isSelectedBy inForce_hostPlace hkey.isKeyText hv
      (isWrittenPlain_hostText hname hkey hv) (hlabel ▸ hselected)
    obtain ⟨w, hw, htext⟩ := (Yaml.readsBack_iff hv).mpr hneeds
    rw [htype] at hw
    cases hw
    exact absurd htext (by decide)

end Quotes

end OutOfBand
