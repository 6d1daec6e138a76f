import OutOfBand.Inventory.Controller
import OutOfBand.Fleet.Selection
import OutOfBand.Proofs.Value.Matching

namespace OutOfBand

/-- A value of plain data that is a user or a password. -/
def Value.IsPlainSecret (v : Value) : Prop := v.text ≠ ""

/-- A value of encoded data that is a user or a password. -/
def Value.IsEncodedSecret (v : Value) : Prop :=
  v ≠ .null ∧ (∀ c ∈ v.text.toList, c.toNat < 128) ∧
    ∃ s, Controller.decode? v.text = some s ∧ s ≠ ""

/-- Equal values, or two secrets under the key of a user or a password. -/
def SecretValue (isSecret : Value → Prop) (key v w : Value) : Prop :=
  v = w ∨ (key = .str "username" ∨ key = .str "password") ∧ isSecret v ∧ isSecret w

/-- Equal values, or data of a secret with other users and passwords. -/
def SecretData (key v w : Value) : Prop :=
  v = w ∨ key = .str "stringData" ∧ v.Matching (SecretValue Value.IsPlainSecret) w ∨
    key = .str "data" ∧ v.Matching (SecretValue Value.IsEncodedSecret) w

/-- Documents that differ in the users and passwords that they hold as secrets, and in nothing
else. -/
def Document.SameButSecrets (d e : Document) : Prop :=
  d.source = e.source ∧ d.raw.Matching SecretData e.raw

def Bundle.SameButSecrets (b c : Bundle) : Prop :=
  List.Forall₂ Document.SameButSecrets b.documents c.documents

theorem SecretValue.refl (isSecret : Value → Prop) (key v : Value) : SecretValue isSecret key v v :=
  .inl rfl

theorem SecretData.refl (key v : Value) : SecretData key v v := .inl rfl

namespace SecretData

variable {v w : Value}

theorem eq {key : String} (hs : key ≠ "stringData") (hd : key ≠ "data")
    (h : SecretData (.str key) v w) : v = w := by
  simpa [SecretData, hs, hd] using h

theorem plain (h : SecretData (.str "stringData") v w) :
    v.Matching (SecretValue Value.IsPlainSecret) w := by
  rcases h with rfl | ⟨-, h⟩ | ⟨h, -⟩
  · exact .same v
  · exact h
  · simp at h

theorem encoded (h : SecretData (.str "data") v w) :
    v.Matching (SecretValue Value.IsEncodedSecret) w := by
  rcases h with rfl | ⟨h, -⟩ | ⟨-, h⟩
  · exact .same v
  · simp at h
  · exact h

end SecretData

namespace Document.SameButSecrets

variable {d e : Document}

theorem get_raw (h : d.SameButSecrets e) {key : String} (hs : key ≠ "stringData")
    (hd : key ≠ "data") : d.raw.get? key = e.raw.get? key := by
  have hget := h.2.get? SecretData.refl key
  generalize d.raw.get? key = o at hget ⊢
  generalize e.raw.get? key = p at hget ⊢
  cases hget with
  | none => rfl
  | some hvw => rw [hvw.eq hs hd]

theorem member_raw (h : d.SameButSecrets e) {key : String} (hs : key ≠ "stringData")
    (hd : key ≠ "data") : d.raw.member key = e.raw.member key := by
  have hget := h.get_raw hs hd
  obtain ⟨-, h⟩ := h
  generalize d.raw = v at h hget ⊢
  generalize e.raw = w at h hget ⊢
  cases h with
  | map h => exact congrArg Except.ok hget
  | same v => rfl

theorem kind (h : d.SameButSecrets e) : d.kind = e.kind := by
  rw [Document.kind, Document.kind, h.member_raw (by decide) (by decide)]

theorem metadataField (h : d.SameButSecrets e) (key : String) (other : Value) :
    d.metadataField key other = e.metadataField key other := by
  rw [Document.metadataField, Document.metadataField, metadata, metadata,
    h.member_raw (by decide) (by decide)]

theorem name (h : d.SameButSecrets e) : d.name = e.name := h.metadataField _ _

theorem namespaceOf (h : d.SameButSecrets e) : d.namespaceOf = e.namespaceOf := h.metadataField _ _

theorem labels (h : d.SameButSecrets e) : d.labels = e.labels := by
  rw [Document.labels, Document.labels, h.metadataField]

theorem titleOf (h : d.SameButSecrets e) : Controller.titleOf d = Controller.titleOf e := by
  rw [Controller.titleOf, Controller.titleOf, title, title, h.namespaceOf, h.kind, h.name]

theorem fieldError {α : Type} (h : d.SameButSecrets e) (field reason : String) :
    (Controller.fieldError d field reason : Except DocumentError α) =
      Controller.fieldError e field reason := by
  rw [Controller.fieldError, Controller.fieldError, h.titleOf]

theorem get? (h : d.SameButSecrets e) {path key : String} {rest : List String}
    (hpath : (splitAt '.' path.toList).map String.ofList = key :: rest) (hs : key ≠ "stringData")
    (hd : key ≠ "data") : d.get? path = e.get? path := by
  rw [Document.get?, Document.get?, hpath, valueAt?, valueAt?, h.get_raw hs hd]

theorem get?_one (h : d.SameButSecrets e) (key : String)
    (hkey : (splitAt '.' key.toList).map String.ofList = [key]) :
    Option.Rel (SecretData (.str key)) (d.get? key) (e.get? key) := by
  have one : ∀ d : Document, d.get? key = d.raw.get? key := by
    intro d
    rw [Document.get?, hkey, valueAt?]
    exact Option.bind_fun_some _
  rw [one, one]
  exact h.2.get? SecretData.refl key

theorem accepts (h : d.SameButSecrets e) (q : Query) : q.accepts d = q.accepts e := by
  simp only [Query.accepts, h.kind, h.name, h.namespaceOf, h.labels]

theorem address (h : d.SameButSecrets e) : Controller.address d = Controller.address e := by
  have hpath : (splitAt '.' "spec.bmc.address".toList).map String.ofList =
      ["spec", "bmc", "address"] := by decide
  rw [Controller.address, Controller.address, h.get? hpath (by decide) (by decide), h.fieldError]

end Document.SameButSecrets

namespace Bundle

variable {b c : Bundle}

theorem accepted_agree (q : Query) {ds es : List Document}
    (h : List.Forall₂ Document.SameButSecrets ds es) :
    Agree (List.Forall₂ Document.SameButSecrets) (accepted q ds) (accepted q es) := by
  induction h with
  | nil => exact .ok .nil
  | @cons d e ds es hde _ ih =>
    rw [accepted, accepted, hde.accepts]
    refine (Agree.same _).bind fun here here' heq => ?_
    subst heq
    refine ih.bind fun ds' es' hrest => ?_
    cases here with
    | true => exact .ok (.cons hde hrest)
    | false => exact .ok hrest

theorem SameButSecrets.selectOne (h : b.SameButSecrets c) (q : Query) :
    Agree Document.SameButSecrets (b.selectOne q) (c.selectOne q) := by
  refine (accepted_agree q h).bind fun ds es hds => ?_
  cases hds with
  | nil => exact .error _
  | cons hde hrest =>
    cases hrest with
    | nil => exact .ok hde
    | cons hde' hrest =>
      simp only [List.length_cons, hrest.length_eq]
      exact .error _

end Bundle

theorem HostSelector.documents_agree {b c : Bundle} (h : b.SameButSecrets c) (s : HostSelector) :
    Agree (List.Forall₂ Document.SameButSecrets) (s.documents b) (s.documents c) := by
  cases s with
  | byName name => exact (h.selectOne _).bind fun d e hde => .ok (.cons hde .nil)
  | byLabel expression =>
    simp only [documents]
    cases (Query.ofKind baremetalHostKind).withLabel expression with
    | error f => exact .error _
    | ok q =>
      refine (Bundle.accepted_agree q h).bind fun ds es hds => ?_
      cases hds with
      | nil => exact .error _
      | cons hde hrest => exact .ok (.cons hde hrest)

namespace Controller

variable {d e : Document}

/-- Texts of which both are empty or neither is. -/
def SameEmptiness (s t : String) : Prop := s.isEmpty = t.isEmpty

theorem SameEmptiness.of_ne {s t : String} (hs : s ≠ "") (ht : t ≠ "") : SameEmptiness s t := by
  rw [SameEmptiness, String.isEmpty_eq_false_iff.mpr hs, String.isEmpty_eq_false_iff.mpr ht]

theorem plainValue?_agree {v w : Value} (h : v.Matching (SecretValue Value.IsPlainSecret) w)
    (key : String) :
    Agree (Option.Rel (SecretValue Value.IsPlainSecret (.str key))) (plainValue? v key)
      (plainValue? w key) := by
  cases h with
  | map h => exact .ok ((Value.Matching.map h).get? (SecretValue.refl _) key)
  | same v =>
    refine Agree.refl (fun o => ?_) _
    cases o with
    | none => exact .none
    | some v => exact .some (.inl rfl)

theorem liftShape_agree {α β : Type} {R : α → β → Prop} {x : Except ShapeFault α}
    {y : Except ShapeFault β} (h : Agree R x y) :
    Agree R (Query.liftShape x) (Query.liftShape y) := by
  cases h with
  | ok h => exact .ok h
  | error f => exact DocumentError.shape f |> .error

theorem decoded_of_secret {v : Value} (h : v.IsEncodedSecret) (d : Document) (key : String) :
    ∃ s, s ≠ "" ∧ decoded d key (some v) = .ok s := by
  obtain ⟨hnull, hascii, s, hs, hne⟩ := h
  have hany : v.text.toList.any (128 ≤ ·.toNat) = false := by simpa using hascii
  refine ⟨s, hne, ?_⟩
  rw [decoded, hany, hs]
  · rfl
  · exact hnull

/-- Whichever secret encoded data hold, it is there and not empty. -/
theorem decoded_agree (h : d.SameButSecrets e) {key : String} {o p : Option Value}
    (hop : Option.Rel (SecretValue Value.IsEncodedSecret (.str key)) o p) :
    Agree SameEmptiness (decoded d key o) (decoded e key p) := by
  have hequal : ∀ o, Agree SameEmptiness (decoded d key o) (decoded e key o) := by
    intro o
    have heq : decoded d key o = decoded e key o := by
      simp only [decoded, h.fieldError]
    rw [heq]
    exact Agree.refl (R := SameEmptiness) (fun _ => rfl) _
  cases hop with
  | none => exact hequal none
  | some hvw =>
    rcases hvw with rfl | ⟨-, hv, hw⟩
    · exact hequal _
    · obtain ⟨s, hs, hds⟩ := decoded_of_secret hv d key
      obtain ⟨t, ht, hdt⟩ := decoded_of_secret hw e key
      rw [hds, hdt]
      exact .ok (SameEmptiness.of_ne hs ht)

/-- A secret is there and not empty whichever one it is, or it is missing or malformed in one
way. -/
theorem secretValue_agree (h : d.SameButSecrets e) (key : String) :
    Agree SameEmptiness (secretValue d key) (secretValue e key) := by
  have hfound := h.get?_one "stringData" (by decide)
  have hplain := plainValue?_agree (orElse_matching SecretData.plain hfound (.map [])) key
  refine (liftShape_agree hplain).bind fun o p hop => ?_
  cases hop with
  | some hvw =>
    refine .ok ?_
    rcases hvw with rfl | ⟨-, hv, hw⟩
    · rfl
    · exact SameEmptiness.of_ne hv hw
  | none =>
    have hfound := h.get?_one "data" (by decide)
    have hdata := (orElse_matching SecretData.encoded hfound (.map [])).member
      (SecretValue.refl _) key
    exact (liftShape_agree hdata).bind fun o p hop => decoded_agree h hop

/-- Users of which both are empty or neither is; their passwords do not matter. -/
def SameUse (c c' : Credentials) : Prop := SameEmptiness c.username c'.username

theorem credentials_agree {b c : Bundle} (hde : d.SameButSecrets e) (hbc : b.SameButSecrets c) :
    Agree SameUse (credentials d b) (credentials e c) := by
  have hpath : (splitAt '.' "spec.bmc.credentialsName".toList).map String.ofList =
      ["spec", "bmc", "credentialsName"] := by decide
  have hquery : ∀ name, secretQuery d name = secretQuery e name := by
    intro name
    rw [secretQuery, secretQuery, hde.namespaceOf]
  rw [credentials, credentials, hde.get? hpath (by decide) (by decide), hde.fieldError]
  cases e.get? "spec.bmc.credentialsName" with
  | none => exact Agree.refl (R := SameUse) (fun _ => rfl) _
  | some name =>
    simp only [hquery]
    split
    · exact Agree.refl (R := SameUse) (fun _ => rfl) _
    · refine (Agree.same _).bind fun q q' hq => ?_
      subst hq
      refine (hbc.selectOne q).bind fun s s' hs => ?_
      refine (secretValue_agree hs "username").bind fun u u' hu => ?_
      exact (secretValue_agree hs "password").bind fun p p' _ => .ok hu

end Controller

end OutOfBand
