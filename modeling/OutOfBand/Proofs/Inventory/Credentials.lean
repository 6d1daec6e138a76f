import OutOfBand.Inventory.Controller
import OutOfBand.Proofs.Inventory.Selection
import OutOfBand.Proofs.Sequence
import OutOfBand.Proofs.Text.Base64

namespace OutOfBand

/-- The bytes of a text in UTF-8. -/
def utf8Bytes (s : String) : List UInt8 := s.toList.flatMap String.utf8EncodeChar

/-- What encoded data have for a text. -/
def base64Text (s : String) : String := String.ofList (Base64.encode (utf8Bytes s))

/-- Data that can be searched for a key: a mapping or nothing, or else what can have members, if the
key is none of them. -/
def Value.CanBeSearched (key : String) : Value → Prop
  | .map _ => True
  | .str s => hasSub key.toList s.toList = false
  | .list vs | .set vs => .str key ∉ vs
  | .pair a b => a ≠ .str key ∧ b ≠ .str key
  | v => v.isGiven = false

namespace Document

/-- A secret that has a text under a key: plainly, whatever is encoded, or encoded only. -/
inductive Holds (secret : Document) (key text : String) : Prop where
  | plain (es : Entries) (v : Value) (hdata : secret.get? "stringData" = some (.map es))
      (hv : Entries.get? es key = some v) (htext : v.text = text)
  | encoded (es : Entries) (v : Value)
      (hplain : ∀ es, secret.get? "stringData" = some (.map es) → Entries.get? es key = none)
      (hdata : secret.get? "data" = some (.map es)) (hv : Entries.get? es key = some v)
      (htext : v.text = base64Text text)

/-- A secret of a name, in a namespace if one is told. -/
structure IsSecretOf (d : Document) (name : Value) (ns : Option Value) : Prop where
  kind : d.kind = .ok (.str secretKind)
  named : ∃ v, d.name = .ok v ∧ name.same v = true
  inside : ∀ n ∈ ns, ∃ v, d.namespaceOf = .ok v ∧ n.same v = true

/-- A document as the search for a secret supposes it: a mapping, and with metadata that are one,
or nothing, if it is a secret. -/
structure Searchable (d : Document) : Prop where
  raw : ∃ es, d.raw = .map es
  metadata : d.kind = .ok (.str secretKind) → ∃ ms, d.metadata = .ok (.map ms)

/-- A secret whose labels are a mapping, or nothing, and whose plain data can be searched. -/
structure Readable (d : Document) : Prop where
  labels : ∃ ls, d.labels = .ok ls
  plain : ∀ v ∈ d.get? "stringData", v.CanBeSearched "username" ∧ v.CanBeSearched "password"

end Document

/-- The only secret of a name in a namespace, or in all of them if none is told. -/
structure Bundle.OnlySecret (b : Bundle) (name : Value) (ns : Option Value) (secret : Document) :
    Prop where
  isSecret : secret.IsSecretOf name ns
  alone : ∃ before after, b.documents = before ++ secret :: after ∧
    ∀ d ∈ before ++ after, ¬ d.IsSecretOf name ns

theorem toByteArray_utf8Bytes (s : String) : (utf8Bytes s).toByteArray = s.toByteArray := by
  conv => rhs; rw [← String.ofList_toList (s := s), String.toByteArray_ofList]
  rfl

theorem fromUTF8?_utf8Bytes (s : String) : String.fromUTF8? (utf8Bytes s).toByteArray = some s := by
  have hbytes := toByteArray_utf8Bytes s
  have hvalid : (utf8Bytes s).toByteArray.IsValidUTF8 := hbytes ▸ s.isValidUTF8
  rw [String.fromUTF8?, dif_pos hvalid]
  exact congrArg some (String.toByteArray_inj.mp hbytes)

namespace Controller

theorem decode?_base64Text (s : String) : decode? (base64Text s) = some s := by
  rw [decode?, base64Text, String.toList_ofList, Base64.decode?_encode]
  exact fromUTF8?_utf8Bytes s

theorem plainValue?_of_lacks {o : Option Value} {key : String}
    (hsearch : ∀ v ∈ o, v.CanBeSearched key)
    (hplain : ∀ es, o = some (.map es) → Entries.get? es key = none) :
    plainValue? (orElse o (.map [])) key = .ok none := by
  cases o with
  | none => rfl
  | some v =>
    have hv := hsearch v rfl
    by_cases hgiven : v.isGiven = true
    · rw [orElse, if_pos hgiven]
      cases v with
      | map es => exact congrArg Except.ok (hplain es rfl)
      | _ => simp_all [plainValue?, Value.CanBeSearched, Value.str_alike_iff]
    · rw [orElse, if_neg hgiven]
      rfl

theorem decoded_of_text {v : Value} {text : String} (h : v.text = base64Text text)
    (secret : Document) (key : String) : decoded secret key (some v) = .ok text := by
  have hascii : (base64Text text).toList.any (128 ≤ ·.toNat) = false := by
    rw [base64Text, String.toList_ofList, List.any_eq_false]
    intro c hc
    simpa using Base64.toNat_lt_of_mem_encode c hc
  -- the text of a null is Base64, but of bytes that are not UTF-8
  have hnull : v ≠ .null := by
    rintro rfl
    have hnone : decode? Value.null.text = none := by decide
    rw [h, decode?_base64Text] at hnone
    cases hnone
  rw [decoded, h, hascii, decode?_base64Text]
  · rfl
  · exact hnull

theorem secretValue_of_encoded {secret : Document} {key : String} {es : Entries} {v : Value}
    (hplain : plainValue? (orElse (secret.get? "stringData") (.map [])) key = .ok none)
    (hdata : secret.get? "data" = some (.map es)) (hv : Entries.get? es key = some v) :
    secretValue secret key = decoded secret key (some v) := by
  have hmember : (Value.map es).member key = .ok (some v) := congrArg Except.ok hv
  rw [secretValue, hplain, hdata]
  simp only [orElse_map, hmember]
  rfl

theorem secretValue_of_holds {secret : Document} {key text : String} (h : secret.Holds key text)
    (hsearch : ∀ v ∈ secret.get? "stringData", v.CanBeSearched key) :
    secretValue secret key = .ok text := by
  cases h with
  | plain es v hdata hv htext =>
    have hplain : plainValue? (.map es) key = .ok (some v) := congrArg Except.ok hv
    rw [secretValue, hdata, orElse_map, hplain, ← htext]
    rfl
  | encoded es v hplain hdata hv htext =>
    rw [secretValue_of_encoded (plainValue?_of_lacks hsearch hplain) hdata hv]
    exact decoded_of_text htext secret key

end Controller

namespace Document.Searchable

variable {d : Document}

theorem kind (h : d.Searchable) : ∃ v, d.kind = .ok v := by
  obtain ⟨es, hraw⟩ := h.raw
  exact ⟨_, by rw [Document.kind, hraw]; rfl⟩

theorem name (h : d.Searchable) (hk : d.kind = .ok (.str secretKind)) : ∃ v, d.name = .ok v := by
  obtain ⟨ms, hmeta⟩ := h.metadata hk
  exact ⟨_, by rw [Document.name, metadataField, hmeta]; rfl⟩

theorem namespaceOf (h : d.Searchable) (hk : d.kind = .ok (.str secretKind)) :
    ∃ v, d.namespaceOf = .ok v := by
  obtain ⟨ms, hmeta⟩ := h.metadata hk
  exact ⟨_, by rw [Document.namespaceOf, metadataField, hmeta]; rfl⟩

end Document.Searchable

theorem Document.isSecretOf_iff {d : Document} {name kind v w : Value} {ns : Option Value}
    (hk : d.kind = .ok kind) (hv : d.name = .ok v) (hw : d.namespaceOf = .ok w) :
    d.IsSecretOf name ns ↔
      kind = .str secretKind ∧ name.same v = true ∧ ∀ n ∈ ns, n.same w = true := by
  constructor
  · rintro ⟨hkind, ⟨v', hv', hname⟩, hinside⟩
    cases hk.symm.trans hkind
    cases hv.symm.trans hv'
    refine ⟨rfl, hname, fun n hn => ?_⟩
    obtain ⟨w', hw', hsame⟩ := hinside n hn
    cases hw.symm.trans hw'
    exact hsame
  · rintro ⟨rfl, hname, hinside⟩
    exact ⟨hk, ⟨v, hv, hname⟩, fun n hn => ⟨w, hw, hinside n hn⟩⟩

namespace Query

/-- The query for a secret of a name, in a namespace if one is told. -/
def ofSecret (name : Value) (ns : Option Value) : Query :=
  ⟨some (.str secretKind), some name, ns, none⟩

theorem fieldHolds_of_ok {want v : Value} {field : Except ShapeFault Value} (h : field = .ok v) :
    fieldHolds (some want) field = .ok (want.same v) := by
  rw [h]
  rfl

variable {d : Document} {name : Value} {ns : Option Value}

theorem accepts_of_isSecretOf (h : d.IsSecretOf name ns) (hlabels : ∃ ls, d.labels = .ok ls) :
    (ofSecret name ns).accepts d = .ok true := by
  obtain ⟨hk, ⟨v, hv, hname⟩, hinside⟩ := h
  obtain ⟨ls, hls⟩ := hlabels
  have hkind : fieldHolds (some (.str secretKind)) d.kind = .ok true := by
    rw [fieldHolds_of_ok hk, Value.same_str_iff.mpr rfl]
  have hnamed : fieldHolds (some name) d.name = .ok true := by
    rw [fieldHolds_of_ok hv, hname]
  have hns : fieldHolds ns d.namespaceOf = .ok true := by
    cases ns with
    | none => rfl
    | some n =>
      obtain ⟨w, hw, hsame⟩ := hinside n rfl
      rw [fieldHolds_of_ok hw, hsame]
  simp only [accepts, ofSecret, hkind, hnamed, hns, hls]
  rfl

theorem accepts_of_not_isSecretOf (hd : d.Searchable) (h : ¬ d.IsSecretOf name ns) :
    (ofSecret name ns).accepts d = .ok false := by
  obtain ⟨k, hk⟩ := hd.kind
  cases hkind : (Value.str secretKind).same k with
  | false =>
    simp only [accepts, ofSecret, fieldHolds_of_ok hk, hkind]
    rfl
  | true =>
    have hsecret : d.kind = .ok (.str secretKind) := by rw [hk, Value.same_str_iff.mp hkind]
    obtain ⟨v, hv⟩ := hd.name hsecret
    obtain ⟨w, hw⟩ := hd.namespaceOf hsecret
    rw [Document.isSecretOf_iff hsecret hv hw] at h
    cases hname : name.same v with
    | false =>
      simp only [accepts, ofSecret, fieldHolds_of_ok hk, hkind, fieldHolds_of_ok hv, hname]
      rfl
    | true =>
      cases ns with
      | none => simp [hname] at h
      | some n =>
        have hother : n.same w = false := by simpa [hname] using h
        simp only [accepts, ofSecret, fieldHolds_of_ok hk, hkind, fieldHolds_of_ok hv, hname,
          fieldHolds_of_ok hw, hother]
        rfl

end Query

namespace Bundle

theorem accepted_append {q : Query} {ds : List Document} (h : ∀ d ∈ ds, q.accepts d = .ok false)
    (es : List Document) : accepted q (ds ++ es) = accepted q es := by
  induction ds with
  | nil => rfl
  | cons d ds ih =>
    obtain ⟨hd, hds⟩ := List.forall_mem_cons.mp h
    rw [List.cons_append, accepted, hd, ih hds]
    cases accepted q es <;> rfl

theorem selectOne_of_onlySecret {b : Bundle} {name : Value} {ns : Option Value} {secret : Document}
    (h : b.OnlySecret name ns secret) (hb : ∀ d ∈ b.documents, d.Searchable)
    (hlabels : ∃ ls, secret.labels = .ok ls) : b.selectOne (.ofSecret name ns) = .ok secret := by
  obtain ⟨before, after, hdocs, hothers⟩ := h.alone
  have hother : ∀ d ∈ before ++ after, (Query.ofSecret name ns).accepts d = .ok false := by
    intro d hd
    refine Query.accepts_of_not_isSecretOf (hb d ?_) (hothers d hd)
    rw [hdocs]
    rcases List.mem_append.mp hd with hd | hd <;> simp [hd]
  obtain ⟨hbefore, hafter⟩ := List.forall_mem_append.mp hother
  have hrest : accepted (Query.ofSecret name ns) after = .ok [] := by
    have := accepted_append hafter []
    rwa [List.append_nil] at this
  have hselect : b.select (.ofSecret name ns) = .ok [secret] := by
    rw [select, hdocs, accepted_append hbefore, accepted,
      Query.accepts_of_isSecretOf h.isSecret hlabels, hrest]
    rfl
  rw [selectOne, hselect]
  rfl

end Bundle

namespace Controller

theorem secretQuery_eq {d : Document} {ns : Value} (h : d.namespaceOf = .ok ns) (name : Value) :
    secretQuery d name = .ok (.ofSecret name (if ns.isGiven then some ns else none)) := by
  rw [secretQuery, h]
  simp only [Query.liftShape, bind, Except.bind]
  cases ns.isGiven <;> rfl

/-- What the secret holds is returned, each of the two in whichever way it is held. -/
theorem credentials_of_onlySecret {d secret : Document} {b : Bundle} {name ns : Value}
    {u p : String} (hname : d.get? "spec.bmc.credentialsName" = some name)
    (hgiven : name.isGiven = true) (hns : d.namespaceOf = .ok ns)
    (hsecret : b.OnlySecret name (if ns.isGiven then some ns else none) secret)
    (hb : ∀ e ∈ b.documents, e.Searchable) (hread : secret.Readable)
    (hu : secret.Holds "username" u) (hp : secret.Holds "password" p) :
    credentials d b = .ok ⟨u, p⟩ := by
  have hone := Bundle.selectOne_of_onlySecret hsecret hb hread.labels
  have huser := secretValue_of_holds hu fun v hv => (hread.plain v hv).1
  have hpassword := secretValue_of_holds hp fun v hv => (hread.plain v hv).2
  simp only [credentials, hname, hgiven, secretQuery_eq hns, bind, Except.bind, hone, huser,
    hpassword]
  rfl

end Controller

namespace Sample

def documentOf (kind : String) (metadata : Value) (fields : Entries) : Document :=
  ⟨.map ((.str "kind", .str kind) :: (.str "metadata", metadata) :: fields), none⟩

/-- Metadata with a name and a namespace, which is empty where there is none. -/
def metadataOf (name ns : String) : Value :=
  .map [(.str "name", .str name), (.str "namespace", .str ns)]

/-- A host in a namespace that names a secret. -/
def hostIn (ns secret : String) : Document :=
  let bmc := [(.str "address", .str "redfish://h/redfish/v1/Systems/1"),
    (.str "credentialsName", .str secret)]
  documentOf baremetalHostKind (metadataOf "a" ns) [(.str "spec", .map [(.str "bmc", .map bmc)])]

def secretIn (ns name : String) (fields : Entries) : Document :=
  documentOf secretKind (metadataOf name ns) fields

/-- A user and a password as plain data. -/
def plainData : Entries :=
  [(.str "stringData", .map [(.str "username", .str "root"), (.str "password", .str "calvin")])]

/-- A plain user with an encoded one beside it, and an encoded password. -/
def mixedData : Entries :=
  [(.str "stringData", .map [(.str "username", .str "root")]),
    (.str "data", .map [(.str "username", .str "b3RoZXI="),
      (.str "password", .str "YcOp4oKs8J+YgA==")])]

theorem documentOf_searchable (kind name ns : String) (fields : Entries) :
    (documentOf kind (metadataOf name ns) fields).Searchable :=
  ⟨⟨_, rfl⟩, fun _ => ⟨_, rfl⟩⟩

theorem documentOf_isSecretOf_iff {kind name ns wanted : String} {fields : Entries}
    (among : Option String) :
    (documentOf kind (metadataOf name ns) fields).IsSecretOf (.str wanted) (among.map .str) ↔
      kind = secretKind ∧ name = wanted ∧ ∀ n ∈ among, ns = n := by
  have hkind : (documentOf kind (metadataOf name ns) fields).kind = .ok (.str kind) :=
    congrArg Except.ok (orElse_str kind)
  have hname : (documentOf kind (metadataOf name ns) fields).name = .ok (.str name) :=
    congrArg Except.ok (orElse_str name)
  have hns : (documentOf kind (metadataOf name ns) fields).namespaceOf = .ok (.str ns) :=
    congrArg Except.ok (orElse_str ns)
  rw [Document.isSecretOf_iff hkind hname hns]
  simp [Value.same_str_iff]

theorem hostIn_not_isSecretOf (ns secret wanted : String) (among : Option String) :
    ¬ (hostIn ns secret).IsSecretOf (.str wanted) (among.map .str) := by
  rw [hostIn, documentOf_isSecretOf_iff]
  simp [baremetalHostKind, secretKind]

end Sample

open Sample in
/-- A secret in another namespace does not matter to a host that is in one. -/
theorem credentials_of_mixedData :
    Controller.credentials (hostIn "m" "bmc")
        ⟨[hostIn "m" "bmc", secretIn "n" "bmc" plainData, secretIn "m" "bmc" mixedData]⟩ =
      .ok ⟨"root", "aé€😀"⟩ := by
  have honly : Bundle.OnlySecret
      ⟨[hostIn "m" "bmc", secretIn "n" "bmc" plainData, secretIn "m" "bmc" mixedData]⟩
      (.str "bmc") ((some "m").map .str) (secretIn "m" "bmc" mixedData) := by
    refine ⟨(documentOf_isSecretOf_iff (some _)).mpr (by simp), [_, _], [], rfl, ?_⟩
    simp only [List.append_nil, List.forall_mem_cons]
    refine ⟨hostIn_not_isSecretOf _ _ _ _, ?_, by simp⟩
    rw [secretIn, documentOf_isSecretOf_iff]
    simp
  refine Controller.credentials_of_onlySecret rfl rfl rfl honly ?_ ?_ ?_ ?_
  · intro e he
    simp only [List.mem_cons, List.not_mem_nil, or_false] at he
    rcases he with rfl | rfl | rfl <;> exact documentOf_searchable _ _ _ _
  · exact ⟨⟨_, rfl⟩, by rintro _ ⟨⟩; exact ⟨trivial, trivial⟩⟩
  · exact .plain _ _ rfl rfl rfl
  · exact .encoded _ _ (by rintro _ ⟨⟩; rfl) rfl rfl (by decide)

/-- What seems enough for a user and a password: exactly one secret of the name that a host gives is
in the namespace of the host, and it holds them. -/
def Controller.Promised (d : Document) (b : Bundle) (c : Credentials) : Prop :=
  ∃ name ns secret, d.get? "spec.bmc.credentialsName" = some name ∧ d.namespaceOf = .ok ns ∧
    b.OnlySecret name (some ns) secret ∧ secret.Holds "username" c.username ∧
    secret.Holds "password" c.password

/-- Credentials that a bundle of a host and others promises, and that are refused with an error. -/
def Controller.RefusesPromised (host : Document) (others : List Document) (c : Credentials)
    (e : DocumentError) : Prop :=
  Promised host ⟨host :: others⟩ c ∧ credentials host ⟨host :: others⟩ = .error e

namespace Sample

/-- The user and the password of `plainData`, encoded, beside other data that are called plain. -/
def encodedData (plain : Value) : Entries :=
  [(.str "stringData", plain),
    (.str "data", .map [(.str "username", .str "cm9vdA=="), (.str "password", .str "Y2Fsdmlu")])]

theorem hostIn_promised {ns name : String} {secret : Document} {others : List Document}
    {c : Credentials} (hsecret : secret.IsSecretOf (.str name) (some (.str ns)))
    (hothers : ∀ d ∈ others, ¬ d.IsSecretOf (.str name) (some (.str ns)))
    (hu : secret.Holds "username" c.username) (hp : secret.Holds "password" c.password) :
    Controller.Promised (hostIn ns name) ⟨hostIn ns name :: secret :: others⟩ c := by
  have hns : (hostIn ns name).namespaceOf = .ok (.str ns) := congrArg Except.ok (orElse_str ns)
  have halone : ∀ d ∈ [hostIn ns name] ++ others,
      ¬ d.IsSecretOf (.str name) ((some ns).map .str) :=
    List.forall_mem_cons.mpr ⟨hostIn_not_isSecretOf _ _ _ _, hothers⟩
  exact ⟨_, _, _, rfl, hns, ⟨hsecret, _, _, rfl, halone⟩, hu, hp⟩

theorem secretIn_isSecretOf (ns name : String) (fields : Entries) :
    (secretIn ns name fields).IsSecretOf (.str name) (some (.str ns)) :=
  (documentOf_isSecretOf_iff (some ns)).mpr (by simp)

end Sample

open Sample in
/-- The host is in no namespace and another secret of the name is in one; another secret has a list
as metadata; the secret has a list as labels, or a number as plain data; the name is empty. -/
theorem promised_credentials_refused :
    let c : Credentials := ⟨"root", "calvin"⟩
    let listed := .list [.str "x"]
    let labelled := .map [(.str "name", .str "bmc"), (.str "namespace", .str "m"),
      (.str "labels", listed)]
    Controller.RefusesPromised (hostIn "" "bmc")
        [secretIn "" "bmc" plainData, secretIn "n" "bmc" plainData] c
        (.notUnique (.ofSecret (.str "bmc") none) 2) ∧
      Controller.RefusesPromised (hostIn "m" "bmc")
        [secretIn "m" "bmc" plainData, documentOf secretKind listed []] c
        (.shape (.noMembers listed "get")) ∧
      Controller.RefusesPromised (hostIn "m" "bmc") [documentOf secretKind labelled plainData] c
        (.shape (.noMembers listed "items")) ∧
      Controller.RefusesPromised (hostIn "m" "bmc") [secretIn "m" "bmc" (encodedData (.int 5))] c
        (.shape (.notSearchable (.int 5))) ∧
      Controller.RefusesPromised (hostIn "m" "") [secretIn "m" "" plainData] c
        (.field "BareMetalHost/m/a" "spec.bmc.credentialsName" "is missing") := by
  intro c listed labelled
  have hu (metadata : Value) : (documentOf secretKind metadata plainData).Holds "username" "root" :=
    .plain _ _ rfl rfl rfl
  have hp (metadata : Value) :
      (documentOf secretKind metadata plainData).Holds "password" "calvin" := .plain _ _ rfl rfl rfl
  refine ⟨⟨hostIn_promised (secretIn_isSecretOf _ _ _) ?_ (hu _) (hp _), rfl⟩,
    ⟨hostIn_promised (secretIn_isSecretOf _ _ _) ?_ (hu _) (hp _), rfl⟩,
    ⟨hostIn_promised ?_ (by simp) (hu _) (hp _), rfl⟩,
    ⟨hostIn_promised (secretIn_isSecretOf _ _ _) (by simp) ?_ ?_, rfl⟩,
    ⟨hostIn_promised (secretIn_isSecretOf _ _ _) (by simp) (hu _) (hp _), rfl⟩⟩
  · rintro d hd h
    rw [List.mem_singleton.mp hd] at h
    exact absurd ((documentOf_isSecretOf_iff (some _)).mp h) (by simp)
  · rintro d hd ⟨-, ⟨v, hv, -⟩, -⟩
    rw [List.mem_singleton.mp hd] at hv
    cases hv
  · exact (Document.isSecretOf_iff rfl rfl rfl).mpr ⟨rfl, rfl, by rintro _ ⟨⟩; rfl⟩
  · exact .encoded _ _ (by rintro _ ⟨⟩) rfl rfl (by decide)
  · exact .encoded _ _ (by rintro _ ⟨⟩) rfl rfl (by decide)

end OutOfBand
