import OutOfBand.Proofs.Inventory.Credentials
import OutOfBand.Proofs.Text.Digits

namespace OutOfBand

theorem fromUTF8?_eq_some_iff {bs : List UInt8} {s : String} :
    String.fromUTF8? bs.toByteArray = some s ↔ bs = utf8Bytes s := by
  constructor
  · intro h
    have hread : (utf8Bytes s).toByteArray = bs.toByteArray := by
      rw [toByteArray_utf8Bytes]
      rw [String.fromUTF8?] at h
      split at h
      next hvalid =>
        cases h
        rfl
      next => cases h
    have hlists := congrArg (fun b : ByteArray => b.data.toList) hread
    simpa using hlists.symm
  · rintro rfl
    exact fromUTF8?_utf8Bytes s

theorem Document.title_of_labels {d : Document} {ls : Labels} (h : d.labels = .ok ls) :
    ∃ title, d.title = .ok title := by
  obtain ⟨ms, hmeta⟩ := metadata_of_labels h
  obtain ⟨n, hn⟩ := name_of_labels h
  obtain ⟨k, hk⟩ := kind_of_name hn
  have hns : d.namespaceOf = .ok (orElse (Entries.get? ms "namespace") (.str "")) := by
    rw [namespaceOf, metadataField, hmeta]
    rfl
  rw [title, hns, hk, hn]
  exact ⟨_, rfl⟩

theorem Query.labels_of_accepts {q : Query} {d : Document} (h : q.accepts d = .ok true) :
    ∃ ls, d.labels = .ok ls := by
  obtain ⟨kind, -, h⟩ := bind_eq_ok_iff.mp h
  split at h
  next => cases h
  obtain ⟨name, -, h⟩ := bind_eq_ok_iff.mp h
  split at h
  next => cases h
  obtain ⟨ns, -, h⟩ := bind_eq_ok_iff.mp h
  split at h
  next => cases h
  obtain ⟨ls, hls, -⟩ := bind_eq_ok_iff.mp h
  exact ⟨ls, liftShape_eq_ok_iff.mp hls⟩

namespace Controller

/-- A text that stands for another one: it spells the bytes of it. -/
def Stands (text s : String) : Prop := Base64.Spells text.toList (utf8Bytes s)

theorem decode?_eq_some_iff {text s : String} : decode? text = some s ↔ Stands text s := by
  rw [decode?, Stands, ← Base64.decode?_eq_some_iff]
  simp only [Option.bind_eq_bind, Option.bind_eq_some_iff, fromUTF8?_eq_some_iff]
  exact exists_eq_right

def IsAscii (text : String) : Prop := ∀ c ∈ text.toList, c.toNat < 128

instance (text : String) : Decidable (IsAscii text) :=
  decidable_of_iff (text.toList.all (·.toNat < 128) = true) (by simp [IsAscii])

theorem Stands.isAscii {text s : String} (h : Stands text s) : IsAscii text := h.toNat_lt

/-- How the texts that a secret has for the user and the password are read: as what they stand for,
or as one of them that stands for nothing. -/
inductive ReadAs (title user password : String) : Except DocumentError Credentials → Prop where
  | pair {u p : String} (hu : Stands user u) (hp : Stands password p) :
      ReadAs title user password (.ok ⟨u, p⟩)
  | badUser (hu : ∀ u, ¬ Stands user u) :
      ReadAs title user password (.error (.field title "data.username" "is not valid base64"))
  | badPassword {u : String} (hu : Stands user u) (hp : ∀ p, ¬ Stands password p) :
      ReadAs title user password (.error (.field title "data.password" "is not valid base64"))

variable {secret : Document} {key text title : String}

theorem isAscii_iff : IsAscii text ↔ text.toList.any (128 ≤ ·.toNat) = false := by
  simp [IsAscii]

theorem decoded_of_stands {s : String} (h : Stands text s) :
    decoded secret key (some (.str text)) = .ok s := by
  have hascii := isAscii_iff.mp h.isAscii
  simp only [decoded, Value.text, hascii, decode?_eq_some_iff.mpr h]
  rfl

theorem decoded_of_not_isAscii (h : ¬ IsAscii text) :
    decoded secret key (some (.str text)) = .error (.shape .notAscii) := by
  rw [isAscii_iff, Bool.not_eq_false] at h
  simp only [decoded, Value.text, h]
  rfl

theorem decoded_of_stands_for_nothing (ht : secret.title = .ok title) (hascii : IsAscii text)
    (h : ∀ s, ¬ Stands text s) : decoded secret key (some (.str text)) =
      .error (.field title ("data." ++ key) "is not valid base64") := by
  have hnone : decode? text = none :=
    Option.eq_none_iff_forall_ne_some.mpr fun s hs => h s (decode?_eq_some_iff.mp hs)
  simp only [decoded, Value.text, isAscii_iff.mp hascii, hnone, fieldError, titleOf, ht]
  rfl

theorem plainValue?_of_not_given {o : Option Value} (h : ∀ v ∈ o, v.isGiven = false)
    (key : String) : plainValue? (orElse o (.map [])) key = .ok none := by
  cases o with
  | none => rfl
  | some v =>
    rw [orElse, if_neg (by simp [h v rfl])]
    rfl

/-- Texts that are stored encoded are read, or the secret is refused for the first that stands for
nothing, as long as they are ASCII; the first that is not is met with a failure of its own. -/
theorem credentials_of_encoded {d : Document} {b : Bundle} {name : Value} {q : Query}
    {es : Entries} {user password : String}
    (hname : d.get? "spec.bmc.credentialsName" = some name) (hgiven : name.isGiven = true)
    (hq : secretQuery d name = .ok q) (hsecret : b.selectOne q = .ok secret)
    (hplain : ∀ v ∈ secret.get? "stringData", v.isGiven = false)
    (hdata : secret.get? "data" = some (.map es))
    (huser : Entries.get? es "username" = some (.str user))
    (hpassword : Entries.get? es "password" = some (.str password)) :
    ∃ title, secret.title = .ok title ∧
      (IsAscii user → ((∃ u, Stands user u) → IsAscii password) →
        ReadAs title user password (credentials d b)) ∧
      (¬ IsAscii user ∨ (∃ u, Stands user u) ∧ ¬ IsAscii password →
        credentials d b = .error (.shape .notAscii)) := by
  obtain ⟨ls, hls⟩ := Query.labels_of_accepts (Bundle.accepts_of_selectOne hsecret).2
  obtain ⟨title, htitle⟩ := Document.title_of_labels hls
  have hread : credentials d b = (do
      let u ← decoded secret "username" (some (.str user))
      let p ← decoded secret "password" (some (.str password))
      return ⟨u, p⟩) := by
    have hnone := plainValue?_of_not_given hplain
    rw [← secretValue_of_encoded (hnone _) hdata huser,
      ← secretValue_of_encoded (hnone _) hdata hpassword]
    simp only [credentials, hname, hgiven, hq, hsecret, bind, Except.bind]
    rfl
  refine ⟨title, htitle, fun hascii hthen => ?_, ?_⟩
  · rw [hread]
    by_cases hu : ∃ u, Stands user u
    · obtain ⟨u, hu⟩ := hu
      rw [decoded_of_stands hu]
      by_cases hp : ∃ p, Stands password p
      · obtain ⟨p, hp⟩ := hp
        rw [decoded_of_stands hp]
        exact .pair hu hp
      · rw [decoded_of_stands_for_nothing htitle (hthen ⟨u, hu⟩) (not_exists.mp hp)]
        exact .badPassword hu (not_exists.mp hp)
    · rw [decoded_of_stands_for_nothing htitle hascii (not_exists.mp hu)]
      exact .badUser (not_exists.mp hu)
  · rw [hread]
    rintro (hu | ⟨⟨u, hu⟩, hp⟩)
    · rw [decoded_of_not_isAscii hu]
      rfl
    · rw [decoded_of_stands hu, decoded_of_not_isAscii hp]
      rfl

end Controller

namespace Sample

/-- A host and its secret, which has two texts for the user and the password. -/
def stored (user password : String) : Bundle :=
  let data := .map [(.str "username", .str user), (.str "password", .str password)]
  ⟨[hostIn "m" "bmc", secretIn "m" "bmc" [(.str "data", data)]]⟩

end Sample

open Sample Controller in
/-- One digit too few is told of, and a letter beyond ASCII is not. -/
theorem credentials_of_stored :
    ReadAs "Secret/m/bmc" "cm9vdA==" "Y2Fsdml"
        (credentials (hostIn "m" "bmc") (stored "cm9vdA==" "Y2Fsdml")) ∧
      credentials (hostIn "m" "bmc") (stored "cm9vdA==" "é") = .error (.shape .notAscii) := by
  have huser : Stands "cm9vdA==" "root" := decode?_eq_some_iff.mp (by decide)
  obtain ⟨title, htitle, hread, -⟩ := credentials_of_encoded (d := hostIn "m" "bmc")
    (b := stored "cm9vdA==" "Y2Fsdml") rfl rfl rfl rfl (by rintro _ ⟨⟩) rfl rfl rfl
  obtain ⟨_, -, -, hfails⟩ := credentials_of_encoded (d := hostIn "m" "bmc")
    (b := stored "cm9vdA==" "é") rfl rfl rfl rfl (by rintro _ ⟨⟩) rfl rfl rfl
  cases htitle
  exact ⟨hread (by decide) fun _ => by decide, hfails (.inr ⟨⟨_, huser⟩, by decide⟩)⟩

open Sample Controller in
/-- A letter beyond ASCII is no field error. -/
theorem stored_beyond_ascii :
    credentials (hostIn "m" "bmc") (stored "é" "Y2Fsdmlu") = .error (.shape .notAscii) ∧
      ∀ title, ¬ ReadAs title "é" "Y2Fsdmlu"
        (credentials (hostIn "m" "bmc") (stored "é" "Y2Fsdmlu")) := by
  have hfails : credentials (hostIn "m" "bmc") (stored "é" "Y2Fsdmlu") =
      .error (.shape .notAscii) := rfl
  refine ⟨hfails, fun title h => ?_⟩
  rw [hfails] at h
  cases h

end OutOfBand
