import OutOfBand.Proofs.Inventory.Credentials

namespace OutOfBand

namespace Document

/-- A host refers to a secret of the name that it gives, in its own namespace if it has one. -/
def Refers (h d : Document) : Prop :=
  ∃ name ns, h.get? "spec.bmc.credentialsName" = some name ∧ name.isGiven = true ∧
    h.namespaceOf = .ok ns ∧ d.IsSecretOf name (if ns.isGiven then some ns else none)

theorem Refers.inside {h d : Document} {ns : Value} (hrefers : h.Refers d)
    (hns : h.namespaceOf = .ok ns) (hgiven : ns.isGiven = true) :
    ∃ w, d.namespaceOf = .ok w ∧ ns.same w = true := by
  obtain ⟨name, ns', -, -, hns', hsecret⟩ := hrefers
  cases hns.symm.trans hns'
  exact hsecret.inside ns (by simp [hgiven])

theorem not_refers_of_elsewhere {h d : Document} {ns w : Value} (hns : h.namespaceOf = .ok ns)
    (hgiven : ns.isGiven = true) (hw : d.namespaceOf = .ok w) (hother : ns.same w = false) :
    ¬ h.Refers d := by
  intro hrefers
  obtain ⟨w', hw', hsame⟩ := hrefers.inside hns hgiven
  cases hw.symm.trans hw'
  exact absurd hsame (by simp [hother])

end Document

namespace Query

theorem fieldHolds_eq_true {want : Value} {field : Except ShapeFault Value}
    (h : fieldHolds (some want) field = .ok true) : ∃ v, field = .ok v ∧ want.same v = true := by
  cases field with
  | error f => cases h
  | ok v => exact ⟨v, rfl, Except.ok.inj h⟩

/-- Only a secret of the name, in the namespace if one is told, is accepted. -/
theorem isSecretOf_of_accepts {d : Document} {name : Value} {ns : Option Value}
    (h : (ofSecret name ns).accepts d = .ok true) : d.IsSecretOf name ns := by
  obtain ⟨here, hhere, h⟩ := bind_eq_ok_iff.mp h
  cases here with
  | false => cases h
  | true =>
    obtain ⟨named, hnamed, h⟩ := bind_eq_ok_iff.mp h
    cases named with
    | false => cases h
    | true =>
      obtain ⟨inside, hinside, h⟩ := bind_eq_ok_iff.mp h
      cases inside with
      | false => cases h
      | true =>
        obtain ⟨kind, hkind, hsame⟩ := fieldHolds_eq_true (liftShape_eq_ok_iff.mp hhere)
        refine ⟨by rw [hkind, Value.same_str_iff.mp hsame],
          fieldHolds_eq_true (liftShape_eq_ok_iff.mp hnamed), fun n hn => ?_⟩
        have hns : ns = some n := hn
        rw [ofSecret, hns] at hinside
        exact fieldHolds_eq_true (liftShape_eq_ok_iff.mp hinside)

/-- A query for hosts passes over what is none. -/
theorem accepts_of_not_isHost {s : HostSelector} {q : Query} (hq : s.query = .ok q) {d : Document}
    (hd : d.Searchable) (hhost : d.isHost = false) : q.accepts d = .ok false := by
  obtain ⟨hk, hn⟩ := HostSelector.kind_of_query hq
  obtain ⟨kind, hkind⟩ := hd.kind
  rw [accepts_host hk hn, hkind, hhost]
  rfl

end Query

namespace HostSelector

theorem documents_insert {d : Document} (hd : d.Searchable) (hhost : d.isHost = false)
    (s : HostSelector) (pre post : List Document) :
    s.documents ⟨pre ++ d :: post⟩ = s.documents ⟨pre ++ post⟩ := by
  cases s with
  | byName name =>
    have h := Query.accepts_of_not_isHost (s := .byName name) rfl hd hhost
    rw [documents, documents, Bundle.selectOne_insert h]
  | byLabel l =>
    rw [documents, documents]
    split
    next => rfl
    next q hq =>
      have h := Query.accepts_of_not_isHost (s := .byLabel l) hq hd hhost
      rw [Bundle.select, Bundle.select, Bundle.accepted_insert h]

end HostSelector

namespace Controller

variable {h d : Document}

theorem secretQuery_eq_ok {name : Value} {q : Query} (hq : secretQuery h name = .ok q) :
    ∃ ns, h.namespaceOf = .ok ns ∧ q = .ofSecret name (if ns.isGiven then some ns else none) := by
  obtain ⟨ns, hns, -⟩ := bind_eq_ok_iff.mp hq
  have hns := Query.liftShape_eq_ok_iff.mp hns
  exact ⟨ns, hns, Except.ok.inj (hq.symm.trans (secretQuery_eq hns name))⟩

theorem fieldError_ne_ok {α : Type} {field reason : String} {a : α} :
    fieldError d field reason ≠ .ok a := by
  intro h
  obtain ⟨title, -, h⟩ := bind_eq_ok_iff.mp h
  cases h

theorem accepts_of_not_refers {name : Value} {q : Query}
    (hname : h.get? "spec.bmc.credentialsName" = some name) (hgiven : name.isGiven = true)
    (hq : secretQuery h name = .ok q) (hd : d.Searchable) (hrefers : ¬ h.Refers d) :
    q.accepts d = .ok false := by
  obtain ⟨ns, hns, rfl⟩ := secretQuery_eq_ok hq
  exact Query.accepts_of_not_isSecretOf hd fun hsecret =>
    hrefers ⟨name, ns, hname, hgiven, hns, hsecret⟩

/-- What a host does not refer to changes nothing of its credentials, wherever it stands. -/
theorem credentials_insert (hd : d.Searchable) (hrefers : ¬ h.Refers d)
    (pre post : List Document) :
    credentials h ⟨pre ++ d :: post⟩ = credentials h ⟨pre ++ post⟩ := by
  rw [credentials, credentials]
  split
  next => rfl
  next name hname =>
    by_cases hgiven : name.isGiven = true
    · cases hq : secretQuery h name with
      | error e => rfl
      | ok q =>
        have hfalse := accepts_of_not_refers hname hgiven hq hd hrefers
        simp only [bind, Except.bind, Bundle.selectOne_insert hfalse]
    · simp [hgiven]

theorem secret_of_credentials {b : Bundle} {c : Credentials} (hc : credentials h b = .ok c) :
    ∃ secret ∈ b.documents, h.Refers secret ∧
      secretValue secret "username" = .ok c.username ∧
      secretValue secret "password" = .ok c.password := by
  rw [credentials] at hc
  split at hc
  next => exact absurd hc fieldError_ne_ok
  next name hname =>
    split at hc
    next => exact absurd hc fieldError_ne_ok
    next hgiven =>
      obtain ⟨q, hq, hc⟩ := bind_eq_ok_iff.mp hc
      obtain ⟨secret, hsecret, hc⟩ := bind_eq_ok_iff.mp hc
      obtain ⟨user, huser, hc⟩ := bind_eq_ok_iff.mp hc
      obtain ⟨password, hpassword, hc⟩ := bind_eq_ok_iff.mp hc
      cases hc
      obtain ⟨hmem, haccepts⟩ := Bundle.accepts_of_selectOne hsecret
      obtain ⟨ns, hns, rfl⟩ := secretQuery_eq_ok hq
      refine ⟨secret, hmem, ⟨name, ns, hname, by simpa using hgiven, hns, ?_⟩, huser, hpassword⟩
      exact Query.isSecretOf_of_accepts haccepts

end Controller

end OutOfBand
