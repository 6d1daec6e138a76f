import OutOfBand.Proofs.Fleet.Path
import OutOfBand.Proofs.Inventory.Loading
import OutOfBand.Proofs.Label.Conjunction

namespace OutOfBand

variable {γ : Type}

/-- What a selector fails with: it is wrong itself, or a document cannot be read. -/
theorem HostSelector.documents_eq_error {t : HostSelector} {b : Bundle} {f : DocumentError}
    (h : t.documents b = .error f) :
    t.mismatch? b = some f ∨
      ∃ q, t.query = .ok q ∧ ∃ d ∈ b.documents, q.accepts d = .error f := by
  have mismatch (hyields : t.documents b = t.yields b) : t.mismatch? b = some f := by
    rw [hyields, yields] at h
    split at h
    next e he => rw [he, Except.error.inj h]
    next => cases h
  cases hq : t.query with
  | error e => exact .inl (mismatch (documents_of_bad_query hq))
  | ok q =>
    cases hs : b.select q with
    | ok ds =>
      rw [Bundle.accepted_eq_ok hq hs] at hs
      exact .inl (mismatch (documents_of_select hq hs))
    | error e =>
      refine .inr ⟨q, rfl, ?_⟩
      have hf : e = f := by
        cases t with
        | byName name =>
          cases hq
          simpa [documents, Bundle.selectOne, hs, bind, Except.bind] using h
        | byLabel l =>
          change (Query.ofKind baremetalHostKind).withLabel l = _ at hq
          simpa [documents, hq, hs, bind, Except.bind] using h
      rw [Bundle.select_eq, hf] at hs
      cases hfind : b.documents.findSome? fun d => faultOf? (q.accepts d) with
      | none => simp [hfind] at hs
      | some e' =>
        obtain ⟨d, hd, hfault⟩ := List.exists_of_findSome?_eq_some hfind
        rw [hfind] at hs
        rw [Except.error.inj hs] at hfault
        exact ⟨d, hd, eq_error_of_faultOf? hfault⟩

section Settings

variable {v : Vendors γ} {s : Settings} {m : Management}

theorem Settings.validated_eq_ok_iff :
    s.validated v = .ok m ↔ s.managementOf = .ok m ∧ m.validate v = .ok () := by
  simp only [validated, bind_eq_ok_iff]
  constructor
  · rintro ⟨_, hm, ⟨⟩, hv, h⟩
    cases h
    exact ⟨hm, hv⟩
  · rintro ⟨hm, hv⟩
    exact ⟨m, hm, (), hv, rfl⟩

theorem Vendors.find_of_validate (h : m.validate v = .ok ()) :
    ∃ make, v.find m.type = .ok make := by
  obtain ⟨_, -, hensure⟩ := bind_eq_ok_iff.mp h
  obtain ⟨make, hmake, -⟩ := bind_eq_ok_iff.mp hensure
  exact ⟨make, hmake⟩

theorem Management.check_ne_unknownType {type : String} {known : List String} :
    m.check ≠ .error (.unknownType type known) := by
  unfold check
  repeat' split
  all_goals simp

/-- Only settings that are good but for their type name an unknown one. -/
theorem Settings.validated_eq_unknownType_iff {type : String} {known : List String} :
    s.validated v = .error (.unknownType type known) ↔
      known = v.types ∧ v.constructor? type = none ∧
        ∃ m, s.managementOf = .ok m ∧ m.check = .ok () ∧ m.type = type := by
  rw [validated]
  cases hm : s.managementOf with
  | error e =>
    obtain ⟨name, rfl | rfl⟩ := managementOf_eq_error hm <;> simp [bind, Except.bind]
  | ok m =>
    cases hc : m.check with
    | error e =>
      have hne : e ≠ .unknownType type known := fun he => m.check_ne_unknownType (he ▸ hc)
      simp [Management.validate, hc, bind, Except.bind, hne]
    | ok _ =>
      have hvalid : (do m.validate v; return m) = (v.find m.type).map fun _ => m := by
        rw [Management.validate, hc, Vendors.ensure]
        cases v.find m.type <;> rfl
      rw [show (Except.ok m >>= fun m => do m.validate v; return m) = _ from hvalid, Vendors.find]
      cases hf : v.constructor? m.type with
      | some make =>
        refine iff_of_false (by simp [Except.map]) ?_
        rintro ⟨-, hnone, _, hm, -, rfl⟩
        cases hm
        rw [hf] at hnone
        cases hnone
      | none =>
        constructor
        · rintro ⟨⟩
          exact ⟨rfl, hf, m, rfl, hc, rfl⟩
        · rintro ⟨rfl, -, _, hm, -, rfl⟩
          cases hm
          rfl

end Settings

namespace Host

variable {v : Vendors γ} {s : Settings} {m : Management} {b : Bundle}

/-- Where the type of the settings is known, a client fails for its document or its address. -/
theorem clientOf_eq_error (hv : m.validate v = .ok ()) {d : Document} {e : BuildError}
    (h : clientOf v m b d = .error e) : (∃ f, e = .document f) ∨ ∃ f, e = .address f := by
  obtain ⟨make, hmake⟩ := Vendors.find_of_validate hv
  rw [clientOf, hmake] at h
  cases ha : Controller.address d with
  | error f =>
    rw [ha] at h
    cases h
    exact .inl ⟨f, rfl⟩
  | ok address =>
    cases hc : Controller.credentials d b with
    | error f =>
      rw [ha, hc] at h
      cases h
      exact .inl ⟨f, rfl⟩
    | ok c =>
      rw [ha, hc] at h
      change (make (m.specOf address c.username c.password)).mapError BuildError.address = _ at h
      cases hmade : make (m.specOf address c.username c.password) with
      | ok client => simp [hmade, Except.mapError] at h
      | error f =>
        rw [hmade] at h
        cases h
        exact .inr ⟨f, rfl⟩

end Host

namespace HostSelector.FailsWith

variable {v : Vendors γ} {m : Management} {b : Bundle} {t : HostSelector} {e : BuildError}
  {cs : List γ}

theorem error (h : t.FailsWith v m b e cs) (hv : m.validate v = .ok ()) :
    (∃ f, e = .document f) ∨ ∃ f, e = .address f := by
  cases h with
  | documents h => exact .inl ⟨_, rfl⟩
  | client h hpre hd => exact Host.clientOf_eq_error hv hd
  | names hall hd hn hkey => exact .inl ⟨_, rfl⟩

/-- Where a selector fails there are clients for its documents before the one that fails, for none
of them if it yields no documents, and for all of them if it is their names that fail. -/
theorem clients (h : t.FailsWith v m b e cs) :
    ∃ ds, List.Forall₂ (Host.Made v m b) ds cs ∧
      ((ds = [] ∧ ∃ f, e = .document f ∧ (t.mismatch? b = some f ∨
          ∃ q, t.query = .ok q ∧ ∃ d ∈ b.documents, q.accepts d = .error f)) ∨
        (∃ d rest, t.picked b = ds ++ d :: rest ∧ Host.clientOf v m b d = .error e) ∨
        (ds = t.picked b ∧ ∃ d ∈ ds, ∃ n, d.name = .ok n ∧ n.isKey = false ∧
          e = .document (.shape (.notAKey n)))) := by
  cases h with
  | documents h => exact ⟨[], .nil, .inl ⟨rfl, _, rfl, documents_eq_error h⟩⟩
  | client h hpre hd => exact ⟨_, hpre, .inr (.inl ⟨_, _, h, hd⟩)⟩
  | names hall hd hn hkey => exact ⟨_, hall, .inr (.inr ⟨rfl, _, hd, _, hn, hkey, rfl⟩)⟩

end HostSelector.FailsWith

namespace Build

variable {v : Vendors γ} {s : Settings} {bundle : Logged PhaseError Bundle} {ss : List HostSelector}

section Reaches

variable {visited : List BuildState} {cs : List γ} {o : Except BuildError (Fleet γ)}

/-- Bad settings stop a build, and nothing else stops it with a fault of the settings. -/
theorem Reaches.settings_iff (h : Reaches v s bundle ss visited cs o) (e : SettingsError) :
    o = .error (.settings e) ↔ s.validated v = .error e := by
  cases o with
  | ok f =>
    obtain ⟨-, -, m, b, hm, -⟩ := h
    simp [hm]
  | error e' =>
    cases h with
    | settings h => simp [h]
    | phase hm h => simp [hm]
    | @selector m b _ pre post t cs cs' hm hb hss hpre ht =>
      have hv := (Settings.validated_eq_ok_iff.mp hm).2
      obtain ⟨f, rfl⟩ | ⟨f, rfl⟩ := ht.error hv <;> simp [hm]
    | noHosts hm hb hcs => simp [hm]

theorem Reaches.of_invalid (h : Reaches v s bundle ss visited cs o) {e : SettingsError}
    (hval : s.validated v = .error e) : cs = [] := by
  rw [(h.settings_iff e).mpr hval] at h
  cases h with
  | settings h => rfl
  | selector hm => simp [hval] at hm

theorem Reaches.of_unloaded (h : Reaches v s bundle ss visited cs o) {m : Management}
    {e : PhaseError} (hval : s.validated v = .ok m) (hload : (bundle.run []).1 = .error e) :
    o = .error (.phase e) ∧ cs = [] := by
  cases o with
  | ok f =>
    obtain ⟨-, -, m', b, -, hb, -⟩ := h
    simp [hload] at hb
  | error e' =>
    cases h with
    | settings h => simp [hval] at h
    | phase hm h => simpa [hload, eq_comm] using h
    | selector hm hb => simp [hload] at hb
    | noHosts hm hb => simp [hload] at hb

end Reaches

theorem fleet_of_invalid {e : SettingsError} (h : s.validated v = .error e) (phase : String)
    (bundle other : Logged PhaseError Bundle) (ss : List HostSelector) (bus : Option Bus)
    (stamp : Stamp) :
    fleet v s phase other ss bus stamp = fleet v s phase bundle ss bus stamp := by
  have hstages (bundle : Logged PhaseError Bundle) :
      stages v s phase bundle ss = throw (.settings e) := by
    rw [Settings.validated] at h
    rw [stages]
    cases hm : s.managementOf with
    | error f =>
      rw [hm] at h
      cases h
      rfl
    | ok m =>
      cases hv : m.validate v with
      | ok _ => simp [hm, hv, bind, Except.bind, pure, Except.pure] at h
      | error f =>
        rw [hm] at h
        simp only [bind, Except.bind, hv] at h
        cases h
        change (lift .settings (m.validate v) >>= fun _ => _ : Build γ (Fleet γ)) = _
        rw [hv]
        rfl
  rw [fleet, fleet, hstages, hstages]

variable (v s bundle ss) (phase : String) (bus : Option Bus) (stamp : Stamp)

/-- Which clients a build makes. Without good settings it makes none and does not ask for documents,
and only then its type is found to be unknown, which the loading of a phase never finds; without
documents it makes none either. Else it makes one for each document that a selector matches,
selector by selector: for all of them if it succeeds or no host is left, and otherwise for those
before a failure, which is that of a client, of a selector, or of the names of all documents of a
selector. -/
theorem fleet_clients :
    let run := (fleet v s phase bundle ss bus stamp).run.run BuildRecord.start
    (∀ e, run.1 = .error (.settings e) ↔ s.validated v = .error e) ∧
    (∀ type known, run.1 = .error (.settings (.unknownType type known)) ↔
      known = v.types ∧ v.constructor? type = none ∧
        ∃ m, s.managementOf = .ok m ∧ m.check = .ok () ∧ m.type = type) ∧
    (∀ machine log type known, ((s.bundleOf machine phase).run log).1 ≠
      .error (.settings (.unknownType type known))) ∧
    match s.validated v with
    | .error _ => run.2.built = [] ∧
      ∀ other, (fleet v s phase other ss bus stamp).run.run BuildRecord.start = run
    | .ok m => match (bundle.run []).1 with
      | .error e => run.1 = .error (.phase e) ∧ run.2.built = []
      | .ok b => match run.1 with
        | .ok _ | .error .noHosts =>
          List.Forall₂ (Host.Made v m b) (ss.flatMap (·.picked b)) run.2.built
        | .error e => ∃ pre t post ds, ss = pre ++ t :: post ∧
          List.Forall₂ (Host.Made v m b) (pre.flatMap (·.picked b) ++ ds) run.2.built ∧
          ((ds = [] ∧ ∃ f, e = .document f ∧ (t.mismatch? b = some f ∨
              ∃ q, t.query = .ok q ∧ ∃ d ∈ b.documents, q.accepts d = .error f)) ∨
            (∃ d rest, t.picked b = ds ++ d :: rest ∧ Host.clientOf v m b d = .error e) ∨
            (ds = t.picked b ∧ ∃ d ∈ ds, ∃ n, d.name = .ok n ∧ n.isKey = false ∧
              e = .document (.shape (.notAKey n)))) := by
  intro run
  obtain ⟨-, -, ⟨visited, hreached, -⟩, -⟩ := fleet_record v s phase bundle ss bus stamp
  change Reaches v s bundle ss visited run.2.built run.1 at hreached
  refine ⟨hreached.settings_iff, fun type known => ?_, fun machine log type known h => ?_, ?_⟩
  · rw [hreached.settings_iff, Settings.validated_eq_unknownType_iff]
  · exact s.failsFor_bundleOf machine phase log _ h
  cases hval : s.validated v with
  | error e =>
    refine ⟨hreached.of_invalid hval, fun other => ?_⟩
    rw [fleet_of_invalid hval phase bundle other ss bus stamp]
  | ok m =>
    cases hload : (bundle.run []).1 with
    | error e => exact hreached.of_unloaded hval hload
    | ok b =>
      dsimp only
      generalize run.2.built = cs at hreached
      generalize run.1 = o at hreached
      cases o with
      | ok f =>
        obtain ⟨-, -, m', b', hm, hb, hcs⟩ := hreached
        cases hm.symm.trans hval
        cases hb.symm.trans hload
        exact hcs
      | error e =>
        cases hreached with
        | settings h => simp [hval] at h
        | phase hm h => simp [hload] at h
        | noHosts hm hb hcs =>
          cases hm.symm.trans hval
          cases hb.symm.trans hload
          exact hcs
        | @selector m' b' _ pre post t cs cs' hm hb hss hpre ht =>
          cases hm.symm.trans hval
          cases hb.symm.trans hload
          obtain ⟨ds, hds, hwhy⟩ := ht.clients
          have hall := List.rel_append hpre hds
          -- the fault of a selector is none of those that stop a build elsewhere
          obtain ⟨f, rfl⟩ | ⟨f, rfl⟩ := ht.error (Settings.validated_eq_ok_iff.mp hm).2
          · exact ⟨pre, t, post, ds, hss, hall, hwhy⟩
          · exact ⟨pre, t, post, ds, hss, hall, hwhy⟩

end Build

namespace Sample

/-- A host whose name is a list, with its secret. -/
def oddlyNamed : Bundle :=
  let metadata := [(.str "name", .list [.str "A"]), (.str "namespace", .str "m")]
  let bmc := [(.str "address", .str "redfish://m/redfish/v1/Systems/1"),
    (.str "credentialsName", .str "bmc")]
  ⟨[⟨.map [(.str "kind", .str baremetalHostKind), (.str "metadata", .map metadata),
    (.str "spec", .map [(.str "bmc", .map bmc)])], none⟩, secret "m" "u"]⟩

end Sample

open Sample in
/-- A name that cannot be told apart from others ends a build although no document and no selector
has a fault, and the second selector makes no clients. -/
theorem fleet_of_oddly_named_incomplete :
    let ss : List HostSelector := [.byLabel "", .byLabel ""]
    let run := (Build.fleet vendors settings "p" (pure oddlyNamed) ss none stamp).run.run
      BuildRecord.start
    (∃ e, run.1 = .error e ∧ e ≠ .noHosts) ∧
      (∀ t ∈ ss, ∃ ds, t.documents oddlyNamed = .ok ds ∧ ds ≠ [] ∧
        ∀ d ∈ ds, ∃ c, Host.clientOf vendors management oddlyNamed d = .ok c) ∧
      run.2.built.length = 1 ∧ (ss.flatMap (·.picked oddlyNamed)).length = 2 := by
  intro ss run
  have hdocuments : ∃ d, (HostSelector.byLabel "").documents oddlyNamed = .ok [d] ∧
      ∃ c, Host.clientOf vendors management oddlyNamed d = .ok c := ⟨_, rfl, _, rfl⟩
  obtain ⟨d, hd, hclient⟩ := hdocuments
  have hfailed : ∃ e, run.1 = .error e ∧ e ≠ .noHosts :=
    ⟨.document (.shape (.notAKey (.list [.str "A"]))), rfl, by simp⟩
  refine ⟨hfailed, fun t ht => ?_, rfl, rfl⟩
  have heq : t = .byLabel "" := by simpa [ss] using ht
  exact ⟨[d], heq ▸ hd, by simp, by simpa using hclient⟩

end OutOfBand
