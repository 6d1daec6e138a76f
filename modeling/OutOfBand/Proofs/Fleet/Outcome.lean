import OutOfBand.Proofs.Fleet.Narrowing

namespace OutOfBand

variable {γ : Type}

/-- Whether two documents have one name. -/
def Document.sameName (d e : Document) : Bool :=
  match d.name, e.name with
  | .ok v, .ok w => v.alike w
  | _, _ => false

namespace HostSelector

/-- The fault of a selector: its own in the bundle, or else that of the first document that it
picks and that has one. -/
def fault? (v : Vendors γ) (m : Management) (b : Bundle) (s : HostSelector) : Option BuildError :=
  match s.mismatch? b with
  | some e => some (.document e)
  | none => (s.picked b).findSome? fun d => faultOf? (Host.ofDocument v m b d)

/-- The documents that the last of some selectors picks, the first of each name, as far as all
selectors pick documents of that name. -/
def common (ss : List HostSelector) (b : Bundle) : List Document :=
  match ss.getLast? with
  | none => []
  | some s =>
    ((s.picked b).eraseDupsBy Document.sameName).filter fun d =>
      ss.all fun t => (t.picked b).any d.sameName

end HostSelector

namespace Host

variable {v : Vendors γ} {m : Management} {b : Bundle}

theorem IsOf.sameName_eq {d e : Document} {h k : Host γ} (hh : h.IsOf v m b d)
    (hk : k.IsOf v m b e) : d.sameName e = h.sameName k := by
  rw [Document.sameName, hh.name, hk.name, sameName]

theorem isKey_of_regular (hb : ∀ d ∈ b.documents, d.Regular) {s : HostSelector}
    {hosts : List (Host γ)}
    (h : List.Forall₂ (fun d h => ofDocument v m b d = .ok h) (s.picked b) hosts) :
    ∀ h ∈ hosts, h.name.isKey = true := by
  intro k hk
  obtain ⟨d, hd, hh⟩ := exists_of_mem_right h hk
  obtain ⟨t, ht⟩ := (hb d (List.mem_of_mem_filter hd)).name
  rw [Except.ok.inj ((ofDocument_eq_ok_iff.mp hh).name.symm.trans ht)]
  rfl

/-- Among documents that can be read a selector fails for what it or one of its documents lacks. -/
theorem faultOf?_ofSelector (hb : ∀ d ∈ b.documents, d.Regular) (s : HostSelector) :
    faultOf? (ofSelector v m b s) = s.fault? v m b := by
  rw [ofSelector, faultOf?_bind, HostSelector.documents_of_regular hb, HostSelector.yields,
    HostSelector.fault?]
  cases s.mismatch? b with
  | some e => rfl
  | none =>
    rw [← faultOf?_mapM]
    cases hm : (s.picked b).mapM (ofDocument v m b) with
    | error e => simp [Except.mapError, hm, bind, Except.bind, faultOf?]
    | ok hosts =>
      have keys := checkNames_eq_ok_iff.mpr (isKey_of_regular hb (mapM_eq_ok_iff.mp hm))
      simp only [Except.mapError, hm, keys, bind, Except.bind, Query.liftShape]
      rfl

/-- The hosts that are left of those of some selectors are those of their common documents. -/
theorem isOf_common {ss : List HostSelector} {hosts : List (List (Host γ))}
    (h : ss.mapM (ofSelector v m b) = .ok hosts) :
    List.Forall₂ (IsOf v m b) (HostSelector.common ss b) ((narrowed none hosts).getD []) := by
  have name : ∀ (d : Document) (h : Host γ) (e : Document) (k : Host γ), h.IsOf v m b d →
      k.IsOf v m b e → d.sameName e = h.sameName k := fun d h e k hd he => hd.sameName_eq he
  have hsel := (mapM_eq_ok_iff.mp h).imp fun s hs hok => (isOf_of_ofSelector hok).2
  rcases ss.eq_nil_or_concat' with rfl | ⟨pre, last, rfl⟩
  · rw [List.forall₂_nil_left_iff.mp hsel]
    exact .nil
  · obtain ⟨hosts, new, rfl, -, hlast, -⟩ := forall₂_concat_left hsel
    rw [narrowed_eq fun hs hm => (exists_of_mem_right hsel hm).elim fun _ h => h.2.2,
      HostSelector.common, List.getLast?_concat]
    refine List.rel_filter ?_ (forall₂_eraseDupsBy name hlast)
    intro d h hdh
    have hall := all_eq_of_forall₂ (fun s hs hr =>
      any_eq_of_forall₂ (fun e k hek => name d h e k hdh hek) hr.1) hsel
    exact iff_of_eq (congrArg (· = true) hall)

end Host

namespace Build

/-- A fleet can be built exactly if no selector has a fault and something is left; then it has one
host for each document that is left, made of that document alone. -/
theorem fleet_outcome {v : Vendors γ} {m : Management} {b : Bundle} {s : Settings}
    {bundle : Logged PhaseError Bundle} (hm : s.managementOf = .ok m) (hv : m.validate v = .ok ())
    (hb : (bundle.run []).1 = .ok b) (hd : ∀ d ∈ b.documents, d.Regular) (phase : String)
    (ss : List HostSelector) (bus : Option Bus) (stamp : Stamp) (r : BuildRecord γ) :
    let final := ((fleet v s phase bundle ss bus stamp).run.run r).1
    (∀ e, ss.findSome? (·.fault? v m b) = some e → final = .error e) ∧
    (ss.findSome? (·.fault? v m b) = none →
      (HostSelector.common ss b = [] → final = .error .noHosts) ∧
      (HostSelector.common ss b ≠ [] → ∃ hosts, final = .ok ⟨m, hosts⟩ ∧
        List.Forall₂ (Host.IsOf v m b) (HostSelector.common ss b) hosts ∧
        (hosts.map (·.name)).Nodup)) := by
  intro final
  have hends : final = ss.mapM (Host.ofSelector v m b) >>= result m :=
    (ends_fleet phase bus stamp r).trans (outcome_of_loaded hm hv hb)
  have hfault : faultOf? (ss.mapM (Host.ofSelector v m b)) = ss.findSome? (·.fault? v m b) := by
    rw [faultOf?_mapM]
    congr 1
    funext s
    exact Host.faultOf?_ofSelector hd s
  rw [hends, ← hfault]
  constructor
  · intro e he
    rw [eq_error_of_faultOf? he]
    rfl
  · intro hnone
    obtain ⟨hosts, hok⟩ := eq_ok_of_faultOf?_eq_none hnone
    have hof := Host.isOf_common hok
    have hnodup := Host.nodup_narrowed fun hs hm =>
      (exists_of_mem_right (mapM_eq_ok_iff.mp hok) hm).elim fun s hs =>
        (Host.isOf_of_ofSelector hs.2).2.2
    rw [hok]
    change (_ → result m hosts = _) ∧ (_ → ∃ left, result m hosts = _ ∧ _)
    rw [result]
    constructor
    · intro hnil
      rw [hnil, List.forall₂_nil_left_iff] at hof
      rw [hof]
      rfl
    · intro hne
      refine ⟨_, if_neg ?_, hof, hnodup⟩
      intro hempty
      rw [List.isEmpty_iff.mp hempty, List.forall₂_nil_right_iff] at hof
      exact hne hof

end Build

namespace Sample

/-- The document of a host in a namespace, which has its own secret there. -/
def host (ns name : String) (labels : Labels) : Document :=
  let metadata := [(.str "name", .str name), (.str "namespace", .str ns),
    (.str "labels", .map (labels.map fun (k, v) => (.str k, .str v)))]
  let bmc := [(.str "address", .str ("redfish://" ++ ns ++ "/redfish/v1/Systems/1")),
    (.str "credentialsName", .str "bmc")]
  ⟨.map [(.str "kind", .str baremetalHostKind), (.str "metadata", .map metadata),
    (.str "spec", .map [(.str "bmc", .map bmc)])], none⟩

def secret (ns user : String) : Document :=
  let metadata := [(.str "name", .str "bmc"), (.str "namespace", .str ns)]
  let data := [(.str "username", .str user), (.str "password", .str "pw")]
  ⟨.map [(.str "kind", .str secretKind), (.str "metadata", .map metadata),
    (.str "stringData", .map data)], none⟩

def management : Management := ⟨"redfish", false, false, 2, 0⟩

def settings : Settings :=
  ⟨"test", [("test", ⟨"default", "default"⟩)], [], [("default", management)]⟩

/-- Clients that are no more than what they are made from. -/
def vendors : Vendors ClientSpec := Vendors.none.register "redfish" .ok

def stamp : Stamp := ⟨"", "", none, none⟩

theorem host_regular (ns name : String) (labels : Labels) : (host ns name labels).Regular :=
  Document.regular_of_entries rfl (orElse_map _) (orElse_map _) (orElse_str name)

theorem secret_regular (ns user : String) : (secret ns user).Regular :=
  Document.regular_of_entries rfl (orElse_map _) rfl (orElse_str "bmc")

end Sample

open Sample in
/-- Two selectors that have one host in common leave that one. -/
theorem fleet_outcome_of_one_in_common :
    let b : Bundle := ⟨[host "m" "A" [("site", "1")], host "m" "B" [("site", "1")], secret "m" "u"]⟩
    let ss : List HostSelector := [.byLabel "site=1", .byName "B"]
    settings.managementOf = .ok management ∧ management.validate vendors = .ok () ∧
      (∀ d ∈ b.documents, d.Regular) ∧
      ∃ hosts, ((Build.fleet vendors settings "p" (pure b) ss none stamp).run.run
          BuildRecord.start).1 = .ok ⟨management, hosts⟩ ∧
        List.Forall₂ (Host.IsOf vendors management b) [host "m" "B" [("site", "1")]] hosts ∧
        (hosts.map (·.name)).Nodup := by
  intro b ss
  have hd : ∀ d ∈ b.documents, d.Regular := by
    intro d hd
    simp only [b, List.mem_cons, List.not_mem_nil, or_false] at hd
    rcases hd with rfl | rfl | rfl
    · exact host_regular _ _ _
    · exact host_regular _ _ _
    · exact secret_regular _ _
  refine ⟨rfl, rfl, hd, ?_⟩
  have hb : ((pure b : Logged PhaseError Bundle).run []).1 = .ok b := rfl
  have h := (Build.fleet_outcome (v := vendors) (s := settings) rfl rfl hb hd "p" ss none stamp
    BuildRecord.start).2 rfl
  have hc : HostSelector.common ss b = [host "m" "B" [("site", "1")]] := rfl
  rw [hc] at h
  exact h.2 (by simp)

end OutOfBand
