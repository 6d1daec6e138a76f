import OutOfBand.Proofs.Fleet.Outcome

namespace OutOfBand

variable {γ : Type}

/-- No other host of a bundle has the name of this document. -/
def Bundle.NamesOnly (b : Bundle) (d : Document) : Prop :=
  ∀ e ∈ b.documents, e.isHost = true → d.sameName e = true → e = d

namespace Document

theorem hasName_iff {d : Document} {name : String} :
    d.hasName name = true ↔ d.name = .ok (.str name) := by
  rw [hasName]
  constructor
  · intro h
    split at h
    next s hs => rw [hs, of_decide_eq_true h]
    next => cases h
  · intro h
    simp [h]

theorem hasName_of_sameName {d e : Document} {name : String} (hd : d.hasName name = true)
    (h : d.sameName e = true ∨ e.sameName d = true) : e.hasName name = true := by
  have hd := hasName_iff.mp hd
  cases he : e.name with
  | error f => simp [sameName, hd, he] at h
  | ok v =>
    simp only [sameName, hd, he, Value.str_alike_iff, Value.alike_str_iff, or_self] at h
    rw [hasName_iff, he, h]

end Document

namespace HostSelector

theorem isHost_of_picks {s : HostSelector} {d : Document} (h : s.picks d = true) :
    d.isHost = true := (Bool.and_eq_true_iff.mp h).1

theorem mem_picked {s : HostSelector} {b : Bundle} {d : Document} :
    d ∈ s.picked b ↔ d ∈ b.documents ∧ s.picks d = true := List.mem_filter

theorem mem_common {ss : List HostSelector} {b : Bundle} {d : Document} (h : d ∈ common ss b) :
    (∃ s, ss.getLast? = some s ∧ d ∈ s.picked b) ∧
      ∀ s ∈ ss, ∃ e ∈ s.picked b, d.sameName e = true := by
  rw [common] at h
  cases hlast : ss.getLast? with
  | none => simp [hlast] at h
  | some s =>
    rw [hlast] at h
    obtain ⟨hd, hall⟩ := List.mem_filter.mp h
    refine ⟨⟨s, rfl, (eraseDupsBy_sublist _).mem hd⟩, fun t ht => ?_⟩
    exact List.any_eq_true.mp (List.all_eq_true.mp hall t ht)

theorem picked_byName {name : String} {b : Bundle} (h : (byName name).mismatch? b = none) :
    ∃ d, (byName name).picked b = [d] := by
  rw [mismatch?, query] at h
  cases hp : (byName name).picked b with
  | nil => simp [hp] at h
  | cons d ds =>
    cases ds with
    | nil => exact ⟨d, rfl⟩
    | cons e ds => simp [hp] at h

theorem hasName_of_picks {name : String} {d : Document} (h : (byName name).picks d = true) :
    d.hasName name = true := (Bool.and_eq_true_iff.mp h).2

/-- Where a name is asked for, no two documents of that name can be mixed up. -/
theorem namesOnly_of_byName {ss : List HostSelector} {b : Bundle} {name : String} {d : Document}
    (hs : byName name ∈ ss) (hm : (byName name).mismatch? b = none) (hd : d ∈ common ss b) :
    b.NamesOnly d := by
  obtain ⟨only, honly⟩ := picked_byName hm
  obtain ⟨⟨last, -, hlast⟩, hshared⟩ := mem_common hd
  obtain ⟨hdocs, hpicks⟩ := mem_picked.mp hlast
  have eq_only : ∀ e ∈ b.documents, e.isHost = true → e.hasName name = true → e = only := by
    intro e he hhost hname
    have hp : e ∈ (byName name).picked b := mem_picked.mpr ⟨he, by simp [picks, hhost, hname]⟩
    rw [honly] at hp
    exact List.mem_singleton.mp hp
  obtain ⟨e, he, hde⟩ := hshared _ hs
  have hename := hasName_of_picks (mem_picked.mp he).2
  have hdname := Document.hasName_of_sameName hename (.inr hde)
  intro k hk hhost hdk
  rw [eq_only d hdocs (isHost_of_picks hpicks) hdname]
  exact eq_only k hk hhost (Document.hasName_of_sameName hdname (.inl hdk))

/-- A document whose name leaves no doubt is the one that every selector picks. -/
theorem picks_of_namesOnly {ss : List HostSelector} {b : Bundle} {d : Document}
    (hd : d ∈ common ss b) (h : b.NamesOnly d) : ∀ s ∈ ss, s.picks d = true := by
  intro s hs
  obtain ⟨e, he, hde⟩ := (mem_common hd).2 s hs
  obtain ⟨hdocs, hpicks⟩ := mem_picked.mp he
  have heq := h e hdocs (isHost_of_picks hpicks) hde
  rwa [heq] at hpicks

end HostSelector

namespace Build

variable {v : Vendors γ} {s : Settings} {bundle : Logged PhaseError Bundle}

/-- Every host of a fleet is made of a document that the last selector picks and whose name all of
them pick; they pick the document itself where no other host has its name, or a name was asked
for. -/
theorem fleet_picked (phase : String) (ss : List HostSelector) (bus : Option Bus) (stamp : Stamp)
    (r : BuildRecord γ) {f : Fleet γ}
    (h : ((fleet v s phase bundle ss bus stamp).run.run r).1 = .ok f) :
    ∃ b, (bundle.run []).1 = .ok b ∧ ∀ h ∈ f.hosts, ∃ d ∈ b.documents,
      h.IsOf v f.management b d ∧ (∃ s, ss.getLast? = some s ∧ s.picks d = true) ∧
      (∀ s ∈ ss, ∃ e ∈ b.documents, s.picks e = true ∧ d.sameName e = true) ∧
      (b.NamesOnly d ∨ (∃ name, .byName name ∈ ss) → ∀ s ∈ ss, s.picks d = true) := by
  rw [ends_fleet phase bus stamp r] at h
  obtain ⟨m, -, -, b, hb, hosts, hok, hf⟩ := outcome_eq_ok_iff.mp h
  have hof := Host.isOf_common hok
  rw [result] at hf
  split at hf
  next => cases hf
  next =>
    cases hf
    refine ⟨b, hb, fun h hh => ?_⟩
    obtain ⟨d, hd, hisOf⟩ := exists_of_mem_right hof hh
    obtain ⟨⟨last, hlast, hdlast⟩, hshared⟩ := HostSelector.mem_common hd
    obtain ⟨hdocs, hpicks⟩ := HostSelector.mem_picked.mp hdlast
    refine ⟨d, hdocs, hisOf, ⟨last, hlast, hpicks⟩, fun t ht => ?_, fun hwhy => ?_⟩
    · obtain ⟨e, he, hde⟩ := hshared t ht
      obtain ⟨hedocs, hepicks⟩ := HostSelector.mem_picked.mp he
      exact ⟨e, hedocs, hepicks, hde⟩
    · refine HostSelector.picks_of_namesOnly hd ?_
      rcases hwhy with hunique | ⟨name, hname⟩
      · exact hunique
      · obtain ⟨hs, -, hs'⟩ := exists_of_mem_left (mapM_eq_ok_iff.mp hok) hname
        exact HostSelector.namesOnly_of_byName hname (Host.isOf_of_ofSelector hs').1 hd

end Build

namespace Sample

/-- Two hosts of one name in namespaces of their own. -/
def twins : Bundle :=
  ⟨[host "m" "A" [("site", "1")], host "n" "A" [("rack", "1")], secret "m" "u", secret "n" "u"]⟩

end Sample

open Sample in
/-- Two labels that no document has both leave a host, if its name has both. -/
theorem fleet_of_twins_unpicked :
    let ss : List HostSelector := [.byLabel "site=1", .byLabel "rack=1"]
    ∃ f, ((Build.fleet vendors settings "p" (pure twins) ss none stamp).run.run
        BuildRecord.start).1 = .ok f ∧
      ∃ h ∈ f.hosts, ∀ d ∈ twins.documents, h.IsOf vendors f.management twins d →
        ∃ s ∈ ss, s.picks d = false := by
  intro ss
  refine ⟨⟨management, _⟩, rfl, _, List.mem_cons_self, ?_⟩
  intro d hd hof
  simp only [twins, List.mem_cons, List.not_mem_nil, or_false] at hd
  rcases hd with rfl | rfl | rfl | rfl
  · exact ⟨.byLabel "rack=1", by simp [ss], rfl⟩
  · exact ⟨.byLabel "site=1", by simp [ss], rfl⟩
  · exact ⟨.byLabel "site=1", by simp [ss], rfl⟩
  · exact ⟨.byLabel "site=1", by simp [ss], rfl⟩

open Sample in
/-- Asking for the name as well leaves the one document that has it. -/
theorem fleet_picked_of_one_name :
    let b : Bundle := ⟨[host "m" "A" [("site", "1")], host "m" "B" [("site", "1")], secret "m" "u"]⟩
    let ss : List HostSelector := [.byLabel "site=1", .byName "B"]
    ∃ f : Fleet ClientSpec, ((Build.fleet vendors settings "p" (pure b) ss none stamp).run.run
        BuildRecord.start).1 = .ok f ∧ f.hosts ≠ [] ∧
      ∀ h ∈ f.hosts, ∃ d ∈ b.documents, h.IsOf vendors f.management b d ∧
        ∀ s ∈ ss, s.picks d = true := by
  intro b ss
  have built : ∃ f, ((Build.fleet vendors settings "p" (pure b) ss none stamp).run.run
      BuildRecord.start).1 = .ok f ∧ f.hosts ≠ [] := ⟨⟨management, [_]⟩, rfl, by simp⟩
  obtain ⟨f, hf, hne⟩ := built
  obtain ⟨b', hb', hosts⟩ := Build.fleet_picked "p" ss none stamp BuildRecord.start hf
  cases hb'
  refine ⟨f, hf, hne, fun h hh => ?_⟩
  obtain ⟨d, hd, hof, -, -, hpicks⟩ := hosts h hh
  exact ⟨d, hd, hof, hpicks (.inr ⟨"B", by simp [ss]⟩)⟩

end OutOfBand
