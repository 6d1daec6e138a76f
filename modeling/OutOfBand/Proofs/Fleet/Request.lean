import OutOfBand.Proofs.Fleet.Rearrangement

namespace OutOfBand

variable {γ : Type}

namespace HostSelector

theorem byName_mem_ofRequest {name : String} (hne : name ≠ "") (labels : Option String)
    (default : String) : .byName name ∈ ofRequest (some name) labels default := by
  have hgiven : given? (some name) = some name := by simp [given?, hne]
  rw [ofRequest, hgiven]
  cases given? labels <;> simp

/-- Labels or the default select as if no name had been asked for. -/
theorem ofRequest_of_empty_name (labels : Option String) (default : String) :
    ofRequest (some "") labels default = ofRequest none labels default := rfl

theorem hasName_of_mem_common {ss : List HostSelector} {b : Bundle} {name : String} {d : Document}
    (hs : .byName name ∈ ss) (hd : d ∈ common ss b) : d.hasName name = true := by
  obtain ⟨e, he, hsame⟩ := (mem_common hd).2 _ hs
  exact Document.hasName_of_sameName (hasName_of_picks (mem_picked.mp he).2) (.inr hsame)

end HostSelector

namespace Build

variable {v : Vendors γ} {s : Settings} {bundle : Logged PhaseError Bundle}

theorem apart_names_of_outcome {ss : List HostSelector} {f : Fleet γ}
    (h : outcome v s bundle ss = .ok f) : Value.Apart f.names := by
  obtain ⟨m, -, -, b, -, hosts, hok, hf⟩ := outcome_eq_ok_iff.mp h
  have keys : ∀ hs ∈ hosts, ∀ h ∈ hs, h.name.isKey = true := by
    intro hs hm
    obtain ⟨t, -, ht⟩ := exists_of_mem_right (mapM_eq_ok_iff.mp hok) hm
    exact (Host.isOf_of_ofSelector ht).2.2
  rw [result] at hf
  split at hf
  next => cases hf
  next =>
    cases hf
    exact Host.apart_narrowed keys

/-- A name among the selectors leaves its host and no other. -/
theorem only_host_of_byName {ss : List HostSelector} {name : String} (hs : .byName name ∈ ss)
    {f : Fleet γ} (h : outcome v s bundle ss = .ok f) :
    ∃ k, f.hosts = [k] ∧ k.name = .str name := by
  obtain ⟨b, -, hof, hne, -⟩ := isOf_of_outcome h
  have names : ∀ k ∈ f.hosts, k.name = .str name := by
    intro k hk
    obtain ⟨d, hd, hdk⟩ := exists_of_mem_right hof hk
    have hname := Document.hasName_iff.mp (HostSelector.hasName_of_mem_common hs hd)
    exact Except.ok.inj (hdk.name.symm.trans hname)
  have hnodup := (apart_names_of_outcome h).nodup
  rw [Fleet.names] at hnodup
  obtain ⟨k, rest, hk⟩ := List.exists_cons_of_ne_nil hne
  rw [hk] at names hnodup ⊢
  cases rest with
  | nil => exact ⟨k, rfl, names k (by simp)⟩
  | cons k' rest =>
    -- a second host would have the name of the first
    have hsame : k.name = k'.name := (names k (by simp)).trans (names k' (by simp)).symm
    simp [hsame] at hnodup

/-- A request with a name, whatever its labels and its default, builds no fleet but the one host of
that name. With the empty name it is the request without a name. -/
theorem fleet_of_requested_name (name : String) (labels : Option String) (default phase : String)
    (bus : Option Bus) (stamp : Stamp) (r : BuildRecord γ) :
    let built (request : Option String) := (fleet v s phase bundle
      (HostSelector.ofRequest request labels default) bus stamp).run.run r
    (name ≠ "" → ∀ f, (built (some name)).1 = .ok f →
      ∃ k, f.hosts = [k] ∧ k.name = .str name) ∧
    (name = "" → built (some name) = built none) := by
  intro built
  constructor
  · intro hne f hf
    have hmem := HostSelector.byName_mem_ofRequest hne labels default
    have hends : (built (some name)).1 = _ := ends_fleet phase bus stamp r
    exact only_host_of_byName hmem (hends.symm.trans hf)
  · rintro rfl
    exact congrArg (fun ss => (fleet v s phase bundle ss bus stamp).run.run r)
      (HostSelector.ofRequest_of_empty_name labels default)

end Build

open Sample in
/-- Asking for a host by its name leaves it alone of two that have the label. -/
theorem fleet_of_requested_name_labelled :
    let built := (Build.fleet vendors settings "p" (pure pair)
      (HostSelector.ofRequest (some "B") (some "site=1") "") none stamp).run.run BuildRecord.start
    ∃ f, built.1 = .ok f ∧ ∃ k, f.hosts = [k] ∧ k.name = .str "B" := by
  intro built
  have hbuilt : ∃ f, built.1 = .ok f := ⟨⟨management, [_]⟩, rfl⟩
  obtain ⟨f, hf⟩ := hbuilt
  have h := (Build.fleet_of_requested_name "B" (some "site=1") "" "p" none stamp
    BuildRecord.start).1 (by decide) f hf
  exact ⟨f, hf, h⟩

open Sample in
/-- A request with an empty name and without labels is one for all hosts. -/
theorem fleet_of_empty_name_unrestricted :
    let ss := HostSelector.ofRequest (some "") none ""
    ∃ f : Fleet ClientSpec, ((Build.fleet vendors settings "p" (pure pair) ss none stamp).run.run
        BuildRecord.start).1 = .ok f ∧
      f.names = [.str "A", .str "B"] ∧ ¬ ∃ k, f.hosts = [k] ∧ k.name = .str "" := by
  refine ⟨⟨management, [_, _]⟩, rfl, rfl, ?_⟩
  rintro ⟨k, hk, -⟩
  cases hk

end OutOfBand
