import OutOfBand.Proofs.Fleet.Matching
import OutOfBand.Proofs.Fleet.Outcome
import OutOfBand.Proofs.Inventory.Bystanders

namespace OutOfBand

variable {γ : Type}

section Insert

variable {pre post : List Document} {d : Document} (hd : d.Searchable) (hhost : d.isHost = false)
  (hrefers : ∀ h ∈ pre ++ post, h.isHost = true → ¬ h.Refers d)

include hd hhost hrefers

theorem Host.ofSelector_insert (v : Vendors γ) (m : Management) (s : HostSelector) :
    ofSelector v m ⟨pre ++ d :: post⟩ s = ofSelector v m ⟨pre ++ post⟩ s := by
  rw [ofSelector, ofSelector, HostSelector.documents_insert hd hhost]
  cases hds : s.documents ⟨pre ++ post⟩ with
  | error e => rfl
  | ok ds =>
    obtain ⟨-, rfl⟩ := HostSelector.yields_eq_ok_iff.mp (HostSelector.yields_of_documents hds)
    have hsame : ∀ h ∈ s.picked ⟨pre ++ post⟩,
        ofDocument v m ⟨pre ++ d :: post⟩ h = ofDocument v m ⟨pre ++ post⟩ h := by
      intro h hh
      obtain ⟨hmem, hpicks⟩ := HostSelector.mem_picked.mp hh
      have hishost : h.isHost = true := (Bool.and_eq_true_iff.mp hpicks).1
      rw [ofDocument, ofDocument, Controller.credentials_insert hd (hrefers h hmem hishost)]
    simp only [Except.mapError, bind, Except.bind, mapM_congr hsame]

theorem Build.outcome_insert (v : Vendors γ) (s : Settings) (ss : List HostSelector)
    {bundle bundle' : Logged PhaseError Bundle} (hb : (bundle.run []).1 = .ok ⟨pre ++ post⟩)
    (hb' : (bundle'.run []).1 = .ok ⟨pre ++ d :: post⟩) :
    outcome v s bundle' ss = outcome v s bundle ss := by
  have hsame (m : Management) : Host.ofSelector v m ⟨pre ++ d :: post⟩ =
      Host.ofSelector v m ⟨pre ++ post⟩ :=
    funext fun s => Host.ofSelector_insert hd hhost hrefers v m s
  simp only [outcome, hb, hb', Except.mapError, bind, Except.bind, hsame]

end Insert

namespace Build

/-- A document that is no host, and that no host refers to, does not matter to a fleet, wherever it
stands. In particular a host that is in a namespace has the user and the password of a secret
there, and what is in another namespace does not matter to them. -/
theorem fleet_among_bystanders :
    (∀ (v : Vendors γ) (s : Settings) (phase : String) (ss : List HostSelector) (bus : Option Bus)
        (stamp : Stamp) (r : BuildRecord γ) (pre post : List Document) (d : Document)
        (bundle bundle' : Logged PhaseError Bundle),
      (bundle.run []).1 = .ok ⟨pre ++ post⟩ → (bundle'.run []).1 = .ok ⟨pre ++ d :: post⟩ →
      d.Searchable → d.isHost = false →
      (∀ h ∈ pre ++ post, h.isHost = true → ¬ h.Refers d) →
      ((fleet v s phase bundle' ss bus stamp).run.run r).1 =
        ((fleet v s phase bundle ss bus stamp).run.run r).1) ∧
    ∀ (h : Document) (ns : Value), h.namespaceOf = .ok ns → ns.isGiven = true →
      (∀ b c, Controller.credentials h b = .ok c →
        ∃ secret ∈ b.documents, (∃ w, secret.namespaceOf = .ok w ∧ ns.same w = true) ∧
          Controller.secretValue secret "username" = .ok c.username ∧
          Controller.secretValue secret "password" = .ok c.password) ∧
      ∀ pre post d w, d.Searchable → d.namespaceOf = .ok w → ns.same w = false →
        Controller.credentials h ⟨pre ++ d :: post⟩ = Controller.credentials h ⟨pre ++ post⟩ := by
  refine ⟨?_, fun h ns hns hgiven => ⟨?_, ?_⟩⟩
  · intro v s phase ss bus stamp r pre post d bundle bundle' hb hb' hd hhost hrefers
    rw [ends_fleet phase bus stamp r, ends_fleet phase bus stamp r]
    exact outcome_insert hd hhost hrefers v s ss hb hb'
  · intro b c hc
    obtain ⟨secret, hmem, hrefers, hread⟩ := Controller.secret_of_credentials hc
    exact ⟨secret, hmem, hrefers.inside hns hgiven, hread⟩
  · intro pre post d w hd hw hother
    exact Controller.credentials_insert hd
      (Document.not_refers_of_elsewhere hns hgiven hw hother) pre post

end Build

open Sample in
/-- The secret of the same name in another namespace does not matter. -/
theorem fleet_among_bystanders_elsewhere :
    let built (ds : List Document) := ((Build.fleet vendors settings "p" (pure ⟨ds⟩) [.byName "A"]
      none stamp).run.run BuildRecord.start).1
    let docs := [host "m" "A" [], secret "n" "v", secret "m" "u"]
    built docs = built [host "m" "A" [], secret "m" "u"] ∧
    (∃ f, built docs = .ok f ∧ f.hosts.map (·.credentials) = [⟨"u", "pw"⟩]) ∧
    ∃ secret ∈ docs, (∃ w, secret.namespaceOf = .ok w ∧ (Value.str "m").same w = true) ∧
      Controller.secretValue secret "username" = .ok "u" ∧
      Controller.secretValue secret "password" = .ok "pw" := by
  intro built docs
  obtain ⟨hfleet, hinside⟩ := Build.fleet_among_bystanders (γ := ClientSpec)
  have hns : (host "m" "A" []).namespaceOf = .ok (.str "m") := rfl
  have hother : (secret "n" "v").namespaceOf = .ok (.str "n") := rfl
  have hsearch : (secret "n" "v").Searchable := ⟨⟨_, rfl⟩, fun _ => ⟨_, rfl⟩⟩
  have hrefers : ∀ h ∈ [host "m" "A" []] ++ [secret "m" "u"], h.isHost = true →
      ¬ h.Refers (secret "n" "v") := by
    intro h hh hhost
    simp only [List.cons_append, List.nil_append, List.mem_cons, List.not_mem_nil, or_false] at hh
    obtain rfl | rfl := hh
    · exact Document.not_refers_of_elsewhere hns rfl hother rfl
    · cases hhost
  have hcredentials : Controller.credentials (host "m" "A" []) ⟨docs⟩ = .ok ⟨"u", "pw"⟩ := rfl
  refine ⟨?_, ⟨⟨management, [_]⟩, rfl, rfl⟩, (hinside _ _ hns rfl).1 ⟨docs⟩ _ hcredentials⟩
  exact hfleet vendors settings "p" [.byName "A"] none stamp BuildRecord.start [host "m" "A" []]
    [secret "m" "u"] (secret "n" "v") _ _ rfl rfl hsearch rfl hrefers

end OutOfBand
