import OutOfBand.CommandLine.Session
import OutOfBand.Proofs.Fleet.Comparison
import OutOfBand.Proofs.Fleet.Outcome
import OutOfBand.Proofs.Exact
import OutOfBand.Proofs.Redfish.Users

namespace OutOfBand

variable {γ α β τ : Type} {S : γ → γ → Prop}

/-- The same record but for the clients that were made, which are related one by one. -/
structure BuildRecord.Alike (S : γ → γ → Prop) (r r' : BuildRecord γ) : Prop where
  state : r.state = r'.state
  transitions : r.transitions = r'.transitions
  notices : r.notices = r'.notices
  built : List.Forall₂ S r.built r'.built

namespace Build

/-- Builds that end alike from like records, and leave like records. -/
def Agrees (S : γ → γ → Prop) (R : α → β → Prop) (x : Build γ α) (y : Build γ β) : Prop :=
  ∀ r r', r.Alike S r' →
    Agree R (x.run.run r).1 (y.run.run r').1 ∧ (x.run.run r).2.Alike S (y.run.run r').2

theorem agrees_modify {f g : BuildRecord γ → BuildRecord γ}
    (h : ∀ r r', r.Alike S r' → (f r).Alike S (g r')) :
    Agrees S Eq (modify f : Build γ Unit) (modify g) := fun r r' hr => ⟨.ok rfl, h r r' hr⟩

theorem Agrees.bind {α' β' : Type} {R : α → β → Prop} {R' : α' → β' → Prop} {x : Build γ α}
    {y : Build γ β} {f : α → Build γ α'} {g : β → Build γ β'} (h : Agrees S R x y)
    (hfg : ∀ a b, R a b → Agrees S R' (f a) (g b)) : Agrees S R' (x >>= f) (y >>= g) := by
  intro r r' hr
  have hxy := h r r' hr
  rw [run_bind, run_bind]
  generalize x.run.run r = one at hxy ⊢
  generalize y.run.run r' = other at hxy ⊢
  obtain ⟨o, s⟩ := one
  obtain ⟨o', s'⟩ := other
  obtain ⟨hends, hrecord⟩ := hxy
  cases hends with
  | ok hab => exact hfg _ _ hab s s' hrecord
  | error e => exact ⟨.error e, hrecord⟩

theorem Agrees.handle {R : α → β → Prop} {x : Build γ α} {y : Build γ β}
    {f : BuildError → Build γ α} {g : BuildError → Build γ β} (h : Agrees S R x y)
    (hfg : ∀ e, Agrees S R (f e) (g e)) : Agrees S R (tryCatch x f) (tryCatch y g) := by
  intro r r' hr
  have hxy := h r r' hr
  rw [run_tryCatch, run_tryCatch]
  generalize x.run.run r = one at hxy ⊢
  generalize y.run.run r' = other at hxy ⊢
  obtain ⟨o, s⟩ := one
  obtain ⟨o', s'⟩ := other
  obtain ⟨hends, hrecord⟩ := hxy
  cases hends with
  | ok hab => exact ⟨.ok hab, hrecord⟩
  | error e => exact hfg e s s' hrecord

/-- That two builds agree, as something they have in common. -/
def agreement (S : γ → γ → Prop) : Comparison S where
  holds := Agrees S
  pure h := fun _ _ hr => ⟨.ok h, hr⟩
  throw _ e := fun _ _ hr => ⟨.error e, hr⟩
  bind := Agrees.bind
  handle := Agrees.handle
  write os := agrees_modify fun r r' hr => { hr with notices := by rw [hr.notices] }
  advance next detail := agrees_modify fun r r' hr =>
    { built := hr.built
      state := rfl
      transitions := by rw [hr.state, hr.transitions]
      notices := by rw [hr.state, hr.notices] }
  keep h := agrees_modify fun r r' hr =>
    { hr with built := List.rel_append hr.built (.cons h .nil) }

theorem fleet_agrees {v : Vendors γ} (hv : v.Discreet S) {bundle bundle' : Logged PhaseError Bundle}
    (hb : Agree Bundle.SameButSecrets (bundle.run []).1 (bundle'.run []).1)
    (hlog : (bundle.run []).2 = (bundle'.run []).2) (s : Settings) (phase : String)
    (ss : List HostSelector) (bus : Option Bus) (stamp : Stamp) :
    Agrees S (Fleet.Alike S) (fleet v s phase bundle ss bus stamp)
      (fleet v s phase bundle' ss bus stamp) := by
  rw [fleet_eq_attempt, fleet_eq_attempt]
  let C := agreement S
  have halike := hb.mono fun _ _ hbc => Bundle.SameButSecrets.alike hbc
  refine Agrees.bind (C.attempt hv halike hlog s phase ss) fun f g hfg => ?_
  refine C.after (C.advance _ _) ?_
  have hannounce : Agrees S Eq (announce bus stamp f) (announce bus stamp g) := by
    refine agrees_modify fun r r' hr => { hr with notices := ?_ }
    rw [hr.notices, hfg.names, hfg.management]
  exact C.after hannounce (C.pure hfg)

end Build

open Redfish in
theorem Vendors.dialect_of_builtIn {seconds : Float → τ} {type : String}
    {make : Constructor (System τ)}
    (h : (Vendors.builtIn seconds).constructor? type = some make) :
    ∃ dialect, make = System.ofSpec seconds dialect := by
  have hall : (Vendors.builtIn seconds).constructors =
      [(Dialect.standard.type, System.ofSpec seconds .standard),
        (Dialect.dell.type, System.ofSpec seconds .dell)] := rfl
  obtain ⟨entry, hfind, rfl⟩ := Option.map_eq_some_iff.mp h
  have hmem := List.mem_of_find?_eq_some hfind
  rw [hall] at hmem
  simp only [List.mem_cons, List.not_mem_nil, or_false] at hmem
  rcases hmem with rfl | rfl
  · exact ⟨.standard, rfl⟩
  · exact ⟨.dell, rfl⟩

open Redfish in
theorem Vendors.builtIn_discreet (seconds : Float → τ) :
    (Vendors.builtIn seconds).Discreet System.SameButUser := by
  intro type make hmake m address c c' hc
  obtain ⟨dialect, rfl⟩ := dialect_of_builtIn hmake
  exact System.ofSpec_agree seconds dialect hc rfl

namespace Batch

variable [Seconds τ]

/-- A batch is the same on hosts of the same names if its action is the same on each of them. -/
theorem run_eq_of_alike {b : Batch τ} {hs ks : List (Host (Client τ))}
    (h : List.Forall₂ (fun h k => h.name = k.name ∧ b.runOn h = b.runOn k) hs ks) (mode : Mode) :
    b.run mode hs = b.run mode ks := by
  have hresults : b.results mode hs = b.results mode ks := by
    cases mode with
    | sideBySide workers schedule =>
      have htasks : hs.map b.runOn = ks.map b.runOn := map_eq_of_forall₂ (fun _ _ hk => hk.2) h
      have hempty : hs.isEmpty = ks.isEmpty := by cases h <;> rfl
      rw [results, results, htasks, hempty]
    | inTurn goOn =>
      induction h with
      | nil => rfl
      | @cons h k hs ks hk hrest ih =>
        have hskipped : hs.map (b.result · .skipped) = ks.map (b.result · .skipped) :=
          map_eq_of_forall₂ (fun _ _ hk => by rw [result, result, hk.1]) hrest
        change b.runInTurn goOn hs = b.runInTurn goOn ks at ih
        change b.runInTurn goOn (h :: hs) = b.runInTurn goOn (k :: ks)
        rw [runInTurn, runInTurn, hk.2, hskipped, ih]
  rw [run, run, hresults]

end Batch

namespace CommandLine.Session

variable [Seconds τ]

theorem runOn_connect {s : Surroundings τ} {h k : Host (Redfish.System τ)}
    (hk : h.Alike Redfish.System.SameButUser k) (command : Command) (name : String)
    (timeout : Option τ) (bus : Option Bus) (stamp : Stamp) :
    let batch : Batch τ := ⟨command.action, name, timeout, bus, stamp⟩
    batch.runOn (connect s h) = batch.runOn (connect s k) := by
  intro batch
  obtain ⟨hname, haddress, user, -, hclient⟩ := hk
  have hconnect : connect s k = { connect s h with credentials := k.credentials } := by
    simp only [connect, Means.connect, means, hclient, Redfish.System.client_withUser, hname,
      haddress]
  rw [hconnect]
  cases command <;> rfl

end CommandLine.Session

namespace Build

open CommandLine Redfish

/-- Users and passwords do not leak. From two bundles that differ in nothing but them the same
fleet is built, or both builds fail for one reason, and the same is reported of both. The hosts of
the two fleets look alike and do the same under every command, whatever is replied; only their
credentials and the users of their sessions tell them apart. -/
theorem fleets_of_other_secrets [Seconds τ] (s : Surroundings τ) {b c : Bundle} {lines : Log}
    {bundle bundle' : Logged PhaseError Bundle} (loaded : bundle.run [] = (.ok b, lines))
    (loaded' : bundle'.run [] = (.ok c, lines)) (same : b.SameButSecrets c) (g : Settings)
    (phase : String) (ss : List HostSelector) (bus : Option Bus) (stamp : Stamp) :
    let built (bundle : Logged PhaseError Bundle) := (fleet (Vendors.builtIn s.seconds) g phase
      bundle ss bus stamp).run.run BuildRecord.start
    (built bundle).2.Alike System.SameButUser (built bundle').2 ∧
    Agree (fun f f' => f.Alike System.SameButUser f' ∧
      f.hosts.map Host.shown = f'.hosts.map Host.shown ∧
      ∀ (command : Command) (name : String) (timeout : Option τ) (bus : Option Bus)
        (stamp : Stamp) (mode : Mode) (t : Timeline τ),
        let batch : Batch τ := ⟨command.action, name, timeout, bus, stamp⟩
        (batch.run mode (f.hosts.map (Session.connect s))).run t =
          (batch.run mode (f'.hosts.map (Session.connect s))).run t)
      (built bundle).1 (built bundle').1 := by
  intro built
  have hb : Agree Bundle.SameButSecrets (bundle.run []).1 (bundle'.run []).1 := by
    rw [loaded, loaded']
    exact .ok same
  have hlog : (bundle.run []).2 = (bundle'.run []).2 := by rw [loaded, loaded']
  have hstart : BuildRecord.start.Alike System.SameButUser
      (BuildRecord.start : BuildRecord (System τ)) := ⟨rfl, rfl, rfl, .nil⟩
  obtain ⟨hends, hrecord⟩ := fleet_agrees (Vendors.builtIn_discreet s.seconds) hb hlog g phase ss
    bus stamp _ _ hstart
  refine ⟨hrecord, hends.mono fun f f' hf => ⟨hf, ?_, ?_⟩⟩
  · exact map_eq_of_forall₂ (fun _ _ => Host.Alike.shown) hf.hosts
  · intro command name timeout bus stamp mode t batch
    have hhosts : List.Forall₂ (fun h k => h.name = k.name ∧ batch.runOn h = batch.runOn k)
        (f.hosts.map (Session.connect s)) (f'.hosts.map (Session.connect s)) := by
      rw [List.forall₂_map_left_iff, List.forall₂_map_right_iff]
      exact hf.hosts.imp fun h k hk =>
        ⟨hk.name, Session.runOn_connect hk command name timeout bus stamp⟩
    rw [Batch.run_eq_of_alike hhosts]

end Build

namespace Sample

/-- A host and the secret of one user. -/
def guarded (user : String) : Bundle := ⟨[host "m" "A" [("site", "1")], secret "m" user]⟩

theorem guarded_sameButSecrets {user user' : String} (h : user ≠ "") (h' : user' ≠ "") :
    (guarded user).SameButSecrets (guarded user') := by
  have hdata : SecretData (.str "stringData")
      (.map [(.str "username", .str user), (.str "password", .str "pw")])
      (.map [(.str "username", .str user'), (.str "password", .str "pw")]) := by
    refine .inr (.inl ⟨rfl, .map (.cons ⟨rfl, .inr ⟨.inl rfl, h, h'⟩⟩ (.cons ?_ .nil))⟩)
    exact ⟨rfl, .inl rfl⟩
  have hsecret : (secret "m" user).SameButSecrets (secret "m" user') :=
    ⟨rfl, .map (.cons ⟨rfl, .inl rfl⟩ (.cons ⟨rfl, .inl rfl⟩ (.cons ⟨rfl, hdata⟩ .nil)))⟩
  exact .cons ⟨rfl, .same _⟩ (.cons hsecret .nil)

/-- A place where every request fails. -/
def nowhere : CommandLine.Surroundings Int :=
  ⟨default, default, fun _ _ => ⟨.timedOut, 1, false⟩, fun _ => 0, []⟩

end Sample

open Sample CommandLine Redfish in
/-- Another user gets another session, and nobody notices. -/
theorem fleets_of_other_secrets_unnoticed :
    let built (user : String) := (Build.fleet (Vendors.builtIn nowhere.seconds) settings "p"
      (pure (guarded user)) [.byName "A"] none stamp).run.run BuildRecord.start
    (built "u").2.notices = (built "v").2.notices ∧
    ∃ f f', (built "u").1 = .ok f ∧ (built "v").1 = .ok f' ∧
      f.hosts.map (·.client.session.user) = [some ("u", "pw")] ∧
      f'.hosts.map (·.client.session.user) = [some ("v", "pw")] ∧
      f.hosts.map Host.shown = f'.hosts.map Host.shown := by
  intro built
  have loaded (user : String) : (pure (guarded user) : Logged PhaseError Bundle).run [] =
      (.ok (guarded user), []) := rfl
  have same : (guarded "u").SameButSecrets (guarded "v") :=
    guarded_sameButSecrets (by decide) (by decide)
  obtain ⟨hrecord, hends⟩ := Build.fleets_of_other_secrets nowhere (loaded "u") (loaded "v") same
    settings "p" [.byName "A"] none stamp
  have hu : ∃ f, (built "u").1 = .ok f ∧ f.hosts.map (·.client.session.user) = [some ("u", "pw")] :=
    ⟨⟨management, [_]⟩, rfl, rfl⟩
  have hv : ∃ f, (built "v").1 = .ok f ∧ f.hosts.map (·.client.session.user) = [some ("v", "pw")] :=
    ⟨⟨management, [_]⟩, rfl, rfl⟩
  obtain ⟨f, hf, hfu⟩ := hu
  obtain ⟨f', hf', hfv⟩ := hv
  refine ⟨hrecord.notices, f, f', hf, hf', hfu, hfv, ?_⟩
  change Agree _ (built "u").1 (built "v").1 at hends
  rw [hf, hf'] at hends
  cases hends with
  | ok h => exact h.2.1

end OutOfBand
