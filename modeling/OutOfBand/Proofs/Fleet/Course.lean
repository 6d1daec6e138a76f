import OutOfBand.Proofs.Fleet.Matching
import OutOfBand.Proofs.Fleet.Notices
import OutOfBand.Proofs.Fleet.Steps

namespace OutOfBand

variable {γ : Type}

namespace Host

/-- The client for the host of a document, or the first fault on the way to it. -/
def clientOf (v : Vendors γ) (m : Management) (b : Bundle) (d : Document) :
    Except BuildError γ := do
  let address ← (Controller.address d).mapError .document
  let credentials ← (Controller.credentials d b).mapError .document
  let make ← (v.find m.type).mapError .settings
  (make (m.specOf address credentials.username credentials.password)).mapError .address

def Made (v : Vendors γ) (m : Management) (b : Bundle) (d : Document) (c : γ) : Prop :=
  clientOf v m b d = .ok c

end Host

theorem Host.checkNames_eq_error {hosts : List (Host γ)} {e : DocumentError}
    (h : Query.liftShape (checkNames hosts) = .error e) :
    ∃ h ∈ hosts, h.name.isKey = false ∧ e = .shape (.notAKey h.name) := by
  rw [checkNames] at h
  cases hf : hosts.find? fun h => !h.name.isKey with
  | none => simp [hf, Query.liftShape] at h
  | some k =>
    have hkey := List.find?_some hf
    rw [hf] at h
    cases h
    exact ⟨k, List.mem_of_find?_eq_some hf, by simpa using hkey, rfl⟩

namespace HostSelector

/-- A document that is picked has a name, which need not be a text. -/
theorem name_of_picks {s : HostSelector} {d : Document} (h : s.picks d = true) :
    ∃ n, d.name = .ok n := by
  obtain ⟨-, h⟩ := Bool.and_eq_true_iff.mp h
  cases s with
  | byName name =>
    change d.hasName name = true at h
    exact ⟨_, Document.hasName_iff.mp h⟩
  | byLabel e =>
    change d.satisfies e = true at h
    rw [Document.satisfies] at h
    split at h
    next rs ls _ hls => exact Document.name_of_labels hls
    next => cases h

/-- How a selector fails, and the clients that are made for its documents by then: it yields no
documents, the client of one of them fails, or a name cannot be told apart from others. -/
inductive FailsWith (v : Vendors γ) (m : Management) (b : Bundle) (t : HostSelector) :
    BuildError → List γ → Prop
  | documents {e : DocumentError} (h : t.documents b = .error e) :
      FailsWith v m b t (.document e) []
  | client {e : BuildError} {pre post : List Document} {d : Document} {cs : List γ}
      (h : t.picked b = pre ++ d :: post) (hpre : List.Forall₂ (Host.Made v m b) pre cs)
      (hd : Host.clientOf v m b d = .error e) : FailsWith v m b t e cs
  | names {cs : List γ} {d : Document} {n : Value}
      (hall : List.Forall₂ (Host.Made v m b) (t.picked b) cs) (hd : d ∈ t.picked b)
      (hn : d.name = .ok n) (hkey : n.isKey = false) :
      FailsWith v m b t (.document (.shape (.notAKey n))) cs

end HostSelector

/-- The management settings of the current context, if they agree with each other and their type is
known. -/
def Settings.validated (s : Settings) (v : Vendors γ) : Except SettingsError Management := do
  let m ← s.managementOf
  m.validate v
  return m

/-- The states of a build of so many selectors, from the first step until it has its hosts. -/
def BuildState.through (n : Nat) : List BuildState :=
  .configValidated :: .bundleLoaded :: (List.replicate n .selecting ++ [.reconciled])

namespace Build

/-- What stops a build, the states that it has gone through by then, and the clients that it has
made. -/
inductive Stops (v : Vendors γ) (s : Settings) (bundle : Logged PhaseError Bundle)
    (ss : List HostSelector) : BuildError → List BuildState → List γ → Prop
  | settings {e : SettingsError} (h : s.validated v = .error e) :
      Stops v s bundle ss (.settings e) [] []
  | phase {m : Management} {e : PhaseError} (hm : s.validated v = .ok m)
      (h : (bundle.run []).1 = .error e) : Stops v s bundle ss (.phase e) [.configValidated] []
  | selector {m : Management} {b : Bundle} {e : BuildError} {pre post : List HostSelector}
      {t : HostSelector} {cs cs' : List γ} (hm : s.validated v = .ok m)
      (hb : (bundle.run []).1 = .ok b) (hss : ss = pre ++ t :: post)
      (hpre : List.Forall₂ (Host.Made v m b) (pre.flatMap (·.picked b)) cs)
      (ht : t.FailsWith v m b e cs') :
      Stops v s bundle ss e
        (.configValidated :: .bundleLoaded :: List.replicate (pre.length + 1) .selecting)
        (cs ++ cs')
  | noHosts {m : Management} {b : Bundle} {cs : List γ} (hm : s.validated v = .ok m)
      (hb : (bundle.run []).1 = .ok b)
      (hcs : List.Forall₂ (Host.Made v m b) (ss.flatMap (·.picked b)) cs) :
      Stops v s bundle ss .noHosts (BuildState.through ss.length) cs

section Walk

variable {Says : LogLine → Prop} {v : Vendors γ} {m : Management} {b : Bundle}
  (hsaid : Says ⟨.debug, "Remote type: " ++ m.type⟩)

include hsaid

theorem takes_client (address : String) (c : Credentials) :
    Takes Says (fun visited cs o => visited = [] ∧ cs = o.toOption.toList ∧ o = (do
        let make ← (v.find m.type).mapError .settings
        (make (m.specOf address c.username c.password)).mapError .address))
      (client v m address c) := by
  refine takes_lift_bind .settings (fun e he => ?_) fun make hmake => ?_
  · rw [he]
    exact ⟨rfl, rfl, rfl⟩
  · rw [hmake]
    refine (takes_debug hsaid).after (takes_lift_bind .address (fun e he => ?_) fun client hc => ?_)
    · refine ⟨rfl, rfl, ?_⟩
      change _ = (make (m.specOf address c.username c.password)).mapError BuildError.address
      rw [he]
      rfl
    · refine (takes_keep client).after (takes_pure ⟨rfl, rfl, ?_⟩)
      change _ = (make (m.specOf address c.username c.password)).mapError BuildError.address
      rw [hc]
      rfl

theorem takes_host {d : Document} {n : Value} (hn : d.name = .ok n) :
    Takes Says (fun visited cs o => visited = [] ∧ match o with
        | .ok h => cs = [h.client] ∧ Host.Made v m b d h.client ∧ h.name = n
        | .error e => cs = [] ∧ Host.clientOf v m b d = .error e)
      (host v m b d) := by
  refine takes_lift_bind .document (fun e he => ?_) fun address ha => ?_
  · exact ⟨rfl, rfl, by rw [Host.clientOf, he]; rfl⟩
  refine takes_lift_bind .document (fun e he => ?_) fun c hc => ?_
  · exact ⟨rfl, rfl, by rw [Host.clientOf, ha, he]; rfl⟩
  have hclient : Host.clientOf v m b d = (do
      let make ← (v.find m.type).mapError .settings
      (make (m.specOf address c.username c.password)).mapError .address) := by
    rw [Host.clientOf, ha, hc]
    rfl
  refine (takes_client hsaid address c).bind ?_ ?_
  · rintro _ _ e ⟨rfl, rfl, he⟩
    exact ⟨rfl, rfl, hclient.trans he.symm⟩
  · rintro _ _ client ⟨rfl, rfl, hok⟩
    rw [hn]
    exact takes_pure ⟨rfl, rfl, hclient.trans hok.symm, rfl⟩

theorem takes_hosts {ds : List Document} (hn : ∀ d ∈ ds, ∃ n, d.name = .ok n) :
    Takes Says (fun visited cs o => visited = [] ∧ match o with
        | .ok hs => List.Forall₂ (Host.Made v m b) ds cs ∧
          List.Forall₂ (fun d h => d.name = .ok h.name) ds hs
        | .error e => ∃ pre d post, ds = pre ++ d :: post ∧
          List.Forall₂ (Host.Made v m b) pre cs ∧ Host.clientOf v m b d = .error e)
      (hosts v m b ds) := by
  induction ds with
  | nil => exact takes_pure ⟨rfl, .nil, .nil⟩
  | cons d ds ih =>
    obtain ⟨⟨n, hname⟩, hrest⟩ := List.forall_mem_cons.mp hn
    refine (takes_host hsaid hname).bind ?_ ?_
    · rintro _ _ e ⟨rfl, rfl, he⟩
      exact ⟨rfl, [], d, ds, rfl, .nil, he⟩
    · rintro _ _ h ⟨rfl, rfl, hmade, rfl⟩
      refine (ih hrest).bind ?_ ?_
      · rintro _ cs e ⟨rfl, pre, d', post, rfl, hpre, he⟩
        exact ⟨rfl, d :: pre, d', post, rfl, .cons hmade hpre, he⟩
      · rintro _ cs hs ⟨rfl, hall, hnames⟩
        exact takes_pure ⟨rfl, .cons hmade (by simpa using hall), .cons hname hnames⟩

theorem takes_apply (left : Option (List (Host γ))) (s : HostSelector) :
    Takes Says (fun visited cs o => visited = [] ∧ match o with
        | .ok _ => List.Forall₂ (Host.Made v m b) (s.picked b) cs
        | .error e => s.FailsWith v m b e cs)
      (apply v m b left s) := by
  refine takes_lift_bind .document (fun e he => ⟨rfl, .documents he⟩) fun ds hds => ?_
  obtain ⟨-, rfl⟩ := HostSelector.yields_eq_ok_iff.mp (HostSelector.yields_of_documents hds)
  have hn : ∀ d ∈ s.picked b, ∃ n, d.name = .ok n := fun d hd =>
    HostSelector.name_of_picks (HostSelector.mem_picked.mp hd).2
  refine (takes_hosts hsaid hn).bind ?_ ?_
  · rintro _ cs e ⟨rfl, pre, d, post, hsplit, hpre, he⟩
    exact ⟨rfl, .client hsplit hpre he⟩
  · rintro _ cs new ⟨rfl, hall, hnames⟩
    refine takes_lift_bind .document (fun e he => ⟨rfl, ?_⟩) fun _ _ => takes_pure ⟨rfl, ?_⟩
    · obtain ⟨h, hh, hkey, rfl⟩ := Host.checkNames_eq_error he
      obtain ⟨d, hd, hname⟩ := exists_of_mem_right hnames hh
      rw [List.append_nil]
      exact .names hall hd hname hkey
    · rwa [List.append_nil]

theorem takes_narrow (n : Nat) (ss : List HostSelector) (k : Nat)
    (left : Option (List (Host γ))) :
    Takes Says (fun visited cs o => match o with
        | .ok _ => visited = List.replicate ss.length .selecting ∧
          List.Forall₂ (Host.Made v m b) (ss.flatMap (·.picked b)) cs
        | .error e => ∃ pre t post cs₁ cs₂, ss = pre ++ t :: post ∧
          visited = List.replicate (pre.length + 1) .selecting ∧ cs = cs₁ ++ cs₂ ∧
          List.Forall₂ (Host.Made v m b) (pre.flatMap (·.picked b)) cs₁ ∧ t.FailsWith v m b e cs₂)
      (narrow v m b n k left ss) := by
  induction ss generalizing k left with
  | nil => exact takes_pure ⟨rfl, .nil⟩
  | cons s ss ih =>
    refine (takes_advance _ _).after ((takes_apply hsaid left s).bind ?_ ?_)
    · rintro _ cs e ⟨rfl, hfail⟩
      exact ⟨[], s, ss, [], cs, rfl, rfl, rfl, .nil, hfail⟩
    · rintro _ cs hs ⟨rfl, hall⟩
      refine (ih (k + 1) (some hs)).mono fun visited cs' o h => ?_
      cases o with
      | ok left' =>
        obtain ⟨rfl, hrest⟩ := h
        refine ⟨rfl, ?_⟩
        rw [List.flatMap_cons]
        exact List.rel_append hall hrest
      | error e =>
        obtain ⟨pre, t, post, cs₁, cs₂, rfl, rfl, rfl, hpre, ht⟩ := h
        refine ⟨s :: pre, t, post, cs ++ cs₁, cs₂, rfl, rfl, by simp, ?_, ht⟩
        rw [List.flatMap_cons]
        exact List.rel_append hall hpre

end Walk

section Stages

variable (v : Vendors γ) (s : Settings) (phase : String) (bundle : Logged PhaseError Bundle)
  (ss : List HostSelector)

/-- What a build writes besides its states: the lines of whoever loads its documents, and the type
of its clients. -/
def Said (line : LogLine) : Prop :=
  line ∈ (bundle.run []).2 ∨
    ∃ m, s.managementOf = .ok m ∧ line = ⟨.debug, "Remote type: " ++ m.type⟩

/-- What a build has gone through and made where it has its hosts, or has been stopped. -/
def Reaches (visited : List BuildState) (cs : List γ) : Except BuildError (Fleet γ) → Prop
  | .ok f => visited = BuildState.through ss.length ∧ f.hosts ≠ [] ∧
    ∃ m b, s.validated v = .ok m ∧ (bundle.run []).1 = .ok b ∧
      List.Forall₂ (Host.Made v m b) (ss.flatMap (·.picked b)) cs
  | .error e => Stops v s bundle ss e visited cs

theorem takes_stages :
    Takes (Said s bundle) (Reaches v s bundle ss) (stages v s phase bundle ss) := by
  refine takes_lift_bind .settings (fun e he => .settings ?_) fun m hm => ?_
  · rw [Settings.validated, he]
    rfl
  refine takes_lift_bind .settings (fun e he => .settings ?_) fun _ hv => ?_
  · rw [Settings.validated, hm]
    simp only [bind, Except.bind, he]
  have hvalid : s.validated v = .ok m := by
    rw [Settings.validated, hm]
    simp only [bind, Except.bind, hv]
    rfl
  have hsaid : Said s bundle ⟨.debug, "Remote type: " ++ m.type⟩ := .inr ⟨m, hm, rfl⟩
  refine (takes_advance _ _).after ?_
  refine (takes_logged .phase bundle (fun line hl => .inl hl) (P := fun visited cs o =>
    visited = [] ∧ cs = [] ∧ o = (bundle.run []).1.mapError .phase) ⟨rfl, rfl, rfl⟩).bind ?_ ?_
  · rintro _ _ e ⟨rfl, rfl, he⟩
    cases hb : (bundle.run []).1 with
    | ok b => simp [hb, Except.mapError] at he
    | error e' =>
      rw [hb] at he
      cases he
      exact .phase hvalid hb
  · rintro _ _ b ⟨rfl, rfl, hb⟩
    have hb := mapError_eq_ok_iff.mp hb.symm
    refine (takes_advance _ _).after ((takes_narrow hsaid _ ss 1 none).bind ?_ ?_)
    · rintro _ _ e ⟨pre, t, post, cs₁, cs₂, hss, rfl, rfl, hpre, ht⟩
      have hstop := Stops.selector hvalid hb hss hpre ht
      exact hstop
    · rintro _ cs left ⟨rfl, hall⟩
      refine (takes_advance _ _).after ?_
      dsimp only
      cases left.getD [] with
      | nil =>
        have hstop := Stops.noHosts hvalid hb hall
        exact takes_throw (by simpa [Reaches, BuildState.through] using hstop)
      | cons h hs => exact takes_pure ⟨rfl, by simp, m, b, hvalid, hb, by simpa using hall⟩

/-- A build that has its hosts is ready, and one that is stopped has failed. -/
def Finishes (visited : List BuildState) (cs : List γ) (o : Except BuildError (Fleet γ)) : Prop :=
  ∃ reached, Reaches v s bundle ss reached cs o ∧
    visited = reached ++ [match o with | .ok _ => .ready | .error _ => .failed]

theorem takes_attempt : Takes (Said s bundle) (Finishes v s bundle ss)
    (attempt v s phase bundle ss >>= fun f => do
      advance .ready ""
      return f) := by
  have hattempt : Takes (Said s bundle) (fun visited cs o => match o with
      | .ok f => Reaches v s bundle ss visited cs (.ok f)
      | .error e => Finishes v s bundle ss visited cs (.error e))
      (attempt v s phase bundle ss) := by
    refine (takes_stages v s phase bundle ss).rethrow (fun _ _ _ h => h) fun visited cs e h => ?_
    refine (takes_advance _ _).after (takes_throw ⟨visited, ?_, by simp⟩)
    simpa using h
  refine hattempt.bind (fun _ _ _ h => h) fun visited cs f h => ?_
  refine (takes_advance _ _).after (takes_pure ⟨visited, ?_, by simp⟩)
  simpa using h

/-- Every run of a build takes the same steps, whoever listens, and in the end tells of its fleet if
it has one. -/
theorem run_fleet :
    ∃ steps o visited cs, Course (Said s bundle) visited cs steps ∧
      Finishes v s bundle ss visited cs o ∧
      ∀ (bus : Option Bus) (stamp : Stamp) (r : BuildRecord γ),
        let final := steps.foldl BuildRecord.after r
        (fleet v s phase bundle ss bus stamp).run.run r = (o, { final with
          notices := final.notices ++ match o with
            | .ok f => Bus.notices bus final.notices (readyEvent stamp f)
            | .error _ => [] }) := by
  obtain ⟨steps, o, visited, cs, hcourse, hends, hrun⟩ := takes_attempt v s phase bundle ss
  refine ⟨steps, o, visited, cs, hcourse, hends, fun bus stamp r => ?_⟩
  have hfleet : fleet v s phase bundle ss bus stamp = (attempt v s phase bundle ss >>= fun f => do
      advance .ready ""
      return f) >>= fun f => do
        announce bus stamp f
        return f := by
    simp [fleet_eq_attempt]
  rw [hfleet, run_bind, hrun]
  cases o with
  | ok f => rfl
  | error e => simp

end Stages

end Build

end OutOfBand
