import OutOfBand.Proofs.Fleet.Narrowing
import OutOfBand.Proofs.Inventory.Secrets

namespace OutOfBand

variable {γ α β : Type} {S : γ → γ → Prop} {U : Credentials → Credentials → Prop}

/-- Constructors that make related clients for related credentials, or refuse an address for
both. -/
def Vendors.Respects (v : Vendors γ) (U : Credentials → Credentials → Prop) (S : γ → γ → Prop) :
    Prop :=
  ∀ type make, v.constructor? type = some make → ∀ (m : Management) (address : String)
    (c c' : Credentials), U c c' →
      Agree S (make (m.specOf address c.username c.password))
        (make (m.specOf address c'.username c'.password))

theorem Vendors.respects_eq (v : Vendors γ) : v.Respects Eq Eq :=
  fun _ _ _ _ _ _ _ hc => hc ▸ Agree.same _

/-- Constructors whose clients are related where only users and passwords differ, and which refuse
an address whoever the user is. -/
def Vendors.Discreet (v : Vendors γ) (S : γ → γ → Prop) : Prop := v.Respects Controller.SameUse S

/-- Documents of one host, with credentials that are related. -/
structure Document.Alike (U : Credentials → Credentials → Prop) (b c : Bundle) (d e : Document) :
    Prop where
  name : d.name = e.name
  address : Controller.address d = Controller.address e
  credentials : Agree U (Controller.credentials d b) (Controller.credentials e c)

/-- Bundles in which every selector finds the same hosts, with credentials that are related. -/
structure Bundle.Alike (U : Credentials → Credentials → Prop) (b c : Bundle) : Prop where
  size : b.size = c.size
  documents (s : HostSelector) :
    Agree (List.Forall₂ (Document.Alike U b c)) (s.documents b) (s.documents c)

theorem Bundle.Alike.refl (b : Bundle) : b.Alike Eq b where
  size := rfl
  documents s := Agree.refl (fun _ => List.forall₂_same.mpr fun _ _ => ⟨rfl, rfl, Agree.same _⟩)
    (s.documents b)

theorem Bundle.SameButSecrets.alike {b c : Bundle} (h : b.SameButSecrets c) :
    b.Alike Controller.SameUse c where
  size := h.length_eq
  documents s := (s.documents_agree h).mono fun _ _ hds => hds.imp fun _ _ hde =>
    ⟨hde.name, hde.address, Controller.credentials_agree hde h⟩

/-- The same host but for its credentials and for its client, which is related. -/
structure Host.Alike (S : γ → γ → Prop) (h k : Host γ) : Prop where
  name : h.name = k.name
  address : h.address = k.address
  client : S h.client k.client

/-- The same fleet but for the clients and credentials of its hosts. -/
structure Fleet.Alike (S : γ → γ → Prop) (f g : Fleet γ) : Prop where
  management : f.management = g.management
  hosts : List.Forall₂ (Host.Alike S) f.hosts g.hosts

theorem Host.Alike.names {hs ks : List (Host γ)} (h : List.Forall₂ (Host.Alike S) hs ks) :
    hs.map (·.name) = ks.map (·.name) := map_eq_of_forall₂ (fun _ _ hk => hk.name) h

theorem Fleet.Alike.names {f g : Fleet γ} (h : f.Alike S g) : f.names = g.names :=
  Host.Alike.names h.hosts

namespace Host.Alike

variable {hs ks : List (Host γ)}

theorem sameName {h k h' k' : Host γ} (hh : h.Alike S h') (hk : k.Alike S k') :
    h.sameName k = h'.sameName k' := by
  rw [Host.sameName, Host.sameName, hh.name, hk.name]

theorem shown {h k : Host γ} (hk : h.Alike S k) : h.shown = k.shown := by
  unfold Host.shown
  rw [hk.name, hk.address]

theorem checkNames (h : List.Forall₂ (Host.Alike S) hs ks) :
    Host.checkNames hs = Host.checkNames ks := by
  rw [Host.checkNames, Host.checkNames]
  induction h with
  | nil => rfl
  | @cons h k _ _ hk _ ih =>
    rw [List.find?_cons, List.find?_cons, hk.name]
    cases k.name.isKey with
    | true => exact ih
    | false => simp [hk.name]

theorem reconcile {left left' : Option (List (Host γ))}
    (hl : Option.Rel (List.Forall₂ (Host.Alike S)) left left')
    (h : List.Forall₂ (Host.Alike S) hs ks) :
    List.Forall₂ (Host.Alike S) (Host.reconcile left hs) (Host.reconcile left' ks) := by
  have hfirst := forall₂_eraseDupsBy (fun _ _ _ _ => sameName) h
  cases hl with
  | none => rwa [reconcile_none, reconcile_none]
  | some hl =>
    rw [reconcile_some, reconcile_some]
    refine List.rel_filter (fun h k hk => ?_) hfirst
    have hany := any_eq_of_forall₂ (fun _ _ hj => sameName hk hj) hl
    exact iff_of_eq (congrArg (· = true) hany)

end Host.Alike

namespace Build

/-- Something that two builds may have in common, with a relation of their results. They have it if
they fail alike or succeed with related results, take steps that have it one after the other, write
the same, go on to the same state, or make related clients. -/
structure Comparison (S : γ → γ → Prop) where
  holds {α β : Type} : (α → β → Prop) → Build γ α → Build γ β → Prop
  pure {α β : Type} {R : α → β → Prop} {a : α} {b : β} : R a b → holds R (pure a) (pure b)
  throw {α β : Type} (R : α → β → Prop) (e : BuildError) : holds R (throw e) (throw e)
  bind {α β α' β' : Type} {R : α → β → Prop} {R' : α' → β' → Prop} {x : Build γ α} {y : Build γ β}
    {f : α → Build γ α'} {g : β → Build γ β'} : holds R x y →
      (∀ a b, R a b → holds R' (f a) (g b)) → holds R' (x >>= f) (y >>= g)
  handle {α β : Type} {R : α → β → Prop} {x : Build γ α} {y : Build γ β}
    {f : BuildError → Build γ α} {g : BuildError → Build γ β} : holds R x y →
      (∀ e, holds R (f e) (g e)) → holds R (tryCatch x f) (tryCatch y g)
  write (os : List Output) : holds Eq
    (modify fun r => { r with notices := r.notices ++ os.map .wrote })
    (modify fun r => { r with notices := r.notices ++ os.map .wrote })
  advance (next : BuildState) (detail : String) : holds Eq (advance next detail)
    (advance next detail)
  keep {c c' : γ} : S c c' → holds Eq (modify fun r => { r with built := r.built ++ [c] })
    (modify fun r => { r with built := r.built ++ [c'] })

namespace Comparison

variable (C : Comparison S)

theorem lift {ε : Type} {R : α → β → Prop} (f : ε → BuildError) {x : Except ε α}
    {y : Except ε β} (h : Agree R x y) : C.holds R (lift f x) (lift f y) := by
  cases h with
  | ok h => exact C.pure h
  | error e => exact C.throw R (f e)

theorem lift_same {ε : Type} (f : ε → BuildError) (x : Except ε α) :
    C.holds Eq (Build.lift f x) (Build.lift f x) := C.lift f (Agree.same x)

theorem after {R : α → β → Prop} {x y : Build γ Unit} {f : Unit → Build γ α}
    {g : Unit → Build γ β} (h : C.holds Eq x y) (hfg : C.holds R (f ()) (g ())) :
    C.holds R (x >>= f) (y >>= g) := C.bind h fun _ _ _ => hfg

theorem logged {ε : Type} {R : α → β → Prop} (f : ε → BuildError) {x : Logged ε α}
    {y : Logged ε β} (h : Agree R (x.run []).1 (y.run []).1)
    (hlog : (x.run []).2 = (y.run []).2) : C.holds R (Build.logged f x) (Build.logged f y) := by
  have hwrite := C.write ((x.run []).2.map .log)
  rw [List.map_map] at hwrite
  have logged_eq : ∀ {δ : Type} (z : Logged ε δ), Build.logged f z = (do
      modify fun r : BuildRecord γ =>
        { r with notices := r.notices ++ (z.run []).2.map (Notice.wrote ∘ Output.log) }
      Build.lift f (z.run []).1) := fun _ => rfl
  rw [logged_eq, logged_eq, ← hlog]
  exact C.bind hwrite fun _ _ _ => C.lift f h

variable {v : Vendors γ} (hv : v.Respects U S) (m : Management)

include hv

theorem client (address : String) {c c' : Credentials} (hc : U c c') :
    C.holds S (client v m address c) (client v m address c') := by
  have hfind : Agree (fun make make' => make = make' ∧ v.constructor? m.type = some make)
      (v.find m.type) (v.find m.type) := by
    cases hf : v.find m.type with
    | error e => exact .error e
    | ok make => exact .ok ⟨rfl, Vendors.find_eq_ok_iff.mp hf⟩
  refine C.bind (C.lift .settings hfind) fun make make' hmake => ?_
  obtain ⟨rfl, hmake⟩ := hmake
  refine C.after (C.write [.log ⟨.debug, _⟩]) ?_
  refine C.bind (C.lift .address (hv m.type make hmake m address c c' hc)) fun c c' hcc => ?_
  exact C.after (C.keep hcc) (C.pure hcc)

variable {b c : Bundle}

theorem host {d e : Document} (hde : Document.Alike U b c d e) :
    C.holds (Host.Alike S) (host v m b d) (host v m c e) := by
  rw [Build.host, Build.host, hde.address, hde.name]
  refine C.bind (C.lift_same .document _) fun address _ heq => ?_
  subst heq
  refine C.bind (C.lift .document hde.credentials) fun c c' hc => ?_
  refine C.bind (C.client hv m address hc) fun client client' hclient => ?_
  refine C.bind (C.lift_same .document _) fun name _ heq => ?_
  subst heq
  exact C.pure ⟨rfl, rfl, hclient⟩

theorem hosts {ds es : List Document} (h : List.Forall₂ (Document.Alike U b c) ds es) :
    C.holds (List.Forall₂ (Host.Alike S)) (hosts v m b ds) (hosts v m c es) := by
  induction h with
  | nil => exact C.pure .nil
  | cons hde _ ih =>
    exact C.bind (C.host hv m hde) fun _ _ hh => C.bind ih fun _ _ hhs => C.pure (.cons hh hhs)

variable (hbc : b.Alike U c)

include hbc

theorem apply {left left' : Option (List (Host γ))}
    (hl : Option.Rel (List.Forall₂ (Host.Alike S)) left left') (s : HostSelector) :
    C.holds (List.Forall₂ (Host.Alike S)) (apply v m b left s) (apply v m c left' s) := by
  refine C.bind (C.lift .document (hbc.documents s)) fun ds es hds => ?_
  refine C.bind (C.hosts hv m hds) fun hs ks hhs => ?_
  rw [Host.Alike.checkNames hhs]
  exact C.bind (C.lift_same .document _) fun _ _ _ => C.pure (Host.Alike.reconcile hl hhs)

theorem narrow (n : Nat) (ss : List HostSelector) (k : Nat) {left left' : Option (List (Host γ))}
    (hl : Option.Rel (List.Forall₂ (Host.Alike S)) left left') :
    C.holds (Option.Rel (List.Forall₂ (Host.Alike S))) (narrow v m b n k left ss)
      (narrow v m c n k left' ss) := by
  induction ss generalizing k left left' with
  | nil => exact C.pure hl
  | cons s ss ih =>
    refine C.after (C.advance _ _) ?_
    exact C.bind (C.apply hv m hbc hl s) fun hs ks hhs => ih (k + 1) (.some hhs)

end Comparison

/-- A build but for its last step: all stages, and what is done about a failure of one of them. -/
def attempt (v : Vendors γ) (s : Settings) (phase : String) (bundle : Logged PhaseError Bundle)
    (ss : List HostSelector) : Build γ (Fleet γ) :=
  tryCatch (stages v s phase bundle ss) fun e => do
    advance .failed ("(" ++ e.message ++ ")")
    throw e

theorem fleet_eq_attempt (v : Vendors γ) (s : Settings) (phase : String)
    (bundle : Logged PhaseError Bundle) (ss : List HostSelector) (bus : Option Bus)
    (stamp : Stamp) :
    fleet v s phase bundle ss bus stamp = attempt v s phase bundle ss >>= fun f => do
      advance .ready ""
      announce bus stamp f
      return f := rfl

section Stages

variable {v : Vendors γ} (hv : v.Respects U S) {bundle bundle' : Logged PhaseError Bundle}
  (hb : Agree (Bundle.Alike U) (bundle.run []).1 (bundle'.run []).1)
  (hlog : (bundle.run []).2 = (bundle'.run []).2)

include hv hb hlog

theorem Comparison.stages (C : Comparison S) (s : Settings) (phase : String)
    (ss : List HostSelector) :
    C.holds (Fleet.Alike S) (stages v s phase bundle ss) (stages v s phase bundle' ss) := by
  refine C.bind (C.lift_same .settings _) fun m _ heq => ?_
  subst heq
  refine C.bind (C.lift_same .settings _) fun _ _ _ => C.after (C.advance _ _) ?_
  refine C.bind (C.logged .phase hb hlog) fun b c hbc => ?_
  rw [hbc.size]
  refine C.after (C.advance _ _) ?_
  refine C.bind (C.narrow hv m hbc _ ss 1 .none) fun left left' hleft => ?_
  have hhosts : List.Forall₂ (Host.Alike S) (left.getD []) (left'.getD []) := by
    cases hleft with
    | none => exact .nil
    | some h => exact h
  have hnames : namesText (left.getD []) = namesText (left'.getD []) :=
    congrArg (fun names => (Value.list names).text) (Host.Alike.names hhosts)
  dsimp only
  rw [hnames]
  refine C.after (C.advance _ _) ?_
  generalize left.getD [] = hs at hhosts
  generalize left'.getD [] = ks at hhosts
  cases hhosts with
  | nil => exact C.throw _ .noHosts
  | cons hh hrest => exact C.pure ⟨rfl, .cons hh hrest⟩

theorem Comparison.attempt (C : Comparison S) (s : Settings) (phase : String)
    (ss : List HostSelector) :
    C.holds (Fleet.Alike S) (attempt v s phase bundle ss) (attempt v s phase bundle' ss) :=
  C.handle (C.stages hv hb hlog s phase ss) fun e => C.after (C.advance _ _) (C.throw _ e)

end Stages

end Build

end OutOfBand
