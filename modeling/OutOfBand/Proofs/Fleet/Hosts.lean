import OutOfBand.Fleet.Build
import OutOfBand.Proofs.Inventory.Selection
import OutOfBand.Proofs.Sequence

namespace OutOfBand

variable {γ α β : Type}

namespace Build

theorem run_bind (x : Build γ α) (f : α → Build γ β) (r : BuildRecord γ) :
    (x >>= f).run.run r =
      match x.run.run r with
      | (.ok a, r) => (f a).run.run r
      | (.error e, r) => (.error e, r) := by
  change StateT.run (ExceptT.run x >>= ExceptT.bindCont f) r = _
  rw [StateT.run_bind]
  rcases StateT.run (ExceptT.run x) r with ⟨a | e, r⟩ <;> rfl

theorem run_bind_eq_ok {x : Build γ α} {f : α → Build γ β} {r r' : BuildRecord γ} {b : β}
    (h : (x >>= f).run.run r = (.ok b, r')) :
    ∃ a r₁, x.run.run r = (.ok a, r₁) ∧ (f a).run.run r₁ = (.ok b, r') := by
  rw [run_bind] at h
  split at h
  next a r₁ hx => exact ⟨a, r₁, hx, h⟩
  next => cases h

theorem run_tryCatch (x : Build γ α) (handle : BuildError → Build γ α) (r : BuildRecord γ) :
    (tryCatch x handle).run.run r =
      match x.run.run r with
      | (.ok a, r) => (.ok a, r)
      | (.error e, r) => (handle e).run.run r := by
  rw [ExceptT.run_tryCatch, StateT.run_bind]
  rcases StateT.run (ExceptT.run x) r with ⟨a | e, r⟩ <;> rfl

/-- A build that ends in one way from every record. -/
def Ends (x : Build γ α) (o : Except BuildError α) : Prop := ∀ r, (x.run.run r).1 = o

theorem ends_pure (a : α) : Ends (pure a : Build γ α) (.ok a) := fun _ => rfl

theorem ends_throw (e : BuildError) : Ends (throw e : Build γ α) (.error e) := fun _ => rfl

theorem ends_modify (f : BuildRecord γ → BuildRecord γ) :
    Ends (modify f : Build γ Unit) (.ok ()) := fun _ => rfl

theorem ends_lift {ε : Type} (f : ε → BuildError) (x : Except ε α) :
    Ends (lift f x : Build γ α) (x.mapError f) := by
  cases x with
  | ok a => exact ends_pure a
  | error e => exact ends_throw (f e)

theorem Ends.bind {x : Build γ α} {f : α → Build γ β} {o : Except BuildError α}
    {g : α → Except BuildError β} (hx : Ends x o) (hf : ∀ a, o = .ok a → Ends (f a) (g a)) :
    Ends (x >>= f) (o >>= g) := by
  intro r
  have hr := hx r
  rw [run_bind]
  rcases hs : x.run.run r with ⟨e | a, r'⟩ <;> rw [hs] at hr <;> cases hr
  · rfl
  · exact hf a rfl r'

theorem Ends.after {x : Build γ α} {a : α} {f : α → Build γ β} {o : Except BuildError β}
    (hx : Ends x (.ok a)) (hf : Ends (f a) o) : Ends (x >>= f) o :=
  hx.bind (g := fun _ => o) fun b hb => by
    cases hb
    exact hf

theorem Ends.rethrow {x : Build γ α} {o : Except BuildError α} {handle : BuildError → Build γ α}
    (hx : Ends x o) (hh : ∀ e, Ends (handle e) (.error e)) : Ends (tryCatch x handle) o := by
  intro r
  have hr := hx r
  rw [run_tryCatch]
  rcases hs : x.run.run r with ⟨e | a, r'⟩ <;> rw [hs] at hr <;> cases hr
  · exact hh e r'
  · rfl

theorem ends_debug (text : String) : Ends (debug text : Build γ Unit) (.ok ()) := fun _ => rfl

theorem ends_advance (next : BuildState) (detail : String) :
    Ends (advance next detail : Build γ Unit) (.ok ()) := fun _ => rfl

end Build

theorem Vendors.find_eq_ok_iff {v : Vendors γ} {type : String} {make : Constructor γ} :
    v.find type = .ok make ↔ v.constructor? type = some make := by
  rw [Vendors.find]
  cases v.constructor? type <;> simp

namespace Host

/-- What the host of a document has, and where each part of it comes from. -/
structure IsOf (v : Vendors γ) (m : Management) (b : Bundle) (d : Document) (h : Host γ) :
    Prop where
  name : d.name = .ok h.name
  address : Controller.address d = .ok h.address
  credentials : Controller.credentials d b = .ok h.credentials
  client : ∃ make, v.constructor? m.type = some make ∧
    make (m.specOf h.address h.credentials.username h.credentials.password) = .ok h.client

/-- The host of a document, or the first fault on the way to it. -/
def ofDocument (v : Vendors γ) (m : Management) (b : Bundle) (d : Document) :
    Except BuildError (Host γ) := do
  let address ← (Controller.address d).mapError .document
  let credentials ← (Controller.credentials d b).mapError .document
  let make ← (v.find m.type).mapError .settings
  let client ← (make (m.specOf address credentials.username credentials.password)).mapError .address
  let name ← (Query.liftShape d.name).mapError .document
  return ⟨name, address, client, credentials⟩

theorem ofDocument_eq_ok_iff {v : Vendors γ} {m : Management} {b : Bundle} {d : Document}
    {h : Host γ} : ofDocument v m b d = .ok h ↔ h.IsOf v m b d := by
  simp only [ofDocument, bind_eq_ok_iff, mapError_eq_ok_iff]
  constructor
  · rintro ⟨address, ha, credentials, hc, make, hm, client, hcl, name, hn, h⟩
    cases h
    exact ⟨Query.liftShape_eq_ok_iff.mp hn, ha, hc, make, Vendors.find_eq_ok_iff.mp hm, hcl⟩
  · rintro ⟨hn, ha, hc, make, hm, hcl⟩
    exact ⟨h.address, ha, h.credentials, hc, make, Vendors.find_eq_ok_iff.mpr hm, h.client, hcl,
      h.name, Query.liftShape_eq_ok_iff.mpr hn, rfl⟩

/-- The hosts of the documents that a selector yields, if their names can be told apart. -/
def ofSelector (v : Vendors γ) (m : Management) (b : Bundle) (s : HostSelector) :
    Except BuildError (List (Host γ)) := do
  let ds ← (s.documents b).mapError .document
  let hosts ← ds.mapM (ofDocument v m b)
  let _ ← (Query.liftShape (checkNames hosts)).mapError .document
  return hosts

theorem checkNames_eq_ok_iff {hosts : List (Host γ)} :
    checkNames hosts = .ok () ↔ ∀ h ∈ hosts, h.name.isKey = true := by
  rw [checkNames]
  cases hf : hosts.find? fun h => !h.name.isKey with
  | none => simpa using hf
  | some h =>
    have hm := List.mem_of_find?_eq_some hf
    have hk := List.find?_some hf
    simp only [reduceCtorEq, false_iff, not_forall]
    exact ⟨h, hm, by simpa using hk⟩

/-- Whatever the documents are, a selector has one host for each that it picks, in order. -/
theorem isOf_of_ofSelector {v : Vendors γ} {m : Management} {b : Bundle} {s : HostSelector}
    {hosts : List (Host γ)} (h : ofSelector v m b s = .ok hosts) :
    s.mismatch? b = none ∧ List.Forall₂ (IsOf v m b) (s.picked b) hosts ∧
      ∀ h ∈ hosts, h.name.isKey = true := by
  obtain ⟨ds, hds, h⟩ := bind_eq_ok_iff.mp h
  obtain ⟨hs, hhs, h⟩ := bind_eq_ok_iff.mp h
  obtain ⟨⟨⟩, hnames, h⟩ := bind_eq_ok_iff.mp h
  cases h
  obtain ⟨hmis, rfl⟩ := HostSelector.yields_eq_ok_iff.mp
    (HostSelector.yields_of_documents (mapError_eq_ok_iff.mp hds))
  refine ⟨hmis, (mapM_eq_ok_iff.mp hhs).imp fun d h => ofDocument_eq_ok_iff.mp, ?_⟩
  exact checkNames_eq_ok_iff.mp (Query.liftShape_eq_ok_iff.mp (mapError_eq_ok_iff.mp hnames))

/-- What is left of the hosts of one selector after another. -/
def narrowed (left : Option (List (Host γ))) (hosts : List (List (Host γ))) :
    Option (List (Host γ)) :=
  hosts.foldl (fun left new => some (reconcile left new)) left

end Host

namespace Build

variable (v : Vendors γ) (m : Management) (b : Bundle)

theorem ends_client (address : String) (c : Credentials) :
    Ends (client v m address c) (do
      let make ← (v.find m.type).mapError .settings
      (make (m.specOf address c.username c.password)).mapError .address) := by
  refine (ends_lift _ _).bind fun make _ => (ends_debug _).after ?_
  rw [← bind_pure (Except.mapError _ _)]
  exact (ends_lift _ _).bind fun c _ => (ends_modify _).after (ends_pure c)

theorem ends_host (d : Document) : Ends (host v m b d) (Host.ofDocument v m b d) := by
  refine (ends_lift _ _).bind fun address _ => (ends_lift _ _).bind fun c _ => ?_
  rw [← bind_assoc]
  exact (ends_client v m address c).bind fun client _ =>
    (ends_lift _ _).bind fun name _ => ends_pure (Host.mk name address client c)

theorem ends_hosts : ∀ ds : List Document, Ends (hosts v m b ds) (ds.mapM (Host.ofDocument v m b))
  | [] => ends_pure []
  | d :: ds => by
    rw [List.mapM_cons]
    exact (ends_host v m b d).bind fun h _ =>
      (ends_hosts ds).bind fun hs _ => ends_pure (h :: hs)

theorem ends_apply (left : Option (List (Host γ))) (s : HostSelector) :
    Ends (apply v m b left s) ((Host.ofSelector v m b s).map (Host.reconcile left)) := by
  have h : (Host.ofSelector v m b s).map (Host.reconcile left) =
      Host.ofSelector v m b s >>= fun new => .ok (Host.reconcile left new) := by
    cases Host.ofSelector v m b s <;> rfl
  rw [h, Host.ofSelector, bind_assoc]
  refine (ends_lift _ _).bind fun ds _ => ?_
  rw [bind_assoc]
  refine (ends_hosts v m b ds).bind fun new _ => ?_
  rw [bind_assoc]
  exact (ends_lift _ _).bind fun _ _ => ends_pure (Host.reconcile left new)

theorem ends_narrow (n : Nat) :
    ∀ (ss : List HostSelector) (k : Nat) (left : Option (List (Host γ))),
      Ends (narrow v m b n k left ss) ((ss.mapM (Host.ofSelector v m b)).map (Host.narrowed left))
  | [], _, left => ends_pure left
  | s :: ss, k, left => by
    have h : ((s :: ss).mapM (Host.ofSelector v m b)).map (Host.narrowed left) =
        (Host.ofSelector v m b s).map (Host.reconcile left) >>= fun hs =>
          (ss.mapM (Host.ofSelector v m b)).map (Host.narrowed (some hs)) := by
      rw [List.mapM_cons]
      cases Host.ofSelector v m b s with
      | error e => rfl
      | ok new => cases ss.mapM (Host.ofSelector v m b) <;> rfl
    rw [h]
    exact (ends_advance _ _).after ((ends_apply v m b left s).bind fun hs _ =>
      ends_narrow n ss (k + 1) (some hs))

theorem ends_logged {ε : Type} (f : ε → BuildError) (c : Logged ε α) :
    Ends (logged f c : Build γ α) ((c.run []).1.mapError f) :=
  (ends_modify _).after (ends_lift f (c.run []).1)

/-- The hosts that are left in the end; without a selector there are none. -/
def result (hosts : List (List (Host γ))) : Except BuildError (Fleet γ) :=
  let left := (Host.narrowed none hosts).getD []
  if left.isEmpty then .error .noHosts else .ok ⟨m, left⟩

/-- A fleet, or the first fault on the way to it. -/
def outcome (s : Settings) (bundle : Logged PhaseError Bundle) (ss : List HostSelector) :
    Except BuildError (Fleet γ) := do
  let m ← s.managementOf.mapError .settings
  let _ ← (m.validate v).mapError .settings
  let b ← (bundle.run []).1.mapError .phase
  let hosts ← ss.mapM (Host.ofSelector v m b)
  result m hosts

variable {v m b} {s : Settings} {bundle : Logged PhaseError Bundle} {ss : List HostSelector}

theorem outcome_eq_ok_iff {f : Fleet γ} :
    outcome v s bundle ss = .ok f ↔ ∃ m, s.managementOf = .ok m ∧ m.validate v = .ok () ∧
      ∃ b, (bundle.run []).1 = .ok b ∧
        ∃ hosts, ss.mapM (Host.ofSelector v m b) = .ok hosts ∧ result m hosts = .ok f := by
  simp only [outcome, bind_eq_ok_iff, mapError_eq_ok_iff]
  constructor
  · rintro ⟨m, hm, ⟨⟨⟩, hv, rest⟩⟩
    exact ⟨m, hm, hv, rest⟩
  · rintro ⟨m, hm, hv, rest⟩
    exact ⟨m, hm, (), hv, rest⟩

/-- Once settings and bundle are there, only the selectors count. -/
theorem outcome_of_loaded (hm : s.managementOf = .ok m) (hv : m.validate v = .ok ())
    (hb : (bundle.run []).1 = .ok b) :
    outcome v s bundle ss = ss.mapM (Host.ofSelector v m b) >>= result m := by
  rw [outcome, hm, hb]
  simp only [Except.mapError, bind, Except.bind, hv]

theorem ends_stages (phase : String) :
    Ends (stages v s phase bundle ss) (outcome v s bundle ss) := by
  refine (ends_lift _ _).bind fun m _ => (ends_lift _ _).bind fun _ _ => (ends_advance _ _).after
    ((ends_logged _ _).bind fun b _ => (ends_advance _ _).after ?_)
  have last : ss.mapM (Host.ofSelector v m b) >>= result m =
      (ss.mapM (Host.ofSelector v m b)).map (Host.narrowed none) >>= fun left =>
        if (left.getD []).isEmpty then .error .noHosts else .ok ⟨m, left.getD []⟩ := by
    cases ss.mapM (Host.ofSelector v m b) <;> rfl
  rw [last]
  refine (ends_narrow v m b _ ss 1 none).bind fun left _ => (ends_advance _ _).after ?_
  cases (left.getD []).isEmpty with
  | true => exact ends_throw .noHosts
  | false => exact ends_pure (Fleet.mk m (left.getD []))

theorem ends_fleet (phase : String) (bus : Option Bus) (stamp : Stamp) :
    Ends (fleet v s phase bundle ss bus stamp) (outcome v s bundle ss) := by
  rw [← bind_pure (outcome v s bundle ss)]
  exact ((ends_stages phase).rethrow fun e => (ends_advance _ _).after (ends_throw e)).bind
    fun f _ => (ends_advance _ _).after ((ends_modify _).after (ends_pure f))

end Build

end OutOfBand
