import OutOfBand.Proofs.Redfish.Attempts
import OutOfBand.Proofs.Redfish.Media

namespace OutOfBand

variable {τ α β : Type}

namespace Run

variable {P Q : History τ → Except Failure α → Timeline τ → Prop} {r r' : Run τ α}

theorem Arrives.and (h : r.Arrives P) (h' : r.Arrives Q) :
    r.Arrives fun new o t => P new o t ∧ Q new o t := by
  intro t
  obtain ⟨new, hnew, hp⟩ := h t
  obtain ⟨new', hnew', hq⟩ := h' t
  obtain rfl : new = new' := List.append_cancel_left (hnew.symm.trans hnew')
  exact ⟨new, hnew, hp, hq⟩

theorem Arrives.of_run_eq (h : r.Arrives P) (heq : ∀ t, r'.run t = r.run t) : r'.Arrives P := by
  intro t
  rw [heq]
  exact h t

/-- What a failure leaves of two runs, or what both of them send. -/
theorem Arrives.bind_cases {f : α → Run τ β}
    {R : α → History τ → Except Failure β → Timeline τ → Prop}
    (h : r.Arrives P) (hf : ∀ a, (f a).Arrives (R a)) :
    (r >>= f).Arrives fun new o t => (∃ e, o = .error e ∧ P new (.error e) t) ∨
      ∃ pre a t' post, new = pre ++ post ∧ P pre (.ok a) t' ∧ R a post o t :=
  h.bind hf (fun hp => .inl ⟨_, rfl, hp⟩) fun hp hr => .inr ⟨_, _, _, _, rfl, hp, hr⟩

end Run

namespace Redfish

/-- A cause as the failure of an action. -/
def failing (action : String) (w : Except Remote.Cause α) : Except Failure α :=
  w.mapError fun cause => .remote ⟨cause, some action, none⟩

/-- What a link leads to, if there is one. -/
def Follows (link : Option String) (missing : Remote.Cause)
    (K : String → History τ → Except Remote.Cause α → Prop) (new : History τ)
    (w : Except Remote.Cause α) : Prop :=
  match link with
  | none => new = [] ∧ w = .error missing
  | some path => K path new w

/-- Where the first manager of a system is. -/
def managerLink? (system : Resource) : Option String :=
  (itemsOf (member (objectOf (member system "Links")) "ManagedBy")).head?.bind linkTarget?

/-- Where the devices of a collection are. -/
def memberLinks (collection : Resource) : List String :=
  (itemsOf (member collection "Members")).filterMap linkTarget?

namespace System

open Run

variable (s : System τ)

section CutShort

variable [Seconds τ] (action : String)

/-- Why nothing is sent at a moment, if nothing is. -/
def hindrance? (t : Timeline τ) : Option Remote.Cause :=
  match t.limits.fault? t.now, s.timeout? t.limits t.now with
  | some cause, _ => some cause
  | none, none => some .deadlineBeforeRequest
  | none, some _ => none

/-- Reads come to an end early: the last one shows no object, or the limits let nothing be sent at
that moment. -/
def CutShort (new : History τ) (f : Failure) (t : Timeline τ) : Prop :=
  (∃ pre x path, new = pre ++ [x] ∧ (∀ es, ¬Shows x.2.answer es) ∧
      .error f = answered action .get (s.url path) x.2.answer >>= shown action path) ∨
    ∃ cause, s.hindrance? t = some cause ∧ f = .remote ⟨cause, some action, none⟩

/-- What is sent is complete, and comes to the outcome; or it is cut short. -/
def Finds (R : History τ → Except Remote.Cause α → Prop) (new : History τ) (o : Except Failure α)
    (t : Timeline τ) : Prop :=
  (∃ w, R new w ∧ o = failing action w) ∨
    ∃ f, o = .error f ∧ s.CutShort action new f t ∧ ∀ w, ¬R new w

variable {s action} {R : History τ → Except Remote.Cause α → Prop} {new : History τ} {f : Failure}
  {t : Timeline τ}

theorem CutShort.cons (h : s.CutShort action new f t) (x : Request τ × Reply τ) :
    s.CutShort action (x :: new) f t := by
  rcases h with ⟨pre, y, path, rfl, hy⟩ | hstop
  · exact .inl ⟨x :: pre, y, path, rfl, hy⟩
  · exact .inr hstop

theorem Finds.of_ok {a : α} (h : s.Finds action R new (.ok a) t) : R new (.ok a) := by
  rcases h with ⟨cause | a', hw, ha⟩ | ⟨f, hf, -⟩
  · cases ha
  · cases ha
    exact hw
  · cases hf

theorem Finds.of_error (h : s.Finds action R new (.error f) t) :
    (∃ cause, R new (.error cause) ∧ f = .remote ⟨cause, some action, none⟩) ∨
      s.CutShort action new f t ∧ ∀ w, ¬R new w := by
  rcases h with ⟨cause | a, hw, hf⟩ | ⟨f', hf, hcut⟩
  · cases hf
    exact .inl ⟨cause, hw, rfl⟩
  · cases hf
  · cases hf
    exact .inr hcut

end CutShort

/-- A read whose reply shows an object, and what the object leads to. -/
def ReadsThen (path : String) (K : Resource → History τ → Except Remote.Cause α → Prop)
    (new : History τ) (w : Except Remote.Cause α) : Prop :=
  ∃ x es post, new = x :: post ∧ s.IsRequest .get path none x.1 ∧ Shows x.2.answer es ∧ K es post w

/-- Devices that are read one after the other. -/
def Members : List String → History τ → Except Remote.Cause (List Device) → Prop
  | [] => fun new w => new = [] ∧ w = .ok []
  | path :: rest => s.ReadsThen path fun es post w =>
      ∃ ds, Members rest post ds ∧ w = do return ⟨path, es⟩ :: (← ds)

/-- A complete search: from the system to its manager, from there to the collection of devices, and
then to each of them whose link is usable. -/
def Search : History τ → Except Remote.Cause (List Device) → Prop :=
  s.ReadsThen s.address.systemPath fun system =>
    Follows (managerLink? system) (.noManager s.address.systemId) fun path =>
      s.ReadsThen path fun manager =>
        Follows (linkTarget? (member manager "VirtualMedia")) (.noVirtualMedia s.address.systemId)
          fun path => s.ReadsThen path fun collection => s.Members (memberLinks collection)

variable {s} {action : String} {new : History τ}

theorem Follows.eq {link : Option String} {missing : Remote.Cause} {w w' : Except Remote.Cause α}
    {K : String → History τ → Except Remote.Cause α → Prop}
    (hK : ∀ {path}, K path new w → K path new w' → w = w') (h : Follows link missing K new w)
    (h' : Follows link missing K new w') : w = w' := by
  cases link with
  | none => exact h.2.trans h'.2.symm
  | some path => exact hK h h'

theorem Follows.missing_or {link : Option String} {missing : Remote.Cause}
    {w : Except Remote.Cause α} {K : String → History τ → Except Remote.Cause α → Prop}
    (h : Follows link missing K new w) : w = .error missing ∨ ∃ path, K path new w := by
  cases link with
  | none => exact .inl h.2
  | some path => exact .inr ⟨path, h⟩

theorem ReadsThen.eq {path : String} {w w' : Except Remote.Cause α}
    {K : Resource → History τ → Except Remote.Cause α → Prop}
    (hK : ∀ {es post}, K es post w → K es post w' → w = w') (h : s.ReadsThen path K new w)
    (h' : s.ReadsThen path K new w') : w = w' := by
  obtain ⟨x, es, post, rfl, -, hes, hw⟩ := h
  obtain ⟨x', es', post', hnew, -, hes', hw'⟩ := h'
  obtain ⟨rfl, rfl⟩ := List.cons.inj hnew
  obtain rfl := hes.eq hes'
  exact hK hw hw'

theorem Members.eq {paths : List String} {w w' : Except Remote.Cause (List Device)}
    (h : s.Members paths new w) (h' : s.Members paths new w') : w = w' := by
  induction paths generalizing new w w' with
  | nil => exact h.2.trans h'.2.symm
  | cons path rest ih =>
    refine ReadsThen.eq ?_ h h'
    rintro es post ⟨ds, hds, rfl⟩ ⟨ds', hds', rfl⟩
    rw [ih hds hds']

theorem Search.eq {w w' : Except Remote.Cause (List Device)} (h : s.Search new w)
    (h' : s.Search new w') : w = w' :=
  ReadsThen.eq (Follows.eq (ReadsThen.eq (Follows.eq (ReadsThen.eq Members.eq)))) h h'

theorem Members.paths_eq {paths : List String} {w : Except Remote.Cause (List Device)}
    (h : s.Members paths new w) : ∃ ds, w = .ok ds ∧ ds.map Device.path = paths := by
  induction paths generalizing new w with
  | nil => exact ⟨[], h.2, rfl⟩
  | cons path rest ih =>
    obtain ⟨x, es, post, -, -, -, v, hv, rfl⟩ := h
    obtain ⟨ds, rfl, hds⟩ := ih hv
    exact ⟨⟨path, es⟩ :: ds, rfl, by rw [List.map_cons, hds]⟩

theorem Search.kind_eq {cause : Remote.Cause} (h : s.Search new (.error cause)) :
    cause.kind = .unsupported := by
  obtain ⟨x, system, post, -, -, -, h⟩ := h
  rcases Follows.missing_or h with he | ⟨path, y, manager, post', -, -, -, h⟩
  · cases he
    rfl
  · rcases Follows.missing_or h with he | ⟨path, z, collection, post'', -, -, -, h⟩
    · cases he
      rfl
    · obtain ⟨ds, hds, -⟩ := h.paths_eq
      cases hds

section Finding

variable [Seconds τ]

theorem arrives_pure (a : α) : (pure a : Run τ α).Arrives
    (s.Finds action fun new w => new = [] ∧ w = .ok a) :=
  fun _ => ⟨[], by simp [run_pure], .inl ⟨_, ⟨rfl, rfl⟩, rfl⟩⟩

/-- What is computed from what is found sends nothing. -/
theorem arrives_bind {r : Run τ α} {f : α → Run τ β} (g : α → Except Remote.Cause β)
    {R : History τ → Except Remote.Cause α → Prop} (hr : r.Arrives (s.Finds action R))
    (hf : ∀ a t, (f a).run t = (failing action (g a), t)) :
    (r >>= f).Arrives (s.Finds action fun new w => ∃ v, R new v ∧ w = v >>= g) := by
  refine hr.bind (B := fun a new o _ => new = [] ∧ o = failing action (g a)) ?_ ?_ ?_
  · exact fun a t => ⟨[], by simp [hf], rfl, by rw [hf]⟩
  · intro new e t h
    rcases h.of_error with ⟨cause, hcause, rfl⟩ | ⟨hcut, hnone⟩
    · exact .inl ⟨_, ⟨_, hcause, rfl⟩, rfl⟩
    · exact .inr ⟨e, rfl, hcut, fun w ⟨v, hv, _⟩ => hnone v hv⟩
  · rintro pre a t post o t' h ⟨rfl, rfl⟩
    rw [List.append_nil]
    exact .inl ⟨_, ⟨_, h.of_ok, rfl⟩, rfl⟩

theorem arrives_follow {link : Option String} {missing : Remote.Cause} {f : String → Run τ α}
    {K : String → History τ → Except Remote.Cause α → Prop}
    (hf : ∀ path, (f path).Arrives (s.Finds action (K path))) :
    (match link with
      | none => Run.fail missing (some action)
      | some path => f path).Arrives (s.Finds action (Follows link missing K)) := by
  cases link with
  | none => exact fun _ => ⟨[], by simp [run_fail], .inl ⟨_, ⟨rfl, rfl⟩, rfl⟩⟩
  | some path => exact hf path

variable (net : Network τ)

/-- Nothing is sent for a read only where the limits do not let it. -/
theorem arrives_read (action path : String) :
    (s.read net action path).Arrives fun new o t =>
      new = [] → ∃ cause, s.hindrance? t = some cause ∧
        o = .error (.remote ⟨cause, some action, none⟩) := by
  intro t
  rw [run_read, run_request]
  cases hf : t.limits.fault? t.now with
  | some cause => exact ⟨[], by simp, fun _ => ⟨cause, by simp [hindrance?, hf], rfl⟩⟩
  | none =>
    cases hw : s.timeout? t.limits t.now with
    | none => exact ⟨[], by simp, fun _ => ⟨_, by simp [hindrance?, hf, hw], rfl⟩⟩
    | some w =>
      let q : Request τ := ⟨.get, s.url path, none, w⟩
      refine ⟨[(q, net t.requests q)], ?_, by simp⟩
      simp only [history_received, history_announced, q]

theorem arrives_readsThen {path : String} {f : Resource → Run τ α}
    {K : Resource → History τ → Except Remote.Cause α → Prop}
    (hf : ∀ es, (f es).Arrives (s.Finds action (K es))) :
    (s.read net action path >>= f).Arrives (s.Finds action (s.ReadsThen path K)) := by
  refine ((sends_looks net s action path).arrives.and (arrives_read net action path)).bind hf ?_ ?_
  · rintro new e t ⟨⟨rfl, -⟩ | ⟨x, rfl, hx, ho⟩, hstop⟩
    · obtain ⟨cause, hcause, he⟩ := hstop rfl
      cases he
      refine .inr ⟨_, rfl, .inr ⟨cause, hcause, rfl⟩, ?_⟩
      rintro w ⟨x, es, post, hnew, -⟩
      cases hnew
    · have hnone : ∀ es, ¬Shows x.2.answer es :=
        fun es hes => by cases ho.trans (looked_eq_ok_iff.mpr hes)
      refine .inr ⟨e, rfl, .inl ⟨[], x, path, rfl, hnone, ho⟩, ?_⟩
      rintro w ⟨y, es, post, hnew, -, hes, -⟩
      obtain ⟨rfl, -⟩ := List.cons.inj hnew
      exact hnone es hes
  · rintro pre es t post o t' ⟨⟨-, e, he⟩ | ⟨x, rfl, hx, ho⟩, -⟩ hpost
    · cases he
    · have hes : Shows x.2.answer es := looked_eq_ok_iff.mp ho.symm
      rcases hpost with ⟨w, hw, rfl⟩ | ⟨e, rfl, hcut, hnone⟩
      · exact .inl ⟨w, ⟨x, es, post, rfl, hx, hes, hw⟩, rfl⟩
      · -- the reply shows one object only, so what follows it is cut short whatever it is read as
        refine .inr ⟨e, rfl, hcut.cons x, ?_⟩
        rintro w ⟨y, es', post', hnew, -, hes', hw⟩
        obtain ⟨rfl, rfl⟩ := List.cons.inj hnew
        obtain rfl := hes.eq hes'
        exact hnone w hw

theorem arrives_members (paths : List String) :
    (s.readDevices net action paths).Arrives (s.Finds action (s.Members paths)) := by
  induction paths with
  | nil => exact arrives_pure []
  | cons path rest ih =>
    exact arrives_readsThen net fun es =>
      arrives_bind (fun ds => .ok (⟨path, es⟩ :: ds)) ih fun _ _ => rfl

theorem run_devices (action : String) (t : Timeline τ) :
    (s.devices net action).run t = (s.read net action s.address.systemPath >>= fun system =>
      match managerLink? system with
      | none => Run.fail (.noManager s.address.systemId) (some action)
      | some path => s.read net action path >>= fun manager =>
        match linkTarget? (member manager "VirtualMedia") with
        | none => Run.fail (.noVirtualMedia s.address.systemId) (some action)
        | some path => s.read net action path >>= fun collection =>
          s.readDevices net action (memberLinks collection)).run t := by
  rw [devices, run_bind, managerPath, run_bind, run_bind]
  rcases (s.read net action s.address.systemPath).run t with ⟨e | system, t'⟩
  · rfl
  · dsimp only [managerLink?]
    cases (itemsOf (member (objectOf (member system "Links")) "ManagedBy")).head?.bind
      linkTarget? <;> rfl

theorem arrives_search (action : String) :
    (s.devices net action).Arrives (s.Finds action s.Search) := by
  -- `managerPath` ends inside `devices`, so the rules only apply to the run with its reads in a row
  refine Arrives.of_run_eq ?_ (run_devices net action)
  refine arrives_readsThen net fun system => arrives_follow fun path => ?_
  refine arrives_readsThen net fun manager => arrives_follow fun path => ?_
  exact arrives_readsThen net fun collection => arrives_members net (memberLinks collection)

end Finding

end System

end Redfish

end OutOfBand
