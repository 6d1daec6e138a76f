import OutOfBand.Proofs.Redfish.Bounds
import OutOfBand.Proofs.Redfish.Search
import OutOfBand.Rehearsal

namespace OutOfBand

variable {τ α : Type}

/-- Exchanges of a kind, of which the last one hits its mark and no other, unless there is a
failure. -/
inductive Until (kind hits : Request τ × Reply τ → Prop) : History τ → Except Failure α → Prop
  | missed {new : History τ} (e : Failure) (misses : ∀ y ∈ new, kind y ∧ ¬hits y) :
      Until kind hits new (.error e)
  | hit {pre : History τ} {x : Request τ × Reply τ} (a : α) (misses : ∀ y ∈ pre, kind y ∧ ¬hits y)
      (last : kind x ∧ hits x) : Until kind hits (pre ++ [x]) (.ok a)

/-- At most one exchange, of a kind, which hits its mark exactly if there is nothing more to do. -/
def Shot (done : Prop) (kind hits : Request τ × Reply τ → Prop) (new : History τ) : Prop :=
  (new = [] ∧ ¬done) ∨ ∃ x, new = [x] ∧ kind x ∧ (done ↔ hits x)

section Until

variable {kind hits : Request τ × Reply τ → Prop} {pre post new : History τ}
  {o : Except Failure α}

theorem Until.kind_of_mem {x : Request τ × Reply τ} (h : Until kind hits new o) (hx : x ∈ new) :
    kind x := by
  cases h with
  | missed e misses => exact (misses x hx).1
  | hit a misses last =>
    rcases List.mem_append.mp hx with hx | hx
    · exact (misses x hx).1
    · exact List.mem_singleton.mp hx ▸ last.1

theorem Until.prepend (hpre : ∀ y ∈ pre, kind y ∧ ¬hits y) (h : Until kind hits post o) :
    Until kind hits (pre ++ post) o := by
  cases h with
  | missed e misses =>
    exact .missed e fun y hy => (List.mem_append.mp hy).elim (hpre y) (misses y)
  | hit a misses last =>
    rw [← List.append_assoc]
    exact .hit a (fun y hy => (List.mem_append.mp hy).elim (hpre y) (misses y)) last

theorem Until.last {x : Request τ × Reply τ} (h : Until kind hits new o)
    (hcut : new = pre ++ x :: post) (hx : hits x) : post = [] := by
  cases h with
  | missed e misses => exact absurd hx (misses x (by simp [hcut])).2
  | hit a misses last =>
    rcases append_eq_append_cons_iff.mp hcut with ⟨mid, rfl, -⟩ | ⟨mid, -, hlast⟩
    · exact absurd hx (misses x (by simp)).2
    · obtain ⟨-, hlast⟩ | ⟨-, hnil⟩ := List.append_eq_singleton_iff.mp hlast.symm
      · exact (List.cons.inj hlast).2
      · cases hnil

theorem Until.ok_iff (h : Until kind hits new o) : (∃ a, o = .ok a) ↔ ∃ x ∈ new, hits x := by
  cases h with
  | missed e misses => exact iff_of_false (by simp) fun ⟨x, hx, hhits⟩ => (misses x hx).2 hhits
  | hit a misses last => exact iff_of_true ⟨a, rfl⟩ ⟨_, by simp, last.2⟩

theorem Shot.misses {done : Prop} (h : Shot done kind hits new) (hdone : ¬done) :
    ∀ y ∈ new, kind y ∧ ¬hits y := by
  rcases h with ⟨rfl, -⟩ | ⟨x, rfl, hx, hiff⟩
  · simp
  · intro y hy
    obtain rfl := List.mem_singleton.mp hy
    exact ⟨hx, fun hits => hdone (hiff.mpr hits)⟩

theorem Shot.until {done : Prop} {a : α} (h : Shot done kind hits new) (hdone : done) :
    Until kind hits new (.ok a) := by
  rcases h with ⟨-, hnone⟩ | ⟨x, rfl, hx, hiff⟩
  · exact absurd hdone hnone
  · have hhit : Until kind hits ([] ++ [x]) (.ok a) := .hit a (by simp) ⟨hx, hiff.mp hdone⟩
    exact hhit

end Until

namespace Run

theorem Sends.after_say {r : Run τ α} {P : History τ → Except Failure α → Prop} (h : r.Sends P)
    (level : Level) (text : String) : (say level text >>= fun _ => r).Sends P := by
  intro t
  obtain ⟨new, hnew, hp⟩ := h (t.record (.noted (.wrote (.log ⟨level, text⟩))))
  rw [history_record] at hnew
  exact ⟨new, hnew, hp⟩

variable [Seconds τ] {kind hits : Request τ × Reply τ → Prop}

theorem sends_retry_until {p : RetryPlan τ} {act : Run τ α}
    (hact : act.Sends fun new o => Shot (∃ a, o = .ok a) kind hits new)
    (hretry : ∀ k e, (p.onRetry k e).Quiet) (hpause : (p.pause p.budget.delay).Quiet) :
    (retry p act).Sends (Until kind hits) := by
  refine sends_retry (fun e => .missed e (by simp)) hact ?_ ?_ hretry hpause
  · rintro new (e | a) h
    · exact .missed e (h.misses (by simp))
    · exact h.until ⟨a, rfl⟩
  · exact fun h _ hpost => hpost.prepend (h.misses (by simp))

theorem sends_poll_until {action : String} {b : Budget τ} {reached : Run τ Bool}
    (hreached : reached.Sends fun new seen => Shot (seen = .ok true) kind hits new) :
    (poll action b reached).Sends (Until kind hits) := by
  refine sends_poll (fun e => .missed e (by simp)) hreached ?_ ?_ ?_
  · exact fun h => h.until rfl
  · exact fun h => .missed _ (h.misses (by simp))
  · exact fun h hseen hpost => hpost.prepend (h.misses hseen)

end Run

namespace Redfish

/-- An exchange whose request is accepted. -/
def Taken (x : Request τ × Reply τ) : Prop := ∃ r, Accepted x.2.answer r

/-- An exchange whose reply shows a device that holds nothing. -/
def ShowsEmpty (x : Request τ × Reply τ) : Prop :=
  ∃ es, Shows x.2.answer es ∧ isInserted es = false

namespace System

open Run

variable (s : System τ) (d : Device)

def IsLookAt (q : Request τ) : Prop := s.IsRequest .get d.path none q

/-- Orders to eject what a device holds, until one is accepted, and from then on looks at the
device, until one shows it empty. -/
inductive Ejecting : History τ → Except Failure Unit → Prop
  | refused {orders : History τ} (f : Failure)
      (refused : ∀ y ∈ orders, s.IsEjectOf d y.1 ∧ ¬Taken y) : Ejecting orders (.error f)
  | unconfirmed {orders looks : History τ} {x : Request τ × Reply τ} (f : Failure)
      (refused : ∀ y ∈ orders, s.IsEjectOf d y.1 ∧ ¬Taken y) (taken : s.IsEjectOf d x.1 ∧ Taken x)
      (held : ∀ y ∈ looks, s.IsLookAt d y.1 ∧ ¬ShowsEmpty y) :
      Ejecting (orders ++ x :: looks) (.error f)
  | confirmed {orders looks : History τ} {x z : Request τ × Reply τ}
      (refused : ∀ y ∈ orders, s.IsEjectOf d y.1 ∧ ¬Taken y) (taken : s.IsEjectOf d x.1 ∧ Taken x)
      (held : ∀ y ∈ looks, s.IsLookAt d y.1 ∧ ¬ShowsEmpty y)
      (empty : s.IsLookAt d z.1 ∧ ShowsEmpty z) :
      Ejecting (orders ++ x :: (looks ++ [z])) (.ok ())

/-- Some devices are ejected one after the other, completely, up to the first failure; what comes
after it is left alone. -/
def EjectingInTurn (ds : List Device) (new : History τ) (o : Except Failure Unit) : Prop :=
  ∃ done left parts tail, ds = done ++ left ∧ new = parts.flatten ++ tail ∧
    List.Forall₂ (fun d part => s.Ejecting d part (.ok ())) done parts ∧
    ((left = [] ∧ tail = [] ∧ o = .ok ()) ∨
      ∃ d more f, left = d :: more ∧ s.Ejecting d tail (.error f) ∧ o = .error f)

variable {s d}

theorem Ejecting.kind_of_mem {new : History τ} {o : Except Failure Unit} (h : s.Ejecting d new o) :
    ∀ y ∈ new, s.IsEjectOf d y.1 ∨ s.IsLookAt d y.1 := by
  intro y hy
  cases h with
  | refused f refused => exact .inl (refused y hy).1
  | unconfirmed f refused taken held =>
    rw [List.mem_append, List.mem_cons] at hy
    rcases hy with hy | rfl | hy
    · exact .inl (refused y hy).1
    · exact .inl taken.1
    · exact .inr (held y hy).1
  | confirmed refused taken held empty =>
    rw [List.mem_append, List.mem_cons, List.mem_append, List.mem_singleton] at hy
    rcases hy with hy | rfl | hy | rfl
    · exact .inl (refused y hy).1
    · exact .inl taken.1
    · exact .inr (held y hy).1
    · exact .inr empty.1

theorem EjectingInTurn.nil : s.EjectingInTurn [] [] (.ok ()) :=
  ⟨[], [], [], [], rfl, rfl, .nil, .inl ⟨rfl, rfl, rfl⟩⟩

theorem EjectingInTurn.stop {ds : List Device} {new : History τ} {f : Failure}
    (h : s.Ejecting d new (.error f)) : s.EjectingInTurn (d :: ds) new (.error f) :=
  ⟨[], d :: ds, [], new, rfl, rfl, .nil, .inr ⟨d, ds, f, rfl, h, rfl⟩⟩

theorem EjectingInTurn.cons {ds : List Device} {new post : History τ} {o : Except Failure Unit}
    (h : s.Ejecting d new (.ok ())) (hpost : s.EjectingInTurn ds post o) :
    s.EjectingInTurn (d :: ds) (new ++ post) o := by
  obtain ⟨done, left, parts, tail, rfl, rfl, hparts, hend⟩ := hpost
  exact ⟨d :: done, left, new :: parts, tail, rfl, by simp, .cons h hparts, hend⟩

variable (s) [Seconds τ] (net : Network τ)

theorem sends_send_until (action : String) (method : Method) (path : String) (payload : Value) :
    (s.send net action method path payload).Sends
      (Until (fun x => s.IsRequest method path (some payload) x.1) Taken) := by
  refine sends_retry_until ?_ (fun _ _ => quiet_say _ _) (quiet_sleep _ _)
  refine (sends_request net s action method path (some payload)).mono ?_
  rintro new o (⟨rfl, e, rfl⟩ | ⟨x, rfl, hx, rfl⟩)
  · exact .inl ⟨rfl, by simp⟩
  · refine .inr ⟨x, rfl, hx, ?_, ?_⟩
    · exact fun ⟨r, hr⟩ => ⟨r, accepted_of_answered hr⟩
    · exact fun ⟨r, hr⟩ => ⟨r, answered_of_accepted hr action method _⟩

theorem sends_awaitEmpty (action : String) (d : Device) :
    (s.poll action do return !isInserted (← s.read net action d.path)).Sends
      (Until (fun x => s.IsLookAt d x.1) ShowsEmpty) := by
  refine sends_poll_until ?_
  refine (sends_looks net s action d.path).map ?_ ?_
  · rintro new e (⟨rfl, -⟩ | ⟨x, rfl, hx, ho⟩)
    · exact .inl ⟨rfl, by simp⟩
    · refine .inr ⟨x, rfl, hx, by simp, ?_⟩
      rintro ⟨es, hes, -⟩
      cases ho.trans (looked_eq_ok_iff.mpr hes)
  · rintro new es (⟨-, e, he⟩ | ⟨x, rfl, hx, ho⟩)
    · cases he
    · have hes : Shows x.2.answer es := looked_eq_ok_iff.mp ho.symm
      refine .inr ⟨x, rfl, hx, fun h => ⟨es, hes, by simpa using h⟩, ?_⟩
      rintro ⟨es', hes', hempty⟩
      obtain rfl := hes.eq hes'
      rw [hempty]
      rfl

theorem sends_ejecting (action : String) (d : Device) :
    (s.eject net action d).Sends (s.Ejecting d) := by
  refine (s.sends_send_until net action .post (d.target .eject) (payload [])).bind
    (fun _ => s.sends_awaitEmpty net action d) ?_ ?_
  · rintro new e (⟨_, misses⟩ | _)
    exact .refused e misses
  · rintro pre r post o (_ | ⟨_, refused, taken⟩) hpost
    rw [List.append_assoc, List.singleton_append]
    cases hpost with
    | missed e held => exact .unconfirmed e refused taken held
    | hit a held empty => exact .confirmed refused taken held empty

theorem sends_ejectAll (action : String) (ds : List Device) :
    (s.ejectAll net action ds).Sends
      (s.EjectingInTurn (ds.filter fun d => isInserted d.resource)) := by
  induction ds with
  | nil =>
    refine (sends_pure ()).mono ?_
    rintro new o ⟨rfl, rfl⟩
    exact .nil
  | cons d rest ih =>
    rw [ejectAll]
    cases hd : isInserted d.resource with
    | false =>
      -- an empty device is passed over, and is none of those that hold something
      rw [List.filter_cons_of_neg (by simp [hd]), if_neg Bool.false_ne_true]
      exact ih
    | true =>
      rw [List.filter_cons_of_pos (by simpa using hd), if_pos rfl]
      refine Sends.after_say ?_ _ _
      exact (s.sends_ejecting net action d).bind (fun _ => ih) .stop .cons

/-- Devices are only ejected after a complete search for them, and only those that it shows to hold
something, in the order of their collection: the next one after an order to the one before has been
accepted and a later look has shown it empty. All of them have been when the operation succeeds. A
search that finds no devices, or is cut short, is followed by nothing. -/
theorem ejects_held_devices_in_turn (t : Timeline τ) :
    let final := ((s.client net).perform .ejectVirtualMedia).run t
    ∃ look rest, final.2.history = t.history ++ (look ++ rest) ∧ (∀ x ∈ look, IsRead x) ∧
      (∀ ds, s.Search look (.ok ds) →
        s.EjectingInTurn (ds.filter fun d => isInserted d.resource) rest final.1) ∧
      (∀ cause, s.Search look (.error cause) → rest = [] ∧
        ∃ e, final.1 = .error (.remote e) ∧ e.cause = cause ∧ e.kind = .unsupported) ∧
      ((∀ w, ¬s.Search look w) → rest = [] ∧ ∃ f, final.1 = .error f ∧
        s.CutShort "eject_virtual_media" look f final.2) := by
  have search := (s.sends_devices net "eject_virtual_media").arrives.and (arrives_search net _)
  have eject (ds : List Device) := (s.sends_ejectAll net "eject_virtual_media" ds).arrives
  obtain ⟨new, hnew, ⟨e, he, hreads, hfinds⟩ | ⟨look, ds, _, rest, rfl, ⟨hreads, hfinds⟩, hrest⟩⟩ :=
    search.bind_cases eject t
  · refine ⟨new, [], by rw [List.append_nil]; exact hnew, hreads.1, ?_⟩
    rcases hfinds.of_error with ⟨cause, hw, rfl⟩ | ⟨hcut, hnone⟩
    · refine ⟨fun ds hds => ?_, fun cause' hw' => ⟨rfl, _, he, ?_⟩, fun hnone => ?_⟩
      · cases hw.eq hds
      · cases hw.eq hw'
        exact ⟨rfl, hw.kind_eq⟩
      · exact absurd hw (hnone _)
    · exact ⟨fun ds hds => absurd hds (hnone _), fun cause hw => absurd hw (hnone _),
        fun _ => ⟨rfl, e, he, hcut⟩⟩
  · have hds := hfinds.of_ok
    refine ⟨look, rest, hnew, hreads.1, fun ds' hds' => ?_, fun cause hw => ?_, fun hnone => ?_⟩
    · cases hds.eq hds'
      exact hrest
    · cases hds.eq hw
    · exact absurd hds (hnone _)

end System

end Redfish

namespace Sample

open Redfish

/-- A manager with a drive for sticks that is empty and one for disks that is not until it has been
ejected. -/
def twoDrives : Network Int :=
  let link (path : String) : Value := payload [("@odata.id", .str path)]
  let shows (members : List (String × Value)) : Reply Int :=
    ⟨.response ⟨200, "", [], some (payload members)⟩, 1, false⟩
  let drive (kind : String) (inserted : Bool) : Reply Int :=
    shows [("MediaTypes", .list [.str kind]), ("Inserted", .bool inserted)]
  let done : Reply Int := ⟨.response ⟨204, "", [], none⟩, 1, false⟩
  Rehearsal.network [
    ("GET http://bmc/redfish/v1/Systems/1",
      [shows [("Links", payload [("ManagedBy", .list [link "/m"])])]]),
    ("GET http://bmc/m", [shows [("VirtualMedia", link "/vm")]]),
    ("GET http://bmc/vm", [shows [("Members", .list [link "/vm/1", link "/vm/2"])]]),
    ("GET http://bmc/vm/1", [drive "USBStick" false]),
    ("GET http://bmc/vm/2", [drive "CD" true, drive "CD" false]),
    ("POST http://bmc/vm/2/Actions/VirtualMedia.EjectMedia", [done]),
    ("POST http://bmc/vm/2/Actions/VirtualMedia.InsertMedia", [done])]

end Sample

open Sample in
example :
    let final := ((system.client twoDrives).perform .ejectVirtualMedia).run Timeline.start
    final.1 = .ok () ∧ (final.2.requests.drop 5).map Rehearsal.routeOf =
      ["POST http://bmc/vm/2/Actions/VirtualMedia.EjectMedia", "GET http://bmc/vm/2"] := by
  decide +kernel

end OutOfBand
