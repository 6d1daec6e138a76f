import OutOfBand.Proofs.Redfish.Power
import OutOfBand.Redfish.Media

namespace OutOfBand.Redfish

open Run

variable {τ : Type}

def IsRead (x : Request τ × Reply τ) : Prop := x.1.method = .get

/-- The target that a device gives for an action. -/
def Device.named? (d : Device) (a : MediaAction) : Option String :=
  let action := member (objectOf (member d.resource "Actions")) ("#VirtualMedia." ++ a.name)
  textOf? (member (objectOf action) "target")

theorem Device.target_eq (d : Device) (a : MediaAction) :
    d.target a = (d.named? a).getD (d.path ++ "/Actions/VirtualMedia." ++ a.name) := rfl

namespace System

variable (s : System τ)

/-- A device as a reply shows it. -/
def Found (d : Device) (new : History τ) : Prop :=
  ∃ x ∈ new, s.IsRequest .get d.path none x.1 ∧ Shows x.2.answer d.resource

/-- An order to eject what a device holds. -/
def IsEjectOf (d : Device) (q : Request τ) : Prop :=
  s.IsRequest .post (d.target .eject) (some (payload [])) q

def IsEject (q : Request τ) : Prop := ∃ d, s.IsEjectOf d q

def IsInsert (image : String) (d : Device) (q : Request τ) : Prop :=
  s.IsRequest .post (d.target .insert) (some (imagePayload image)) q

/-- An image is inserted by a trail, into a device for optical media that was read before. -/
def Inserted (image : String) (new : History τ) : Prop :=
  ∃ pre x d, new = pre ++ [x] ∧ d.isOptical = true ∧ s.Found d pre ∧ s.IsInsert image d x.1 ∧
    ∃ r, Accepted x.2.answer r

/-- What is sent to a device while an image is inserted into it. -/
def IsForDrive (image : String) (d : Device) (x : Request τ × Reply τ) : Prop :=
  IsRead x ∨ s.IsEjectOf d x.1 ∨ s.IsInsert image d x.1

/-- A device gives the place of resets as its target for an action. -/
def NamesResets (d : Device) (a : MediaAction) : Prop :=
  ∃ target, d.named? a = some target ∧ s.url target = s.url s.resetPath

/-- An order to a device for optical media that was read before, and that gives the place of resets
as the one where it takes such orders. -/
def IsMisled (image : String) (before : History τ) (q : Request τ) : Prop :=
  ∃ d, d.isOptical = true ∧ s.Found d before ∧
    ((s.NamesResets d .eject ∧ s.IsEjectOf d q) ∨ s.NamesResets d .insert ∧ s.IsInsert image d q)

/-- Nothing is sent to the place of resets but where devices lead there. -/
def Spares (image : String) (new : History τ) : Prop :=
  ∀ pre x post, new = pre ++ x :: post → s.IsResetPost x.1 → s.IsMisled image pre x.1

variable {s}

theorem Found.append_left {d : Device} {new post : History τ} (h : s.Found d new) :
    s.Found d (new ++ post) := by
  obtain ⟨x, hx, hread⟩ := h
  exact ⟨x, List.mem_append_left post hx, hread⟩

theorem Found.append_right {d : Device} {pre new : History τ} (h : s.Found d new) :
    s.Found d (pre ++ new) := by
  obtain ⟨x, hx, hread⟩ := h
  exact ⟨x, List.mem_append_right pre hx, hread⟩

/-- The payload of a reset is that of no other request. -/
theorem IsReset.of_payload {r : Reset} {q : Request τ} {v : Value} (h : s.IsReset r q)
    (hv : q.payload = some v) : v = r.payload :=
  Option.some.inj (hv.symm.trans h.2.2)

theorem not_isResetPost_of_isRead {x : Request τ × Reply τ} (h : IsRead x) :
    ¬s.IsResetPost x.1 := by
  intro hr
  cases h.symm.trans hr.1

theorem not_isEject_of_isRead {x : Request τ × Reply τ} (h : IsRead x) : ¬s.IsEject x.1 := by
  rintro ⟨d, hd⟩
  cases h.symm.trans hd.1

theorem IsEjectOf.not_isReset {d : Device} {q : Request τ} (h : s.IsEjectOf d q) (r : Reset) :
    ¬s.IsReset r q := by
  intro hr
  have hp := hr.of_payload h.2.2
  simp [Reset.payload, payload] at hp

theorem IsInsert.not_isReset {image : String} {d : Device} {q : Request τ}
    (h : s.IsInsert image d q) (r : Reset) : ¬s.IsReset r q := by
  intro hr
  have hp := hr.of_payload h.2.2
  simp [Reset.payload, imagePayload, payload] at hp

theorem getLast?_url {path : String} {c : Char} (h : path.toList.getLast? = some c)
    (hc : c ≠ '/') : (s.url path).toList.getLast? = some c := by
  rw [url]
  split
  next => exact h
  next =>
    obtain ⟨init, hinit⟩ := List.getLast?_eq_some_iff.mp h
    have hlast : (path.toList.dropWhile (· = '/')).getLast? = some c := by
      rw [hinit, List.dropWhile_append]
      split
      next => simp [hc]
      next => simp
    rw [String.toList_append, List.getLast?_append, String.toList_append, List.getLast?_append,
      String.toList_ofList, hlast]
    rfl

theorem getLast?_url_resetPath : (s.url s.resetPath).toList.getLast? = some 't' :=
  getLast?_url (by simp [resetPath]) (by decide)

/-- A device takes an action at the place of resets only if it says so itself. -/
theorem namesResets_of_target {d : Device} {a : MediaAction}
    (h : s.url (d.target a) = s.url s.resetPath) : s.NamesResets d a := by
  rw [d.target_eq] at h
  cases hnamed : d.named? a with
  | some target =>
    rw [hnamed] at h
    exact ⟨target, hnamed, h⟩
  | none =>
    have hlast : (d.path ++ "/Actions/VirtualMedia." ++ a.name).toList.getLast? = some 'a' := by
      cases a <;> simp [MediaAction.name]
    have hurl : (s.url (d.path ++ "/Actions/VirtualMedia." ++ a.name)).toList.getLast? = some 'a' :=
      getLast?_url hlast (by decide)
    rw [hnamed, Option.getD_none] at h
    rw [h, getLast?_url_resetPath] at hurl
    cases hurl

theorem IsMisled.not_isReset {image : String} {before : History τ} {q : Request τ}
    (h : s.IsMisled image before q) (r : Reset) : ¬s.IsReset r q := by
  obtain ⟨d, -, -, ⟨-, heject⟩ | ⟨-, hinsert⟩⟩ := h
  · exact heject.not_isReset r
  · exact hinsert.not_isReset r

/-- Requests to a drive that was found before reach the place of resets only where it says so. -/
theorem spares_of_drive {image : String} {look rest : History τ} {d : Device}
    (reads : ∀ x ∈ look, IsRead x) (optical : d.isOptical = true) (found : s.Found d look)
    (orders : ∀ x ∈ rest, s.IsForDrive image d x) : s.Spares image (look ++ rest) := by
  intro pre x post hcut hreset
  rcases append_eq_append_cons_iff.mp hcut with ⟨mid, rfl, -⟩ | ⟨mid, rfl, rfl⟩
  · exact absurd hreset (not_isResetPost_of_isRead (reads x (by simp)))
  · refine ⟨d, optical, found.append_left, ?_⟩
    rcases orders x (by simp) with hread | heject | hinsert
    · exact absurd hreset (not_isResetPost_of_isRead hread)
    · exact .inl ⟨namesResets_of_target (heject.2.1.symm.trans hreset.2), heject⟩
    · exact .inr ⟨namesResets_of_target (hinsert.2.1.symm.trans hreset.2), hinsert⟩

theorem spares_of_reads {image : String} {look : History τ} (reads : ∀ x ∈ look, IsRead x) :
    s.Spares image look := by
  rintro pre x post rfl hreset
  exact absurd hreset (not_isResetPost_of_isRead (reads x (by simp)))

theorem Spares.append {image : String} {new post : History τ} (h : s.Spares image new)
    (hpost : ∀ x ∈ post, ¬s.IsResetPost x.1) : s.Spares image (new ++ post) := by
  intro pre x rest hcut hreset
  rcases append_eq_append_cons_iff.mp hcut with ⟨mid, hcut, -⟩ | ⟨mid, -, rfl⟩
  · exact h pre x mid hcut hreset
  · exact absurd hreset (hpost x (by simp))

variable (s) [Seconds τ] (net : Network τ)

theorem sends_read_trail (action path : String) :
    (s.read net action path).Sends (Trail IsRead fun es new =>
      ∃ x ∈ new, s.IsRequest .get path none x.1 ∧ Shows x.2.answer es) := by
  refine ((sends_read net s action path).mono Once.trail).mono_trail (fun x hx => hx.1) ?_
  rintro es new ⟨x, rfl, hx, hes⟩
  exact ⟨x, by simp, hx, hes⟩

theorem sends_send_trail (action : String) (method : Method) (path : String) (payload : Value) :
    (s.send net action method path payload).Sends
      (Trail (fun x => s.IsRequest method path (some payload) x.1) fun r new =>
        ∃ pre x, new = pre ++ [x] ∧ s.IsRequest method path (some payload) x.1 ∧
          Accepted x.2.answer r) :=
  (sends_send net s action method path payload).mono Series.trail

theorem sends_managerPath (action : String) :
    (s.managerPath net action).Sends (Trail IsRead fun _ _ => True) := by
  refine (s.sends_read_trail net action _).bind_trail (N := fun _ _ _ => True) ?_ fun _ _ => trivial
  intro es
  dsimp only
  split
  next => exact sends_trail_pure trivial
  next => exact sends_trail_fail _ _

theorem sends_readDevices (action : String) (paths : List String) :
    (s.readDevices net action paths).Sends
      (Trail IsRead fun ds new => ∀ d ∈ ds, s.Found d new) := by
  induction paths with
  | nil => exact sends_trail_pure (by simp)
  | cons path rest ih =>
    refine (s.sends_read_trail net action path).bind_trail
      (N := fun es ds new => ∃ tail, ds = ⟨path, es⟩ :: tail ∧ ∀ d ∈ tail, s.Found d new) ?_ ?_
    · exact fun es => ih.map_trail fun htail => ⟨_, rfl, htail⟩
    · rintro pre es post ds hes ⟨tail, rfl, htail⟩ d hd
      rcases List.mem_cons.mp hd with rfl | hd
      · exact Found.append_left hes
      · exact (htail d hd).append_right

theorem sends_devices (action : String) :
    (s.devices net action).Sends (Trail IsRead fun ds new => ∀ d ∈ ds, s.Found d new) := by
  refine (s.sends_managerPath net action).bind_trail
    (N := fun _ ds new => ∀ d ∈ ds, s.Found d new) ?_ fun _ h d hd => (h d hd).append_right
  intro path
  refine (s.sends_read_trail net action path).bind_trail
    (N := fun _ ds new => ∀ d ∈ ds, s.Found d new) ?_ fun _ h d hd => (h d hd).append_right
  intro manager
  split
  next => exact sends_trail_fail _ _
  next path _ =>
    exact (s.sends_read_trail net action path).bind_trail
      (fun _ => s.sends_readDevices net action _) fun _ h d hd => (h d hd).append_right

theorem sends_opticalDrive (action : String) :
    (s.opticalDrive net action).Sends
      (Trail IsRead fun d new => d.isOptical = true ∧ s.Found d new) := by
  refine (s.sends_devices net action).bind_trail
    (N := fun ds d new => d.isOptical = true ∧ d ∈ ds ∧ new = []) ?_ ?_
  · intro ds
    split
    next d hd =>
      exact sends_trail_pure ⟨List.find?_some hd, List.mem_of_find?_eq_some hd, rfl⟩
    next => exact sends_trail_fail _ _
  · rintro pre ds post d hds ⟨hd, hmem, rfl⟩
    exact ⟨hd, (hds d hmem).append_left⟩

theorem sends_eject (action : String) (d : Device) :
    (s.eject net action d).Sends
      (Trail (fun x => IsRead x ∨ s.IsEjectOf d x.1) fun _ _ => True) := by
  have order : (s.send net action .post (d.target .eject) (payload [])).Sends
      (Trail (fun x => IsRead x ∨ s.IsEjectOf d x.1) fun _ _ => True) :=
    (s.sends_send_trail net action .post _ _).mono_trail (fun _ hx => .inr hx) fun _ => trivial
  refine order.bind_trail (N := fun _ _ _ => True) (fun _ => ?_) fun _ _ => trivial
  have look : (do return !isInserted (← s.read net action d.path) : Run τ Bool).Sends
      (Once (fun x => s.IsRequest .get d.path none x.1) fun empty _ => empty = true → True) :=
    (sends_read net s action d.path).map_once fun _ _ _ => trivial
  exact ((sends_poll_series look).mono Series.trail).mono_trail (fun x hx => .inl hx.1)
    fun _ => trivial

theorem sends_insert (action image : String) (d : Device) :
    (do let _ ← s.send net action .post (d.target .insert) (imagePayload image) : Run τ Unit).Sends
      (Trail (s.IsForDrive image d) fun _ new =>
        ∃ pre x, new = pre ++ [x] ∧ s.IsInsert image d x.1 ∧ ∃ r, Accepted x.2.answer r) := by
  refine Sends.map_trail (f := fun _ => ()) ((s.sends_send_trail net action .post _ _).mono_trail
    (fun _ hx => .inr (.inr hx)) id) ?_
  rintro r new ⟨pre, x, rfl, hx, hr⟩
  exact ⟨pre, x, rfl, hx, r, hr⟩

theorem sends_insert_into (action image : String) (d : Device) :
    (do
      if isInserted d.resource then s.eject net action d
      let _ ← s.send net action .post (d.target .insert) (imagePayload image) : Run τ Unit).Sends
      (Trail (s.IsForDrive image d) fun _ new =>
        ∃ pre x, new = pre ++ [x] ∧ s.IsInsert image d x.1 ∧ ∃ r, Accepted x.2.answer r) := by
  split
  next =>
    have eject := (s.sends_eject net action d).mono_trail
      (fun x hx => (hx.imp_right .inl : s.IsForDrive image d x)) id
    refine eject.bind_trail (fun _ => s.sends_insert net _ image d) ?_
    rintro held _ post _ - ⟨pre, x, rfl, hx⟩
    exact ⟨held ++ pre, x, by simp, hx⟩
  next => exact s.sends_insert net _ image d

theorem sends_setVirtualMedia (image : String) :
    (s.setVirtualMedia net image).Sends fun new o =>
      s.Spares image new ∧ ∀ a, o = .ok a → s.Inserted image new := by
  refine (s.sends_opticalDrive net "set_virtual_media").bind
    (fun d => s.sends_insert_into net "set_virtual_media" image d) ?_ ?_
  · exact fun h => ⟨spares_of_reads h.1, fun _ ha => by cases ha⟩
  · rintro look d post o ⟨reads, hd⟩ ⟨orders, hok⟩
    obtain ⟨optical, found⟩ := hd d rfl
    refine ⟨spares_of_drive reads optical found orders, fun a ha => ?_⟩
    obtain ⟨pre, x, rfl, hx, hr⟩ := hok a ha
    exact ⟨look ++ pre, x, d, by simp, optical, found.append_left, hx, hr⟩

end System

end OutOfBand.Redfish
