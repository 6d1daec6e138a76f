import OutOfBand.Proofs.Redfish.Ejecting

namespace OutOfBand

variable {τ : Type}

namespace Redfish

namespace System

open Run

variable (s : System τ) (image : String) (d : Device)

/-- The first device for optical media among some, or why there is none. -/
def driveAmong (ds : List Device) : Except Remote.Cause Device :=
  match ds.find? Device.isOptical with
  | some d => .ok d
  | none => .error (.noDrive s.address.systemId)

/-- What is sent before the image: nothing to a device that is empty, and else what ejects what it
holds. -/
def Clears (before : History τ) : Prop :=
  if isInserted d.resource then s.Ejecting d before (.ok ()) else before = []

/-- What is sent to the device that an image is to be inserted into, and how it ends. -/
structure InsertsWhenEmpty (new : History τ) (o : Except Failure Unit) : Prop where
  kinds : ∀ x ∈ new, s.IsEjectOf d x.1 ∨ s.IsLookAt d x.1 ∨ s.IsInsert image d x.1
  /-- Before the first order to insert, the device was empty or is shown to be. -/
  first : ∀ pre x post, new = pre ++ x :: post → s.IsInsert image d x.1 →
    (∀ y ∈ pre, ¬s.IsInsert image d y.1) →
    (isInserted d.resource = false ∧ pre = []) ∨
      (∃ y ∈ pre, s.IsEjectOf d y.1 ∧ Taken y) ∧
        ∃ mid z, pre = mid ++ [z] ∧ s.IsLookAt d z.1 ∧ ShowsEmpty z
  spared : isInserted d.resource = false → ∀ x ∈ new, ¬s.IsEjectOf d x.1
  kept : ∀ pre x post, new = pre ++ x :: post → s.IsInsert image d x.1 →
    ∀ y ∈ post, ¬s.IsEjectOf d y.1
  done : o = .ok () ↔ ∃ x ∈ new, s.IsInsert image d x.1 ∧ Taken x
  last : ∀ pre x post, new = pre ++ x :: post → s.IsInsert image d x.1 → Taken x → post = []

variable {s image d}

theorem IsInsert.not_isEjectOf {q : Request τ} (h : s.IsInsert image d q) : ¬s.IsEjectOf d q := by
  intro h'
  have hp := h.2.2.symm.trans h'.2.2
  simp [imagePayload, payload] at hp

theorem IsInsert.not_clearing {q : Request τ} (h : s.IsInsert image d q) :
    ¬(s.IsEjectOf d q ∨ s.IsLookAt d q) := by
  rintro (heject | hlook)
  · exact h.not_isEjectOf heject
  · cases h.1.symm.trans hlook.1

theorem Ejecting.not_isInsert {new : History τ} {o : Except Failure Unit}
    (h : s.Ejecting d new o) : ∀ x ∈ new, ¬s.IsInsert image d x.1 :=
  fun x hx hinsert => hinsert.not_clearing (h.kind_of_mem x hx)

theorem Clears.kind_of_mem {before : History τ} (h : s.Clears d before) :
    ∀ x ∈ before, s.IsEjectOf d x.1 ∨ s.IsLookAt d x.1 := by
  rw [Clears] at h
  split at h
  next => exact h.kind_of_mem
  next => simp [h]

theorem Clears.not_isInsert {before : History τ} (h : s.Clears d before) :
    ∀ x ∈ before, ¬s.IsInsert image d x.1 :=
  fun x hx hinsert => hinsert.not_clearing (h.kind_of_mem x hx)

theorem Clears.empty {before : History τ} (h : s.Clears d before) :
    (isInserted d.resource = false ∧ before = []) ∨
      (∃ y ∈ before, s.IsEjectOf d y.1 ∧ Taken y) ∧
        ∃ mid z, before = mid ++ [z] ∧ s.IsLookAt d z.1 ∧ ShowsEmpty z := by
  rw [Clears] at h
  split at h
  next =>
    cases h with
    | @confirmed orders looks x z refused taken held empty =>
      exact .inr ⟨⟨x, by simp, taken⟩, orders ++ x :: looks, z, by simp, empty⟩
  next hd => exact .inl ⟨Bool.eq_false_iff.mpr hd, h⟩

/-- Orders come after what clears the device: a cut before one of them is a cut of the orders. -/
theorem Clears.cut {before orders pre post : History τ} {x : Request τ × Reply τ}
    (h : s.Clears d before) (hcut : before ++ orders = pre ++ x :: post)
    (hx : s.IsInsert image d x.1) : ∃ mid, pre = before ++ mid ∧ orders = mid ++ x :: post := by
  rcases append_eq_append_cons_iff.mp hcut with ⟨mid, rfl, -⟩ | hmid
  · exact absurd hx (h.not_isInsert x (by simp))
  · exact hmid

theorem Ejecting.insertsWhenEmpty {new : History τ} {f : Failure}
    (h : s.Ejecting d new (.error f)) (held : isInserted d.resource = true) :
    s.InsertsWhenEmpty image d new (.error f) := by
  have hnone : ∀ {pre x post}, new = pre ++ x :: post → ¬s.IsInsert image d x.1 :=
    fun hcut => h.not_isInsert _ (by simp [hcut])
  refine ⟨fun x hx => ?_, ?_, ?_, ?_, ?_, ?_⟩
  · exact (h.kind_of_mem x hx).imp_right .inl
  · exact fun pre x post hcut hx => absurd hx (hnone hcut)
  · exact fun hempty => absurd (held.symm.trans hempty) (by simp)
  · exact fun pre x post hcut hx => absurd hx (hnone hcut)
  · exact iff_of_false (by simp) fun ⟨x, hx, hinsert, _⟩ => h.not_isInsert x hx hinsert
  · exact fun pre x post hcut hx => absurd hx (hnone hcut)

theorem Clears.insertsWhenEmpty {before orders : History τ} {o : Except Failure Unit}
    (h : s.Clears d before) (horders : Until (fun x => s.IsInsert image d x.1) Taken orders o) :
    s.InsertsWhenEmpty image d (before ++ orders) o := by
  have hinserts : ∀ x ∈ orders, s.IsInsert image d x.1 := fun _ => horders.kind_of_mem
  refine ⟨fun x hx => ?_, fun pre x post hcut hx hfirst => ?_, fun hempty x hx => ?_,
    fun pre x post hcut hx y hy => ?_, ?_, fun pre x post hcut hx htaken => ?_⟩
  · rcases List.mem_append.mp hx with hx | hx
    · exact (h.kind_of_mem x hx).imp_right .inl
    · exact .inr (.inr (hinserts x hx))
  · obtain ⟨mid, rfl, rfl⟩ := h.cut hcut hx
    -- the first order to insert follows at once, since only such orders come after the clearing
    have hmid : mid = [] := by
      refine List.eq_nil_iff_forall_not_mem.mpr fun y hy => ?_
      exact hfirst y (by simp [hy]) (hinserts y (by simp [hy]))
    rw [hmid, List.append_nil]
    exact h.empty
  · rw [Clears, hempty, if_neg Bool.false_ne_true] at h
    rw [h, List.nil_append] at hx
    exact (hinserts x hx).not_isEjectOf
  · obtain ⟨mid, rfl, rfl⟩ := h.cut hcut hx
    exact (hinserts y (by simp [hy])).not_isEjectOf
  · have hok : o = .ok () ↔ ∃ a, o = .ok a := ⟨fun ho => ⟨(), ho⟩, fun ⟨_, ho⟩ => ho⟩
    rw [hok, horders.ok_iff]
    constructor
    · rintro ⟨x, hx, htaken⟩
      exact ⟨x, List.mem_append_right _ hx, hinserts x hx, htaken⟩
    · rintro ⟨x, hx, hinsert, htaken⟩
      rcases List.mem_append.mp hx with hx | hx
      · exact absurd hinsert (h.not_isInsert x hx)
      · exact ⟨x, hx, htaken⟩
  · obtain ⟨mid, rfl, rfl⟩ := h.cut hcut hx
    exact horders.last rfl htaken

/-- A complete search for a drive: one for devices, and the first for optical media among them. -/
def DriveSearch (s : System τ) (new : History τ) (w : Except Remote.Cause Device) : Prop :=
  ∃ v, s.Search new v ∧ w = v >>= s.driveAmong

theorem driveAmong_eq_ok_iff {ds : List Device} :
    s.driveAmong ds = .ok d ↔ ds.find? Device.isOptical = some d := by
  rw [driveAmong]
  cases ds.find? Device.isOptical <;> simp

theorem DriveSearch.exists_devices {new : History τ} (h : s.DriveSearch new (.ok d)) :
    ∃ ds, s.Search new (.ok ds) ∧ ds.find? Device.isOptical = some d := by
  obtain ⟨v | ds, hv, hd⟩ := h
  · cases hd
  · exact ⟨ds, hv, driveAmong_eq_ok_iff.mp hd.symm⟩

theorem DriveSearch.kind_eq {new : History τ} {cause : Remote.Cause}
    (h : s.DriveSearch new (.error cause)) : cause.kind = .unsupported := by
  obtain ⟨v | ds, hv, hcause⟩ := h
  · cases hcause
    exact hv.kind_eq
  · change _ = s.driveAmong ds at hcause
    rw [driveAmong] at hcause
    split at hcause
    next => cases hcause
    next =>
      cases hcause
      rfl

/-- A complete search that comes to no drive has shown no device for optical media. -/
theorem DriveSearch.not_isOptical {new : History τ} {cause : Remote.Cause} {ds : List Device}
    (h : s.DriveSearch new (.error cause)) (hds : s.Search new (.ok ds)) :
    ds.find? Device.isOptical = none := by
  obtain ⟨v, hv, hcause⟩ := h
  obtain rfl := hv.eq hds
  cases hfind : ds.find? Device.isOptical with
  | none => rfl
  | some d => cases hcause.trans (driveAmong_eq_ok_iff.mpr hfind)

variable (s) [Seconds τ] (net : Network τ)

theorem arrives_driveSearch (action : String) :
    (s.opticalDrive net action).Arrives (s.Finds action s.DriveSearch) := by
  refine arrives_bind s.driveAmong (arrives_search net action) fun ds t => ?_
  rw [driveAmong]
  cases ds.find? Device.isOptical <;> rfl

theorem sends_insertOrders (action image : String) (d : Device) :
    (do let _ ← s.send net action .post (d.target .insert) (imagePayload image) : Run τ Unit).Sends
      (Until (fun x => s.IsInsert image d x.1) Taken) := by
  refine (s.sends_send_until net action .post _ _).map (f := fun _ => ()) ?_ ?_
  · rintro new e (⟨_, misses⟩ | _)
    exact .missed e misses
  · rintro new r (_ | ⟨_, misses, last⟩)
    exact .hit () misses last

theorem sends_insertWhenEmpty (action image : String) (d : Device) :
    (do
      if isInserted d.resource then s.eject net action d
      let _ ← s.send net action .post (d.target .insert) (imagePayload image) : Run τ Unit).Sends
      (s.InsertsWhenEmpty image d) := by
  have orders := s.sends_insertOrders net action image d
  cases hd : isInserted d.resource with
  | false =>
    have hclears : s.Clears d [] := by simp [Clears, hd]
    rw [if_neg Bool.false_ne_true]
    exact orders.mono fun h => hclears.insertsWhenEmpty h
  | true =>
    rw [if_pos rfl]
    refine (s.sends_ejecting net action d).bind (fun _ => orders) ?_ ?_
    · exact fun h => h.insertsWhenEmpty hd
    · intro pre a post o hpre hpost
      have hclears : s.Clears d pre := by
        rw [Clears, if_pos hd]
        exact hpre
      exact hclears.insertsWhenEmpty hpost

/-- An image is only inserted after a complete search, into the first device for optical media that
it shows, and only once that device is empty: no other device gets an order, and one that holds
something gets the order to insert after an order to eject has been accepted and a look has shown it
empty. The operation succeeds exactly when an order to insert is accepted, which is the last
request. A search that shows no such device, or is cut short, is followed by nothing. -/
theorem inserts_into_emptied_drive (image : String) (t : Timeline τ) :
    let final := ((s.client net).perform (.setVirtualMedia image)).run t
    ∃ look rest, final.2.history = t.history ++ (look ++ rest) ∧ (∀ x ∈ look, IsRead x) ∧
      (∀ ds d, s.Search look (.ok ds) → ds.find? Device.isOptical = some d →
        s.InsertsWhenEmpty image d rest final.1) ∧
      (∀ w, s.Search look w → (∀ ds, w = .ok ds → ∀ d ∈ ds, d.isOptical = false) → rest = [] ∧
        ∃ e, final.1 = .error (.remote e) ∧ e.kind = .unsupported) ∧
      ((∀ w, ¬s.Search look w) → rest = [] ∧ ∃ f, final.1 = .error f ∧
        s.CutShort "set_virtual_media" look f final.2) := by
  have search :=
    (s.sends_opticalDrive net "set_virtual_media").arrives.and (s.arrives_driveSearch net _)
  have insert (d : Device) := (s.sends_insertWhenEmpty net "set_virtual_media" image d).arrives
  obtain ⟨new, hnew, ⟨e, he, hreads, hfinds⟩ | ⟨look, d, _, rest, rfl, ⟨hreads, hfinds⟩, hrest⟩⟩ :=
    search.bind_cases insert t
  · refine ⟨new, [], by rw [List.append_nil]; exact hnew, hreads.1, ?_⟩
    rcases hfinds.of_error with ⟨cause, hw, rfl⟩ | ⟨hcut, hnone⟩
    · refine ⟨fun ds d hds hd => ?_, fun w _ _ => ⟨rfl, _, he, hw.kind_eq⟩, fun hnone => ?_⟩
      · cases hd.symm.trans (hw.not_isOptical hds)
      · obtain ⟨v, hv, -⟩ := hw
        exact absurd hv (hnone v)
    · have hsearch : ∀ w, ¬s.Search new w := fun w hw => hnone _ ⟨w, hw, rfl⟩
      exact ⟨fun ds d hds _ => absurd hds (hsearch _), fun w hw _ => absurd hw (hsearch w),
        fun _ => ⟨rfl, e, he, hcut⟩⟩
  · obtain ⟨ds, hds, hfind⟩ := hfinds.of_ok.exists_devices
    refine ⟨look, rest, hnew, hreads.1, fun ds' d' hds' hfind' => ?_, fun w hw hnone => ?_,
      fun hnone => absurd hds (hnone _)⟩
    · cases hds.eq hds'
      cases hfind.symm.trans hfind'
      exact hrest
    · have hoptical : d.isOptical = true := List.find?_some hfind
      have hnot := hnone ds (hw.eq hds) d (List.mem_of_find?_eq_some hfind)
      cases hoptical.symm.trans hnot

end System

end Redfish

open Sample in
example :
    let final := ((system.client twoDrives).perform (.setVirtualMedia "http://i")).run Timeline.start
    final.1 = .ok () ∧ (final.2.requests.drop 5).map Rehearsal.routeOf =
      ["POST http://bmc/vm/2/Actions/VirtualMedia.EjectMedia", "GET http://bmc/vm/2",
        "POST http://bmc/vm/2/Actions/VirtualMedia.InsertMedia"] := by
  decide +kernel

end OutOfBand
