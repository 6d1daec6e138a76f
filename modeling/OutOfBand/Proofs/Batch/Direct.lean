import OutOfBand.Batch.Action
import OutOfBand.Proofs.Fleet.Calls
import OutOfBand.Proofs.Redfish.Boot
import OutOfBand.Proofs.Redfish.Bounds
import OutOfBand.Proofs.Redfish.Reboot
import OutOfBand.Rehearsal

namespace OutOfBand

namespace Redfish.System

open Run

variable {τ : Type} (s : System τ)

/-- A history after which the system may be reset: the image was inserted, nothing was ejected after
that, and since then the source of the next start was set. -/
def Prepared (image : String) (before : History τ) : Prop :=
  ∃ insertion rest, before = insertion ++ rest ∧ s.Inserted image insertion ∧
    (∀ x ∈ rest, ¬s.IsEject x.1) ∧ s.BootSet rest

/-- The source of the next start is set, and then the system is rebooted; or the first fails. -/
def Restarts (new : History τ) (o : Except Failure Unit) : Prop :=
  ((∀ x ∈ new, s.IsGentle x) ∧ ∃ e, o = .error e) ∨
    ∃ boot power, new = boot ++ power ∧ (∀ x ∈ boot, s.IsGentle x) ∧ s.BootSet boot ∧
      s.RebootsSafely power o

/-- What a start from an image never does, and what it has done when it succeeds. An order at the
place of resets is either prepared, or meant for a drive that itself gave that place for it. -/
structure StartsSafely {α : Type} (image : String) (new : History τ) (o : Except Failure α) :
    Prop where
  prepared : ∀ pre x post r, new = pre ++ x :: post → s.IsReset r x.1 → s.Prepared image pre
  posts : ∀ pre x post, new = pre ++ x :: post → s.IsResetPost x.1 →
    s.Prepared image pre ∨ s.IsMisled image pre x.1
  done : ∀ a, o = .ok a → ∃ before power, new = before ++ power ∧ s.Prepared image before ∧
    s.RebootsSafely power (.ok ())

variable {s} {α : Type} {image : String}

theorem RebootsSafely.not_isEject {new : History τ} {o : Except Failure Unit}
    (h : s.RebootsSafely new o) : ∀ x ∈ new, ¬s.IsEject x.1 := by
  intro x hx heject
  rcases h.requests x hx with hread | ⟨r, hr⟩
  · exact not_isEject_of_isRead hread.1 heject
  · obtain ⟨d, hd⟩ := heject
    exact hd.not_isReset r hr

theorem Prepared.append {before post : History τ} (h : s.Prepared image before)
    (hpost : ∀ x ∈ post, ¬s.IsEject x.1) : s.Prepared image (before ++ post) := by
  obtain ⟨insertion, rest, rfl, hins, heject, hboot⟩ := h
  refine ⟨insertion, rest ++ post, by simp, hins, fun x hx => ?_, hboot.append post⟩
  exact (List.mem_append.mp hx).elim (heject x) (hpost x)

theorem Prepared.exists_post {before : History τ} (h : s.Prepared image before) :
    ∃ x ∈ before, x.1.method = .post := by
  obtain ⟨_, rest, rfl, ⟨pre, x, d, rfl, -, -, hx, -⟩, -⟩ := h
  exact ⟨x, by simp, hx.1⟩

/-- A reset is never meant for a drive, so that it is always prepared. -/
theorem StartsSafely.of_posts {new : History τ} {o : Except Failure α}
    (posts : ∀ pre x post, new = pre ++ x :: post → s.IsResetPost x.1 →
      s.Prepared image pre ∨ s.IsMisled image pre x.1)
    (done : ∀ a, o = .ok a → ∃ before power, new = before ++ power ∧ s.Prepared image before ∧
      s.RebootsSafely power (.ok ())) : s.StartsSafely image new o where
  prepared pre x post r hcut hr :=
    (posts pre x post hcut hr.isResetPost).resolve_right fun h => h.not_isReset r hr
  posts := posts
  done := done

theorem Spares.startsSafely {new : History τ} {e : Failure} (h : s.Spares image new) :
    s.StartsSafely image new (.error e : Except Failure α) :=
  .of_posts (fun pre x post hcut hx => .inr (h pre x post hcut hx)) fun _ ho => by cases ho

theorem Prepared.startsSafely {before power : History τ} {o : Except Failure Unit}
    (h : s.Prepared image before) (hbefore : s.Spares image before)
    (hpower : s.RebootsSafely power o) : s.StartsSafely image (before ++ power) o := by
  refine .of_posts (fun pre x post hcut hx => ?_) ?_
  · rcases append_eq_append_cons_iff.mp hcut with ⟨mid, hcut, -⟩ | ⟨mid, rfl, hpost⟩
    · exact .inr (hbefore pre x mid hcut hx)
    · exact .inl (h.append fun y hy => hpower.not_isEject y (by simp [hpost, hy]))
  · rintro a rfl
    exact ⟨before, power, rfl, h, hpower⟩

theorem RebootsSafely.error {new : History τ} {e e' : Failure}
    (h : s.RebootsSafely new (.error e)) : s.RebootsSafely new (.error e') :=
  { h with done := fun ho => by cases ho }

theorem run_directTo_eq_ok {image : String} {h : Host (Client τ)} {t t' : Timeline τ}
    (hr : (Command.directTo image h).run t = (.ok (), t')) :
    ∃ t₁ t₂ t₃, t₁.history = t.history ∧ (h.client.setVirtualMedia image).run t₁ = (.ok (), t₂) ∧
      h.client.setBootSource.run t₂ = (.ok (), t₃) ∧ h.client.reboot.run t₃ = (.ok (), t') := by
  obtain ⟨_, t₁, hsay, hr⟩ := run_bind_eq_ok hr
  obtain ⟨_, t₂, hmedia, hr⟩ := run_bind_eq_ok hr
  obtain ⟨_, t₃, hboot, hr⟩ := run_bind_eq_ok hr
  have hhistory : t₁.history = t.history := by
    rw [← (Prod.mk.inj hsay).2]
    exact history_record t _
  exact ⟨t₁, t₂, t₃, hhistory, Host.run_call_eq_ok hmedia, Host.run_call_eq_ok hboot,
    Host.run_call_eq_ok hr⟩

variable (s) [Seconds τ] (net : Network τ)

theorem sends_reboot_safely : (s.reboot net).Sends s.RebootsSafely := by
  refine (s.sends_reboot net).mono fun h => ?_
  obtain ⟨before, ons, after, rfl, hst⟩ := h.staged
  exact hst.safe

theorem sends_directTo (image : String) {h : Host (Client τ)} (hc : h.client = s.client net) :
    (Command.directTo image h).Sends (s.StartsSafely image) := by
  have insert : (h.call (·.setVirtualMedia image)).Sends fun new o =>
      s.Spares image new ∧ ∀ a, o = .ok a → s.Inserted image new :=
    Host.sends_call (by rw [hc]; exact s.sends_setVirtualMedia net image)
      fun hp => ⟨hp.1, fun _ ha => by cases ha⟩
  have boot : (h.call (·.setBootSource)).Sends (Trail s.IsGentle fun _ new => s.BootSet new) :=
    Host.sends_trail_call (by rw [hc]; exact s.sends_setBootSource net)
  have power : (h.call (·.reboot)).Sends s.RebootsSafely :=
    Host.sends_call (by rw [hc]; exact s.sends_reboot_safely net) RebootsSafely.error
  have rest : (do h.call (·.setBootSource); h.call (·.reboot) : Run τ Unit).Sends s.Restarts := by
    refine boot.bind (Q := fun _ => s.RebootsSafely) (fun _ => power) ?_ ?_
    · exact fun {new e} hp => .inl ⟨hp.1, e, rfl⟩
    · exact fun hp hpower => .inr ⟨_, _, rfl, hp.1, hp.2 () rfl, hpower⟩
  have start : (do h.call (·.setVirtualMedia image); h.call (·.setBootSource); h.call (·.reboot)
      : Run τ Unit).Sends (s.StartsSafely image) := by
    refine insert.bind (Q := fun _ => s.Restarts) (fun _ => rest) (fun hp => hp.1.startsSafely) ?_
    rintro pre _ post o ⟨hpre, hins⟩ (⟨hpost, e, rfl⟩ | ⟨boot, power, rfl, hboot, hset, hpower⟩)
    · exact (hpre.append fun x hx => (hpost x hx).1).startsSafely
    · have prepared : s.Prepared image (pre ++ boot) :=
        ⟨pre, boot, rfl, hins () rfl, fun x hx => (hboot x hx).2, hset⟩
      rw [← List.append_assoc]
      exact prepared.startsSafely (hpre.append fun x hx => (hboot x hx).1) hpower
  have announce : (Run.say .info ("remote direct " ++ h.name.text ++ ": inserting " ++ image)
      : Run τ Unit).Sends (Trail (fun _ => False) fun _ new => new = []) := sends_trail_say _ _
  refine announce.bind (Q := fun _ => s.StartsSafely image) (fun _ => start)
    (fun hp => Spares.startsSafely (spares_of_reads fun x hx => (hp.1 x hx).elim)) ?_
  rintro pre _ post o ⟨-, hpre⟩ hpost
  rw [hpre () rfl]
  exact hpost

/-- In every run of a start from an image nothing is sent to the place of resets before the system is
prepared, unless its own drive asks for that; and a run that succeeds is three steps that do. -/
theorem remoteDirect_safe (image : String) (name : Value) (address : String)
    (credentials : Credentials) (t : Timeline τ) :
    let h : Host (Client τ) := ⟨name, address, s.client net, credentials⟩
    let final := ((Command.remoteDirect image).action h).run t
    (∃ new, final.2.history = t.history ++ new ∧ s.StartsSafely image new final.1) ∧
      ∀ v, final.1 = .ok v → ∃ t₁ t₂ t₃, t₁.history = t.history ∧
        (h.client.setVirtualMedia image).run t₁ = (.ok (), t₂) ∧
        h.client.setBootSource.run t₂ = (.ok (), t₃) ∧
        h.client.reboot.run t₃ = (.ok (), final.2) := by
  intro h final
  have sends : ((Command.remoteDirect image).action h).Sends (s.StartsSafely image) := by
    refine (s.sends_directTo net image (h := h) rfl).map (f := fun _ => none) ?_ ?_
    · exact fun hp => { hp with done := fun _ ha => by cases ha }
    · exact fun hp => { hp with done := fun _ _ => hp.done () rfl }
  refine ⟨sends t, fun v hv => ?_⟩
  have hfinal : ((Command.remoteDirect image).action h).run t = (.ok v, final.2) := Prod.ext hv rfl
  obtain ⟨_, t', hr, hend⟩ := run_bind_eq_ok hfinal
  obtain ⟨_, rfl⟩ := Prod.mk.inj hend
  exact run_directTo_eq_ok hr

end Redfish.System

namespace Sample

open Redfish

/-- A drive that holds an image, and ejects it where the system takes resets. -/
def misleadingDrive : Network Int :=
  let link (path : String) : Value := payload [("@odata.id", .str path)]
  let shows (members : List (String × Value)) : Reply Int :=
    ⟨.response ⟨200, "", [], some (payload members)⟩, 1, false⟩
  Rehearsal.network [
    ("GET http://bmc/redfish/v1/Systems/1",
      [shows [("Links", payload [("ManagedBy", .list [link "/m"])])]]),
    ("GET http://bmc/m", [shows [("VirtualMedia", link "/vm")]]),
    ("GET http://bmc/vm", [shows [("Members", .list [link "/vm/1"])]]),
    ("GET http://bmc/vm/1", [shows [("MediaTypes", .list [.str "CD"]), ("Inserted", .bool true),
      ("Actions", payload [("#VirtualMedia.EjectMedia",
        payload [("target", .str system.resetPath)])])]]),
    ("POST http://bmc/redfish/v1/Systems/1/Actions/ComputerSystem.Reset",
      [⟨.response ⟨400, "ResetType is missing", [], none⟩, 1, false⟩])]

def misledHost : Host (Client Int) := ⟨.str "r1", "", system.client misleadingDrive, ⟨"", ""⟩⟩

end Sample

open Sample in
/-- An order to eject the old image ends up where resets are taken, before anything is inserted. -/
theorem remoteDirect_misled :
    let final := ((Command.remoteDirect "http://images/os.iso").action misledHost).run Timeline.start
    ∃ pre x, final.2.history = pre ++ [x] ∧ system.IsResetPost x.1 ∧
      x.1.payload = some (Redfish.payload []) ∧ ¬system.Prepared "http://images/os.iso" pre := by
  intro final
  have reads : ∀ x ∈ final.2.history.take 4, x.1.method = .get := by decide +kernel
  have reset : ∀ x ∈ final.2.history.drop 4, system.IsResetPost x.1 := by decide +kernel
  have empty : (final.2.history.drop 4).map (·.1.payload) = [some (Redfish.payload [])] := by rfl
  obtain ⟨x, hx, hempty⟩ := List.map_eq_singleton_iff.mp empty
  have hcut : final.2.history = final.2.history.take 4 ++ [x] := by
    rw [← hx, List.take_append_drop]
  refine ⟨_, x, hcut, reset x (by simp [hx]), hempty, fun h => ?_⟩
  obtain ⟨y, hy, hpost⟩ := h.exists_post
  cases (reads y hy).symm.trans hpost

end OutOfBand
