import OutOfBand.Proofs.Redfish.Media
import OutOfBand.Redfish.Boot

namespace OutOfBand.Redfish.System

open Run

variable {τ : Type} (s : System τ)

/-- An override of the source of the next start that is accepted. -/
def Overridden (new : History τ) : Prop :=
  ∃ x ∈ new, s.IsRequest .patch s.address.systemPath (some overridePayload) x.1 ∧
    ∃ r, Accepted x.2.answer r

/-- A job for the next start that is accepted, and seen to be completed later. -/
def Imported (new : History τ) : Prop :=
  ∃ pre x mid y post manager r job es, new = pre ++ x :: (mid ++ y :: post) ∧
    s.IsRequest .post (importPath manager) (some importPayload) x.1 ∧ Accepted x.2.answer r ∧
    r.header? "Location" = some job ∧ s.IsRequest .get job none y.1 ∧ Shows y.2.answer es ∧
    JobState.ofResource es = .completed

/-- A job whose last read shows that it is completed. -/
def JobSeen (job : String) (new : History τ) : Prop :=
  ∃ pre y es, new = pre ++ [y] ∧ s.IsRequest .get job none y.1 ∧ Shows y.2.answer es ∧
    JobState.ofResource es = .completed

/-- The next start is from the virtual CD. -/
def BootSet (new : History τ) : Prop :=
  match s.dialect with
  | .standard => s.Overridden new
  | .dell => s.Imported new

/-- Neither an order at the place of resets nor one to eject. -/
def IsGentle (x : Request τ × Reply τ) : Prop := ¬s.IsResetPost x.1 ∧ ¬s.IsEject x.1

variable {s}

theorem BootSet.append {new : History τ} (h : s.BootSet new) (post : History τ) :
    s.BootSet (new ++ post) := by
  rw [BootSet] at h ⊢
  split at h
  next =>
    obtain ⟨x, hx, h⟩ := h
    exact ⟨x, List.mem_append_left post hx, h⟩
  next =>
    obtain ⟨pre, x, mid, y, post', manager, r, job, es, rfl, h⟩ := h
    exact ⟨pre, x, mid, y, post' ++ post, manager, r, job, es, by simp, h⟩

theorem isGentle_of_isRead {x : Request τ × Reply τ} (h : IsRead x) : s.IsGentle x :=
  ⟨not_isResetPost_of_isRead h, not_isEject_of_isRead h⟩

theorem isGentle_of_override {x : Request τ × Reply τ} {path : String}
    (h : s.IsRequest .patch path (some overridePayload) x.1) : s.IsGentle x := by
  refine ⟨fun hr => ?_, ?_⟩
  · cases h.1.symm.trans hr.1
  · rintro ⟨d, hd⟩
    cases h.1.symm.trans hd.1

/-- The place of imports is no place of resets, whichever manager it belongs to. -/
theorem isGentle_of_import {x : Request τ × Reply τ} {manager : String}
    (h : s.IsRequest .post (importPath manager) (some importPayload) x.1) : s.IsGentle x := by
  refine ⟨fun hr => ?_, ?_⟩
  · have hurl : (s.url (importPath manager)).toList.getLast? = some 'n' :=
      getLast?_url (by simp [importPath]) (by decide)
    rw [h.2.1.symm.trans hr.2, getLast?_url_resetPath] at hurl
    cases hurl
  · rintro ⟨d, hd⟩
    have hp := Option.some.inj (h.2.2.symm.trans hd.2.2)
    simp [importPayload, payload] at hp

variable (s) [Seconds τ] (net : Network τ)

theorem sends_overrideBoot (action : String) :
    (s.overrideBoot net action).Sends (Trail s.IsGentle fun _ new => s.Overridden new) := by
  refine ((s.sends_opticalDrive net action).mono_trail (fun _ => isGentle_of_isRead) id).bind_trail
    (N := fun _ _ new => s.Overridden new) (fun _ => ?_) ?_
  · refine Sends.map_trail (f := fun _ => ()) ((s.sends_send_trail net action .patch _ _).mono_trail
      (fun _ => isGentle_of_override) id) ?_
    rintro r new ⟨pre, x, rfl, hx, hr⟩
    exact ⟨x, by simp, hx, r, hr⟩
  · rintro look d post _ - ⟨x, hx, h⟩
    exact ⟨x, List.mem_append_right look hx, h⟩

theorem sends_jobDone (action job : String) :
    (s.jobDone net action job).Sends (Once (fun x => s.IsRequest .get job none x.1) fun done x =>
      done = true → ∃ es, Shows x.2.answer es ∧ JobState.ofResource es = .completed) := by
  refine (sends_read net s action job).bind
    (Q := fun es new o => new = [] ∧ ∀ done, o = .ok done → done = true →
      JobState.ofResource es = .completed) ?_ Once.error ?_
  · intro es t
    cases h : JobState.ofResource es with
    | completed => exact ⟨[], by simp [run_pure], rfl, fun _ _ _ => rfl⟩
    | failed state => exact ⟨[], by simp [run_fail], rfl, fun _ hd => by cases hd⟩
    | pending => exact ⟨[], by simp [run_pure], rfl, fun done hd => by cases hd; simp⟩
  · rintro pre es post o h ⟨rfl, hdone⟩
    obtain ⟨x, rfl, hx, hes⟩ := h.shows_ok
    exact .inr ⟨x, rfl, hx, fun done hd h => ⟨es, hes, hdone done hd h⟩⟩

/-- The wait for a job, which ends well only if a read shows that it is completed. -/
theorem sends_awaitJob (action job : String) :
    (s.poll action (s.jobDone net action job)).Sends
      (Trail s.IsGentle fun _ new => s.JobSeen job new) := by
  refine ((sends_poll_series (s.sends_jobDone net action job)).mono Series.trail).mono_trail
    (fun _ hx => isGentle_of_isRead hx.1) ?_
  rintro _ new ⟨pre, y, rfl, hy, es, hes, hdone⟩
  exact ⟨pre, y, es, rfl, hy, hes, hdone⟩

theorem sends_importBoot (action : String) :
    (s.importBoot net action).Sends (Trail s.IsGentle fun _ new => s.Imported new) := by
  refine ((s.sends_managerPath net action).mono_trail (fun _ => isGentle_of_isRead) id).bind_trail
    (N := fun _ _ new => s.Imported new) (fun manager => ?_) ?_
  · refine ((s.sends_send_trail net action .post (importPath manager) importPayload).mono_trail
      (fun _ => isGentle_of_import) id).bind_trail (N := fun r _ new => ∃ job,
        r.header? "Location" = some job ∧ s.JobSeen job new) (fun r => ?_) ?_
    · split
      next => exact sends_trail_fail _ _
      next job hjob =>
        refine (sends_trail_say _ _).bind_trail (fun _ => s.sends_awaitJob net action job) ?_
        rintro _ _ post _ rfl hseen
        exact ⟨job, (Option.filter_eq_some_iff.mp hjob).1, hseen⟩
    · rintro _ r _ _ ⟨pre, x, rfl, hx, hr⟩ ⟨job, hjob, mid, y, es, rfl, hy, hes, hdone⟩
      exact ⟨pre, x, mid, y, [], manager, r, job, es, by simp, hx, hr, hjob, hy, hes, hdone⟩
  · rintro look _ post _ - ⟨pre, x, mid, y, post', manager, r, job, es, rfl, h⟩
    exact ⟨look ++ pre, x, mid, y, post', manager, r, job, es, by simp, h⟩

theorem sends_setBootSource :
    (s.setBootSource net).Sends (Trail s.IsGentle fun _ new => s.BootSet new) := by
  cases hd : s.dialect with
  | standard =>
    simpa only [System.setBootSource, BootSet, hd] using s.sends_overrideBoot net _
  | dell => simpa only [System.setBootSource, BootSet, hd] using s.sends_importBoot net _

end OutOfBand.Redfish.System
