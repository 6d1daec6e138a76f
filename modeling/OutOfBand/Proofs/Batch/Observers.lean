import OutOfBand.Proofs.Batch.SideBySide
import OutOfBand.Proofs.Fleet.Course
import OutOfBand.Proofs.Fleet.Rearrangement
import OutOfBand.Proofs.Redfish.Heedless

namespace OutOfBand

open Run

variable {τ γ : Type}

/-- The batch with everyone on a bus told of its events. -/
def Batch.withBus (b : Batch τ) (bus : Bus) : Batch τ := { b with bus := some bus }

namespace Batch

variable {b : Batch τ} {h : Host (Client τ)} {hosts : List (Host (Client τ))}

theorem heedless_attempt (heedless : (b.action h).Heedless) : (b.attempt h).Heedless := by
  refine .tryCatch (.bind heedless fun _ => heedless_pure _) fun e => ?_
  cases e with
  | remote e => exact heedless_pure _
  | fault m => exact heedless_throw _

theorem uniform_failedOn (h : Host (Client τ)) (e : RemoteError) :
    Uniform fun bus => (b.withBus bus).failedOn h e := by
  refine .bind (heedless_say .error (b.name ++ " failed: " ++ e.message)).uniform fun _ => ?_
  exact .bind (uniform_tell ⟨b.stamp, .failed h.name b.name e.message⟩) fun _ =>
    (heedless_pure (b.result h (.failed e))).uniform

variable [Seconds τ]

theorem uniform_succeededOn (h : Host (Client τ)) (started : τ) (value : Option String) :
    Uniform fun bus => (b.withBus bus).succeededOn h started value := by
  refine uniform_get (fun bus t u hnow => by simp only [hnow]) fun t => ?_
  let ms := Seconds.millis (Seconds.sub t.now started)
  let line := b.name ++ " on " ++ h.name.text ++ " done in " ++ intText ms ++ "ms"
  refine .bind (heedless_say .info line).uniform fun _ => ?_
  exact .bind (uniform_tell ⟨b.stamp, .succeeded h.name b.name ms value⟩) fun _ =>
    (heedless_pure (b.result h (.ok value))).uniform

theorem uniform_runOn (heedless : (b.action h).Heedless) :
    Uniform fun bus => (b.withBus bus).runOn h := by
  refine .bind (heedless_enter b.timeout).uniform fun _ => ?_
  refine .bind (uniform_tell ⟨b.stamp, .started h.name b.name⟩) fun _ => ?_
  refine uniform_get (fun bus t u hnow => by simp only [hnow]) fun t => ?_
  refine .bind (heedless_attempt heedless).uniform fun out => ?_
  cases out with
  | error e => exact uniform_failedOn h e
  | ok value => exact uniform_succeededOn h t.now value

theorem uniform_runInTurn (heedless : ∀ h ∈ hosts, (b.action h).Heedless) (goOn : Bool) :
    Uniform fun bus => (b.withBus bus).runInTurn goOn hosts := by
  induction hosts with
  | nil => exact (heedless_pure []).uniform
  | cons h rest ih =>
    refine .bind (uniform_runOn (heedless h List.mem_cons_self)) fun r => ?_
    by_cases hstops : (r.outcome.isFailed && !goOn) = true
    · simp only [hstops, if_true]
      exact (heedless_pure (r :: rest.map fun h => b.result h .skipped)).uniform
    · simp only [hstops]
      refine .bind (ih fun h hh => heedless h (List.mem_cons_of_mem _ hh)) fun rs => ?_
      exact (heedless_pure (r :: rs)).uniform

theorem uniform_run (heedless : ∀ h ∈ hosts, (b.action h).Heedless) (goOn : Bool) :
    Uniform fun bus => (b.withBus bus).run (.inTurn goOn) hosts := by
  refine .bind (uniform_runInTurn heedless goOn) fun rs => ?_
  exact .bind (uniform_tell ⟨b.stamp, b.summary rs⟩) fun _ => (heedless_pure rs).uniform

end Batch

namespace Build

theorem fleet_uniform (v : Vendors γ) (s : Settings) (phase : String)
    (bundle : Logged PhaseError Bundle) (ss : List HostSelector) (stamp : Stamp)
    (r : BuildRecord γ) :
    ∃ out state ts clients new, ∀ bus : Bus,
      (fleet v s phase bundle ss (some bus) stamp).run.run r = (out, ⟨state, ts,
        r.notices ++ bus.voiced Notice.event? Notice.wrote (r.notices.filterMap Notice.event?) new,
        clients⟩) := by
  obtain ⟨steps, out, -, -, -, -, hrun⟩ := run_fleet v s phase bundle ss
  obtain ⟨ts, others, lines, hadds⟩ := BuildRecord.adds_foldl steps r
  let final := steps.foldl BuildRecord.after r
  let written : List Notice := lines.map fun l => .wrote (.log l)
  have huntold : ∀ x ∈ written, x.event? = none := by
    intro x hx
    obtain ⟨line, -, rfl⟩ := List.mem_map.mp hx
    rfl
  have hnotices : final.notices = r.notices ++ written := hadds.notices
  have hearlier : written.filterMap Notice.event? = [] := List.filterMap_eq_nil_iff.mpr huntold
  cases out with
  | error e =>
    refine ⟨.error e, final.state, final.transitions, final.built, written, fun bus => ?_⟩
    rw [hrun, Bus.voiced_of_untold huntold, ← hnotices]
    simp [final]
  | ok f =>
    have htold : (Notice.told (readyEvent stamp f)).event? = some (readyEvent stamp f) := rfl
    refine ⟨.ok f, final.state, final.transitions, final.built,
      written ++ [.told (readyEvent stamp f)], fun bus => ?_⟩
    rw [hrun, Bus.voiced_append, Bus.voiced_of_untold huntold, hearlier, List.append_nil,
      Bus.voiced_told htold, ← List.append_assoc, ← hnotices]
    have hevents : final.notices.filterMap Notice.event? = r.notices.filterMap Notice.event? := by
      rw [hnotices, List.filterMap_append, hearlier, List.append_nil]
    rw [← hevents]
    rfl

end Build

/-- Failing observers are not noticed, neither when a fleet is built nor in a batch in turn. Whoever
listens, the outcome is the same and so is what is done; and everyone on the bus is notified of
every event, in their order, where each failure leaves one warning. Without those that fail, then,
the same fleet or failure, the same results, calls and events are left, and only what these
observers leave is missing. -/
theorem failing_observers_unnoticed [Seconds τ] {b : Batch τ} {hosts : List (Host (Client τ))}
    (heedless : ∀ h ∈ hosts, (b.action h).Heedless) (goOn : Bool) (t : Timeline τ) (v : Vendors γ)
    (s : Settings) (phase : String) (bundle : Logged PhaseError Bundle) (ss : List HostSelector)
    (stamp : Stamp) (r : BuildRecord γ) :
    let batch (bus : Bus) := ((b.withBus bus).run (.inTurn goOn) hosts).run t
    let build (bus : Bus) := (Build.fleet v s phase bundle ss (some bus) stamp).run.run r
    (∃ out now limits new, ∀ bus : Bus, ∃ added,
      batch bus = (out, ⟨now, limits, t.trace ++ added⟩) ∧
        bus.Hears Effect.told? Effect.written t.events new added) ∧
      (∃ out state ts clients new, ∀ bus : Bus, ∃ added,
        build bus = (out, ⟨state, ts, r.notices ++ added, clients⟩) ∧
          bus.Hears Notice.event? Notice.wrote (r.notices.filterMap Notice.event?) new added) ∧
      ∀ (bus : Bus) (fails : Observer → Bool),
        let others : Bus := bus.filter (!fails ·)
        (batch others).1 = (batch bus).1 ∧
          (batch others).2.contacts = (batch bus).2.contacts ∧
          (batch others).2.events = (batch bus).2.events ∧
          (batch others).2.trace.Sublist (batch bus).2.trace ∧
          (build others).1 = (build bus).1 ∧
          (build others).2.built = (build bus).2.built ∧
          (build others).2.notices.filterMap Notice.event? =
            (build bus).2.notices.filterMap Notice.event? ∧
          (build others).2.notices.Sublist (build bus).2.notices := by
  intro batch build
  obtain ⟨out, t', hbatch⟩ := (Batch.uniform_run heedless goOn).run t
  obtain ⟨built, state, ts, clients, new, hbuild⟩ :=
    Build.fleet_uniform v s phase bundle ss stamp r
  have hwrote : ∀ o, (Notice.wrote o).event? = none := fun _ => rfl
  have hwritten : ∀ o, (Effect.written o : Effect τ).told? = none := Effect.told?_written
  refine ⟨⟨out, t'.now, t'.limits, t'.trace, fun bus => ⟨_, hbatch bus, .voiced hwritten _ _ _⟩⟩,
    ⟨built, state, ts, clients, new, fun bus => ⟨_, hbuild bus, .voiced hwrote _ _ _⟩⟩,
    fun bus fails => ?_⟩
  simp only [batch, build, hbatch, hbuild]
  refine ⟨trivial, ?_, ?_, ?_, trivial, trivial, ?_, ?_⟩
  · exact (t'.resembles_heardBy t.trace bus _).contacts
  · exact (t'.resembles_heardBy t.trace bus _).events
  · exact (Bus.voiced_sublist _).append_left _
  · rw [List.filterMap_append, List.filterMap_append, Bus.filterMap_voiced hwrote,
      Bus.filterMap_voiced hwrote]
  · exact (Bus.voiced_sublist _).append_left _

open Sample in
/-- Two observers of which one always fails, on a batch with two machines and a fleet of one: all is
as if nobody listened, but for what the other shows and a warning for each event. -/
theorem broken_observer_unnoticed :
    let hosts := [hostAt "a" "http://a", hostAt "b" "http://b"]
    let bus : Bus := [.broken "x", .console]
    let batch := ((statusOfAll.withBus bus).run (.inTurn true) hosts).run Timeline.start
    let build := (Build.fleet vendors settings "p" (pure pair) [.byName "B"] (some bus)
      stamp).run.run BuildRecord.start
    let missing : RemoteError :=
      ⟨.clientError .get "http://b/redfish/v1/Systems/1" 404 "none", some "power_status", some "b"⟩
    (∀ h ∈ hosts, (statusOfAll.action h).Heedless) ∧
      batch.1 = .ok [⟨.str "a", "powerstatus", .ok (some "On")⟩,
        ⟨.str "b", "powerstatus", .failed missing⟩] ∧
      batch.2.contacts.length = 2 ∧ build.2.built.length = 1 ∧
      (∃ new, new.filterMap Effect.told? = batch.2.events ∧
        Interleaves [new, ((Observer.broken "x").stream [] batch.2.events).map .written,
          (Observer.console.stream [] batch.2.events).map .written] batch.2.trace) ∧
      ((Observer.broken "x").stream [] batch.2.events).length = 5 ∧
      (Observer.console.stream [] batch.2.events).length = 3 := by
  intro hosts bus batch build missing
  have heedless : ∀ h ∈ hosts, (statusOfAll.action h).Heedless := by
    intro h hh
    simp only [hosts, List.mem_cons, List.not_mem_nil, or_false] at hh
    rcases hh with rfl | rfl <;>
      exact Command.has_action (R := heedlessness) Redfish.System.heedless_client .powerStatus
  obtain ⟨⟨_, _, _, new, hbatch⟩, -, hothers⟩ := failing_observers_unnoticed heedless true
    Timeline.start vendors settings "p" (pure pair) [.byName "B"] stamp BuildRecord.start
  have hothers := hothers bus fun _ => true
  have hnobody : bus.filter (fun _ => !true) = [] := rfl
  rw [hnobody] at hothers
  obtain ⟨hout, hcontacts, -, -, -, hbuilt, -⟩ := hothers
  obtain ⟨added, hrun, hears⟩ := hbatch bus
  have hend : batch.2 = ⟨_, _, added⟩ := congrArg Prod.snd hrun
  have htrace : batch.2.trace = added := congrArg Timeline.trace hend
  rw [← htrace] at hears
  have heard := hears.notified
  exact ⟨heedless, hout.symm.trans rfl, (congrArg List.length hcontacts).symm.trans rfl,
    (congrArg List.length hbuilt).symm.trans rfl, ⟨new, heard⟩, by decide +kernel,
    by decide +kernel⟩

end OutOfBand
