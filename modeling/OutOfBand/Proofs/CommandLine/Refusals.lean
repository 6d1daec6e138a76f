import OutOfBand.Proofs.CommandLine.ExitCodes
import OutOfBand.Proofs.Fleet.Course
import OutOfBand.Proofs.Redfish.Address

namespace OutOfBand

variable {γ τ : Type}

open Redfish

namespace Build

variable {v : Vendors γ} {s : Settings} {phase : String} {bundle : Logged PhaseError Bundle}
  {ss : List HostSelector} {bus : Option Bus} {stamp : Stamp} {r : BuildRecord γ}

theorem stops_of_fleet {e : BuildError}
    (h : ((fleet v s phase bundle ss bus stamp).run.run r).1 = .error e) :
    ∃ visited cs, Stops v s bundle ss e visited cs := by
  obtain ⟨steps, o, visited, cs, -, ⟨reached, hreaches, -⟩, hrun⟩ := run_fleet v s phase bundle ss
  rw [hrun bus stamp r] at h
  obtain rfl : o = .error e := h
  exact ⟨reached, cs, hreaches⟩

theorem address_of_clientOf {m : Management} {b : Bundle} {d : Document} {e : InvalidAddress}
    (h : Host.clientOf v m b d = .error (.address e)) :
    ∃ text make spec, Controller.address d = .ok text ∧ v.constructor? m.type = some make ∧
      spec.address = text ∧ make spec = .error e := by
  simp only [Host.clientOf, bind_eq_error_iff, mapError_eq_error_iff, mapError_eq_ok_iff,
    reduceCtorEq, and_false, exists_false, false_or, BuildError.address.injEq] at h
  obtain ⟨text, haddress, c, -, make, hmake, e', hfails, rfl⟩ := h
  exact ⟨text, make, m.specOf text c.username c.password, haddress,
    Vendors.find_eq_ok_iff.mp hmake, rfl, hfails⟩

theorem address_of_fleet {seconds : Float → τ} {r : BuildRecord (System τ)} {e : InvalidAddress}
    (h : ((fleet (Vendors.builtIn seconds) s phase bundle ss bus stamp).run.run r).1 =
      .error (.address e)) :
    ∃ b, (bundle.run []).1 = .ok b ∧ ∃ d ∈ b.documents, d.isHost = true ∧
      Controller.address d = .ok e.address ∧ Address.parse e.address = .error e := by
  obtain ⟨visited, cs, hstops⟩ := stops_of_fleet h
  cases hstops with
  | @selector m b _ pre post t _ cs' hm hb hss hpre ht =>
    cases ht with
    | @client _ pre post d _ hsplit hmade hd =>
      have hpicked : d ∈ t.picked b := by simp [hsplit]
      obtain ⟨hmem, hpicks⟩ := HostSelector.mem_picked.mp hpicked
      have hhost : d.isHost = true := (Bool.and_eq_true_iff.mp hpicks).1
      obtain ⟨_, make, spec, haddress, hmake, rfl, hfails⟩ := address_of_clientOf hd
      obtain ⟨dialect, rfl⟩ := Vendors.dialect_of_builtIn hmake
      have hparse : Address.parse spec.address = .error e := by
        obtain hparse | ⟨a, -, hmade⟩ := bind_eq_error_iff.mp hfails
        · exact hparse
        · cases hmade
      have he := (Address.isForeseen_iff_of_parse hparse).1
      rw [← he] at haddress hparse
      exact ⟨b, hb, d, hmem, hhost, haddress, hparse⟩

end Build

namespace CommandLine

theorem Course.run_stop_of_unforeseen {α : Type} {e : BuildError} (he : e.isForeseen = false)
    (log : List LogLine) (trace : List (Effect τ)) :
    (stop log e : Course τ α).run trace = (.error (.broke (.build e)), trace) := by
  rw [stop, he]
  rfl

namespace Session

variable {p : Means τ γ} {s : Surroundings τ} {v : Invocation} {o : HostOrder}

open Build in
theorem fleet_of_built {e : InvalidAddress} (h : built p s v o = .error (.address e)) :
    ∃ g r, ((fleet p.vendors g o.phase (g.bundleOf s.machine o.phase) o.selectors (some observers)
      (stamp s o g)).run.run r).1 = .error (.address e) := by
  rw [built, build, run_bind] at h
  split at h
  next g r hg =>
    refine ⟨g, r, ?_⟩
    rw [run_bind] at h
    split at h
    next => cases h
    next e' r' hfleet =>
      obtain rfl : e' = .address e := Except.error.inj h
      exact congrArg Prod.fst hfleet
  next e' r' hg =>
    obtain rfl : e' = .address e := Except.error.inj h
    have hends := ends_logged (γ := γ) .settings (settings s v) BuildRecord.start
    rw [hg] at hends
    obtain ⟨e'', -, he⟩ := mapError_eq_error_iff.mp hends.symm
    cases he

variable [Seconds τ]

theorem ending_of_unforeseen (order : v.order = .hosts o) {log : RunLog}
    (hlog : openLog s v = .ok log) {e : BuildError} (hb : built p s v o = .error e)
    (he : e.isForeseen = false) : (runWith p s v).ending = .broke (.build e) := by
  have hrun := run_runHosts p s v o log
  rw [hb] at hrun
  rw [run_of_log order hlog, Course.ending_conclude,
    hrun.trans (Course.run_stop_of_unforeseen he [buildFailed] _)]

/-- An address fails, if at all, as one that is refused, unless its authority is broken. A fleet
fails with an address only as that address fails, and it is the one of a host; and a command that
fails with it is refused, unless the authority is broken. -/
theorem refused_for_address :
    (∀ text e, Address.parse text = .error e →
      (e.isForeseen = true ↔ Url.checkAuthority (Url.parts text.toList).authority = .ok ())) ∧
    (∀ (seconds : Float → τ) (g : Settings) phase bundle ss bus stamp r e,
      ((Build.fleet (Vendors.builtIn seconds) g phase bundle ss bus stamp).run.run r).1 =
        .error (.address e) →
      ∃ b, (bundle.run []).1 = .ok b ∧ ∃ d ∈ b.documents, d.isHost = true ∧
        Controller.address d = .ok e.address ∧ Address.parse e.address = .error e) ∧
    ∀ (s : Surroundings τ) v o log e, v.order = .hosts o → openLog s v = .ok log →
      built (means s) s v o = .error (.address e) →
      (Url.checkAuthority (Url.parts e.address.toList).authority = .ok () →
        (run s v).ending = .exit 2) ∧
      (Url.checkAuthority (Url.parts e.address.toList).authority ≠ .ok () →
        (run s v).ending = .broke (.build (.address e))) := by
  refine ⟨fun text e h => (Address.isForeseen_iff_of_parse h).2,
    fun _ _ _ _ _ _ _ _ _ => Build.address_of_fleet, fun s v o log e order hlog hb => ?_⟩
  obtain ⟨g, r, hfleet⟩ := fleet_of_built hb
  obtain ⟨b, -, d, -, -, -, hparse⟩ := Build.address_of_fleet hfleet
  have hforeseen := (Address.isForeseen_iff_of_parse hparse).2
  constructor
  · intro hauthority
    exact (run_of_not_built order hlog hb (hforeseen.mpr hauthority)).1
  · intro hbroken
    have he : e.isForeseen = false := by simpa using mt hforeseen.mp hbroken
    exact ending_of_unforeseen order hlog hb he

end Session

end CommandLine

open Address in
/-- A bracket without its counterpart is not refused. -/
theorem parse_of_unpaired_bracket :
    let e : InvalidAddress :=
      ⟨"redfish+https://[10.0.0.1/redfish/v1/Systems/1", .badUrl .unpairedBracket⟩
    parse "redfish+https://[10.0.0.1/redfish/v1/Systems/1" = .error e ∧ e.isForeseen = false := by
  decide

open Sample CommandLine in
/-- An authority that is missing is refused, and a broken one is not. -/
theorem refused_for_address_of_host :
    let built (ns : String) := ((Build.fleet (Vendors.builtIn nowhere.seconds) settings "p"
      (pure ⟨[host ns "A" [], secret ns "u"]⟩) [.byName "A"] none stamp).run.run
        BuildRecord.start).1
    (∃ e, built "" = .error (.address e) ∧ e.isForeseen = true ∧
      Address.parse "redfish:///redfish/v1/Systems/1" = .error e) ∧
    ∃ e, built "[m" = .error (.address e) ∧ e.isForeseen = false ∧
      Address.parse "redfish://[m/redfish/v1/Systems/1" = .error e := by
  intro built
  obtain ⟨hparse, hfleet, -⟩ := Session.refused_for_address (τ := Int)
  have hmissing : built "" =
      .error (.address ⟨"redfish:///redfish/v1/Systems/1", .missingHost⟩) := rfl
  have hbroken : built "[m" =
      .error (.address ⟨"redfish://[m/redfish/v1/Systems/1", .badUrl .unpairedBracket⟩) := rfl
  obtain ⟨-, -, -, -, -, -, hrefused⟩ := hfleet _ _ _ _ _ _ _ _ _ hmissing
  obtain ⟨-, -, -, -, -, -, hfails⟩ := hfleet _ _ _ _ _ _ _ _ _ hbroken
  refine ⟨⟨_, hmissing, (hparse _ _ hrefused).mpr (by decide), hrefused⟩, _, hbroken, ?_, hfails⟩
  exact eq_false_of_ne_true fun hforeseen =>
    absurd ((hparse _ _ hfails).mp hforeseen) (by decide)

end OutOfBand
