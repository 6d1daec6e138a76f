import OutOfBand.CommandLine.Session
import OutOfBand.Proofs.Batch.Accounts
import OutOfBand.Proofs.Batch.Voices
import OutOfBand.Proofs.CommandLine.Loading
import OutOfBand.Proofs.Fleet.Discretion
import OutOfBand.Proofs.Fleet.Notices
import OutOfBand.Proofs.Fleet.Request
import OutOfBand.Proofs.Inventory.Listing
import OutOfBand.Proofs.Redfish.Heedless
import OutOfBand.Proofs.Yaml.Exactly

namespace OutOfBand

variable {τ γ α : Type}

namespace CommandLine

namespace Course

/-- Log lines as effects. -/
def linesOf (log : List LogLine) : List (Effect τ) := log.map fun l => .noted (.wrote (.log l))

theorem run_notes (log : List LogLine) (rest : Course τ α) (trace : List (Effect τ)) :
    (do for l in log do { Course.note (.log l) }; rest : Course τ α).run trace =
      rest.run (trace ++ linesOf log) := by
  induction log generalizing trace with
  | nil =>
    rw [linesOf, List.map_nil, List.append_nil]
    rfl
  | cons l log ih =>
    have step : (do for l in l :: log do { Course.note (.log l) }; rest : Course τ α).run trace =
        (do for l in log do { Course.note (.log l) }; rest : Course τ α).run
          (trace ++ [.noted (.wrote (.log l))]) := by
      rw [List.forIn_cons]
      simp only [bind_assoc, pure_bind]
      rfl
    rw [step, ih, List.append_assoc]
    rfl

theorem run_stop {e : BuildError} (he : e.isForeseen = true) (log : List LogLine)
    (trace : List (Effect τ)) :
    let report : Effect τ := .noted (.wrote (.err ("Error: " ++ e.message)))
    (stop log e : Course τ α).run trace =
      (.error .refused, trace ++ linesOf log ++ [report]) := by
  intro report
  rw [stop, if_pos he, run_notes]
  rfl

theorem trace_conclude (c : Course τ Unit) (log : Option RunLog) :
    (c.conclude log).trace = (c.run []).2 := by
  rw [conclude]
  rcases c.run [] with ⟨e | ⟨⟩, trace⟩ <;> rfl

theorem ending_conclude (c : Course τ Unit) (log : Option RunLog) :
    (c.conclude log).ending = match (c.run []).1 with
      | .ok () => .success
      | .error e => e := by
  rw [conclude]
  rcases c.run [] with ⟨e | ⟨⟩, trace⟩ <;> rfl

end Course

/-- The events that a command has told of. -/
def Conclusion.events (c : Conclusion τ) : List Event := eventsOf c.trace

namespace Session

/-- What the build of an order leaves behind. -/
def builtNotices (p : Means τ γ) (s : Surroundings τ) (v : Invocation) (o : HostOrder) :
    List Notice :=
  ((build p s v o).run.run BuildRecord.start).2.notices

section Built

variable (p : Means τ γ) (s : Surroundings τ) (v : Invocation) (o : HostOrder)

open Build in
theorem leaves_build : Leaves (some observers)
    (fun built => readyEvent (stamp s o built.1) built.2) (build p s v o) := by
  have hsettings : Writes Eq (logged .settings (settings s v) : Build γ Settings) :=
    writing.logged .settings (Agree.same _) rfl
  refine hsettings.leaves fun g => ?_
  exact (leaves_fleet p.vendors g o.phase _ o.selectors _).map fun _ => rfl

theorem eventsOf_built :
    match built p s v o with
    | .error _ => ∃ os : List Output, builtNotices p s v o = os.map .wrote
    | .ok (g, f) => eventsOf ((builtNotices p s v o).map .noted : List (Effect τ)) =
        [Build.readyEvent (stamp s o g) f] := by
  obtain ⟨os, hos⟩ := leaves_build p s v o BuildRecord.start
  rw [built, builtNotices]
  rcases hrun : (build p s v o).run.run BuildRecord.start with ⟨e | ⟨g, f⟩, record⟩ <;>
    rw [hrun] at hos
  · exact ⟨os, hos⟩
  · change record.notices = List.map .wrote os ++ _ at hos
    change eventsOf (record.notices.map .noted : List (Effect τ)) = _
    rw [eventsOf_noted, hos, List.filterMap_append, events_wrote, events_notices]
    rfl

theorem follows_built (lines : Log) {g : Settings} {f : Fleet γ} (h : built p s v o = .ok (g, f)) :
    observers.Follows [] (Course.linesOf lines ++ (builtNotices p s v o).map .noted :
      List (Effect τ)) := by
  obtain ⟨os, hos⟩ := leaves_build p s v o BuildRecord.start
  have hrun : (build p s v o).run.run BuildRecord.start = (.ok (g, f), _) := Prod.ext h rfl
  rw [hrun] at hos
  let before : List (Effect τ) := Course.linesOf lines ++ (os.map .wrote).map .noted
  let e := Build.readyEvent (stamp s o g) f
  have huntold : ∀ x ∈ before, x.told? = none := by
    intro x hx
    simp only [before, Course.linesOf, List.mem_append, List.mem_map] at hx
    rcases hx with ⟨l, -, rfl⟩ | ⟨n, ⟨w, -, rfl⟩, rfl⟩ <;> rfl
  have hearlier : Bus.notices (some observers) (os.map .wrote) e =
      Bus.notices (some observers) (before.filterMap Effect.notice?) e := by
    rw [Bus.notices, Bus.notices, notices_told, eventsOf_eq, List.filterMap_eq_nil_iff.mpr huntold,
      events_wrote]
  have hnotices : builtNotices p s v o =
      os.map .wrote ++ Bus.notices (some observers) (os.map .wrote) e := hos
  have hbefore : observers.Follows [] ([] ++ before) := .of_untold huntold
  rw [hnotices, List.map_append, ← List.append_assoc, hearlier]
  exact hbefore.trans (.notices observers before e)

variable {p s v o}

open Build in
theorem apart_of_built {g : Settings} {f : Fleet γ} (h : built p s v o = .ok (g, f)) :
    Value.Apart f.names := by
  have hrun : (build p s v o).run.run BuildRecord.start = (.ok (g, f), _) := Prod.ext h rfl
  obtain ⟨g', r, -, hrun⟩ := run_bind_eq_ok hrun
  obtain ⟨f', r', hfleet, hrun⟩ := run_bind_eq_ok hrun
  cases hrun
  have hends : outcome p.vendors g (g.bundleOf s.machine o.phase) o.selectors = .ok f :=
    (ends_fleet _ _ _ r).symm.trans (congrArg Prod.fst hfleet)
  exact apart_names_of_outcome hends

end Built

theorem full_mode (s : Surroundings τ) (o : HostOrder) : (mode s o).Full := by
  rw [mode]
  split
  next => exact .sideBySide none s.schedule
  next => exact .inTurn

variable [Seconds τ]

theorem run_runBatch (p : Means τ γ) (s : Surroundings τ) (o : HostOrder) (g : Settings)
    (f : Fleet γ) (trace : List (Effect τ)) :
    let out := ((batch s o g).run (mode s o) (f.hosts.map p.connect)).run
      { Timeline.start with trace := trace }
    (runBatch p s o g f).run trace = match out.1 with
      | .error e => (.error (.broke (.call e)), out.2.trace)
      | .ok rs => (if rs.any fun r => !r.outcome.isOk then .error .hostFailed else .ok (),
          out.2.trace) := by
  intro out
  have hrun : (runBatch p s o g f).run trace = (match out.1 with
      | .error e => (throw (Ending.broke (.call e)) : Course τ Unit)
      | .ok rs => if rs.any fun r => !r.outcome.isOk then throw Ending.hostFailed else pure ()).run
        out.2.trace := rfl
  rw [hrun]
  cases out.1 with
  | error e => rfl
  | ok rs =>
    dsimp only
    split <;> rfl

theorem run_runHosts (p : Means τ γ) (s : Surroundings τ) (v : Invocation) (o : HostOrder)
    (log : RunLog) :
    let trace := Course.linesOf log.opening ++ (builtNotices p s v o).map .noted
    (runHosts p s v o log).run [] = match built p s v o with
      | .error e => (Course.stop [buildFailed] e : Course τ Unit).run trace
      | .ok (g, f) => (runBatch p s o g f).run trace := by
  intro trace
  rw [runHosts, Course.run_notes]
  unfold trace built builtNotices
  rcases (build p s v o).run.run BuildRecord.start with ⟨e | ⟨g, f⟩, record⟩ <;> rfl

/-- A batch on a fleet gives an account of its hosts and then the sums, and the host that has failed
decides how it ends. -/
theorem account_of_runBatch {p : Means τ γ} (silent : ∀ k, (p.client k).Silent)
    (s : Surroundings τ) (o : HostOrder) (g : Settings) {f : Fleet γ} (apart : Value.Apart f.names)
    (trace : List (Effect τ)) :
    ∃ mixed, Account (stamp s o g) o.command.name f.names mixed ∧
      eventsOf ((runBatch p s o g f).run trace).2 = eventsOf trace ++ mixed ++
        [⟨stamp s o g, .summary o.command.name (mixed.countP Event.isSuccess)
          (mixed.countP Event.isFailure) 0⟩] ∧
      ((runBatch p s o g f).run trace).1 =
        if allSucceed f.names mixed then .ok () else .error .hostFailed := by
  let b := batch s o g
  let hosts := f.hosts.map p.connect
  have silent_hosts : ∀ h ∈ hosts, (b.action h).Silent := by
    intro h hh
    obtain ⟨k, -, rfl⟩ := List.mem_map.mp hh
    exact o.command.silent_action (silent k.client)
  obtain ⟨rs, stories, mixed, hout, hends, hmixed, hevents⟩ :=
    Batch.events_run silent_hosts (full_mode s o) { Timeline.start with trace := trace }
  have names : hosts.map (·.name) = f.names := by
    rw [List.map_map]
    rfl
  rw [← names] at apart ⊢
  have account := hends.account rfl hmixed apart
  have hok := hends.all_isOk rfl hmixed apart
  have hsuccess : mixed.countP Event.isSuccess = Batch.count Outcome.isOk rs := by
    rw [hmixed.perm_flatten.countP_eq]
    exact hends.countP_eq fun _ _ _ h => h.countP_isSuccess rfl
  have hfailure : mixed.countP Event.isFailure = Batch.count Outcome.isFailed rs := by
    rw [hmixed.perm_flatten.countP_eq]
    exact hends.countP_eq fun _ _ _ h => h.countP_isFailure rfl
  have hsummary : b.heard (b.summary rs) = [⟨stamp s o g, .summary o.command.name
      (mixed.countP Event.isSuccess) (mixed.countP Event.isFailure) 0⟩] := by
    rw [Batch.summary, hends.count_isSkipped, ← hsuccess, ← hfailure]
    rfl
  have hrun := run_runBatch p s o g f trace
  dsimp only at hrun
  rw [hout] at hrun
  refine ⟨mixed, account, ?_, ?_⟩
  · rw [hrun, ← hsummary]
    exact hevents
  · rw [hrun]
    have hany : (rs.any fun r => !r.outcome.isOk) = !allSucceed (hosts.map (·.name)) mixed := by
      rw [← hok, List.any_eq_not_all_not]
      simp
    simp only [hany]
    cases allSucceed (hosts.map (·.name)) mixed <;> rfl

/-- Observers follow a batch, whatever its clients do, if these voice what they tell. -/
theorem follows_runBatch {p : Means τ γ} (voices : ∀ k, (p.client k).Has (Run.voicing observers))
    (s : Surroundings τ) (o : HostOrder) (g : Settings) (f : Fleet γ) (trace : List (Effect τ)) :
    observers.Follows trace ((runBatch p s o g f).run trace).2 := by
  have hhosts : ∀ h ∈ f.hosts.map p.connect, ((batch s o g).action h).Voices observers := by
    intro h hh
    obtain ⟨k, -, rfl⟩ := List.mem_map.mp hh
    have hclient : (p.connect k).client.Has (Run.voicing observers) := voices k.client
    exact Command.has_action hclient o.command
  have hvoices : ((batch s o g).run (mode s o) (f.hosts.map p.connect)).Voices observers :=
    Batch.voices_run rfl hhosts (mode s o)
  have hbatch := hvoices.run { Timeline.start with trace := trace }
  have hrun := run_runBatch p s o g f trace
  dsimp only at hrun
  rw [hrun]
  split
  next => exact hbatch
  next => exact hbatch

/-- Two machines side by side, the second of which is not there and has all turns. -/
example :
    let host (name base : String) : Host (Redfish.System Int) :=
      ⟨.str name, base, Sample.machineAt base, ⟨"admin", "pw"⟩⟩
    let f : Fleet _ := ⟨Sample.management, [host "a" "http://a", host "b" "http://b"]⟩
    let s : Surroundings Int :=
      ⟨default, default, Sample.oneService, fun _ => 0, List.replicate 9 1⟩
    let left :=
      (runBatch (means s) s ⟨.powerStatus, none, none, "p", none, true⟩ Sample.settings f).run []
    left.1 = .error .hostFailed ∧ (eventsOf left.2).map Event.name =
      ["HostOperationStarted", "HostOperationFailed", "HostOperationStarted",
        "HostOperationSucceeded", "BatchSummary"] := ⟨rfl, rfl⟩

section Run

variable {p : Means τ γ} {s : Surroundings τ} {v : Invocation} {o : HostOrder}
  (order : v.order = .hosts o)

include order

theorem run_of_no_log {fault : LogFault} (hlog : openLog s v = .error fault) :
    runWith p s v = ⟨.broke (.log fault), none, []⟩ := by
  rw [runWith, order]
  dsimp only
  rw [hlog]

theorem run_of_log {log : RunLog} (hlog : openLog s v = .ok log) :
    runWith p s v = (runHosts p s v o log).conclude log := by
  rw [runWith, order]
  dsimp only
  rw [hlog]

/-- Without a fleet a command is refused, and nothing but lines is left of it. -/
theorem run_of_not_built {log : RunLog} (hlog : openLog s v = .ok log) {e : BuildError}
    (hb : built p s v o = .error e) (he : e.isForeseen = true) :
    (runWith p s v).ending = .exit 2 ∧ ∀ x ∈ (runWith p s v).trace, ∃ w, x = .noted (.wrote w) := by
  have hrun := run_runHosts p s v o log
  rw [hb] at hrun
  have hleft := eventsOf_built p s v o
  rw [hb] at hleft
  obtain ⟨os, hos⟩ := hleft
  have hstop := hrun.trans (Course.run_stop he [buildFailed] _)
  rw [run_of_log order hlog, Course.trace_conclude, Course.ending_conclude, hstop]
  refine ⟨rfl, fun x hx => ?_⟩
  simp only [hos, Course.linesOf, List.mem_append, List.mem_map, List.mem_singleton] at hx
  rcases hx with ((⟨l, -, rfl⟩ | ⟨n, ⟨w, -, rfl⟩, rfl⟩) | ⟨l, -, rfl⟩) | rfl
  · exact ⟨_, rfl⟩
  · exact ⟨w, rfl⟩
  · exact ⟨_, rfl⟩
  · exact ⟨_, rfl⟩

/-- Observers follow a command that is refused for no other reason than is foreseen. -/
theorem follows_run (voices : ∀ k, (p.client k).Has (Run.voicing observers))
    (foreseen : ∀ e, built p s v o = .error e → e.isForeseen = true) :
    observers.Follows [] (runWith p s v).trace := by
  cases hlog : openLog s v with
  | error fault =>
    rw [run_of_no_log order hlog]
    exact .refl observers []
  | ok log =>
    cases hb : built p s v o with
    | error e =>
      obtain ⟨-, hwritten⟩ := run_of_not_built order hlog hb (foreseen e hb)
      refine .of_untold fun x hx => ?_
      obtain ⟨w, rfl⟩ := hwritten x hx
      rfl
    | ok q =>
      have hrun := run_runHosts p s v o log
      rw [hb] at hrun
      rw [run_of_log order hlog, Course.trace_conclude, hrun]
      exact (follows_built p s v o log.opening hb).trans (follows_runBatch voices s o q.1 q.2 _)

variable (silent : ∀ k, (p.client k).Silent)

include silent

/-- With a fleet a command tells that it is ready, gives an account of its hosts and ends with the
sums. -/
theorem run_of_built {log : RunLog} (hlog : openLog s v = .ok log) {g : Settings}
    {f : Fleet γ} (hb : built p s v o = .ok (g, f)) :
    ∃ mixed, Account (stamp s o g) o.command.name f.names mixed ∧
      (runWith p s v).events = ⟨stamp s o g, .ready f.management.type f.names⟩ :: mixed ++
        [⟨stamp s o g, .summary o.command.name (mixed.countP Event.isSuccess)
          (mixed.countP Event.isFailure) 0⟩] ∧
      (runWith p s v).ending = if allSucceed f.names mixed then .exit 0 else .exit 1 := by
  let trace : List (Effect τ) :=
    Course.linesOf log.opening ++ (builtNotices p s v o).map .noted
  have hrun : (runHosts p s v o log).run [] = (runBatch p s o g f).run trace := by
    have h := run_runHosts p s v o log
    rw [hb] at h
    exact h
  have hready : eventsOf trace = [⟨stamp s o g, .ready f.management.type f.names⟩] := by
    have h := eventsOf_built p s v o
    rw [hb] at h
    exact (eventsOf_append _ _).trans h
  obtain ⟨mixed, account, hevents, hending⟩ :=
    account_of_runBatch silent s o g (apart_of_built hb) trace
  rw [hready, ← hrun] at hevents
  rw [← hrun] at hending
  rw [run_of_log order hlog, Conclusion.events, Course.trace_conclude, Course.ending_conclude,
    hending]
  refine ⟨mixed, account, hevents, ?_⟩
  cases allSucceed f.names mixed <;> rfl

/-- The exit code of a command for hosts agrees with what it tells, whichever silent clients it
works with. It is two just where no fleet is built, and then nobody is told of anything and no
client is called. With a fleet, observers are told first which hosts it has, then of one start and
one end of every host, and last the sums, all under one stamp; and the exit code is zero if every
host has succeeded, and one otherwise. Each observer is notified of all events, in their order. -/
theorem exit_code_agrees (voices : ∀ k, (p.client k).Has (Run.voicing observers))
    (foreseen : ∀ e, built p s v o = .error e → e.isForeseen = true) :
    let c := runWith p s v
    (∃ done, done.filterMap Effect.told? = c.events ∧ Interleaves
      (done :: observers.map fun observer => (observer.stream [] c.events).map .written) c.trace) ∧
    (c.ending = .exit 2 ↔ (∃ log, openLog s v = .ok log) ∧ ∃ e, built p s v o = .error e) ∧
    (c.ending = .exit 2 → ∀ x ∈ c.trace, ∃ w, x = .noted (.wrote w)) ∧
    ∀ log g f, openLog s v = .ok log → built p s v o = .ok (g, f) →
      Value.Apart f.names ∧ ∃ mixed, Account (stamp s o g) o.command.name f.names mixed ∧
        c.events = ⟨stamp s o g, .ready f.management.type f.names⟩ :: mixed ++
          [⟨stamp s o g, .summary o.command.name (mixed.countP Event.isSuccess)
            (mixed.countP Event.isFailure) 0⟩] ∧
        c.ending = if allSucceed f.names mixed then .exit 0 else .exit 1 := by
  intro c
  have unlogged : ∀ fault, openLog s v = .error fault → c.ending ≠ .exit 2 := by
    intro fault hlog
    rw [show c = _ from run_of_no_log order hlog]
    simp
  have ready : ∀ log g f, openLog s v = .ok log → built p s v o = .ok (g, f) →
      c.ending ≠ .exit 2 := by
    intro log g f hlog hb
    obtain ⟨mixed, -, -, hending⟩ := run_of_built order silent hlog hb
    rw [show c.ending = _ from hending]
    split <;> simp
  have refused : c.ending = .exit 2 →
      ∃ log e, openLog s v = .ok log ∧ built p s v o = .error e := by
    intro hending
    cases hlog : openLog s v with
    | error fault => exact absurd hending (unlogged fault hlog)
    | ok log =>
      cases hb : built p s v o with
      | error e => exact ⟨log, e, rfl, rfl⟩
      | ok q => exact absurd hending (ready log q.1 q.2 hlog hb)
  obtain ⟨done, hears⟩ := (follows_run order voices foreseen).hears
  refine ⟨⟨done, hears.notified⟩, ⟨fun hending => ?_, ?_⟩, fun hending => ?_,
    fun log g f hlog hb => ?_⟩
  · obtain ⟨log, e, hlog, hb⟩ := refused hending
    exact ⟨⟨log, hlog⟩, e, hb⟩
  · rintro ⟨⟨log, hlog⟩, e, hb⟩
    exact (run_of_not_built order hlog hb (foreseen e hb)).1
  · obtain ⟨log, e, hlog, hb⟩ := refused hending
    exact (run_of_not_built order hlog hb (foreseen e hb)).2
  · exact ⟨apart_of_built hb, run_of_built order silent hlog hb⟩

end Run

end Session

end CommandLine

namespace Sample

open CommandLine

/-- A machine without files. -/
def bare : Surroundings Int := { nowhere with machine := ⟨.folder [], ⟨"/", []⟩, [], Yaml.reader⟩ }

def askAll : HostOrder := ⟨.powerStatus, none, none, "p", none, true⟩

def asked : Invocation := ⟨none, false, .hosts askAll⟩

def entries (es : List (String × Value)) : Value := .map (es.map fun e => (.str e.1, e.2))

/-- A document under a kind and a name. -/
def named (kind name : String) (rest : List (String × Value)) : Value :=
  entries (("kind", .str kind) :: ("metadata", entries [("name", .str name)]) :: rest)

def oneContextText : String :=
  "currentContext: c\ncontexts: {c: {}}\nmanifests: {default: {targetPath: /t}}\n" ++
    "managementConfiguration: {default: {}}"

def onePhaseText : String := "kind: Phase\nmetadata: {name: p}\nconfig: {documentEntryPoint: d}"

def oneHostText : String := "kind: BareMetalHost\nmetadata: {name: a}\n" ++
  "spec: {bmc: {address: http://a/1, credentialsName: s}}"

def oneSecretText : String := "kind: Secret\nmetadata: {name: s}\n" ++
  "stringData: {username: u, password: w}"

/-- A machine with a settings file, a folder of phases, and one of documents. -/
def machineWith (settings : String) (phases documents : List (String × String)) : Machine :=
  ⟨.folder [(".metalctl", .folder [("config.yaml", .file settings.toUTF8)]),
      ("t", .folder [("phases", .ofTexts phases), ("d", .ofTexts documents)])],
    ⟨"/", []⟩, [], Yaml.reader⟩

theorem lookup?_machineWith (settings : String) (phases documents : List (String × String)) :
    let m := machineWith settings phases documents
    m.lookup? ⟨"/", [".metalctl", "config.yaml"]⟩ = some (.file settings.toUTF8) ∧
      m.lookup? ⟨"/", ["t", "phases"]⟩ = some (.ofTexts phases) ∧
      m.lookup? ⟨"/", ["t", "d"]⟩ = some (.ofTexts documents) := by
  simp [machineWith, Machine.lookup?, Path.isAbsolute, Tree.walk?, Tree.isFile, Tree.find?,
    Tree.entries]

/-- One host, which is there and shows that it is on. -/
def staffed : Surroundings Int where
  machine := machineWith oneContextText [("p.yaml", onePhaseText)]
    [("h.yaml", oneHostText), ("s.yaml", oneSecretText)]
  occasion := default
  network _ _ := ⟨.response ⟨200, "", [], some (Redfish.payload [("PowerState", .str "On")])⟩, 1,
    false⟩
  seconds _ := 1

def staffedSettings : Settings :=
  ⟨"c", [("c", ⟨"default", "default"⟩)], [("default", ⟨"/t", "phases", ""⟩)],
    [("default", Management.standard)]⟩

def staffedPhases : Phases := ⟨staffed.machine, ⟨"/t", "phases", ""⟩, ⟨"/", ["t"]⟩⟩

def loadedPhase : Document :=
  ⟨named "Phase" "p" [("config", entries [("documentEntryPoint", .str "d")])],
    some ⟨"/", ["t", "phases", "p.yaml"]⟩⟩

def loadedHost : Document :=
  ⟨named "BareMetalHost" "a" [("spec", entries [("bmc", entries [("address", .str "http://a/1"),
    ("credentialsName", .str "s")])])], some ⟨"/", ["t", "d", "h.yaml"]⟩⟩

def loadedSecret : Document :=
  ⟨named "Secret" "s" [("stringData", entries [("username", .str "u"), ("password", .str "w")])],
    some ⟨"/", ["t", "d", "s.yaml"]⟩⟩

theorem settings_staffed : ((Session.settings staffed asked).run []).1 = .ok staffedSettings := by
  have hvalue : Yaml.load oneContextText = .ok (entries [("currentContext", .str "c"),
      ("contexts", entries [("c", entries [])]),
      ("manifests", entries [("default", entries [("targetPath", .str "/t")])]),
      ("managementConfiguration", entries [("default", entries [])])]) :=
    Yaml.load_of_isExactly (by decide +kernel)
  have hplain : Variables.expand staffed.machine.setting? oneContextText = oneContextText := by
    decide +kernel
  rw [← hplain] at hvalue
  exact Settings.load_of_value rfl (lookup?_machineWith _ _ _).1
    (textOfBytes?_toUTF8 (by decide +kernel)) hvalue rfl rfl

theorem ofPath_staffedPhases :
    Bundle.ofPath staffed.machine staffedPhases.folder = .ok ⟨[loadedPhase]⟩ := by
  have hfolder : staffedPhases.folder = ⟨"/", ["t", "phases"]⟩ := by decide +kernel
  have hload : Yaml.loadAll onePhaseText = .ok [loadedPhase.raw] :=
    Yaml.loadAll_of_areExactly (by decide +kernel)
  have hyields : Bundle.Yields Yaml.reader (⟨"/", ["t", "phases", "p.yaml"]⟩, onePhaseText.toUTF8)
      [loadedPhase] :=
    Bundle.yields_of_one (by decide +kernel) hload ⟨_, .str "Phase", rfl, rfl, rfl⟩
  have hfiles : List.Forall₂ (fun f ds => Bundle.Yields Yaml.reader
      ((Path.mk "/" ["t", "phases"]).join ⟨"", [f.1]⟩, f.2.toUTF8) ds) [("p.yaml", onePhaseText)]
      [[loadedPhase]] := .cons hyields .nil
  rw [hfolder]
  exact Bundle.ofPath_ofTexts (lookup?_machineWith _ _ _).2.1 (by decide) (by decide) hfiles

theorem ofPath_staffed :
    Bundle.ofPath staffed.machine ⟨"/", ["t", "d"]⟩ = .ok ⟨[loadedHost, loadedSecret]⟩ := by
  have hhost : Yaml.loadAll oneHostText = .ok [loadedHost.raw] :=
    Yaml.loadAll_of_areExactly (by decide +kernel)
  have hsecret : Yaml.loadAll oneSecretText = .ok [loadedSecret.raw] :=
    Yaml.loadAll_of_areExactly (by decide +kernel)
  have hyields : Bundle.Yields Yaml.reader (⟨"/", ["t", "d", "h.yaml"]⟩, oneHostText.toUTF8)
      [loadedHost] :=
    Bundle.yields_of_one (by decide +kernel) hhost ⟨_, .str "BareMetalHost", rfl, rfl, rfl⟩
  have hyields' : Bundle.Yields Yaml.reader (⟨"/", ["t", "d", "s.yaml"]⟩, oneSecretText.toUTF8)
      [loadedSecret] :=
    Bundle.yields_of_one (by decide +kernel) hsecret ⟨_, .str "Secret", rfl, rfl, rfl⟩
  have hfiles : List.Forall₂ (fun f ds => Bundle.Yields Yaml.reader
      ((Path.mk "/" ["t", "d"]).join ⟨"", [f.1]⟩, f.2.toUTF8) ds)
      [("h.yaml", oneHostText), ("s.yaml", oneSecretText)] [[loadedHost], [loadedSecret]] :=
    .cons hyields (.cons hyields' .nil)
  exact Bundle.ofPath_ofTexts (lookup?_machineWith _ _ _).2.2 (by decide) (by decide) hfiles

open Session in
theorem exists_fleet_staffed : ∃ f,
    built (means staffed) staffed asked askAll = .ok (staffedSettings, f) ∧ f.names = [.str "a"] ∧
      f.management.type = "redfish" ∧
      ∀ trace, ((runBatch (means staffed) staffed askAll staffedSettings f).run trace).1 =
        .ok () := by
  obtain ⟨f, hf⟩ : ∃ f, askAll.selectors.mapM (Host.ofSelector (means staffed).vendors
      Management.standard ⟨[loadedHost, loadedSecret]⟩) >>= Build.result Management.standard =
        .ok f := ⟨_, rfl⟩
  refine ⟨f, ?_, ?_⟩
  · rw [built_of_loaded settings_staffed rfl rfl ofPath_staffedPhases rfl ofPath_staffed rfl rfl,
      hf]
    rfl
  · cases hf
    exact ⟨rfl, rfl, fun _ => rfl⟩

end Sample

open Sample CommandLine Session in
/-- A command is refused where there are no settings, before anything is told. Where there are some,
and one host that answers, every observer is told of all that it does, and it succeeds. -/
theorem exit_code_agrees_for_one_host :
    let c := Session.run staffed asked
    let run := stamp staffed askAll staffedSettings
    (∀ (s : Surroundings Int) k, ((means s).client k).Silent) ∧
    ((∃ e, built (means bare) bare asked askAll = .error e ∧ e.isForeseen = true) ∧
      (Session.run bare asked).ending = .exit 2 ∧
      ∀ x ∈ (Session.run bare asked).trace, ∃ w, x = .noted (.wrote w)) ∧
    ∃ f ms shown, built (means staffed) staffed asked askAll = .ok (staffedSettings, f) ∧
      c.ending = .exit 0 ∧
      c.events = [⟨run, .ready "redfish" [.str "a"]⟩, ⟨run, .started (.str "a") "powerstatus"⟩,
        ⟨run, .succeeded (.str "a") "powerstatus" ms shown⟩,
        ⟨run, .summary "powerstatus" 1 0 0⟩] ∧
      ∃ done, done.filterMap Effect.told? = c.events ∧ Interleaves
        (done :: observers.map fun observer => (observer.stream [] c.events).map .written)
        c.trace := by
  intro c run
  have silent (s : Surroundings Int) : ∀ k, ((means s).client k).Silent :=
    fun _ => Redfish.System.silent_client
  have voices (s : Surroundings Int) : ∀ k, ((means s).client k).Has (Run.voicing observers) :=
    fun _ => Redfish.System.voicing_client observers
  have order : asked.order = .hosts askAll := rfl
  refine ⟨silent, ?_, ?_⟩
  · have hb : built (means bare) bare asked askAll =
        .error (.settings (.noFile ⟨"/", [".metalctl", "config.yaml"]⟩)) := rfl
    have foreseen : ∀ e, built (means bare) bare asked askAll = .error e →
        e.isForeseen = true := by
      intro e he
      cases hb.symm.trans he
      rfl
    obtain ⟨-, hcode, hwritten, -⟩ := exit_code_agrees order (silent bare) (voices bare) foreseen
    have hending := hcode.mpr ⟨⟨_, rfl⟩, _, hb⟩
    exact ⟨⟨_, hb, rfl⟩, hending, hwritten hending⟩
  · obtain ⟨f, hb, hnames, hmanagement, hsuccess⟩ := exists_fleet_staffed
    have foreseen : ∀ e, built (means staffed) staffed asked askAll = .error e →
        e.isForeseen = true := by
      intro e he
      cases hb.symm.trans he
    obtain ⟨log, hlog⟩ : ∃ log, openLog staffed asked = .ok log := ⟨_, rfl⟩
    obtain ⟨hheard, -, -, hbuilt⟩ :=
      exit_code_agrees order (silent staffed) (voices staffed) foreseen
    obtain ⟨-, mixed, account, hevents, hending⟩ := hbuilt log staffedSettings f hlog hb
    have hgood : c.ending = .exit 0 := by
      have hrun := run_runHosts (means staffed) staffed asked askAll log
      rw [hb] at hrun
      rw [show c = _ from run_of_log order hlog, Course.ending_conclude, hrun]
      dsimp only
      rw [hsuccess]
      rfl
    have hall : allSucceed [.str "a"] mixed = true := by
      by_contra hnot
      rw [hnames, if_neg hnot] at hending
      exact absurd (hgood.symm.trans hending) (by simp)
    rw [hnames] at account hevents
    obtain ⟨ms, shown, rfl⟩ := account.eq_of_one rfl hall
    rw [hmanagement] at hevents
    exact ⟨f, ms, shown, hb, hgood, hevents, hheard⟩

end OutOfBand
