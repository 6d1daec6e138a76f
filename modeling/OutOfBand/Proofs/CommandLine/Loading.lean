import OutOfBand.CommandLine.Session
import OutOfBand.Proofs.Fleet.Hosts
import OutOfBand.Proofs.Report.Logging

namespace OutOfBand

variable {γ τ : Type}

open Logged

theorem Phases.machine_of_ofManifest {m : Machine} {manifest : Manifest} {p : Phases}
    (h : ofManifest m manifest = .ok p) : p.machine = m := by
  rw [ofManifest] at h
  split at h
  next => cases h; rfl
  next => cases h

namespace Settings

variable {m : Machine}

/-- Where the settings file lies that a path stands for. -/
def place (m : Machine) (path : Option String) : Except SettingsError Path :=
  match path.filter (!·.isEmpty) with
  | some p => .ok (Path.ofText p)
  | none => defaultPath m

theorem ends_load (path : Option String) : Logged.Ends (load m path) (do
    let p ← place m path
    match m.lookup? p with
    | some (.file content) => readFile m p content
    | _ => .error (.noFile p)) := by
  have hread (p : Path) : Logged.Ends (match m.lookup? p with
      | some (.file content) => do
        debug ("Loading metalctl config from " ++ p.text)
        silently (readFile m p content)
      | _ => throw (.noFile p)) (match m.lookup? p with
        | some (.file content) => readFile m p content
        | _ => .error (.noFile p)) := by
    rcases m.lookup? p with _ | content | entries
    · exact ends_throw _
    · exact (ends_debug _).after (ends_silently _)
    · exact ends_throw _
  rw [load, place]
  cases path.filter (!·.isEmpty) with
  | some p => exact (ends_pure _).bind fun p _ => hread p
  | none => exact (ends_silently _).bind fun p _ => hread p

theorem load_of_file {path : Option String} {p : Path} {content : ByteArray}
    (hplace : place m path = .ok p) (hfile : m.lookup? p = some (.file content)) :
    ((load m path).run []).1 = readFile m p content := by
  rw [ends_load path [], hplace]
  simp only [bind, Except.bind, hfile]

theorem load_of_value {path : Option String} {p : Path} {content : ByteArray} {text : String}
    {v : Value} {g : Settings} (hplace : place m path = .ok p)
    (hfile : m.lookup? p = some (.file content)) (htext : textOfBytes? content = some text)
    (hvalue : m.yaml.one (Variables.expand m.setting? text) = .ok v) (hgiven : v.isGiven = true)
    (hg : ofValue v = .ok g) : ((load m path).run []).1 = .ok g := by
  have hread : readValue m p text = .ok v := by
    rw [readValue, hvalue]
    exact congrArg Except.ok (if_pos hgiven)
  rw [load_of_file hplace hfile, readFile, htext]
  simp only [readText, hread, bind, Except.bind, hg]
  rfl

theorem ends_bundleOf (s : Settings) (m : Machine) (phase : String) :
    Logged.Ends (s.bundleOf m phase) (do
      let manifest ← s.manifest.mapError .settings
      let phases ← Phases.ofManifest m manifest
      let b ← (Bundle.ofPath phases.machine phases.folder).mapError .document
      let root ← phases.rootIn phase b
      (Bundle.ofPath phases.machine root).mapError .document) :=
  (ends_silently _).within.bind fun _ _ => (ends_silently _).bind fun phases _ =>
    phases.ends_bundle phase

theorem bundleOf_of_phases {s : Settings} {m : Machine} {manifest : Manifest} {phases : Phases}
    (hmanifest : s.manifest = .ok manifest) (hphases : Phases.ofManifest m manifest = .ok phases)
    (phase : String) : ((s.bundleOf m phase).run []).1 = (do
      let b ← (Bundle.ofPath m phases.folder).mapError .document
      let root ← phases.rootIn phase b
      (Bundle.ofPath m root).mapError .document) := by
  have hmachine := Phases.machine_of_ofManifest hphases
  rw [s.ends_bundleOf m phase [], hmanifest, ← hmachine]
  simp only [Except.mapError, bind, Except.bind, hmachine, hphases]

end Settings

namespace CommandLine.Session

/-- What the build of an order results in. -/
def built (p : Means τ γ) (s : Surroundings τ) (v : Invocation) (o : HostOrder) :
    Except BuildError (Settings × Fleet γ) :=
  ((build p s v o).run.run BuildRecord.start).1

variable {p : Means τ γ} {s : Surroundings τ} {v : Invocation} {o : HostOrder} {g : Settings}

theorem built_eq : built p s v o = (do
    let g ← ((settings s v).run []).1.mapError .settings
    let f ← Build.outcome p.vendors g (g.bundleOf s.machine o.phase) o.selectors
    return (g, f)) :=
  ((Build.ends_logged .settings (settings s v)).bind fun g _ =>
    (Build.ends_fleet o.phase _ _).bind fun f _ => Build.ends_pure (g, f)) BuildRecord.start

/-- Once all files are read only the selectors of an order count. -/
theorem built_of_loaded {manifest : Manifest} {phases : Phases} {b b' : Bundle} {root : Path}
    {m : Management} (hg : ((settings s v).run []).1 = .ok g) (hmanifest : g.manifest = .ok manifest)
    (hphases : Phases.ofManifest s.machine manifest = .ok phases)
    (hb : Bundle.ofPath s.machine phases.folder = .ok b)
    (hroot : phases.rootIn o.phase b = .ok root) (hb' : Bundle.ofPath s.machine root = .ok b')
    (hm : g.managementOf = .ok m) (hvalid : m.validate p.vendors = .ok ()) :
    built p s v o = (o.selectors.mapM (Host.ofSelector p.vendors m b') >>= Build.result m).map
      (g, ·) := by
  have hbundle : ((g.bundleOf s.machine o.phase).run []).1 = .ok b' := by
    rw [Settings.bundleOf_of_phases hmanifest hphases, hb]
    simp only [Except.mapError, bind, Except.bind, hroot, hb']
  rw [built_eq, hg]
  change Build.outcome p.vendors g (g.bundleOf s.machine o.phase) o.selectors >>= _ = _
  rw [Build.outcome_of_loaded hm hvalid hbundle]
  cases o.selectors.mapM (Host.ofSelector p.vendors m b') >>= Build.result m <;> rfl

end CommandLine.Session

end OutOfBand
