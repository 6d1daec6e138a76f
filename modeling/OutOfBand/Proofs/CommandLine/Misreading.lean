import OutOfBand.Proofs.CommandLine.Loading
import OutOfBand.Proofs.CommandLine.Refusals
import OutOfBand.Proofs.Inventory.Listing
import OutOfBand.Proofs.Inventory.Loading
import OutOfBand.Proofs.Report.Logging

namespace OutOfBand

variable {γ τ α : Type}

open Logged

namespace Bundle

variable {r : Yaml.Reader} {m : Machine} {root : Path} {es : List (String × Tree)} {fs : List (Path × ByteArray)}

/-- A file is named as the one that cannot be read just if it is legible. -/
theorem Unread.names_iff {p : Path} {c : ByteArray} {e : DocumentError} (h : Unread r p c e) :
    (∃ q, e = .unreadable (some q)) ↔ Legible r c := by
  refine ⟨fun he => ?_, fun hc => ⟨p, (hc.eq_unreadable h).1⟩⟩
  cases h with
  | notText => simp at he
  | malformed htext hload => exact legible_of_malformed htext hload
  | badScalar => simp at he

theorem Yields.legible {f : Path × ByteArray} {ds : List Document} (h : Yields r f ds) :
    Legible r f.2 := by
  obtain ⟨text, b, htext, hb, -⟩ := h
  obtain ⟨vs, hvs, -⟩ := documents_of_text hb
  exact ⟨text, htext, fun f hf => by cases hvs.symm.trans hf⟩

theorem Unread.not_yields {f : Path × ByteArray} {e : DocumentError} (h : Unread r f.1 f.2 e)
    {ds : List Document} : ¬ Yields r f ds := fun hds => by
  cases (readFile_eq_error_iff.mpr h).symm.trans (readFile_eq_ok_iff.mpr hds)

theorem eq_or_yields_of_split {pre pre' post post' : List (Path × ByteArray)}
    {f f' : Path × ByteArray} {dss dss' : List (List Document)} {e : DocumentError}
    (h : pre ++ f :: post = pre' ++ f' :: post') (hpre : List.Forall₂ (Yields r) pre dss)
    (hf : Unread r f.1 f.2 e) (hpre' : List.Forall₂ (Yields r) pre' dss') :
    f' = f ∨ ∃ ds, Yields r f' ds := by
  rcases List.append_eq_append_iff.mp h with ⟨rest, rfl, hrest⟩ | ⟨rest, rfl, hrest⟩
  · cases rest with
    | nil =>
      cases hrest
      exact .inl rfl
    | cons g rest =>
      cases hrest
      obtain ⟨ds, -, hds⟩ := exists_of_mem_left hpre' (x := f) (by simp)
      exact absurd hds hf.not_yields
  · cases rest with
    | nil =>
      cases hrest
      exact .inl rfl
    | cons g rest =>
      cases hrest
      obtain ⟨ds, -, hds⟩ := exists_of_mem_left hpre (x := f') (by simp)
      exact .inr ⟨ds, hds⟩

/-- The loading of a folder fails, if at all, with the name of a file just if each file that it
comes to is legible. -/
theorem names_file_iff (proper : m.top.Proper) (hroot : m.lookup? root = some (.folder es))
    (hfs : Listing root (.folder es) fs) :
    (∀ e, ofPath m root = .error e → ∃ p, e = .unreadable (some p)) ↔
      ∀ pre f post dss, fs = pre ++ f :: post → List.Forall₂ (Yields m.yaml) pre dss →
        Legible m.yaml f.2 := by
  rcases ofPath_folder hroot hfs (m.proper_of_lookup? proper hroot) with
    ⟨dss, hall, hpath⟩ | ⟨pre, f, post, dss, e, hsplit, hpre, hunread, hpath⟩
  · rw [hpath]
    refine iff_of_true nofun fun pre f post _ hsplit _ => ?_
    obtain ⟨ds, -, hds⟩ := exists_of_mem_left hall (x := f) (by simp [hsplit])
    exact hds.legible
  · rw [hpath]
    constructor
    · intro hnamed pre' f' post' dss' hsplit' hpre'
      rcases eq_or_yields_of_split (hsplit.symm.trans hsplit') hpre hunread hpre' with
        rfl | ⟨ds, hds⟩
      · exact hunread.names_iff.mp (hnamed e rfl)
      · exact hds.legible
    · rintro hlegible _ ⟨⟩
      exact hunread.names_iff.mpr (hlegible pre f post dss hsplit hpre)

end Bundle

namespace Settings

variable {m : Machine} {p : Path} {c : ByteArray} {text : String} {e : SettingsError}

/-- The bytes are a text that, with its variables replaced, is a value or breaks the format. -/
def Legible (m : Machine) (c : ByteArray) : Prop :=
  ∃ text, textOfBytes? c = some text ∧
    ∀ f, m.yaml.one (Variables.expand m.setting? text) = .error f → f = .malformed

/-- The file is named as one that cannot be read, or whose values are no settings. -/
inductive Refusal (p : Path) : SettingsError → Prop
  | unreadable : Refusal p (.unreadable p)
  | invalid (fs : List FieldFault) : Refusal p (.invalid p fs)

theorem refusal_iff_legible :
    (∀ e, readFile m p c = .error e → Refusal p e) ↔ Legible m c := by
  rw [readFile, Legible]
  cases textOfBytes? c with
  | none =>
    refine iff_of_false (fun h => ?_) (by simp)
    cases h _ rfl
  | some text =>
    simp only [Option.some.injEq, exists_eq_left']
    rw [readText, readValue]
    constructor
    · intro h f hf
      rw [hf] at h
      cases f with
      | malformed => rfl
      | _ => cases h _ rfl
    · intro h e he
      rcases bind_eq_error_iff.mp he with hvalue | ⟨v, -, hchecked⟩
      · split at hvalue
        next => cases hvalue
        next =>
          cases hvalue
          exact .unreadable
        next f hf hload => exact absurd (h f hload) hf
      · split at hchecked
        next => cases hchecked
        next fs _ =>
          cases hchecked
          exact .invalid fs

theorem isForeseen_of_validated {s : Settings} {v : Vendors γ} (h : s.validated v = .error e) :
    e.isForeseen = true := by
  rcases bind_eq_error_iff.mp h with hm | ⟨m, -, h⟩
  · obtain ⟨name, rfl | rfl⟩ := managementOf_eq_error hm <;> rfl
  · rcases bind_eq_error_iff.mp h with h | ⟨_, -, h⟩
    · rcases bind_eq_error_iff.mp h with h | ⟨_, -, h⟩
      · rw [Management.check] at h
        split_ifs at h <;> cases h <;> rfl
      · rcases bind_eq_error_iff.mp h with h | ⟨_, -, h⟩
        · rw [Vendors.find] at h
          split at h
          next => cases h
          next => cases h; rfl
        · cases h
    · cases h

end Settings

namespace CommandLine

theorem Course.ending_of_stop (e : BuildError) (k : α → Course τ Unit) (log : Option RunLog) :
    ((stop [] e >>= k).conclude log).ending =
      if e.isForeseen = true then .refused else .broke (.build e) := by
  rw [ending_conclude, stop]
  split_ifs <;> rfl

namespace Session

variable {p : Means τ γ} {s : Surroundings τ} {v : Invocation} {o : HostOrder} {g : Settings}

theorem built_of_settings {e : SettingsError} (h : ((settings s v).run []).1 = .error e) :
    built p s v o = .error (.settings e) := by
  rw [built_eq, h]
  rfl

/-- Documents that fail to load keep a fleet from being built, unless the settings do so first. -/
theorem built_of_bundle {e : PhaseError} (hg : ((settings s v).run []).1 = .ok g)
    (h : ((g.bundleOf s.machine o.phase).run []).1 = .error e) :
    built p s v o = match g.validated p.vendors with
      | .ok _ => .error (.phase e)
      | .error e' => .error (.settings e') := by
  have houtcome : Build.outcome p.vendors g (g.bundleOf s.machine o.phase) o.selectors =
      match g.validated p.vendors with
      | .ok _ => .error (.phase e)
      | .error e' => .error (.settings e') := by
    rw [Build.outcome, Settings.validated, h]
    cases g.managementOf with
    | error e' => rfl
    | ok m =>
      simp only [Except.mapError, bind, Except.bind]
      cases m.validate p.vendors <;> rfl
  rw [built_eq, hg]
  change Build.outcome p.vendors g (g.bundleOf s.machine o.phase) o.selectors >>= _ = _
  rw [houtcome]
  cases g.validated p.vendors <;> rfl

/-- What goes wrong where the files of a command are read: its settings file, the folder of its
phases, or the folder of the phase that it is for. -/
inductive Misread (s : Surroundings τ) (v : Invocation) : BuildError → Prop
  | settings {e : SettingsError} (h : ((settings s v).run []).1 = .error e) :
      Misread s v (.settings e)
  | phases {g : Settings} {manifest : Manifest} {phases : Phases} {e : DocumentError}
      (order : v.order ≠ .showManagement) (hg : ((settings s v).run []).1 = .ok g)
      (hmanifest : g.manifest = .ok manifest)
      (hphases : Phases.ofManifest s.machine manifest = .ok phases)
      (h : Bundle.ofPath s.machine phases.folder = .error e) :
      Misread s v (.phase (.document e))
  | documents {o : HostOrder} {g : Settings} {manifest : Manifest} {phases : Phases} {b : Bundle}
      {root : Path} {e : DocumentError} (order : v.order = .hosts o)
      (hg : ((settings s v).run []).1 = .ok g) (hmanifest : g.manifest = .ok manifest)
      (hphases : Phases.ofManifest s.machine manifest = .ok phases)
      (hb : Bundle.ofPath s.machine phases.folder = .ok b)
      (hroot : phases.rootIn o.phase b = .ok root)
      (h : Bundle.ofPath s.machine root = .error e) : Misread s v (.phase (.document e))

variable [Seconds τ]

/-- What is foreseen is refused, and nothing else is. -/
theorem ending_cases {ending : Ending} {e : BuildError}
    (h : ending = if e.isForeseen = true then .exit 2 else .broke (.build e)) :
    (e.isForeseen = true → ending = .exit 2) ∧
      (e.isForeseen = false → ending = .broke (.build e)) :=
  ⟨fun he => h.trans (if_pos he), fun he => h.trans (if_neg (by simp [he]))⟩

theorem ending_of_not_built (order : v.order = .hosts o) {log : RunLog}
    (hlog : openLog s v = .ok log) {e : BuildError} (hb : built p s v o = .error e) :
    (runWith p s v).ending = if e.isForeseen = true then .exit 2 else .broke (.build e) := by
  split
  next he => exact (run_of_not_built order hlog hb he).1
  next he => exact ending_of_unforeseen order hlog hb (by simpa using he)

/-- Where settings contradict themselves a command is refused whatever its documents are. -/
theorem ending_of_bundle (order : v.order = .hosts o) {log : RunLog}
    (hlog : openLog s v = .ok log) (hg : ((settings s v).run []).1 = .ok g) {e : PhaseError}
    (h : ((g.bundleOf s.machine o.phase).run []).1 = .error e) :
    (e.isForeseen = true → (runWith p s v).ending = .exit 2) ∧
      (e.isForeseen = false → (∃ m, g.validated p.vendors = .ok m) →
        (runWith p s v).ending = .broke (.build (.phase e))) := by
  have hb := built_of_bundle (p := p) hg h
  cases hm : g.validated p.vendors with
  | ok m =>
    rw [hm] at hb
    exact (ending_cases (ending_of_not_built order hlog hb)).imp_right fun hnot he _ => hnot he
  | error e' =>
    rw [hm] at hb
    have hrefused := (ending_cases (ending_of_not_built order hlog hb)).1
    exact ⟨fun _ => hrefused (Settings.isForeseen_of_validated hm), by simp⟩

theorem ending_of_settings (hlog : ∀ o, v.order = .hosts o → ∃ log, openLog s v = .ok log)
    {e : SettingsError} (h : ((settings s v).run []).1 = .error e) :
    (runWith p s v).ending =
      if e.isForeseen = true then .exit 2 else .broke (.build (.settings e)) := by
  have hlook : look s v = Course.stop [] (.settings e) := by
    rw [look, h]
    rfl
  cases order : v.order with
  | hosts o =>
    obtain ⟨log, hlog⟩ := hlog o order
    exact ending_of_not_built order hlog (built_of_settings h)
  | showManagement =>
    rw [runWith, order]
    dsimp only
    rw [showManagement, hlook]
    exact Course.ending_of_stop _ _ _
  | listPhases =>
    rw [runWith, order]
    dsimp only
    rw [listPhases, hlook]
    exact Course.ending_of_stop _ _ _

theorem ending_of_names (order : v.order = .listPhases) (hg : ((settings s v).run []).1 = .ok g)
    {manifest : Manifest} (hmanifest : g.manifest = .ok manifest) {phases : Phases}
    (hphases : Phases.ofManifest s.machine manifest = .ok phases) {e : PhaseError}
    (h : (phases.names.run []).1 = .error e) :
    (runWith p s v).ending =
      if e.isForeseen = true then .exit 2 else .broke (.build (.phase e)) := by
  have hlist : ∃ k : List Value → Course τ Unit,
      listPhases s v = Course.stop [] (.phase e) >>= k := by
    refine ⟨fun names => for n in names do Course.line (nameLine n), ?_⟩
    have hlook : look s v = pure g := by
      rw [look, hg]
      rfl
    simp only [listPhases, hlook, hmanifest, hphases, h, Course.orStop, pure_bind]
  obtain ⟨k, hlist⟩ := hlist
  rw [runWith, order]
  dsimp only
  rw [hlist]
  exact Course.ending_of_stop _ _ _

theorem ending_of_misread (hlog : ∀ o, v.order = .hosts o → ∃ log, openLog s v = .ok log)
    {e : BuildError} (h : Misread s v e) :
    (e.isForeseen = true → (runWith p s v).ending = .exit 2) ∧
      (e.isForeseen = false → (∀ o g, v.order = .hosts o → ((settings s v).run []).1 = .ok g →
          ∃ m, g.validated p.vendors = .ok m) →
        (runWith p s v).ending = .broke (.build e)) := by
  cases h with
  | settings h =>
    exact (ending_cases (ending_of_settings hlog h)).imp_right fun hnot he _ => hnot he
  | @phases g manifest phases e order hg hmanifest hphases h =>
    cases hv : v.order with
    | showManagement => exact absurd hv order
    | listPhases =>
      have hnames : (phases.names.run []).1 = .error (.document e) := by
        rw [phases.ends_names [], Phases.machine_of_ofManifest hphases, h]
        rfl
      have hending := ending_of_names (p := p) hv hg hmanifest hphases hnames
      exact (ending_cases hending).imp_right fun hnot he _ => hnot he
    | hosts o =>
      obtain ⟨log, hlog⟩ := hlog o hv
      have hbundle := Settings.bundleOf_of_phases hmanifest hphases o.phase
      rw [h] at hbundle
      exact (ending_of_bundle hv hlog hg hbundle).imp_right fun hnot he hvalid =>
        hnot he (hvalid o g rfl hg)
  | @documents o g manifest phases b root e order hg hmanifest hphases hb hroot h =>
    obtain ⟨log, hlog⟩ := hlog o order
    have hbundle : ((g.bundleOf s.machine o.phase).run []).1 = .error (.document e) := by
      rw [Settings.bundleOf_of_phases hmanifest hphases, hb]
      refine bind_eq_error_iff.mpr (.inr ⟨b, rfl, bind_eq_error_iff.mpr (.inr ⟨root, hroot, ?_⟩)⟩)
      rw [h]
      rfl
    exact (ending_of_bundle order hlog hg hbundle).imp_right fun hnot he hvalid =>
      hnot he (hvalid o g order hg)

/-- Files are refused as files that cannot be read just if their bytes are legible: a folder of
documents if those files are that it comes to, the settings file if it is. A command is refused for
such a file, and breaks for one that is not legible. -/
theorem unreadable_refused (s : Surroundings τ) (v : Invocation) :
    (∀ root es fs, s.machine.top.Proper → s.machine.lookup? root = some (.folder es) →
      Bundle.Listing root (.folder es) fs →
      ((∀ e, Bundle.ofPath s.machine root = .error e → ∃ p, e = .unreadable (some p)) ↔
        ∀ pre f post dss, fs = pre ++ f :: post →
          List.Forall₂ (Bundle.Yields s.machine.yaml) pre dss →
            Bundle.Legible s.machine.yaml f.2)) ∧
    (∀ path p c, Settings.place s.machine path = .ok p → s.machine.lookup? p = some (.file c) →
      ((∀ e, ((Settings.load s.machine path).run []).1 = .error e → Settings.Refusal p e) ↔
        Settings.Legible s.machine c)) ∧
    ∀ e, Misread s v e → (∀ o, v.order = .hosts o → ∃ log, openLog s v = .ok log) →
      (e.isForeseen = true → (run s v).ending = .exit 2) ∧
      (e.isForeseen = false → (∀ o g, v.order = .hosts o → ((settings s v).run []).1 = .ok g →
          ∃ m, g.validated (Vendors.builtIn s.seconds) = .ok m) →
        (run s v).ending = .broke (.build e)) := by
  refine ⟨fun root es fs => Bundle.names_file_iff, fun path p c hp hfile => ?_,
    fun e h hlog => ending_of_misread hlog h⟩
  rw [Settings.load_of_file hp hfile]
  exact Settings.refusal_iff_legible

end Session

end CommandLine

namespace Sample

open CommandLine

/-- A machine with one file, and a command that takes it for its settings file. -/
def withFile (content : ByteArray) : Surroundings Int :=
  { nowhere with machine := ⟨.folder [("c.yaml", .file content)], ⟨"/", []⟩, [], Yaml.reader⟩ }

def looked : Invocation := ⟨some "/c.yaml", false, .showManagement⟩

theorem filesAt_withFile (content : ByteArray) :
    Bundle.filesAt ⟨"/", []⟩ (withFile content).machine.top =
      [(⟨"/", ["c.yaml"]⟩, content)] := by
  have hyaml : Bundle.isYaml ⟨"/", ["c.yaml"]⟩ = true := by decide
  simp [withFile, Bundle.filesAt, Tree.files, Tree.filesOf, Path.join, Path.isAbsolute, hyaml]

end Sample

open Sample CommandLine Session in
/-- A bracket that closes nothing is refused in the settings and in the documents. -/
theorem unreadable_refused_of_bracket :
    let s := withFile "]".toUTF8
    (∀ e, Bundle.ofPath s.machine ⟨"/", []⟩ = .error e → ∃ p, e = .unreadable (some p)) ∧
      (∃ e, ((Session.settings s looked).run []).1 = .error e ∧
        Settings.Refusal ⟨"/", ["c.yaml"]⟩ e) ∧
      (run s looked).ending = .exit 2 := by
  intro s
  have htext : textOfBytes? "]".toUTF8 = some "]" := textOfBytes?_toUTF8 (by decide)
  have hload : Yaml.reader.all "]" = .error .malformed := eq_error_of_faultOf? (by decide +kernel)
  have hvalue : s.machine.yaml.one (Variables.expand s.machine.setting? "]") = .error .malformed :=
    eq_error_of_faultOf? (by decide +kernel)
  have hsettings :
      ((Session.settings s looked).run []).1 = .error (.unreadable ⟨"/", ["c.yaml"]⟩) := by
    rw [Session.settings, Settings.load_of_file (p := ⟨"/", ["c.yaml"]⟩) rfl rfl]
    rw [Settings.readFile, htext]
    delta Settings.readText Settings.readValue
    dsimp only
    rw [hvalue]
    rfl
  have proper : s.machine.top.Proper := by
    simp [s, withFile, Tree.proper_folder_iff, Tree.Proper.file]
  obtain ⟨hfolder, hfile, hcommand⟩ := unreadable_refused s looked
  refine ⟨?_, ⟨_, hsettings, ?_⟩, ?_⟩
  · refine (hfolder _ _ _ proper rfl (Bundle.listing_filesAt proper)).mpr
      fun pre f post dss hsplit _ => ?_
    have hmem := (filesAt_withFile _).symm.trans hsplit ▸
      List.mem_append_right pre (List.mem_cons_self (a := f) (l := post))
    obtain rfl := List.mem_singleton.mp hmem
    exact Bundle.legible_of_malformed htext hload
  · have hlegible : Settings.Legible s.machine "]".toUTF8 :=
      ⟨"]", htext, fun _ hf => Except.error.inj (hf.symm.trans hvalue)⟩
    exact (hfile _ _ _ rfl rfl).mpr hlegible _ hsettings
  · exact (hcommand _ (.settings hsettings) (by simp [looked])).1 rfl

open Sample CommandLine Session in
/-- A byte that begins no character is not refused. -/
theorem run_of_no_text :
    let s := withFile ⟨#[0xff]⟩
    Bundle.ofPath s.machine ⟨"/", []⟩ = .error (.notText ⟨"/", ["c.yaml"]⟩) ∧
      ((Session.settings s looked).run []).1 = .error (.notText ⟨"/", ["c.yaml"]⟩) ∧
      (run s looked).ending = .broke (.build (.settings (.notText ⟨"/", ["c.yaml"]⟩))) := by
  intro s
  have htext : textOfBytes? ⟨#[0xff]⟩ = none := by cbv
  have hsettings :
      ((Session.settings s looked).run []).1 = .error (.notText ⟨"/", ["c.yaml"]⟩) := by
    rw [Session.settings, Settings.load_of_file (p := ⟨"/", ["c.yaml"]⟩) rfl rfl, Settings.readFile,
      htext]
  refine ⟨?_, hsettings, ending_of_settings (by simp [looked]) hsettings⟩
  change ((Bundle.filesAt ⟨"/", []⟩ s.machine.top).mapM fun f =>
    Bundle.readFile Yaml.reader f.1 f.2) >>= _ = _
  rw [filesAt_withFile, List.mapM_cons, Bundle.readFile, htext]
  rfl

end OutOfBand
