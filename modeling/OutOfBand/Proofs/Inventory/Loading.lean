import OutOfBand.Fleet.Build

namespace OutOfBand

variable {ε ε' α β : Type}

namespace Logged

/-- Whatever lines stand in the log, each failure of a computation has a property. -/
def FailsFor (P : ε → Prop) (c : Logged ε α) : Prop := ∀ log e, (c.run log).1 = .error e → P e

variable {P : ε → Prop}

theorem failsFor_silently {x : Except ε α} (h : ∀ e, x = .error e → P e) :
    FailsFor P (silently x) := by
  intro log e he
  cases x with
  | ok a => cases he
  | error e' =>
    cases he
    exact h _ rfl

theorem failsFor_debug (text : String) : FailsFor P (debug text) := fun _ _ he => by cases he

theorem FailsFor.bind {c : Logged ε α} {f : α → Logged ε β} (hc : FailsFor P c)
    (hf : ∀ a, FailsFor P (f a)) : FailsFor P (c >>= f) := by
  intro log e he
  change (StateT.run (ExceptT.run c >>= ExceptT.bindCont f) log).1 = _ at he
  rw [StateT.run_bind] at he
  have hclog := hc log
  change ∀ e, (StateT.run (ExceptT.run c) log).1 = .error e → P e at hclog
  rcases hrun : StateT.run (ExceptT.run c) log with ⟨e' | a, log'⟩ <;> rw [hrun] at he hclog
  · cases he
    exact hclog _ rfl
  · exact hf a log' e he

theorem FailsFor.within {f : ε → ε'} {Q : ε' → Prop} {c : Logged ε α} (hc : FailsFor P c)
    (h : ∀ e, P e → Q (f e)) : FailsFor Q (c.within f) := by
  intro log e he
  change (StateT.run (Except.mapError f <$> ExceptT.run c) log).1 = _ at he
  rw [StateT.run_map] at he
  have hclog := hc log
  change ∀ e, (StateT.run (ExceptT.run c) log).1 = .error e → P e at hclog
  rcases hrun : StateT.run (ExceptT.run c) log with ⟨e' | a, log'⟩ <;> rw [hrun] at he hclog
  · cases he
    exact h e' (hclog e' rfl)
  · cases he

end Logged

namespace PhaseError

/-- Not the fault that a type is unknown. -/
def IsOfLoading : PhaseError → Prop
  | settings (.unknownType _ _) => False
  | _ => True

end PhaseError

open Logged PhaseError

namespace Phases

variable (p : Phases) (phase : String)

theorem failsFor_load (root : Path) :
    FailsFor IsOfLoading ((Bundle.load p.machine root).within .document) :=
  FailsFor.within (P := fun _ => True) (fun _ _ _ => trivial) fun _ _ => trivial

theorem documentOf_eq_error {b : Bundle} {e : PhaseError} (h : documentOf b phase = .error e) :
    IsOfLoading e := by
  rw [documentOf] at h
  split at h
  next => cases h
  next => cases h; trivial
  next => cases h; trivial

theorem entryPoint_eq_error {d : Document} {e : PhaseError} (h : entryPoint phase d = .error e) :
    IsOfLoading e := by
  rw [entryPoint] at h
  split at h
  next => cases h; trivial
  next => cases h
  next => cases h; trivial

theorem failsFor_bundle : FailsFor IsOfLoading (p.bundle phase) := by
  have hroot : FailsFor IsOfLoading (p.root phase) := by
    refine (p.failsFor_load p.folder).bind fun b => ?_
    refine (failsFor_silently fun e he => documentOf_eq_error phase he).bind fun d => ?_
    refine (failsFor_silently fun e he => entryPoint_eq_error phase he).bind fun root => ?_
    exact (failsFor_debug _).bind fun _ => failsFor_silently (x := .ok _) fun e he => by cases he
  exact hroot.bind fun root => p.failsFor_load root

end Phases

namespace Settings

variable {s : Settings} {e : SettingsError}

theorem context_eq_error {name : Option String} (h : s.context name = .error e) :
    ∃ name, e = .noContext name := by
  rw [context] at h
  split at h
  next => cases h
  next => exact ⟨_, (Except.error.inj h).symm⟩

/-- What is looked up in the current context fails, or there is no such context. -/
theorem eq_error_of_context {α : Type} {f : Context → Except SettingsError α}
    (h : (s.context none >>= f) = .error e) :
    (∃ name, e = .noContext name) ∨ ∃ c, f c = .error e := by
  cases hc : s.context none with
  | error f =>
    obtain ⟨name, rfl⟩ := context_eq_error hc
    rw [hc] at h
    exact .inl ⟨name, (Except.error.inj h).symm⟩
  | ok c =>
    rw [hc] at h
    exact .inr ⟨c, h⟩

theorem manifest_eq_error (h : s.manifest = .error e) :
    ∃ name, e = .noContext name ∨ e = .noManifest name := by
  obtain ⟨name, rfl⟩ | ⟨c, hf⟩ := eq_error_of_context h
  · exact ⟨name, .inl rfl⟩
  · split at hf
    next => cases hf
    next => exact ⟨_, .inr (Except.error.inj hf).symm⟩

theorem managementOf_eq_error (h : s.managementOf = .error e) :
    ∃ name, e = .noContext name ∨ e = .noManagement name := by
  obtain ⟨name, rfl⟩ | ⟨c, hf⟩ := eq_error_of_context h
  · exact ⟨name, .inl rfl⟩
  · split at hf
    next => cases hf
    next => exact ⟨_, .inr (Except.error.inj hf).symm⟩

/-- Whoever loads the documents of a phase for the current context does not look at the type of its
management configuration. -/
theorem failsFor_bundleOf (s : Settings) (m : Machine) (phase : String) :
    FailsFor IsOfLoading (s.bundleOf m phase) := by
  have hmanifest : FailsFor IsOfLoading (Logged.within .settings (silently s.manifest)) := by
    refine (failsFor_silently fun e he => manifest_eq_error he).within ?_
    rintro _ ⟨name, rfl | rfl⟩ <;> trivial
  refine hmanifest.bind fun manifest => (failsFor_silently fun e he => ?_).bind fun p =>
    p.failsFor_bundle phase
  rw [Phases.ofManifest] at he
  split at he
  next => cases he
  next => cases he; trivial

end Settings

end OutOfBand
