import OutOfBand.Proofs.Fleet.Comparison

namespace OutOfBand

variable {γ α β : Type}

namespace Build

/-- A build that only writes; a result of it is related to some result of another kind. -/
def Writes (R : α → β → Prop) (x : Build γ α) : Prop :=
  ∀ r, (∃ os : List Output, (x.run.run r).2.notices = r.notices ++ os.map .wrote) ∧
    ∀ a, (x.run.run r).1 = .ok a → ∃ b, R a b

theorem writes_modify {f : BuildRecord γ → BuildRecord γ}
    (h : ∀ r, ∃ os : List Output, (f r).notices = r.notices ++ os.map .wrote) :
    Writes Eq (modify f : Build γ Unit) := fun r => ⟨h r, fun a _ => ⟨a, rfl⟩⟩

theorem Writes.bind {α' β' : Type} {R : α → β → Prop} {R' : α' → β' → Prop} {x : Build γ α}
    {f : α → Build γ α'} (h : Writes R x) (hf : ∀ a b, R a b → Writes R' (f a)) :
    Writes R' (x >>= f) := by
  intro r
  obtain ⟨⟨os, hos⟩, hres⟩ := h r
  rw [run_bind]
  rcases hx : x.run.run r with ⟨e | a, r'⟩ <;> rw [hx] at hos hres
  · exact ⟨⟨os, hos⟩, fun a ha => by cases ha⟩
  · obtain ⟨b, hab⟩ := hres a rfl
    obtain ⟨⟨os', hos'⟩, hres'⟩ := hf a b hab r'
    refine ⟨⟨os ++ os', ?_⟩, hres'⟩
    rw [hos', hos, List.map_append, List.append_assoc]

theorem Writes.handle {R : α → β → Prop} {x : Build γ α} {f : BuildError → Build γ α}
    (h : Writes R x) (hf : ∀ e, Writes R (f e)) : Writes R (tryCatch x f) := by
  intro r
  obtain ⟨⟨os, hos⟩, hres⟩ := h r
  rw [run_tryCatch]
  rcases hx : x.run.run r with ⟨e | a, r'⟩ <;> rw [hx] at hos hres
  · obtain ⟨⟨os', hos'⟩, hres'⟩ := hf e r'
    refine ⟨⟨os ++ os', ?_⟩, hres'⟩
    rw [hos', hos, List.map_append, List.append_assoc]
  · exact ⟨⟨os, hos⟩, hres⟩

/-- That the first of two builds only writes. -/
def writing : Comparison (Eq : γ → γ → Prop) where
  holds R x _ := Writes R x
  pure h := fun _ => ⟨⟨[], (List.append_nil _).symm⟩, fun a ha => by cases ha; exact ⟨_, h⟩⟩
  throw _ _ := fun _ => ⟨⟨[], (List.append_nil _).symm⟩, fun a ha => by cases ha⟩
  bind := Writes.bind
  handle := Writes.handle
  write os := writes_modify fun _ => ⟨os, rfl⟩
  advance _ _ := writes_modify fun _ => ⟨[_], rfl⟩
  keep _ := writes_modify fun _ => ⟨[], (List.append_nil _).symm⟩

theorem writes_attempt (v : Vendors γ) (s : Settings) (phase : String)
    (bundle : Logged PhaseError Bundle) (ss : List HostSelector) :
    Writes (Fleet.Alike Eq) (attempt v s phase bundle ss) :=
  writing.attempt v.respects_eq (Agree.refl Bundle.Alike.refl _) rfl s phase ss

/-- A build that writes, and if it has a result tells of one event in the end. -/
def Leaves (bus : Option Bus) (told : α → Event) (x : Build γ α) : Prop :=
  ∀ r, ∃ os : List Output, let written := r.notices ++ os.map .wrote
    match x.run.run r with
    | (.error _, r') => r'.notices = written
    | (.ok a, r') => r'.notices = written ++ Bus.notices bus written (told a)

section Leaves

variable {bus : Option Bus}

theorem Writes.leaves {R : α → β → Prop} {α' : Type} {told : α' → Event} {x : Build γ α}
    {f : α → Build γ α'} (h : Writes R x) (hf : ∀ a, Leaves bus told (f a)) :
    Leaves bus told (x >>= f) := by
  intro r
  obtain ⟨⟨os, hos⟩, -⟩ := h r
  rw [run_bind]
  rcases hx : x.run.run r with ⟨e | a, r'⟩ <;> rw [hx] at hos
  · exact ⟨os, hos⟩
  · obtain ⟨os', hos'⟩ := hf a r'
    refine ⟨os ++ os', ?_⟩
    rw [hos, List.append_assoc, ← List.map_append] at hos'
    exact hos'

theorem Leaves.map {told : α → Event} {told' : β → Event} {x : Build γ α} {f : α → β}
    (h : Leaves bus told x) (hf : ∀ a, told' (f a) = told a) :
    Leaves bus told' (do return f (← x)) := by
  intro r
  obtain ⟨os, hos⟩ := h r
  rw [run_bind]
  refine ⟨os, ?_⟩
  rcases hx : x.run.run r with ⟨e | a, r'⟩ <;> rw [hx] at hos
  · exact hos
  · change r'.notices = _ ++ Bus.notices bus _ (told' (f a))
    rw [hf]
    exact hos

/-- The event that a fleet is ready. -/
def readyEvent (stamp : Stamp) (f : Fleet γ) : Event := ⟨stamp, .ready f.management.type f.names⟩

theorem leaves_announce (stamp : Stamp) (f : Fleet γ) :
    Leaves bus (fun _ => readyEvent stamp f) (announce bus stamp f) := by
  refine fun r => ⟨[], ?_⟩
  simp only [List.map_nil, List.append_nil]
  rfl

/-- Where a fleet is built, everyone is told in the end that it is ready; where none is, nobody is
told of anything. -/
theorem leaves_fleet (v : Vendors γ) (s : Settings) (phase : String)
    (bundle : Logged PhaseError Bundle) (ss : List HostSelector) (stamp : Stamp) :
    Leaves bus (readyEvent stamp) (fleet v s phase bundle ss bus stamp) := by
  rw [fleet_eq_attempt]
  refine (writes_attempt v s phase bundle ss).leaves fun f => ?_
  have hadvance : Writes Eq (advance .ready "" : Build γ Unit) := writing.advance .ready ""
  exact hadvance.leaves fun _ => (leaves_announce stamp f).map fun _ => rfl

end Leaves

end Build

end OutOfBand
