import OutOfBand.Proofs.Redfish.Power
import OutOfBand.Redfish.Client

namespace OutOfBand.Redfish.System

open Run

variable {τ : Type} (s : System τ)

/-- Off and on again, or off alone if that fails. -/
def Cycles (new : History τ) (o : Except Failure Unit) : Prop :=
  (∃ e, o = .error e ∧ s.Resets .forceOff new (.error e)) ∨
    ∃ down up, new = down ++ up ∧ s.Resets .forceOff down (.ok ()) ∧ s.Resets .on up o

/-- A status read, and then what the state that it shows asks for. -/
def Reboots (new : History τ) (o : Except Failure Unit) : Prop :=
  ((∀ x ∈ new, s.IsStatusRead x.1) ∧ ∃ e, o = .error e) ∨
    ∃ x rest p, new = x :: rest ∧ s.ShowsPower p x ∧
      if p = .off then s.Resets .on rest o else s.Cycles rest o

/-- What a reboot does before it switches anything on: it forces the machine off only if that was
not seen to be off at first. -/
structure Lowers (before : History τ) : Prop where
  requests : ∀ x ∈ before, s.IsStatusRead x.1 ∨ s.IsReset .forceOff x.1
  first : ∀ x ∈ before, s.IsReset .forceOff x.1 →
    ∃ y rest p, before = y :: rest ∧ s.ShowsPower p y ∧ p ≠ .off

/-- A reboot by what has happened before the first `On`, up to the last one and after it. -/
structure Staged (before ons after : History τ) (o : Except Failure Unit) : Prop where
  lowers : s.Lowers before
  last : ons ≠ [] → ∃ pre y, before = pre ++ [y] ∧ s.ShowsPower .off y
  up : ∀ x ∈ ons, s.IsReset .on x.1
  reads : ∀ x ∈ after, s.IsStatusRead x.1
  done : o = .ok () → (∃ x ∈ ons, ∃ response, Accepted x.2.answer response) ∧
    ∃ pre y, after = pre ++ [y] ∧ s.ShowsPower .on y

/-- What a reboot never does, and what it has done when it succeeds. -/
structure RebootsSafely (new : History τ) (o : Except Failure Unit) : Prop where
  requests : ∀ x ∈ new, s.IsStatusRead x.1 ∨ ∃ r, s.IsReset r x.1
  on_after_off : ∀ pre x post, new = pre ++ x :: post → s.IsReset .on x.1 →
    (∀ y ∈ pre, ¬s.IsReset .on y.1) → ∃ pre' y, pre = pre' ++ [y] ∧ s.ShowsPower .off y
  no_off_after_on : ∀ pre x post, new = pre ++ x :: post → s.IsReset .on x.1 →
    ∀ y ∈ post, ¬s.IsReset .forceOff y.1
  off_if_not_off : ∀ x ∈ new, s.IsReset .forceOff x.1 →
    ∃ y rest p, new = y :: rest ∧ s.ShowsPower p y ∧ p ≠ .off
  done : o = .ok () →
    (∃ x ∈ new, s.IsReset .on x.1 ∧ ∃ response, Accepted x.2.answer response) ∧
    ∃ pre y, new = pre ++ [y] ∧ s.ShowsPower .on y

variable {s}

theorem Staged.not_on {before ons after : History τ} {o : Except Failure Unit}
    (h : s.Staged before ons after o) : ∀ x ∈ before, ¬s.IsReset .on x.1 := by
  intro x hx hon
  rcases h.lowers.requests x hx with hread | hoff
  · exact hread.not_isReset hon
  · cases hon.payload_inj hoff

theorem Staged.safe {before ons after : History τ} {o : Except Failure Unit}
    (h : s.Staged before ons after o) : s.RebootsSafely (before ++ (ons ++ after)) o where
  requests := by
    intro x hx
    rcases List.mem_append.mp hx with hx | hx
    · exact (h.lowers.requests x hx).imp id fun hr => ⟨_, hr⟩
    · rcases List.mem_append.mp hx with hx | hx
      · exact .inr ⟨_, h.up x hx⟩
      · exact .inl (h.reads x hx)
  on_after_off := by
    intro pre x post hcut hon hfirst
    rcases append_eq_append_cons_iff.mp hcut with ⟨mid, rfl, -⟩ | ⟨mid, rfl, hcut'⟩
    · exact absurd hon (h.not_on x (by simp))
    · rcases append_eq_append_cons_iff.mp hcut' with ⟨mid', rfl, -⟩ | ⟨mid', rfl, rfl⟩
      · cases mid with
        | nil =>
          rw [List.append_nil]
          exact h.last (by simp)
        | cons y mid => exact absurd (h.up y (by simp)) (hfirst y (by simp))
      · exact absurd hon (h.reads x (by simp)).not_isReset
  no_off_after_on := by
    intro pre x post hcut hon y hy hoff
    rcases append_eq_append_cons_iff.mp hcut with ⟨mid, rfl, -⟩ | ⟨mid, rfl, hcut'⟩
    · exact h.not_on x (by simp) hon
    · have hy' : y ∈ ons ++ after := by
        rw [hcut']
        exact List.mem_append_right _ (List.mem_cons_of_mem x hy)
      rcases List.mem_append.mp hy' with hy' | hy'
      · cases hoff.payload_inj (h.up y hy')
      · exact (h.reads y hy').not_isReset hoff
  off_if_not_off := by
    intro x hx hoff
    rcases List.mem_append.mp hx with hx | hx
    · obtain ⟨y, rest, p, rfl, hy, hp⟩ := h.lowers.first x hx hoff
      exact ⟨y, rest ++ (ons ++ after), p, rfl, hy, hp⟩
    · rcases List.mem_append.mp hx with hx | hx
      · cases hoff.payload_inj (h.up x hx)
      · exact absurd hoff (h.reads x hx).not_isReset
  done := by
    intro ho
    obtain ⟨⟨x, hx, response, hr⟩, pre, y, hafter, hy⟩ := h.done ho
    refine ⟨⟨x, by simp [hx], h.up x hx, response, hr⟩, before ++ (ons ++ pre), y, ?_, hy⟩
    simp [hafter]

theorem lowers_of_reads {before : History τ} (h : ∀ x ∈ before, s.IsStatusRead x.1) :
    s.Lowers before :=
  ⟨fun x hx => .inl (h x hx), fun x hx hr => absurd hr (h x hx).not_isReset⟩

theorem lowers_of_resets {x : Request τ × Reply τ} {p : PowerState} {down : History τ}
    {o : Except Failure Unit} (hx : s.ShowsPower p x) (hp : p ≠ .off)
    (h : s.Resets .forceOff down o) : s.Lowers (x :: down) := by
  refine ⟨fun y hy => ?_, fun _ _ _ => ⟨x, down, p, rfl, hx, hp⟩⟩
  obtain ⟨posts, reads, rfl, hposts, hreads, -⟩ := h
  rcases List.mem_cons.mp hy with rfl | hy
  · exact .inl hx.1
  · rcases List.mem_append.mp hy with hy | hy
    · exact .inr (hposts y hy)
    · exact .inl (hreads y hy)

/-- The stages of switching on, after what shows that the machine is off. -/
theorem Lowers.staged_of_resets {before new : History τ} {o : Except Failure Unit}
    (hlowers : s.Lowers before) (hlast : ∃ pre y, before = pre ++ [y] ∧ s.ShowsPower .off y)
    (h : s.Resets .on new o) : ∃ ons after, new = ons ++ after ∧ s.Staged before ons after o := by
  obtain ⟨ons, after, rfl, hons, hreads, hdone⟩ := h
  exact ⟨ons, after, rfl, hlowers, fun _ => hlast, hons, hreads, hdone⟩

theorem Lowers.staged_of_error {before : History τ} (h : s.Lowers before) (e : Failure) :
    s.Staged before [] [] (.error e) :=
  ⟨h, by simp, by simp, by simp, fun h => by cases h⟩

theorem Reboots.staged {new : History τ} {o : Except Failure Unit} (h : s.Reboots new o) :
    ∃ before ons after, new = before ++ (ons ++ after) ∧ s.Staged before ons after o := by
  rcases h with ⟨hreads, e, rfl⟩ | ⟨x, rest, p, rfl, hx, h⟩
  · exact ⟨new, [], [], by simp, (lowers_of_reads hreads).staged_of_error e⟩
  · by_cases hp : p = .off
    · subst hp
      rw [if_pos rfl] at h
      have hlowers : s.Lowers [x] := lowers_of_reads (by simpa using hx.1)
      obtain ⟨ons, after, rfl, hst⟩ := hlowers.staged_of_resets ⟨[], x, rfl, hx⟩ h
      exact ⟨[x], ons, after, rfl, hst⟩
    · rw [if_neg hp] at h
      rcases h with ⟨e, rfl, hdown⟩ | ⟨down, up, rfl, hdown, hup⟩
      · exact ⟨x :: rest, [], [], by simp, (lowers_of_resets hx hp hdown).staged_of_error e⟩
      · have hlowers := lowers_of_resets hx hp hdown
        obtain ⟨posts, reads, rfl, -, -, hdone⟩ := hdown
        obtain ⟨-, pre, y, rfl, hy⟩ := hdone rfl
        obtain ⟨ons, after, rfl, hst⟩ :=
          hlowers.staged_of_resets ⟨x :: (posts ++ pre), y, by simp, hy⟩ hup
        exact ⟨_, ons, after, by simp, hst⟩

variable (s) [Seconds τ] (net : Network τ)

theorem sends_reboot : (s.reboot net).Sends s.Reboots := by
  refine (s.sends_powerStatus net).bind
    (Q := fun p => if p = .off then s.Resets .on else s.Cycles) ?_ ?_ ?_
  · intro p
    by_cases hp : p = .off
    · simpa only [hp, ne_eq, not_true_eq_false, if_false, if_true] using
        s.sends_reset net "reboot_system" .on
    · simp only [hp, ne_eq, not_false_eq_true, if_true, if_false]
      refine (s.sends_reset net "reboot_system" .forceOff).bind
        (fun _ => s.sends_reset net "reboot_system" .on) ?_ ?_
      · exact fun h => .inl ⟨_, rfl, h⟩
      · exact fun hdown hup => .inr ⟨_, _, rfl, hdown, hup⟩
  · rintro new e (⟨rfl, -⟩ | ⟨x, rfl, hx, -⟩)
    · exact .inl ⟨by simp, e, rfl⟩
    · exact .inl ⟨by simpa using hx, e, rfl⟩
  · rintro pre p post o (⟨-, e, he⟩ | ⟨x, rfl, -, hshows⟩) hpost
    · cases he
    · refine .inr ⟨x, post, p, rfl, hshows p rfl, ?_⟩
      by_cases hp : p = .off
      · simpa only [hp, if_true] using hpost
      · simpa only [hp, if_false] using hpost

/-- Every run of a reboot is safe, however it ends. -/
theorem reboot_safe (t : Timeline τ) :
    ∃ new, (((s.client net).reboot).run t).2.history = t.history ++ new ∧
      s.RebootsSafely new (((s.client net).reboot).run t).1 := by
  obtain ⟨new, hnew, h⟩ := s.sends_reboot net t
  obtain ⟨before, ons, after, rfl, hst⟩ := h.staged
  exact ⟨_, hnew, hst.safe⟩

end OutOfBand.Redfish.System
