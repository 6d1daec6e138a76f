import OutOfBand.Proofs.Redfish.Requests
import OutOfBand.Redfish.Power

namespace OutOfBand.Redfish.System

open Run

variable {τ : Type} (s : System τ)

def IsStatusRead (q : Request τ) : Prop := s.IsRequest .get s.address.systemPath none q

/-- An order that switches the system on or off. -/
def IsReset (r : Reset) (q : Request τ) : Prop := s.IsRequest .post s.resetPath (some r.payload) q

/-- A request to do something at the place where the system takes resets, whatever it says. -/
def IsResetPost (q : Request τ) : Prop := q.method = .post ∧ q.url = s.url s.resetPath

instance (q : Request τ) : Decidable (s.IsResetPost q) := inferInstanceAs (Decidable (_ ∧ _))

/-- A status read whose reply shows a power state. -/
def ShowsPower (p : PowerState) (x : Request τ × Reply τ) : Prop :=
  s.IsStatusRead x.1 ∧
    ∃ es, Shows x.2.answer es ∧ PowerState.ofValue (member es "PowerState") = p

variable {s}

theorem IsReset.payload_inj {q : Request τ} {r r' : Reset} (h : s.IsReset r q)
    (h' : s.IsReset r' q) : r = r' := by
  have hp := h.2.2.symm.trans h'.2.2
  cases r <;> cases r' <;> first
    | rfl
    | simp [Reset.payload, Redfish.payload, Reset.name] at hp

theorem IsReset.isResetPost {q : Request τ} {r : Reset} (h : s.IsReset r q) : s.IsResetPost q :=
  ⟨h.1, h.2.1⟩

theorem IsStatusRead.not_isReset {q : Request τ} {r : Reset} (h : s.IsStatusRead q) :
    ¬s.IsReset r q := by
  intro hr
  have hm := h.1.symm.trans hr.1
  cases hm

variable (s)

/-- Resets of one kind, and after them status reads until they show what the resets lead to. -/
def Resets (r : Reset) (new : History τ) (o : Except Failure Unit) : Prop :=
  ∃ posts reads, new = posts ++ reads ∧ (∀ x ∈ posts, s.IsReset r x.1) ∧
    (∀ x ∈ reads, s.IsStatusRead x.1) ∧
    (o = .ok () → (∃ x ∈ posts, ∃ response, Accepted x.2.answer response) ∧
      ∃ pre x, reads = pre ++ [x] ∧ s.ShowsPower r.state x)

variable [Seconds τ] (net : Network τ)

theorem sends_powerStatus :
    (s.powerStatus net).Sends (Once (fun x => s.IsStatusRead x.1) s.ShowsPower) := by
  refine (sends_read net s "power_status" s.address.systemPath).map_once ?_
  exact fun hx hshows => ⟨hx, _, hshows, rfl⟩

theorem sends_sendReset (action : String) (r : Reset) :
    (s.sendReset net action r).Sends (Series (fun x => s.IsReset r x.1)
      fun _ x => ∃ response, Accepted x.2.answer response) := by
  refine (sends_send net s action .post s.resetPath r.payload).map (f := fun _ => ()) ?_ ?_
  · exact fun h => ⟨h.1, fun _ h => by cases h⟩
  · intro new response h
    refine ⟨h.1, fun _ _ => ?_⟩
    obtain ⟨pre, x, hnew, hx⟩ := h.2 response rfl
    exact ⟨pre, x, hnew, response, hx⟩

theorem sends_awaitPower (action : String) (p : PowerState) :
    (s.awaitPower net action p).Sends
      (Series (fun x => s.IsStatusRead x.1) fun _ x => s.ShowsPower p x) := by
  refine sends_poll_series ((s.sends_powerStatus net).map_once fun _ hshows hp => ?_)
  rw [← of_decide_eq_true hp]
  exact hshows

theorem sends_reset (action : String) (r : Reset) :
    (s.reset net action r).Sends (s.Resets r) := by
  refine (s.sends_sendReset net action r).bind
    (fun _ => s.sends_awaitPower net action r.state) ?_ ?_
  · intro new e h
    exact ⟨new, [], by simp, h.1, by simp, fun h => by cases h⟩
  · intro pre a post o hpre hpost
    obtain ⟨mid, x, rfl, hx⟩ := hpre.2 a rfl
    exact ⟨_, post, rfl, hpre.1, hpost.1, fun h => ⟨⟨x, by simp, hx⟩, hpost.2 () h⟩⟩

end OutOfBand.Redfish.System
