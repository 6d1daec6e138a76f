import OutOfBand.Proofs.Redfish.Attempts
import OutOfBand.Proofs.Redfish.Bounds
import OutOfBand.Proofs.Redfish.Power

namespace OutOfBand.Redfish

namespace Reset

/-- The operation that is one reset. -/
def operation : Reset → Operation
  | on => .powerOn
  | forceOff => .powerOff

def action : Reset → String
  | on => "power_on"
  | forceOff => "power_off"

end Reset

def powerOf (es : Resource) : PowerState := PowerState.ofValue (member es "PowerState")

/-- An object that does not show the state that a reset leads to. -/
def Reset.Awaits (r : Reset) (es : Resource) : Prop := powerOf es ≠ r.state

instance (r : Reset) : DecidablePred r.Awaits := fun es =>
  inferInstanceAs (Decidable (powerOf es ≠ r.state))

namespace System

variable {τ : Type} (s : System τ) (r : Reset)

def order : Request τ := s.plainly .post s.resetPath (some r.payload)

def glance : Request τ := s.plainly .get s.address.systemPath none

variable (net : Network τ) (t : Timeline τ)

/-- The reply to the reset that follows some others. -/
def resetReply (i : Nat) : Reply τ := net.reply t.requests (s.order r) i

/-- What has been sent when reset number `i`, counted from zero, was the last one. -/
def resetsUntil (i : Nat) : List (Request τ) := t.requests ++ List.replicate (i + 1) (s.order r)

/-- The reply to the look that follows some others, all of them after reset number `i`. -/
def lookReply (i k : Nat) : Reply τ := net.reply (s.resetsUntil r t i) s.glance k

/-- Reset number `i` is accepted, and those before it fail in a way that may pass. -/
structure Obeyed (i : Nat) : Prop where
  passing : ∀ k < i, Passing .post (s.resetReply r net t k).answer
  accepted : ∃ response, Accepted (s.resetReply r net t i).answer response

/-- Look number `j` is the first that shows the state, and no look before it fails for good. -/
structure Arrives (i j : Nat) : Prop where
  pending : ∀ k < j, Pending r.Awaits (s.lookReply r net t i k).answer
  shows : ∃ es, Shows (s.lookReply r net t i j).answer es ∧ powerOf es = r.state

variable {s r net t} {n i j : Nat}

theorem perform_switch [Seconds τ] (r : Reset) :
    (s.client net).perform r.operation = s.reset net r.action r := by
  cases r <;> rfl

theorem Arrives.not_pending (h : s.Arrives r net t i j) :
    ¬Pending r.Awaits (s.lookReply r net t i j).answer := by
  obtain ⟨es, hes, hstate⟩ := h.shows
  exact fun hpending => hpending.of_shows hes hstate

/-- What the replies may come to while `n` retries are left: the state is reached, resets or looks
are used up, or some reply fails for good. -/
inductive Fate (s : System τ) (r : Reset) (net : Network τ) (t : Timeline τ) (n : Nat) : Prop
  | reached (i j : Nat) (hi : i ≤ n) (hj : j ≤ n) (obeyed : s.Obeyed r net t i)
      (arrives : s.Arrives r net t i j)
  | deaf (passing : ∀ k ≤ n, Passing .post (s.resetReply r net t k).answer)
  | waiting (i : Nat) (hi : i ≤ n) (obeyed : s.Obeyed r net t i)
      (pending : ∀ k ≤ n, Pending r.Awaits (s.lookReply r net t i k).answer)
  | refused (i : Nat) (hi : i ≤ n)
      (passing : ∀ k < i, Passing .post (s.resetReply r net t k).answer)
      (last : ¬Passing .post (s.resetReply r net t i).answer)
      (refused : ∀ response, ¬Accepted (s.resetReply r net t i).answer response)
  | blind (i j : Nat) (hi : i ≤ n) (hj : j ≤ n) (obeyed : s.Obeyed r net t i)
      (pending : ∀ k < j, Pending r.Awaits (s.lookReply r net t i k).answer)
      (last : ¬Pending r.Awaits (s.lookReply r net t i j).answer)
      (blind : ∀ es, ¬Shows (s.lookReply r net t i j).answer es)

theorem exists_fate (s : System τ) (r : Reset) (net : Network τ) (t : Timeline τ) (n : Nat) :
    s.Fate r net t n := by
  rcases forall_lt_or_exists_first
    (fun k => Passing .post (s.resetReply r net t k).answer) (n + 1) with
    hall | ⟨i, hi, hpre, hlast⟩
  · exact .deaf fun k hk => hall k (by omega)
  · by_cases haccepted : ∃ response, Accepted (s.resetReply r net t i).answer response
    · have hobeyed : s.Obeyed r net t i := ⟨hpre, haccepted⟩
      rcases forall_lt_or_exists_first
        (fun k => Pending r.Awaits (s.lookReply r net t i k).answer) (n + 1) with
        hall | ⟨j, hj, hpending, hend⟩
      · exact .waiting i (by omega) hobeyed fun k hk => hall k (by omega)
      · by_cases hshows : ∃ es, Shows (s.lookReply r net t i j).answer es
        · obtain ⟨es, hes⟩ := hshows
          have hstate : powerOf es = r.state := by
            by_contra hne
            exact hend (.inr ⟨es, hes, hne⟩)
          exact .reached i j (by omega) (by omega) hobeyed ⟨hpending, es, hes, hstate⟩
        · exact .blind i j (by omega) (by omega) hobeyed hpending hend
            fun es hes => hshows ⟨es, hes⟩
    · exact .refused i (by omega) hpre hlast fun response h => haccepted ⟨response, h⟩

section Runs

variable [Seconds τ] (hnet : net.IsSteady) (ht : t.limits.IsOpen) (hn : s.retries = n)

theorem run_awaited (s : System τ) (net : Network τ) (p : PowerState) (t : Timeline τ) :
    (do return (← s.powerStatus net) = p : Run τ Bool).run t =
      match (s.read net "power_status" s.address.systemPath).run t with
      | (.ok es, t') => (.ok (decide (powerOf es = p)), t')
      | (.error f, t') => (.error f, t') := by
  rw [powerStatus, Run.run_bind, Run.run_bind]
  rcases (s.read net "power_status" s.address.systemPath).run t with ⟨f | es, t'⟩ <;> rfl

theorem goesOn_eq (r : Reset) :
    (fun es => (.ok (decide (powerOf es = r.state)) : Except Failure Bool) = .ok false) =
      r.Awaits := by
  funext es
  simp [Reset.Awaits]

include hnet ht hn

/-- Accepted resets are over once the one that is accepted has been sent; then the looks decide. -/
theorem run_reset_of_obeyed (hi : i ≤ n) (h : s.Obeyed r net t i) :
    ∃ t', (s.reset net r.action r).run t = (s.awaitPower net r.action r.state).run t' ∧
      Spends t t' (net.series t.requests (s.order r) (i + 1)) (pauses s.delay i) ∧
      t'.requests = s.resetsUntil r t i := by
  obtain ⟨response, haccepted⟩ := h.accepted
  obtain ⟨t', hrun, hspent⟩ := run_send_of_settled hnet ht hn r.action s.resetPath r.payload hi
    h.passing (haccepted.not_passing .post)
  have hok := hrun.trans (congrArg (·, t') (answered_of_accepted haccepted r.action .post _))
  refine ⟨t', ?_, hspent, ?_⟩
  · rw [reset, Run.run_bind, sendReset, Run.run_bind, hok]
    rfl
  · rw [hspent.requests, Network.map_fst_series, resetsUntil, order]

theorem run_reset_of_settled (hi : i ≤ n) (hj : j ≤ n) (h : s.Obeyed r net t i)
    (hpending : ∀ k < j, Pending r.Awaits (s.lookReply r net t i k).answer)
    (hend : ¬Pending r.Awaits (s.lookReply r net t i j).answer) :
    ∃ t', (s.reset net r.action r).run t =
        ((s.seen "power_status" s.address.systemPath
          (fun es => .ok (decide (powerOf es = r.state)))
          (s.lookReply r net t i j).answer).map fun _ => (), t') ∧
      Spends t t' (net.series t.requests (s.order r) (i + 1) ++
        net.series (s.resetsUntil r t i) s.glance (j + 1)) (pauses s.delay (i + j)) := by
  obtain ⟨t₁, hrun, hspent, hsent⟩ := run_reset_of_obeyed hnet ht hn hi h
  -- looks are counted from the moment at which the reset has been accepted
  simp only [lookReply, ← hsent, ← goesOn_eq] at hpending hend ⊢
  obtain ⟨t', hrun', hspent'⟩ := run_poll_of_settled hnet (hspent.isOpen ht) hn r.action
    (by simp) (run_awaited s net r.state) hj hpending hend
  refine ⟨t', by rw [hrun, awaitPower, hrun', glance], ?_⟩
  rw [pauses_add]
  exact hspent.trans hspent'

theorem run_reset_of_arrives (hi : i ≤ n) (hj : j ≤ n) (h : s.Obeyed r net t i)
    (harrives : s.Arrives r net t i j) :
    ∃ t', (s.reset net r.action r).run t = (.ok (), t') ∧
      Spends t t' (net.series t.requests (s.order r) (i + 1) ++
        net.series (s.resetsUntil r t i) s.glance (j + 1)) (pauses s.delay (i + j)) := by
  obtain ⟨t', hrun, hspent⟩ :=
    run_reset_of_settled hnet ht hn hi hj h harrives.pending harrives.not_pending
  obtain ⟨es, hes, hstate⟩ := harrives.shows
  rw [seen_eq_of_shows hes, hstate] at hrun
  exact ⟨t', by simpa [Except.map] using hrun, hspent⟩

theorem run_reset_of_deaf (h : ∀ k ≤ n, Passing .post (s.resetReply r net t k).answer) :
    ∃ t', (s.reset net r.action r).run t = (.error (s.gaveUp r.action n), t') ∧
      Spends t t' (net.series t.requests (s.order r) (n + 1)) (pauses s.delay n) := by
  obtain ⟨t', hrun, hspent⟩ := run_send_of_spent hnet ht hn r.action s.resetPath r.payload h
  refine ⟨t', ?_, hspent⟩
  rw [reset, Run.run_bind, sendReset, Run.run_bind, hrun]

theorem run_reset_of_waiting (hi : i ≤ n) (h : s.Obeyed r net t i)
    (hpending : ∀ k ≤ n, Pending r.Awaits (s.lookReply r net t i k).answer) :
    ∃ t', (s.reset net r.action r).run t = (.error (s.gaveUp r.action n), t') ∧
      Spends t t' (net.series t.requests (s.order r) (i + 1) ++
        net.series (s.resetsUntil r t i) s.glance (n + 1)) (pauses s.delay (i + n)) := by
  obtain ⟨t₁, hrun, hspent, hsent⟩ := run_reset_of_obeyed hnet ht hn hi h
  simp only [lookReply, ← hsent, ← goesOn_eq] at hpending ⊢
  obtain ⟨t', hrun', hspent'⟩ := run_poll_of_spent hnet (hspent.isOpen ht) hn r.action
    (by simp) (run_awaited s net r.state) hpending
  refine ⟨t', by rw [hrun, awaitPower, hrun'], ?_⟩
  rw [pauses_add]
  exact hspent.trans hspent'

theorem sent_reset_of_refused (hi : i ≤ n)
    (hpassing : ∀ k < i, Passing .post (s.resetReply r net t k).answer)
    (hlast : ¬Passing .post (s.resetReply r net t i).answer)
    (hrefused : ∀ response, ¬Accepted (s.resetReply r net t i).answer response) :
    ∃ sent, ((s.reset net r.action r).run t).2.history = t.history ++ sent ∧
      (s.order r, s.resetReply r net t i) ∈ sent := by
  obtain ⟨t', hrun, hspent⟩ := run_send_of_settled hnet ht hn r.action s.resetPath r.payload hi
    hpassing hlast
  cases ha : answered r.action .post (s.url s.resetPath) (s.resetReply r net t i).answer with
  | ok response => exact absurd (accepted_of_answered ha) (hrefused response)
  | error f =>
    have herror := hrun.trans (congrArg (·, t') ha)
    refine ⟨_, ?_, Network.mem_series (Nat.lt_succ_self i)⟩
    rw [reset, Run.run_bind, sendReset, Run.run_bind, herror]
    exact hspent.history

theorem switch_of_fate (h : s.Fate r net t n) :
    let final := ((s.client net).perform r.operation).run t
    (final.1 = .ok () ∧ ∃ i ≤ n, ∃ j ≤ n, s.Obeyed r net t i ∧ s.Arrives r net t i j) ∨
      (final.1 = .error (s.gaveUp r.action n) ∧
        ((∀ k ≤ n, Passing .post (s.resetReply r net t k).answer) ∨
          ∃ i ≤ n, s.Obeyed r net t i ∧
            ∀ k ≤ n, Pending r.Awaits (s.lookReply r net t i k).answer)) ∨
      s.FailsAtRejected final t := by
  intro final
  have hfinal : final = (s.reset net r.action r).run t := by rw [← perform_switch]
  cases h with
  | reached i j hi hj obeyed arrives =>
    obtain ⟨t', hrun, -⟩ := run_reset_of_arrives hnet ht hn hi hj obeyed arrives
    exact .inl ⟨by rw [hfinal, hrun], i, hi, j, hj, obeyed, arrives⟩
  | deaf passing =>
    obtain ⟨t', hrun, -⟩ := run_reset_of_deaf hnet ht hn passing
    exact .inr (.inl ⟨by rw [hfinal, hrun], .inl passing⟩)
  | waiting i hi obeyed pending =>
    obtain ⟨t', hrun, -⟩ := run_reset_of_waiting hnet ht hn hi obeyed pending
    exact .inr (.inl ⟨by rw [hfinal, hrun], .inr ⟨i, hi, obeyed, pending⟩⟩)
  | refused i hi passing last refused =>
    obtain ⟨sent, hsent, hx⟩ := sent_reset_of_refused hnet ht hn hi passing last refused
    obtain ⟨cause, hrejects⟩ := exists_rejects (s := s)
      (x := (s.order r, s.resetReply r net t i)) last refused
    rw [← hfinal] at hsent
    exact .inr (.inr (failsAtRejected_of_mem hsent hx hrejects))
  | blind i j hi hj obeyed pending last blind =>
    obtain ⟨t', hrun, hspent⟩ := run_reset_of_settled hnet ht hn hi hj obeyed pending last
    have hsent := hspent.history
    obtain ⟨cause, hrejects⟩ := exists_rejects_of_read (s := s)
      (x := (s.glance, s.lookReply r net t i j)) ⟨rfl, rfl, rfl⟩ (fun h => last (.inl h)) blind
    have hx : (s.glance, s.lookReply r net t i j) ∈
        net.series (s.resetsUntil r t i) s.glance (j + 1) :=
      Network.mem_series (Nat.lt_succ_self j)
    have ht' : t' = final.2 := by rw [hfinal, hrun]
    rw [ht'] at hsent
    exact .inr (.inr (failsAtRejected_of_mem hsent (List.mem_append_right _ hx) hrejects))

/-- With `n` retries a system is switched exactly when one of the first `n + 1` resets is accepted,
after others that fail in a way that may pass, and one of the first `n + 1` looks after it shows the
state, after others that fail in such a way or show another state; no more is sent then. All
attempts have failed exactly when all those resets fail in such a way, and then nothing is looked
at, or one of them is accepted and no look shows the state. Otherwise a reply that fails for good
comes first, which is the last one, and the failure. -/
theorem switch_ends_by_replies (r : Reset) :
    let final := ((s.client net).perform r.operation).run t
    (final.1 = .ok () ↔ ∃ i ≤ n, ∃ j ≤ n, s.Obeyed r net t i ∧ s.Arrives r net t i j) ∧
      (∀ i ≤ n, ∀ j ≤ n, s.Obeyed r net t i → s.Arrives r net t i j →
        Spends t final.2 (net.series t.requests (s.order r) (i + 1) ++
          net.series (s.resetsUntil r t i) s.glance (j + 1)) (pauses s.delay (i + j))) ∧
      (final.1 = .error (s.gaveUp r.action n) ↔
        (∀ k ≤ n, Passing .post (s.resetReply r net t k).answer) ∨
          ∃ i ≤ n, s.Obeyed r net t i ∧
            ∀ k ≤ n, Pending r.Awaits (s.lookReply r net t i k).answer) ∧
      ((∀ k ≤ n, Passing .post (s.resetReply r net t k).answer) →
        Spends t final.2 (net.series t.requests (s.order r) (n + 1)) (pauses s.delay n)) ∧
      (final.1 ≠ .ok () → final.1 ≠ .error (s.gaveUp r.action n) → s.FailsAtRejected final t) := by
  intro final
  have hfinal : final = (s.reset net r.action r).run t := by rw [← perform_switch]
  have hways := switch_of_fate hnet ht hn (exists_fate s r net t n)
  refine ⟨⟨fun hok => ?_, ?_⟩, ?_, ⟨fun hgaveUp => ?_, ?_⟩, ?_, fun hok hgaveUp => ?_⟩
  · rcases hways with ⟨-, h⟩ | ⟨hgaveUp, -⟩ | ⟨pre, x, e, -, -, -, he⟩
    · exact h
    · cases hok.symm.trans hgaveUp
    · cases hok.symm.trans he
  · rintro ⟨i, hi, j, hj, obeyed, arrives⟩
    obtain ⟨t', hrun, -⟩ := run_reset_of_arrives hnet ht hn hi hj obeyed arrives
    rw [hfinal, hrun]
  · intro i hi j hj obeyed arrives
    obtain ⟨t', hrun, hspent⟩ := run_reset_of_arrives hnet ht hn hi hj obeyed arrives
    rw [hfinal, hrun]
    exact hspent
  · rcases hways with ⟨hok, -⟩ | ⟨-, h⟩ | ⟨pre, x, e, -, -, hx, he⟩
    · cases hok.symm.trans hgaveUp
    · exact h
    · cases hgaveUp.symm.trans he
      cases hx
  · rintro (passing | ⟨i, hi, obeyed, pending⟩)
    · obtain ⟨t', hrun, -⟩ := run_reset_of_deaf hnet ht hn passing
      rw [hfinal, hrun]
    · obtain ⟨t', hrun, -⟩ := run_reset_of_waiting hnet ht hn hi obeyed pending
      rw [hfinal, hrun]
  · intro passing
    obtain ⟨t', hrun, hspent⟩ := run_reset_of_deaf hnet ht hn passing
    rw [hfinal, hrun]
    exact hspent
  · rcases hways with ⟨h, -⟩ | ⟨h, -⟩ | h
    · exact absurd h hok
    · exact absurd h hgaveUp
    · exact h

end Runs

end System

end Redfish

namespace Sample

/-- A service that is busy at first, and a machine that is off when it is first looked at. -/
def slowStart : Network Int := fun earlier q =>
  let first := (earlier.filter fun p => p.method = q.method).isEmpty
  let state := if first then "Off" else "On"
  match q.method with
  | .get => ⟨.response ⟨200, "", [], some (Redfish.payload [("PowerState", .str state)])⟩, 1, false⟩
  | _ => ⟨.response ⟨if first then 503 else 204, "", [], none⟩, 1, false⟩

end Sample

open Sample Redfish Redfish.System in
/-- The second reset is accepted, and the second look shows the machine switched on. -/
theorem switched_on_at_second_look :
    let final := ((system.client slowStart).perform .powerOn).run Timeline.start
    slowStart.IsSteady ∧ (Timeline.start (τ := Int)).limits.IsOpen ∧ system.retries = (2 : Nat) ∧
      system.Obeyed .on slowStart Timeline.start 1 ∧
      system.Arrives .on slowStart Timeline.start 1 1 ∧
      final.1 = .ok () ∧ final.2.history.length = 4 ∧ final.2.waits = [1, 1] := by
  intro final
  have hnet : slowStart.IsSteady := by
    intro earlier q
    rw [slowStart]
    split <;> rfl
  have ht : (Timeline.start (τ := Int)).limits.IsOpen := ⟨rfl, rfl, rfl⟩
  have hn : system.retries = (2 : Nat) := rfl
  have hobeyed : system.Obeyed .on slowStart Timeline.start 1 := by
    refine ⟨fun k hk => ?_, _, rfl, by decide⟩
    obtain rfl : k = 0 := by omega
    exact ⟨by decide, .inr (by decide)⟩
  have harrives : system.Arrives .on slowStart Timeline.start 1 1 := by
    refine ⟨fun k hk => ?_, _, ⟨_, ⟨rfl, by decide⟩, rfl⟩, by decide⟩
    obtain rfl : k = 0 := by omega
    exact .inr ⟨_, ⟨_, ⟨rfl, by decide⟩, rfl⟩, by decide⟩
  obtain ⟨hok, hspends, -⟩ := switch_ends_by_replies hnet ht hn .on
  have hspent := hspends 1 (by decide) 1 (by decide) hobeyed harrives
  refine ⟨hnet, ht, hn, hobeyed, harrives, ?_, ?_, ?_⟩
  · exact hok.mpr ⟨1, by decide, 1, by decide, hobeyed, harrives⟩
  · exact congrArg List.length hspent.history
  · exact hspent.waits

end OutOfBand
