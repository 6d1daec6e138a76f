import OutOfBand.Proofs.Remote.History
import OutOfBand.Proofs.Remote.Rounds

namespace OutOfBand

variable {τ γ : Type}

namespace Limits

/-- Neither a deadline nor a cancellation. -/
structure IsOpen (l : Limits τ) : Prop where
  deadline : l.deadline = .none
  cancelled : l.cancelled = false
  cancelAt : l.cancelAt = .none

variable [Seconds τ] {l : Limits τ}

theorem IsOpen.fault? (h : l.IsOpen) (now : τ) : l.fault? now = .none := by
  rw [fault?_eq_none_iff, isCancelled, isExpired, h.cancelled, h.cancelAt, h.deadline]
  exact ⟨rfl, rfl⟩

theorem IsOpen.remaining (h : l.IsOpen) (now : τ) : l.remaining now = .none := by
  rw [Limits.remaining, h.deadline]
  rfl

end Limits

namespace Timeline

/-- The lengths of the pauses so far. -/
def waits (t : Timeline τ) : List τ := t.trace.filterMap Effect.wait?

theorem requests_eq_history (t : Timeline τ) : t.requests = t.history.map Prod.fst := by
  rw [requests, history, List.map_filterMap]
  refine congrArg (fun f => t.trace.filterMap f) (funext fun e => ?_)
  cases e <;> rfl

end Timeline

/-- The pauses of some length that a trace shows: a pause of no time leaves nothing. -/
def pauses [Seconds τ] (delay : τ) (n : Nat) : List τ :=
  if Seconds.lt Seconds.zero delay then List.replicate n delay else []

theorem pauses_add [Seconds τ] (delay : τ) (m n : Nat) :
    pauses delay (m + n) = pauses delay m ++ pauses delay n := by
  rw [pauses, pauses, pauses]
  split
  next => rw [List.replicate_add]
  next => rfl

theorem pauses_zero [Seconds τ] (delay : τ) : pauses delay 0 = [] := by
  rw [pauses]
  split <;> rfl

/-- What is sent and waited between two moments of a call. -/
structure Spends (t t' : Timeline τ) (sent : History τ) (waited : List τ) : Prop where
  history : t'.history = t.history ++ sent
  waits : t'.waits = t.waits ++ waited
  limits : t'.limits = t.limits

namespace Spends

variable {t t' t'' : Timeline τ} {sent sent' : History τ} {waited waited' : List τ}

theorem trans (h : Spends t t' sent waited) (h' : Spends t' t'' sent' waited') :
    Spends t t'' (sent ++ sent') (waited ++ waited') where
  history := by rw [h'.history, h.history, List.append_assoc]
  waits := by rw [h'.waits, h.waits, List.append_assoc]
  limits := h'.limits.trans h.limits

theorem isOpen (h : Spends t t' sent waited) (ht : t.limits.IsOpen) : t'.limits.IsOpen := by
  rw [h.limits]
  exact ht

theorem requests (h : Spends t t' sent waited) :
    t'.requests = t.requests ++ sent.map Prod.fst := by
  rw [t'.requests_eq_history, t.requests_eq_history, h.history, List.map_append]

theorem said (t : Timeline τ) (n : Notice) : Spends t (t.record (.noted n)) [] [] where
  history := by simp [Run.history_record]
  waits := by simp [Timeline.waits, Timeline.record, Effect.wait?]
  limits := rfl

theorem refl (t : Timeline τ) : Spends t t [] [] := ⟨by simp, by simp, rfl⟩

end Spends

theorem Run.run_sleep_of_isOpen [Seconds τ] {t : Timeline τ} (ht : t.limits.IsOpen) (delay : τ)
    (action : Option String) :
    ∃ t', (sleep delay action).run t = (.ok (), t') ∧ Spends t t' [] (pauses delay 1) := by
  rw [run_sleep, ht.fault?, ht.remaining, pauses]
  dsimp only [pauseLength]
  split
  next =>
    refine ⟨paused t delay, ?_, ?_, ?_, rfl⟩
    · have hopen : (paused t delay).limits.IsOpen := ht
      rw [run_check, hopen.fault?]
    · simp [Timeline.history, paused, Effect.exchange?]
    · simp [Timeline.waits, paused, Effect.wait?]
  next =>
    refine ⟨t, ?_, Spends.refl t⟩
    rw [run_check, ht.fault?]

namespace Network

/-- No reply cancels the call. -/
def IsSteady (net : Network τ) : Prop := ∀ earlier q, (net earlier q).cancels = false

variable (net : Network τ) (earlier : List (Request τ)) (q : Request τ)

/-- The reply to a request that has been sent `k` times since some others. -/
def reply (k : Nat) : Reply τ := net (earlier ++ List.replicate k q) q

/-- The same request so many times, with the replies to it. -/
def series (n : Nat) : History τ := (List.range n).map fun k => (q, net.reply earlier q k)

theorem reply_zero : net.reply earlier q 0 = net earlier q := by
  rw [reply, List.replicate_zero, List.append_nil]

theorem reply_concat (k : Nat) : net.reply (earlier ++ [q]) q k = net.reply earlier q (k + 1) := by
  rw [reply, reply, List.replicate_succ, List.append_assoc, List.singleton_append]

theorem series_succ (n : Nat) :
    net.series earlier q (n + 1) = (q, net earlier q) :: net.series (earlier ++ [q]) q n := by
  rw [series, series, List.range_succ_eq_map, List.map_cons, List.map_map]
  refine congrArg₂ List.cons ?_ (List.map_congr_left fun k _ => ?_)
  · rw [reply_zero]
  · rw [reply_concat]
    rfl

variable {net earlier q} in
theorem mem_series {k n : Nat} (hk : k < n) :
    (q, net.reply earlier q k) ∈ net.series earlier q n :=
  List.mem_map.mpr ⟨k, List.mem_range.mpr hk, rfl⟩

variable {net earlier q} in
theorem exists_of_mem_series {x : Request τ × Reply τ} {n : Nat}
    (h : x ∈ net.series earlier q n) : ∃ k < n, x = (q, net.reply earlier q k) := by
  obtain ⟨k, hk, rfl⟩ := List.mem_map.mp h
  exact ⟨k, List.mem_range.mp hk, rfl⟩

theorem series_concat (n : Nat) :
    net.series earlier q (n + 1) = net.series earlier q n ++ [(q, net.reply earlier q n)] := by
  rw [series, List.range_succ, List.map_append]
  rfl

theorem map_fst_series (n : Nat) : (net.series earlier q n).map Prod.fst = List.replicate n q := by
  rw [series, List.map_map]
  exact List.map_const'.trans (by rw [List.length_range])

end Network

theorem forall_lt_or_exists_first (p : Nat → Prop) (n : Nat) :
    (∀ i < n, p i) ∨ ∃ m < n, (∀ i < m, p i) ∧ ¬p m := by
  induction n with
  | zero => exact .inl fun i hi => absurd hi (Nat.not_lt_zero i)
  | succ n ih =>
    rcases ih with hall | ⟨m, hm, hfirst⟩
    · by_cases hn : p n
      · refine .inl fun i hi => ?_
        rcases Nat.lt_succ_iff_lt_or_eq.mp hi with hi | rfl
        · exact hall i hi
        · exact hn
      · exact .inr ⟨n, Nat.lt_succ_self n, hall, hn⟩
    · exact .inr ⟨m, Nat.lt_succ_of_lt hm, hfirst⟩

namespace Rounds

/-- Rounds of one request each, whose reply is judged. -/
structure Asks [Seconds τ] (R : Rounds τ γ) (net : Network τ) (q : Request τ)
    (judge : Answer → Except Failure γ) (delay : τ) : Prop where
  bar : ∀ {t}, t.limits.IsOpen → R.bar t = none
  act : ∀ {t}, t.limits.IsOpen → ∃ t', R.act.run t = (judge (net t.requests q).answer, t') ∧
    Spends t t' [(q, net t.requests q)] []
  tell : ∀ k out t, ∃ t', (R.tell k out).run t = (.ok (), t') ∧ Spends t t' [] []
  pause : ∀ {t}, t.limits.IsOpen → ∃ t', R.pause.run t = (.ok (), t') ∧
    Spends t t' [] (pauses delay 1)

namespace Asks

variable [Seconds τ] {R : Rounds τ γ} {net : Network τ} {q : Request τ}
  {judge : Answer → Except Failure γ} {delay : τ} {t : Timeline τ}

theorem run_next (h : R.Asks net q judge delay) (ht : t.limits.IsOpen)
    (hagain : R.again (judge (net t.requests q).answer) = true) (left k : Nat) :
    ∃ t', R.run (left + 1) k t = R.run left (k + 1) t' ∧
      Spends t t' [(q, net t.requests q)] (pauses delay (if left = 0 then 0 else 1)) := by
  obtain ⟨t₁, hact, hsent⟩ := h.act ht
  obtain ⟨t₂, htell, htold⟩ := h.tell k (judge (net t.requests q).answer) t₁
  have hsofar := hsent.trans htold
  rw [R.run_told (h.bar ht) hact hagain htell]
  by_cases hl : left = 0
  · subst hl
    rw [if_pos rfl, if_pos rfl, pauses_zero]
    exact ⟨t₂, rfl, hsofar⟩
  · obtain ⟨t₃, hpause, hwaited⟩ := h.pause (hsofar.isOpen ht)
    rw [if_neg hl, if_neg hl, hpause]
    exact ⟨t₃, rfl, by simpa using hsofar.trans hwaited⟩

theorem run_of_settled (h : R.Asks net q judge delay) (ht : t.limits.IsOpen) (n left k : Nat)
    (hn : n ≤ left)
    (hbefore : ∀ i < n, R.again (judge (net.reply t.requests q i).answer) = true)
    (hlast : R.again (judge (net.reply t.requests q n).answer) = false) :
    ∃ t', R.run (left + 1) k t = (judge (net.reply t.requests q n).answer, t') ∧
      Spends t t' (net.series t.requests q (n + 1)) (pauses delay n) := by
  induction n generalizing left k t with
  | zero =>
    rw [Network.reply_zero] at hlast ⊢
    obtain ⟨t', hact, hsent⟩ := h.act ht
    rw [R.run_settled (h.bar ht) hact hlast, Network.series_succ, pauses_zero]
    exact ⟨t', rfl, hsent⟩
  | succ n ih =>
    have hfirst := hbefore 0 (by omega)
    rw [Network.reply_zero] at hfirst
    obtain ⟨t₁, hrun, hspent⟩ := h.run_next ht hfirst left k
    rw [if_neg (by omega : left ≠ 0)] at hspent
    have hrequests : t₁.requests = t.requests ++ [q] := hspent.requests
    obtain ⟨m, rfl⟩ : ∃ m, left = m + 1 := ⟨left - 1, by omega⟩
    -- seen from after the first round, reply `i` is reply `i + 1`
    have hbefore' : ∀ i < n, R.again (judge (net.reply t₁.requests q i).answer) = true := by
      intro i hi
      rw [hrequests, Network.reply_concat]
      exact hbefore (i + 1) (by omega)
    have hlast' : R.again (judge (net.reply t₁.requests q n).answer) = false := by
      rwa [hrequests, Network.reply_concat]
    obtain ⟨t', hrun', hspent'⟩ := ih (hspent.isOpen ht) m (k + 1) (by omega) hbefore' hlast'
    have hall := hspent.trans hspent'
    rw [hrequests, Network.reply_concat] at hrun'
    rw [← pauses_add, Nat.add_comm 1 n, hrequests] at hall
    exact ⟨t', hrun.trans hrun', by rwa [Network.series_succ]⟩

theorem run_of_spent (h : R.Asks net q judge delay) (ht : t.limits.IsOpen) (left k : Nat)
    (hall : ∀ i < left, R.again (judge (net.reply t.requests q i).answer) = true) :
    ∃ t', R.run left k t = (.error R.gaveUp, t') ∧
      Spends t t' (net.series t.requests q left) (pauses delay (left - 1)) := by
  induction left generalizing k t with
  | zero =>
    rw [pauses_zero]
    exact ⟨t, rfl, Spends.refl t⟩
  | succ left ih =>
    have hfirst := hall 0 (by omega)
    rw [Network.reply_zero] at hfirst
    obtain ⟨t₁, hrun, hspent⟩ := h.run_next ht hfirst left k
    have hrequests : t₁.requests = t.requests ++ [q] := hspent.requests
    have hall' : ∀ i < left, R.again (judge (net.reply t₁.requests q i).answer) = true := by
      intro i hi
      rw [hrequests, Network.reply_concat]
      exact hall (i + 1) (by omega)
    obtain ⟨t', hrun', hspent'⟩ := ih (hspent.isOpen ht) (k + 1) hall'
    have hboth := hspent.trans hspent'
    have hcount : (if left = 0 then 0 else 1) + (left - 1) = left := by split <;> omega
    rw [← pauses_add, hcount, hrequests] at hboth
    exact ⟨t', hrun.trans hrun', by rwa [Network.series_succ]⟩

end Asks

end Rounds

end OutOfBand
