import OutOfBand.Proofs.Exact
import OutOfBand.Proofs.Remote.Ensures

namespace OutOfBand

variable {τ : Type} [LinearOrder τ] [Seconds τ]

namespace Limits

/-- Nothing ends a call up to some moment: it is not cancelled, and its deadline lies ahead. -/
structure Allows (l : Limits τ) (moment : τ) : Prop where
  uncancelled : ∀ m ≤ moment, l.isCancelled m = false
  ahead : ∀ d, l.deadline = some d → moment < d

theorem Allows.of_le {l : Limits τ} {now later : τ} (h : l.Allows later) (hle : now ≤ later) :
    l.Allows now :=
  ⟨fun m hm => h.uncancelled m (hm.trans hle), fun d hd => hle.trans_lt (h.ahead d hd)⟩

/-- What a call fails with at a moment that it must not reach. -/
def reason (l : Limits τ) (now : τ) : Remote.Cause :=
  if l.isCancelled now then .cancelled
  else .deadlineExceeded ((l.timeout.map Seconds.text).getD "")

end Limits

/-- A later moment of the same call, which may have been cancelled since. -/
structure Timeline.Precedes (t u : Timeline τ) : Prop where
  now : t.now ≤ u.now
  deadline : u.limits.deadline = t.limits.deadline
  cancelAt : u.limits.cancelAt = t.limits.cancelAt
  cancelled : t.limits.cancelled = true → u.limits.cancelled = true

/-- The calls that test the bounds within which they run. -/
inductive Run.IsTest : Run τ Unit → Prop
  | ofCheck (action : Option String) : IsTest (Run.check action)
  | ofSleep (delay : τ) (action : Option String) : IsTest (Run.sleep delay action)

variable [AddCommGroup τ] [Seconds.Exact τ]

namespace Limits

open Seconds.Exact

variable {l : Limits τ} {now later : τ}

theorem isCancelled_iff :
    l.isCancelled now = true ↔ l.cancelled = true ∨ ∃ c, l.cancelAt = some c ∧ c ≤ now := by
  simp only [isCancelled, Bool.or_eq_true, Option.any_eq_true, le_iff]

theorem isExpired_iff : l.isExpired now = true ↔ ∃ d, l.deadline = some d ∧ d ≤ now := by
  simp only [isExpired, Option.any_eq_true, le_iff]

theorem isCancelled_of_le (h : l.isCancelled now = true) (hle : now ≤ later) :
    l.isCancelled later = true := by
  rw [isCancelled_iff] at h ⊢
  exact h.imp_right fun ⟨c, hc, hnow⟩ => ⟨c, hc, hnow.trans hle⟩

theorem fault?_eq_none_iff_allows : l.fault? now = .none ↔ l.Allows now := by
  rw [fault?_eq_none_iff]
  constructor
  · rintro ⟨hcancelled, hexpired⟩
    refine ⟨fun m hm => ?_, fun d hd => lt_of_not_expired hd hexpired⟩
    rw [← Bool.not_eq_true] at hcancelled ⊢
    exact fun h => hcancelled (isCancelled_of_le h hm)
  · intro h
    refine ⟨h.uncancelled now le_rfl, ?_⟩
    rw [← Bool.not_eq_true, isExpired_iff]
    rintro ⟨d, hd, hle⟩
    exact absurd (h.ahead d hd) hle.not_gt

theorem fault?_of_not_allows (h : ¬ l.Allows now) : l.fault? now = some (l.reason now) := by
  rw [← fault?_eq_none_iff_allows, fault?] at h
  rw [fault?, reason]
  split at h
  next hc => rw [if_pos hc, if_pos hc]
  next hc =>
    split at h
    next he => rw [if_neg hc, if_pos he, if_neg hc]
    next => exact absurd rfl h

theorem not_allows_of_precedes {t u : Timeline τ} (h : t.Precedes u)
    (ht : ¬ t.limits.Allows t.now) : ¬ u.limits.Allows u.now := by
  refine fun hu => ht ⟨fun m hm => ?_, fun d hd => ?_⟩
  · have hcancelled := hu.uncancelled m (hm.trans h.now)
    rw [← Bool.not_eq_true, isCancelled_iff] at hcancelled ⊢
    rw [h.cancelAt] at hcancelled
    exact fun hor => hcancelled (hor.imp_left h.cancelled)
  · exact h.now.trans_lt (hu.ahead d (h.deadline.trans hd))

theorem wakeTime_of_uncancelled (seconds : τ)
    (h : l.isCancelled (l.wakeTime now seconds) = false) :
    l.wakeTime now seconds = now + seconds := by
  rw [← Bool.not_eq_true, isCancelled_iff] at h
  rw [wakeTime] at h ⊢
  simp only [add_eq, Seconds.greatest_eq] at h ⊢
  cases hc : l.cancelAt with
  | none => rfl
  | some c =>
    rw [hc] at h
    dsimp only at h ⊢
    split at h
    next => exact absurd (.inr ⟨c, rfl, le_max_right now c⟩) h
    next hlate => rw [if_neg hlate]

theorem wakeTime_le_cancelled {c seconds : τ} (h : l.isCancelled now = false)
    (hc : l.isCancelled c = true) : l.wakeTime now seconds ≤ max now c := by
  rw [← Bool.not_eq_true, isCancelled_iff, not_or] at h
  obtain ⟨a, ha, hac⟩ := (isCancelled_iff.mp hc).resolve_left h.1
  rw [wakeTime, ha]
  simp only [add_eq, Seconds.greatest_eq]
  split
  next => exact max_le_max_left now hac
  next hlate =>
    rw [le_iff, not_le] at hlate
    exact (hlate.le.trans hac).trans (le_max_right now c)

variable [IsOrderedAddMonoid τ]

theorem remaining_eq_zero_iff {d : τ} (hd : l.deadline = some d) :
    l.remaining now = some 0 ↔ l.isExpired now = true := by
  have hleft : l.remaining now = some (max 0 (d - now)) := by
    rw [remaining, hd, Option.map_some, sub_eq, Seconds.greatest_eq, zero_eq]
  rw [hleft, isExpired_iff, Option.some_inj, max_eq_left_iff, sub_nonpos]
  refine ⟨fun h => ⟨d, hd, h⟩, ?_⟩
  rintro ⟨e, he, hle⟩
  cases hd.symm.trans he
  exact hle

end Limits

namespace Run

variable {t : Timeline τ}

open Limits

theorem run_check_eq_ok_iff {action : Option String} :
    ((check action : Run τ Unit).run t).1 = .ok () ↔ t.limits.Allows t.now := by
  rw [run_check, ← fault?_eq_none_iff_allows]
  cases t.limits.fault? t.now <;> simp

/-- No test passes at a moment that its call must not reach. -/
theorem IsTest.ne_ok {r : Run τ Unit} (hr : r.IsTest) (h : ¬ t.limits.Allows t.now) :
    (r.run t).1 ≠ .ok () := by
  cases hr with
  | ofCheck action => exact fun hok => h (run_check_eq_ok_iff.mp hok)
  | ofSleep delay action =>
    rw [run_sleep, fault?_of_not_allows h]
    simp

variable [IsOrderedAddMonoid τ]

/-- A wait of some length; none at all where that is no time. -/
def waits (delay : τ) : List (Effect τ) := if 0 < delay then [.wait delay] else []

/-- The moment at which a pause is over, in full or not, and how it was waited for. -/
structure IsEnd (t : Timeline τ) (delay : τ) (t' : Timeline τ) : Prop where
  limits : t'.limits = t.limits
  waited : ∃ ws : List (Effect τ), t'.trace = t.trace ++ ws ∧ (∀ e ∈ ws, ∃ w, e = .wait w) ∧
    (t.limits.Allows t'.now → ws = waits delay)
  le_over : t'.now ≤ t.now + max delay 0
  le_deadline : ∀ d, t.limits.deadline = some d → t'.now ≤ max t.now d
  le_cancelled : ∀ c, t.limits.isCancelled c = true → t'.now ≤ max t.now c
  inFull : t.limits.Allows t'.now → t'.now = t.now + max delay 0

theorem pauseLength_le (delay : τ) (h : t.limits.Allows t.now) :
    pauseLength delay (t.limits.remaining t.now) ≤ delay ∧
      (∀ d, t.limits.deadline = some d →
        pauseLength delay (t.limits.remaining t.now) ≤ d - t.now) ∧
      (pauseLength delay (t.limits.remaining t.now) = delay ∨
        ∃ d, t.limits.deadline = some d ∧ 0 < d - t.now ∧
          pauseLength delay (t.limits.remaining t.now) = d - t.now) := by
  cases hd : t.limits.deadline with
  | none =>
    have hlength : pauseLength delay (t.limits.remaining t.now) = delay := by
      rw [remaining, hd]
      rfl
    exact ⟨hlength.le, by simp, .inl hlength⟩
  | some d =>
    have hahead := h.ahead d hd
    have hlength : pauseLength delay (t.limits.remaining t.now) = min delay (d - t.now) := by
      rw [remaining_of_lt hd hahead, pauseLength, Seconds.least_eq]
    rw [hlength]
    refine ⟨min_le_left _ _, ?_, ?_⟩
    · rintro e he
      cases he
      exact min_le_right _ _
    · rcases le_total delay (d - t.now) with hle | hle
      · exact .inl (min_eq_left hle)
      · exact .inr ⟨d, rfl, sub_pos.mpr hahead, min_eq_right hle⟩

theorem isEnd_paused {delay : τ} (hnow : t.limits.Allows t.now)
    (hpos : 0 < pauseLength delay (t.limits.remaining t.now)) :
    IsEnd t delay (paused t (pauseLength delay (t.limits.remaining t.now))) := by
  obtain ⟨hdelay, hleft, hlength⟩ := pauseLength_le delay hnow
  generalize pauseLength delay (t.limits.remaining t.now) = seconds at hdelay hleft hlength hpos ⊢
  have hmax : max delay 0 = delay := max_eq_left (hpos.le.trans hdelay)
  have hwake := wakeTime_le (l := t.limits) t.now seconds hpos.le
  have hfull (h : t.limits.Allows (paused t seconds).now) :
      seconds = delay ∧ (paused t seconds).now = t.now + delay := by
    have hend : (paused t seconds).now = t.now + seconds :=
      wakeTime_of_uncancelled seconds (h.uncancelled _ le_rfl)
    rcases hlength with rfl | ⟨d, hd, -, rfl⟩
    · exact ⟨rfl, hend⟩
    -- a pause that the deadline has cut short is over at the deadline
    · rw [hend] at h
      exact absurd (h.ahead d hd) (by simp)
  refine ⟨rfl, ⟨[.wait seconds], rfl, by simp, fun h => ?_⟩, ?_, fun d hd => ?_, fun c hc => ?_,
    fun h => ?_⟩
  · obtain ⟨rfl, -⟩ := hfull h
    rw [waits, if_pos hpos]
  · rw [hmax]
    exact hwake.trans (add_le_add_right hdelay t.now)
  · refine (hwake.trans ?_).trans (le_max_right _ _)
    rw [← le_sub_iff_add_le']
    exact hleft d hd
  · exact wakeTime_le_cancelled (hnow.uncancelled t.now le_rfl) hc
  · rw [hmax, (hfull h).2]

/-- A pause is a check at the moment at which it is over. -/
theorem exists_end (delay : τ) (action : Option String) (t : Timeline τ) :
    ∃ t', (sleep delay action).run t = (check action).run t' ∧ IsEnd t delay t' := by
  -- a pause that has no length is over at once, and so is one whose call has ended
  have hself (h : t.limits.Allows t.now → delay ≤ 0) : IsEnd t delay t :=
    { limits := rfl
      waited := ⟨[], by simp, by simp, fun hnow => by rw [waits, if_neg (not_lt.mpr (h hnow))]⟩
      le_over := le_add_of_nonneg_right (le_max_right delay 0)
      le_deadline := fun _ _ => le_max_left _ _
      le_cancelled := fun _ _ => le_max_left _ _
      inFull := fun hnow => by rw [max_eq_right (h hnow), add_zero] }
  rw [run_sleep]
  by_cases hnow : t.limits.Allows t.now
  · rw [fault?_eq_none_iff_allows.mpr hnow]
    dsimp only
    simp only [Seconds.Exact.lt_iff, Seconds.Exact.zero_eq]
    by_cases hpos : 0 < pauseLength delay (t.limits.remaining t.now)
    · rw [if_pos hpos]
      exact ⟨_, rfl, isEnd_paused hnow hpos⟩
    · have hnone : delay ≤ 0 := by
        obtain ⟨-, -, hlength | ⟨d, -, hd, hlength⟩⟩ := pauseLength_le delay hnow
        · rwa [hlength, not_lt] at hpos
        · rw [hlength] at hpos
          exact absurd hd hpos
      rw [if_neg hpos]
      exact ⟨t, rfl, hself fun _ => hnone⟩
  · have hcheck : (check action).run t =
        (.error (.remote ⟨t.limits.reason t.now, action, none⟩), t) := by
      rw [run_check, fault?_of_not_allows hnow]
    rw [fault?_of_not_allows hnow]
    exact ⟨t, hcheck.symm, hself fun h => absurd h hnow⟩

theorem isEnd_of_run_sleep {delay : τ} {action : Option String} {t' : Timeline τ}
    (h : (sleep delay action).run t = (.ok (), t')) : IsEnd t delay t' ∧ t.limits.Allows t'.now := by
  obtain ⟨u, hrun, hend⟩ := exists_end delay action t
  have hcheck : (check action).run u = (.ok (), t') := hrun.symm.trans h
  have hallows : u.limits.Allows u.now := run_check_eq_ok_iff.mp (congrArg Prod.fst hcheck)
  rw [run_check, fault?_eq_none_iff_allows.mpr hallows] at hcheck
  cases hcheck
  rw [hend.limits] at hallows
  exact ⟨hend, hallows⟩

theorem IsTest.not_allows {r : Run τ Unit} (hr : r.IsTest) (h : (r.run t).1 ≠ .ok ()) :
    ¬ (r.run t).2.limits.Allows (r.run t).2.now := by
  have checked (action : Option String) (t : Timeline τ)
      (h : ((check action : Run τ Unit).run t).1 ≠ .ok ()) :
      ¬ ((check action : Run τ Unit).run t).2.limits.Allows
        ((check action : Run τ Unit).run t).2.now := by
    have hnot : ¬ t.limits.Allows t.now := fun hallows => h (run_check_eq_ok_iff.mpr hallows)
    rw [run_check, fault?_of_not_allows hnot]
    exact hnot
  cases hr with
  | ofCheck action => exact checked action t h
  | ofSleep delay action =>
    obtain ⟨t', hrun, -⟩ := exists_end delay action t
    rw [hrun] at h ⊢
    exact checked action t' h

/-- A pause passes exactly if nothing ends its call until it is over, and has then been waited for
in full. One that fails does so for what ends the call at that moment, no later than it would have
been over, and not past the deadline or a cancellation unless these were past before. After any test
has failed all later ones do, and a call that has a deadline has time left until it expires. -/
theorem sleep_in_full_or_stopped (delay : τ) (action : Option String) (t : Timeline τ) :
    let due := t.now + max delay 0
    let final := (sleep delay action).run t
    final.2.limits = t.limits ∧
      (final.1 = .ok () ↔ t.limits.Allows due) ∧
      (final.1 = .ok () → final.2.now = due) ∧
      (final.1 ≠ .ok () →
        final.1 = .error (.remote ⟨t.limits.reason final.2.now, action, none⟩) ∧
          final.2.now ≤ due ∧
          (∀ d, t.limits.deadline = some d → final.2.now ≤ max t.now d) ∧
          ∀ c, t.limits.isCancelled c = true → final.2.now ≤ max t.now c) ∧
      (∀ r r' : Run τ Unit, r.IsTest → r'.IsTest → (r.run t).1 ≠ .ok () →
        ∀ u, (r.run t).2.Precedes u → (r'.run u).1 ≠ .ok ()) ∧
      ∀ d, t.limits.deadline = some d →
        (t.limits.remaining t.now = some 0 ↔ t.limits.isExpired t.now = true) := by
  intro due final
  obtain ⟨t', hrun, hend⟩ := exists_end delay action t
  have hfinal : final = (check action).run t' := hrun
  have hafter : final.2 = t' := by
    rw [hfinal, run_check]
    cases t'.limits.fault? t'.now <;> rfl
  have hok : final.1 = .ok () ↔ t.limits.Allows t'.now := by
    rw [hfinal, run_check_eq_ok_iff, hend.limits]
  rw [hafter]
  refine ⟨hend.limits, hok.trans ⟨fun h => ?_, fun h => h.of_le hend.le_over⟩,
    fun h => hend.inFull (hok.mp h), fun h => ?_, fun r r' hr hr' h u hu => ?_, fun d hd =>
    remaining_eq_zero_iff hd⟩
  · change t.limits.Allows (t.now + max delay 0)
    rwa [← hend.inFull h]
  · refine ⟨?_, hend.le_over, hend.le_deadline, hend.le_cancelled⟩
    rw [hfinal, run_check, hend.limits, fault?_of_not_allows fun hallows => h (hok.mpr hallows)]
  · exact hr'.ne_ok (not_allows_of_precedes hu (hr.not_allows h))

end Run

namespace Sample

/-- A call that has five seconds and is cancelled after four. -/
def cancelledAtFour : Timeline Int := ⟨0, { Limits.starting (some 5) 0 with cancelAt := some 4 }, []⟩

end Sample

open Sample in
/-- A pause of three seconds is waited for in full, one of four is over at the cancellation. -/
theorem sleep_in_full_before_cancellation :
    let final := (Run.sleep 4 (some "reset")).run cancelledAtFour
    ((Run.sleep 3 none).run cancelledAtFour).1 = .ok () ∧
      ((Run.sleep 3 none).run cancelledAtFour).2.now = 3 ∧
      final.1 = .error (.remote ⟨.cancelled, some "reset", none⟩) ∧ final.2.now ≤ 4 ∧
      (Run.check none |>.run final.2).1 ≠ .ok () := by
  intro final
  obtain ⟨-, -, inFull, -⟩ := Run.sleep_in_full_or_stopped 3 none cancelledAtFour
  obtain ⟨-, -, -, stopped, later, -⟩ := Run.sleep_in_full_or_stopped 4 (some "reset") cancelledAtFour
  have hpasses : ((Run.sleep 3 none).run cancelledAtFour).1 = .ok () := by rfl
  have hfails : final.1 ≠ .ok () := by
    have herror : final.1 = .error (.remote ⟨.cancelled, some "reset", none⟩) := by rfl
    simp [herror]
  obtain ⟨hreason, -, -, hcancelled⟩ := stopped hfails
  refine ⟨hpasses, inFull hpasses, by rw [hreason]; rfl, hcancelled 4 (by decide), ?_⟩
  exact later _ _ (.ofSleep 4 (some "reset")) (.ofCheck none) hfails _ ⟨le_rfl, rfl, rfl, id⟩

end OutOfBand
