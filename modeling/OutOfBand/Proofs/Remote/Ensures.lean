import OutOfBand.Remote.Repeat

namespace OutOfBand

variable {τ α β : Type}

/-- What holds of a timeline, the outcome of a run that starts on it, and the timeline after. -/
abbrev Post (τ α : Type) := Timeline τ → Except Failure α → Timeline τ → Prop

namespace Limits

variable [Seconds τ] {l : Limits τ} {now : τ}

theorem fault?_eq_none_iff :
    l.fault? now = .none ↔ l.isCancelled now = false ∧ l.isExpired now = false := by
  rw [fault?]
  cases l.isCancelled now <;> cases l.isExpired now <;> simp

theorem fault?_ne_deadlineBeforeRequest {cause : Remote.Cause} (h : l.fault? now = some cause) :
    cause ≠ .deadlineBeforeRequest := by
  rw [fault?] at h
  split at h
  next => cases h; simp
  next =>
    split at h
    next => cases h; simp
    next => cases h

end Limits

namespace Run

section Steps

theorem run_fail (cause : Remote.Cause) (action : Option String) (t : Timeline τ) :
    (fail cause action : Run τ α).run t = (.error (.remote ⟨cause, action, none⟩), t) := rfl

theorem run_say (level : Level) (text : String) (t : Timeline τ) :
    (say level text : Run τ Unit).run t =
      (.ok (), t.record (.noted (.wrote (.log ⟨level, text⟩)))) := rfl

theorem run_bind_eq_ok {r : Run τ α} {f : α → Run τ β} {t t' : Timeline τ} {b : β}
    (h : (r >>= f).run t = (.ok b, t')) :
    ∃ a t₁, r.run t = (.ok a, t₁) ∧ (f a).run t₁ = (.ok b, t') := by
  rw [run_bind] at h
  split at h
  next a t₁ hr => exact ⟨a, t₁, hr, h⟩
  next => cases h

variable [Seconds τ]

theorem run_check (action : Option String) (t : Timeline τ) :
    (check action : Run τ Unit).run t =
      match t.limits.fault? t.now with
      | some cause => (.error (.remote ⟨cause, action, none⟩), t)
      | none => (.ok (), t) := by
  change (match t.limits.fault? t.now with
    | some cause => (fail cause action : Run τ Unit)
    | none => pure ()).run t = _
  cases t.limits.fault? t.now <;> rfl

/-- The timeline after a pause of some length. -/
def paused (t : Timeline τ) (seconds : τ) : Timeline τ :=
  { t with now := t.limits.wakeTime t.now seconds, trace := t.trace ++ [.wait seconds] }

/-- The timeline after a request and its reply. -/
def received (t : Timeline τ) (q : Request τ) (reply : Reply τ) : Timeline τ :=
  { t with
    now := Seconds.add t.now reply.elapsed
    limits := if reply.cancels then { t.limits with cancelled := true } else t.limits
    trace := t.trace ++ [.exchange t.now q reply] }

theorem run_wait (seconds : τ) (t : Timeline τ) :
    (wait seconds).run t = (.ok (), paused t seconds) := rfl

theorem run_exchange (net : Network τ) (q : Request τ) (t : Timeline τ) :
    (exchange net q).run t =
      (.ok (net t.requests q).answer, received t q (net t.requests q)) := rfl

theorem run_sleep (delay : τ) (action : Option String) (t : Timeline τ) :
    (sleep delay action).run t =
      match t.limits.fault? t.now with
      | some cause => (.error (.remote ⟨cause, action, none⟩), t)
      | none =>
        let seconds := pauseLength delay (t.limits.remaining t.now)
        (check action).run (if Seconds.lt Seconds.zero seconds then paused t seconds else t) := by
  rw [sleep, run_bind, run_check]
  cases t.limits.fault? t.now with
  | some cause => rfl
  | none =>
    change (if Seconds.lt Seconds.zero _ then _ else _ : Run τ Unit).run t = (check action).run _
    cases Seconds.lt Seconds.zero (pauseLength delay (t.limits.remaining t.now)) with
    | false => rfl
    | true => rw [if_pos rfl, run_bind, run_wait, if_pos rfl]

end Steps

/-- A run keeps to a relation, wherever it starts. -/
def Ensures (r : Run τ α) (R : Post τ α) : Prop := ∀ t, R t (r.run t).1 (r.run t).2

/-- The end of a run that has changed nothing. -/
def Unchanged (out : Except Failure α) : Post τ α := fun t o t' => o = out ∧ t' = t

section Rules

variable {R R' : Post τ α} {S : Post τ β}

theorem ensures_pure (a : α) : (pure a : Run τ α).Ensures (Unchanged (.ok a)) :=
  fun _ => ⟨rfl, rfl⟩

theorem ensures_throw (e : Failure) : (throw e : Run τ α).Ensures (Unchanged (.error e)) :=
  fun _ => ⟨rfl, rfl⟩

theorem Ensures.bind {r : Run τ α} {f : α → Run τ β} {Q : α → Post τ β} (hr : r.Ensures R)
    (hf : ∀ a, (f a).Ensures (Q a)) (herr : ∀ {t e t'}, R t (.error e) t' → S t (.error e) t')
    (hok : ∀ {t a t' o t''}, R t (.ok a) t' → Q a t' o t'' → S t o t'') :
    (r >>= f).Ensures S := by
  intro t
  have h := hr t
  rw [run_bind]
  rcases hrun : r.run t with ⟨a | e, t'⟩
  · rw [hrun] at h
    exact herr h
  · rw [hrun] at h
    exact hok h (hf _ t')

theorem Ensures.tryCatch {r : Run τ α} {handle : Failure → Run τ α} {Q : Failure → Post τ α}
    (hr : r.Ensures R) (hh : ∀ e, (handle e).Ensures (Q e))
    (hok : ∀ {t a t'}, R t (.ok a) t' → R' t (.ok a) t')
    (herr : ∀ {t e t' o t''}, R t (.error e) t' → Q e t' o t'' → R' t o t'') :
    (tryCatch r handle).Ensures R' := by
  intro t
  have h := hr t
  rw [run_tryCatch]
  rcases hrun : r.run t with ⟨e | a, t'⟩
  · rw [hrun] at h
    exact herr h (hh _ t')
  · rw [hrun] at h
    exact hok h

end Rules

/-- Steps that lead from one moment to a later one, and what holds of a run after them. A run may
say what it likes, and may stop at any moment. -/
structure Leads (I : Timeline τ → Timeline τ → Prop) (R : Post τ α) : Prop where
  refl : ∀ t, I t t
  comp : ∀ {t t' t''}, I t t' → I t' t'' → I t t''
  trans : ∀ {t t' o t''}, I t t' → R t' o t'' → R t o t''
  say : ∀ t level text, I t (t.record (.noted (.wrote (.log ⟨level, text⟩))))
  stop : ∀ t cause action, cause ≠ .deadlineBeforeRequest →
    R t (.error (.remote ⟨cause, some action, none⟩)) t

/-- Between two moments after success; a failure is final. -/
def Between (I : Timeline τ → Timeline τ → Prop) (R : Post τ α) : Post τ Unit
  | t, .ok (), t' => I t t'
  | t, .error e, t' => R t (.error e) t'

/-- What an attempt comes to; after some failures there may be another one. -/
def Attempt (again : Failure → Bool) (I : Timeline τ → Timeline τ → Prop) (R : Post τ α) :
    Post τ α
  | t, .ok a, t' => R t (.ok a) t'
  | t, .error e, t' => if again e then I t t' else R t (.error e) t'

/-- What a look at a state comes to: it is reached, or there may be another look. -/
def Look (again : Failure → Bool) (I : Timeline τ → Timeline τ → Prop) (R : Post τ Unit) :
    Post τ Bool
  | t, .ok true, t' => R t (.ok ()) t'
  | t, .ok false, t' => I t t'
  | t, .error e, t' => if again e then I t t' else R t (.error e) t'

section Repeat

variable {R : Post τ α} {I : Timeline τ → Timeline τ → Prop}

theorem Ensures.after (link : Leads I R) {r : Run τ Unit} {f : Unit → Run τ α}
    (hr : r.Ensures (Between I R)) (hf : (f ()).Ensures R) : (r >>= f).Ensures R :=
  hr.bind (fun _ => hf) id link.trans

theorem Leads.ensures_say (link : Leads I R) (level : Level) (text : String) :
    (Run.say level text : Run τ Unit).Ensures (Between I R) := fun t => link.say t level text

theorem Leads.ensures_fail (link : Leads I R) {cause : Remote.Cause} (action : String)
    (hc : cause ≠ .deadlineBeforeRequest) :
    (Run.fail cause (some action) : Run τ α).Ensures R := fun t => link.stop t cause action hc

variable [Seconds τ]

theorem Leads.ensures_check (link : Leads I R) (action : String) :
    (check (some action) : Run τ Unit).Ensures (Between I R) := by
  intro t
  rw [run_check]
  cases hf : t.limits.fault? t.now with
  | none => exact link.refl t
  | some cause => exact link.stop t cause action (Limits.fault?_ne_deadlineBeforeRequest hf)

/-- What a retried action ensures, by induction on the attempts that are left. -/
theorem ensures_retryFrom {p : RetryPlan τ} {act : Run τ α} (link : Leads I R)
    (hact : act.Ensures (Attempt p.retryOn I R))
    (hretry : ∀ k e, (p.onRetry k e).Ensures (Between I R))
    (hpause : (p.pause p.budget.delay).Ensures (Between I R)) (left k : Nat) :
    (retryFrom p act left k).Ensures R := by
  induction left generalizing k with
  | zero => exact link.ensures_fail p.action (by simp)
  | succ left ih =>
    refine Ensures.after link (link.ensures_check p.action) ?_
    refine hact.tryCatch (Q := fun e => if p.retryOn e then R else Unchanged (.error e)) ?_ id ?_
    · intro e
      by_cases he : p.retryOn e = true
      · simp only [if_pos he]
        refine Ensures.after link (link.ensures_say _ _) (Ensures.after link (hretry k e) ?_)
        by_cases hl : left = 0
        · simpa only [hl, ne_eq, not_true_eq_false, if_false] using ih (k + 1)
        · simpa only [hl, ne_eq, not_false_eq_true, if_true] using
            Ensures.after link hpause (ih (k + 1))
      · simp only [if_neg he]
        exact ensures_throw e
    · intro t e t' o t'' h hq
      by_cases he : p.retryOn e = true
      · rw [if_pos he] at hq
        rw [Attempt, if_pos he] at h
        exact link.trans h hq
      · rw [if_neg he] at hq
        rw [Attempt, if_neg he] at h
        obtain ⟨rfl, rfl⟩ := hq
        exact h

end Repeat

variable {R : Post τ Unit} {I : Timeline τ → Timeline τ → Prop} {action : String} {b : Budget τ}
  {reached : Run τ Bool}

theorem ensures_pollOnce (link : Leads I R) (h : reached.Ensures (Look Failure.isTransient I R))
    (k : Nat) : (pollOnce action b reached k).Ensures (Look (fun _ => false) I R) := by
  refine h.tryCatch (Q := fun e => if e.isTransient then
    fun t o t' => o = .ok false ∧ I t t' else Unchanged (.error e)) ?_ ?_ ?_
  · intro e
    by_cases he : e.isTransient = true
    · simp only [if_pos he]
      exact fun t => ⟨rfl, link.say t _ _⟩
    · simp only [if_neg he]
      exact ensures_throw e
  · intro t a t' h
    cases a <;> exact h
  · intro t e t' o t'' h hq
    by_cases he : e.isTransient = true
    · rw [if_pos he] at hq
      rw [Look, if_pos he] at h
      obtain ⟨rfl, hi⟩ := hq
      exact link.comp h hi
    · rw [if_neg he] at hq
      rw [Look, if_neg he] at h
      obtain ⟨rfl, rfl⟩ := hq
      exact h

/-- What polling ensures, by induction on the looks that are left. -/
theorem ensures_pollFrom [Seconds τ] (link : Leads I R)
    (h : reached.Ensures (Look Failure.isTransient I R))
    (hsleep : (sleep b.delay (some action)).Ensures (Between I R)) (left k : Nat) :
    (pollFrom action b reached left k).Ensures R := by
  induction left generalizing k with
  | zero => exact link.ensures_fail action (by simp)
  | succ left ih =>
    refine (ensures_pollOnce link h k).bind
      (Q := fun seen => if seen then Unchanged (.ok ()) else R) ?_ id ?_
    · intro seen
      cases seen with
      | true => exact ensures_pure ()
      | false =>
        rw [if_neg Bool.false_ne_true, if_neg Bool.false_ne_true]
        by_cases hl : left = 0
        · simpa only [hl, ne_eq, not_true_eq_false, if_false] using ih (k + 1)
        · simpa only [hl, ne_eq, not_false_eq_true, if_true] using
            Ensures.after link hsleep (ih (k + 1))
    · intro t seen t' o t'' hlook hq
      cases seen with
      | true =>
        obtain ⟨rfl, rfl⟩ := hq
        exact hlook
      | false => exact link.trans hlook hq

end Run

end OutOfBand
