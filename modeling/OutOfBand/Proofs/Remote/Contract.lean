import OutOfBand.Proofs.Remote.Discipline
import OutOfBand.Proofs.Remote.History
import OutOfBand.Proofs.Sequence

namespace OutOfBand

variable {τ α β : Type}

/-- What holds between two moments, with the failure of the steps between them if they have one.
Anything may be said, a failure that may pass can be got over, and a call may stop. -/
structure Contract (τ : Type) where
  holds : Timeline τ → Option Failure → Timeline τ → Prop
  refl : ∀ t, holds t none t
  seq : ∀ {t t' o t''}, holds t none t' → holds t' o t'' → holds t o t''
  recover : ∀ {t e t'}, holds t (some e) t' → e.isTransient = true → holds t none t'
  say : ∀ t level text, holds t none (t.record (.noted (.wrote (.log ⟨level, text⟩))))
  stop : ∀ t cause action, cause ≠ .deadlineBeforeRequest →
    holds t (some (.remote ⟨cause, some action, none⟩)) t

/-- What may be asked of requests and the failure after them: it holds of no requests, of one part
after another, and still where a failure that may pass is got over. -/
structure Cumulative (P : History τ → Option Failure → Prop) : Prop where
  nil : ∀ o, P [] o
  append : ∀ {new new' o}, P new none → P new' o → P (new ++ new') o
  recover : ∀ {new e}, P new (some e) → e.isTransient = true → P new none

def Contract.ofHistory {P : History τ → Option Failure → Prop} (h : Cumulative P) : Contract τ where
  holds t o t' := ∃ new, t'.history = t.history ++ new ∧ P new o
  refl t := ⟨[], by simp, h.nil none⟩
  seq := by
    rintro t t' o t'' ⟨new, hnew, hp⟩ ⟨new', hnew', hp'⟩
    exact ⟨new ++ new', by rw [hnew', hnew, List.append_assoc], h.append hp hp'⟩
  recover := by
    rintro t e t' ⟨new, hnew, hp⟩ he
    exact ⟨new, hnew, h.recover hp he⟩
  say t level text := ⟨[], by simp [Run.history_record], h.nil none⟩
  stop t _ _ _ := ⟨[], by simp, h.nil _⟩

namespace Run

variable {C : Contract τ}

/-- The steps of a run keep to a contract. -/
def Obeys (r : Run τ α) (C : Contract τ) : Prop :=
  r.Ensures fun t o t' => C.holds t (faultOf? o) t'

theorem Sends.obeys {r : Run τ α} {P : History τ → Option Failure → Prop}
    {Q : History τ → Except Failure α → Prop} (hr : r.Sends Q) (hP : Cumulative P)
    (imp : ∀ {new o}, Q new o → P new (faultOf? o)) : r.Obeys (.ofHistory hP) := by
  intro t
  obtain ⟨new, hnew, hq⟩ := hr t
  exact ⟨new, hnew, imp hq⟩

theorem Quiet.obeys {r : Run τ α} {P : History τ → Option Failure → Prop} (h : r.Quiet)
    (hP : Cumulative P) : r.Obeys (.ofHistory hP) :=
  fun t => ⟨[], by simpa using h t, hP.nil _⟩

theorem obeys_pure (a : α) : (pure a : Run τ α).Obeys C := fun t => C.refl t

theorem obeys_say (level : Level) (text : String) : (say level text : Run τ Unit).Obeys C :=
  fun t => C.say t level text

theorem obeys_fail {cause : Remote.Cause} (action : String) (h : cause ≠ .deadlineBeforeRequest) :
    (fail cause (some action) : Run τ α).Obeys C := fun t => C.stop t cause action h

theorem Obeys.bind {r : Run τ α} {f : α → Run τ β} (hr : r.Obeys C) (hf : ∀ a, (f a).Obeys C) :
    (r >>= f).Obeys C :=
  Ensures.bind hr hf id C.seq

theorem leads_contract (C : Contract τ) :
    Leads (fun t t' => C.holds t none t') fun t (o : Except Failure α) t' =>
      C.holds t (faultOf? o) t' where
  refl := C.refl
  comp := C.seq
  trans := C.seq
  say := C.say
  stop := C.stop

theorem obeys_iff_between {r : Run τ Unit} :
    r.Obeys C ↔ r.Ensures (Between (fun t t' => C.holds t none t')
      fun t (o : Except Failure α) t' => C.holds t (faultOf? o) t') := by
  have h : ∀ t o t', C.holds t (faultOf? o) t' ↔ Between (fun t t' => C.holds t none t')
      (fun t (o : Except Failure α) t' => C.holds t (faultOf? o) t') t o t' := by
    intro t o t'
    cases o <;> rfl
  exact forall_congr' fun t => h t _ _

variable [Seconds τ]

theorem obeys_check (action : String) : (check (some action) : Run τ Unit).Obeys C :=
  obeys_iff_between.mpr ((leads_contract (α := Unit) C).ensures_check action)

theorem obeys_retry {p : RetryPlan τ} {act : Run τ α} (hon : p.retryOn = Failure.isTransient)
    (hact : act.Obeys C) (hretry : ∀ k e, (p.onRetry k e).Obeys C)
    (hpause : (p.pause p.budget.delay).Obeys C) : (retry p act).Obeys C := by
  refine ensures_retryFrom (leads_contract C) ?_ (fun k e => obeys_iff_between.mp (hretry k e))
    (obeys_iff_between.mp hpause) _ _
  intro t
  have h := hact t
  rcases hrun : act.run t with ⟨e | a, t'⟩
  · rw [hrun] at h
    rw [Attempt, hon]
    split
    next he => exact C.recover h he
    next => exact h
  · rw [hrun] at h
    exact h

theorem obeys_poll {action : String} {b : Budget τ} {reached : Run τ Bool}
    (hreached : reached.Obeys C) (hsleep : (sleep b.delay (some action)).Obeys C) :
    (poll action b reached).Obeys C := by
  refine ensures_pollFrom (leads_contract C) ?_ (obeys_iff_between.mp hsleep) _ _
  intro t
  have h := hreached t
  rcases hrun : reached.run t with ⟨e | seen, t'⟩
  · rw [hrun] at h
    rw [Look]
    split
    next he => exact C.recover h he
    next => exact h
  · rw [hrun] at h
    cases seen <;> exact h

end Run

/-- To keep to a contract. -/
def Contract.discipline [Seconds τ] (C : Contract τ) : Discipline τ where
  has r := r.Obeys C
  pure := Run.obeys_pure
  bind := Run.Obeys.bind
  say := Run.obeys_say
  fail := Run.obeys_fail
  retry := Run.obeys_retry
  poll := Run.obeys_poll

instance [Seconds τ] : Coe (Contract τ) (Discipline τ) := ⟨Contract.discipline⟩

end OutOfBand
