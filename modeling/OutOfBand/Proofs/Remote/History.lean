import OutOfBand.Proofs.Remote.Ensures

namespace OutOfBand

variable {τ α β : Type}

/-- Requests in the order in which they were sent, each with its reply. -/
abbrev History (τ : Type) := List (Request τ × Reply τ)

def Effect.exchange? : Effect τ → Option (Request τ × Reply τ)
  | exchange _ q reply => some (q, reply)
  | _ => none

def Timeline.history (t : Timeline τ) : History τ := t.trace.filterMap Effect.exchange?

theorem append_eq_append_cons_iff {xs ys pre post : List α} {x : α} :
    xs ++ ys = pre ++ x :: post ↔
      (∃ mid, xs = pre ++ x :: mid ∧ post = mid ++ ys) ∨
      ∃ mid, pre = xs ++ mid ∧ ys = mid ++ x :: post := by
  rw [List.append_eq_append_iff]
  constructor
  · rintro (⟨mid, hpre, hys⟩ | ⟨mid, hxs, hpost⟩)
    · exact .inr ⟨mid, hpre, hys⟩
    · cases mid with
      | nil => exact .inr ⟨[], by simpa using hxs.symm, by simpa using hpost.symm⟩
      | cons y mid =>
        obtain ⟨rfl, rfl⟩ := List.cons.inj hpost
        exact .inl ⟨mid, hxs, rfl⟩
  · rintro (⟨mid, hxs, rfl⟩ | ⟨mid, hpre, hys⟩)
    · exact .inr ⟨x :: mid, hxs, rfl⟩
    · exact .inl ⟨mid, hpre, hys⟩

theorem eq_of_append_cons_eq {p : α → Prop} {xs ys pre post : List α} {x y : α}
    (hxs : ∀ z ∈ xs, ¬p z) (hys : ∀ z ∈ ys, ¬p z) (hx : p x)
    (h : xs ++ y :: ys = pre ++ x :: post) : x = y ∧ post = ys := by
  rcases append_eq_append_cons_iff.mp h with ⟨mid, rfl, -⟩ | ⟨mid, -, hmid⟩
  · exact absurd hx (hxs x (by simp))
  · cases mid with
    | nil =>
      obtain ⟨rfl, rfl⟩ := List.cons.inj hmid
      exact ⟨rfl, rfl⟩
    | cons z mid =>
      obtain ⟨-, rfl⟩ := List.cons.inj hmid
      exact absurd hx (hys x (by simp))

section Shapes

variable {kind : Request τ × Reply τ → Prop} {shows : α → Request τ × Reply τ → Prop}
  {pre post : History τ} {x : Request τ × Reply τ} {o : Except Failure α}

/-- One exchange of a kind, which shows the outcome; or a failure before any. -/
def Once (kind : Request τ × Reply τ → Prop) (shows : α → Request τ × Reply τ → Prop)
    (new : History τ) (o : Except Failure α) : Prop :=
  (new = [] ∧ ∃ e, o = .error e) ∨ ∃ x, new = [x] ∧ kind x ∧ ∀ a, o = .ok a → shows a x

/-- Exchanges of a kind, the last of which shows the outcome unless there is a failure. -/
def Series (kind : Request τ × Reply τ → Prop) (shows : α → Request τ × Reply τ → Prop)
    (new : History τ) (o : Except Failure α) : Prop :=
  (∀ x ∈ new, kind x) ∧ ∀ a, o = .ok a → ∃ pre x, new = pre ++ [x] ∧ shows a x

theorem series_nil (e : Failure) : Series kind shows [] (.error e) :=
  ⟨by simp, fun _ h => by cases h⟩

theorem Once.series (h : Once kind shows post o) : Series kind shows post o := by
  rcases h with ⟨rfl, e, rfl⟩ | ⟨x, rfl, hx, hshows⟩
  · exact series_nil e
  · exact ⟨by simpa using hx, fun a ha => ⟨[], x, rfl, hshows a ha⟩⟩

theorem Once.error {e : Failure} {shows' : β → Request τ × Reply τ → Prop}
    (h : Once kind shows post (.error e)) : Once kind shows' post (.error e) := by
  rcases h with ⟨rfl, -⟩ | ⟨x, rfl, hx, -⟩
  · exact .inl ⟨rfl, e, rfl⟩
  · exact .inr ⟨x, rfl, hx, fun a h => by cases h⟩

theorem Once.shows_ok {a : α} (h : Once kind shows post (.ok a)) :
    ∃ x, post = [x] ∧ kind x ∧ shows a x := by
  rcases h with ⟨-, e, he⟩ | ⟨x, rfl, hx, hshows⟩
  · cases he
  · exact ⟨x, rfl, hx, hshows a rfl⟩

theorem Series.prepend (hpre : ∀ x ∈ pre, kind x) (h : Series kind shows post o) :
    Series kind shows (pre ++ post) o := by
  refine ⟨fun x hx => (List.mem_append.mp hx).elim (hpre x) (h.1 x), fun a ha => ?_⟩
  obtain ⟨mid, x, rfl, hx⟩ := h.2 a ha
  exact ⟨pre ++ mid, x, by simp, hx⟩

/-- Exchanges of a kind, which together show the outcome unless there is a failure. -/
def Trail (kind : Request τ × Reply τ → Prop) (shows : α → History τ → Prop)
    (new : History τ) (o : Except Failure α) : Prop :=
  (∀ x ∈ new, kind x) ∧ ∀ a, o = .ok a → shows a new

theorem Once.trail (h : Once kind shows post o) :
    Trail kind (fun a new => ∃ x, new = [x] ∧ kind x ∧ shows a x) post o := by
  rcases h with ⟨rfl, e, rfl⟩ | ⟨x, rfl, hx, hshows⟩
  · exact ⟨by simp, fun a h => by cases h⟩
  · exact ⟨by simpa using hx, fun a ha => ⟨x, rfl, hx, hshows a ha⟩⟩

theorem Series.trail (h : Series kind shows post o) :
    Trail kind (fun a new => ∃ pre x, new = pre ++ [x] ∧ kind x ∧ shows a x) post o := by
  refine ⟨h.1, fun a ha => ?_⟩
  obtain ⟨pre, x, rfl, hx⟩ := h.2 a ha
  exact ⟨pre, x, rfl, h.1 x (by simp), hx⟩

end Shapes

namespace Run

/-- The history grows at its end; what is new fits the outcome. -/
def Grows (P : History τ → Except Failure α → Prop) : Post τ α := fun t o t' =>
  ∃ new, t'.history = t.history ++ new ∧ P new o

/-- What a run sends and how it ends fit together, wherever it starts. -/
def Sends (r : Run τ α) (P : History τ → Except Failure α → Prop) : Prop := r.Ensures (Grows P)

/-- What a run sends, how it ends and the moment of its end fit together, wherever it starts. -/
def Arrives (r : Run τ α) (P : History τ → Except Failure α → Timeline τ → Prop) : Prop :=
  r.Ensures fun t o t' => ∃ new, t'.history = t.history ++ new ∧ P new o t'

/-- A run that sends nothing. -/
def Quiet (r : Run τ α) : Prop := ∀ t, (r.run t).2.history = t.history

variable {P R : History τ → Except Failure α → Prop} {S : History τ → Except Failure β → Prop}

theorem Sends.mono {r : Run τ α} (h : r.Sends P) (imp : ∀ {new o}, P new o → R new o) :
    r.Sends R := by
  intro t
  obtain ⟨new, hnew, hp⟩ := h t
  exact ⟨new, hnew, imp hp⟩

theorem sends_pure (a : α) : (pure a : Run τ α).Sends fun new o => new = [] ∧ o = .ok a :=
  fun _ => ⟨[], by simp [run_pure], rfl, rfl⟩

theorem Arrives.bind {r : Run τ α} {f : α → Run τ β}
    {A : History τ → Except Failure α → Timeline τ → Prop}
    {B : α → History τ → Except Failure β → Timeline τ → Prop}
    {C : History τ → Except Failure β → Timeline τ → Prop} (hr : r.Arrives A)
    (hf : ∀ a, (f a).Arrives (B a)) (herr : ∀ {new e t}, A new (.error e) t → C new (.error e) t)
    (hok : ∀ {pre a t post o t'}, A pre (.ok a) t → B a post o t' → C (pre ++ post) o t') :
    (r >>= f).Arrives C := by
  refine Ensures.bind hr hf ?_ ?_
  · rintro t e t' ⟨new, hnew, hp⟩
    exact ⟨new, hnew, herr hp⟩
  · rintro t a t' o t'' ⟨pre, hpre, hp⟩ ⟨post, hpost, hq⟩
    exact ⟨pre ++ post, by rw [hpost, hpre, List.append_assoc], hok hp hq⟩

theorem Sends.arrives {r : Run τ α} (h : r.Sends P) : r.Arrives fun new o _ => P new o := h

theorem Sends.bind {r : Run τ α} {f : α → Run τ β} {Q : α → History τ → Except Failure β → Prop}
    (hr : r.Sends P) (hf : ∀ a, (f a).Sends (Q a))
    (herr : ∀ {new e}, P new (.error e) → S new (.error e))
    (hok : ∀ {pre a post o}, P pre (.ok a) → Q a post o → S (pre ++ post) o) :
    (r >>= f).Sends S :=
  hr.arrives.bind (fun a => (hf a).arrives) herr hok

theorem Sends.map {r : Run τ α} {f : α → β} (hr : r.Sends P)
    (herr : ∀ {new e}, P new (.error e) → S new (.error e))
    (hok : ∀ {new a}, P new (.ok a) → S new (.ok (f a))) :
    (do return f (← r)).Sends S := by
  refine hr.bind (fun a => sends_pure (f a)) herr ?_
  rintro pre a post o hpre ⟨rfl, rfl⟩
  rw [List.append_nil]
  exact hok hpre

theorem Sends.map_once {r : Run τ α} {f : α → β} {kind : Request τ × Reply τ → Prop}
    {shows : α → Request τ × Reply τ → Prop} {shows' : β → Request τ × Reply τ → Prop}
    (hr : r.Sends (Once kind shows)) (imp : ∀ {a x}, kind x → shows a x → shows' (f a) x) :
    (do return f (← r)).Sends (Once kind shows') := by
  refine hr.map Once.error fun h => ?_
  obtain ⟨x, hnew, hx, hshows⟩ := h.shows_ok
  refine .inr ⟨x, hnew, hx, fun b hb => ?_⟩
  cases hb
  exact imp hx hshows

theorem history_record (t : Timeline τ) (n : Notice) :
    (t.record (.noted n)).history = t.history := by
  simp [Timeline.history, Timeline.record, Effect.exchange?]

section Trails

variable {kind kind' : Request τ × Reply τ → Prop} {shows shows' : α → History τ → Prop}

theorem sends_trail_pure {a : α} (h : shows a []) :
    (pure a : Run τ α).Sends (Trail kind shows) := by
  refine (sends_pure a).mono ?_
  rintro new o ⟨rfl, rfl⟩
  refine ⟨by simp, fun a' ha => ?_⟩
  cases ha
  exact h

theorem sends_trail_fail (cause : Remote.Cause) (action : Option String) :
    (fail cause action : Run τ α).Sends (Trail kind shows) :=
  fun _ => ⟨[], by simp [run_fail], by simp, fun _ h => by cases h⟩

theorem sends_trail_say (level : Level) (text : String) :
    (say level text : Run τ Unit).Sends (Trail kind fun _ new => new = []) :=
  fun t => ⟨[], by simp [run_say, history_record], by simp, fun _ _ => rfl⟩

theorem Sends.mono_trail {r : Run τ α} (h : r.Sends (Trail kind shows))
    (hkind : ∀ x, kind x → kind' x) (hshows : ∀ {a new}, shows a new → shows' a new) :
    r.Sends (Trail kind' shows') :=
  h.mono fun hp => ⟨fun x hx => hkind x (hp.1 x hx), fun a ha => hshows (hp.2 a ha)⟩

theorem Sends.bind_trail {r : Run τ α} {f : α → Run τ β} {N : α → β → History τ → Prop}
    {B : β → History τ → Prop} (hr : r.Sends (Trail kind shows))
    (hf : ∀ a, (f a).Sends (Trail kind (N a)))
    (h : ∀ {pre a post b}, shows a pre → N a b post → B b (pre ++ post)) :
    (r >>= f).Sends (Trail kind B) := by
  refine hr.bind hf ?_ ?_
  · exact fun hp => ⟨hp.1, fun _ h => by cases h⟩
  · intro pre a post o hpre hpost
    refine ⟨fun x hx => (List.mem_append.mp hx).elim (hpre.1 x) (hpost.1 x), fun b hb => ?_⟩
    exact h (hpre.2 a rfl) (hpost.2 b hb)

theorem Sends.map_trail {r : Run τ α} {f : α → β} {B : β → History τ → Prop}
    (hr : r.Sends (Trail kind shows)) (h : ∀ {a new}, shows a new → B (f a) new) :
    (do return f (← r)).Sends (Trail kind B) := by
  refine hr.map (fun hp => ⟨hp.1, fun _ h => by cases h⟩) fun hp => ⟨hp.1, fun b hb => ?_⟩
  cases hb
  exact h (hp.2 _ rfl)

end Trails

/-- A part of a history that what comes after it may follow. -/
def Extends (R : History τ → Except Failure α → Prop) (t t' : Timeline τ) : Prop :=
  ∃ new, t'.history = t.history ++ new ∧ ∀ post o, R post o → R (new ++ post) o

theorem leads_extends (hstop : ∀ e, R [] (.error e)) : Leads (Extends R) (Grows R) where
  refl t := ⟨[], by simp, fun _ _ h => h⟩
  comp := by
    rintro t t' t'' ⟨new, hnew, h⟩ ⟨new', hnew', h'⟩
    refine ⟨new ++ new', by rw [hnew', hnew, List.append_assoc], fun post o hr => ?_⟩
    rw [List.append_assoc]
    exact h _ o (h' post o hr)
  trans := by
    rintro t t' o t'' ⟨new, hnew, h⟩ ⟨post, hpost, hr⟩
    exact ⟨new ++ post, by rw [hpost, hnew, List.append_assoc], h post o hr⟩
  say t level text := ⟨[], by simp [history_record], fun _ _ h => h⟩
  stop t cause action _ := ⟨[], by simp, hstop _⟩

theorem Quiet.between {r : Run τ Unit} (h : r.Quiet) (hstop : ∀ e, R [] (.error e)) :
    r.Ensures (Between (Extends R) (Grows R)) := by
  intro t
  have hq := h t
  rcases hrun : r.run t with ⟨e | a, t'⟩
  · rw [hrun] at hq
    exact ⟨[], by simpa using hq, hstop e⟩
  · rw [hrun] at hq
    exact ⟨[], by simpa using hq, fun _ _ h => h⟩

theorem quiet_say (level : Level) (text : String) : (say level text : Run τ Unit).Quiet :=
  fun t => history_record t _

variable [Seconds τ]

theorem quiet_check (action : Option String) : (check action : Run τ Unit).Quiet := by
  intro t
  rw [run_check]
  cases t.limits.fault? t.now <;> rfl

theorem quiet_sleep (delay : τ) (action : Option String) : (sleep delay action).Quiet := by
  intro t
  rw [run_sleep]
  cases t.limits.fault? t.now with
  | some cause => rfl
  | none =>
    refine (quiet_check action _).trans ?_
    split
    next => simp [Timeline.history, paused, Effect.exchange?]
    next => rfl

/-- What a retried action sends: a failure after which there is another attempt is in front of
what that attempt sends. -/
theorem sends_retry {p : RetryPlan τ} {act : Run τ α} (hstop : ∀ e, R [] (.error e))
    (hact : act.Sends P) (hend : ∀ {new o}, P new o → R new o)
    (hagain : ∀ {pre e post o}, P pre (.error e) → p.retryOn e = true → R post o →
      R (pre ++ post) o)
    (hretry : ∀ k e, (p.onRetry k e).Quiet) (hpause : (p.pause p.budget.delay).Quiet) :
    (retry p act).Sends R := by
  refine ensures_retryFrom (leads_extends hstop) ?_ (fun k e => (hretry k e).between hstop)
    (hpause.between hstop) _ _
  intro t
  obtain ⟨new, hnew, hp⟩ := hact t
  rcases hrun : act.run t with ⟨e | a, t'⟩
  · rw [hrun] at hnew hp
    by_cases he : p.retryOn e = true
    · rw [Attempt, if_pos he]
      exact ⟨new, hnew, fun post o hr => hagain hp he hr⟩
    · rw [Attempt, if_neg he]
      exact ⟨new, hnew, hend hp⟩
  · rw [hrun] at hnew hp
    exact ⟨new, hnew, hend hp⟩

/-- What polling sends: a look that does not end it is in front of what later looks send. -/
theorem sends_poll {action : String} {b : Budget τ} {reached : Run τ Bool}
    {P : History τ → Except Failure Bool → Prop} {R : History τ → Except Failure Unit → Prop}
    (hstop : ∀ e, R [] (.error e)) (hreached : reached.Sends P)
    (hdone : ∀ {new}, P new (.ok true) → R new (.ok ()))
    (herr : ∀ {new e}, P new (.error e) → R new (.error e))
    (hagain : ∀ {pre seen post o}, P pre seen → seen ≠ .ok true → R post o → R (pre ++ post) o) :
    (poll action b reached).Sends R := by
  refine ensures_pollFrom (leads_extends hstop) ?_ ((quiet_sleep _ _).between hstop) _ _
  intro t
  obtain ⟨new, hnew, hp⟩ := hreached t
  rcases hrun : reached.run t with ⟨e | seen, t'⟩
  · rw [hrun] at hnew hp
    by_cases he : e.isTransient = true
    · rw [Look, if_pos he]
      exact ⟨new, hnew, fun post o hr => hagain hp (by simp) hr⟩
    · rw [Look, if_neg he]
      exact ⟨new, hnew, herr hp⟩
  · rw [hrun] at hnew hp
    cases seen with
    | true => exact ⟨new, hnew, hdone hp⟩
    | false => exact ⟨new, hnew, fun post o hr => hagain hp (by simp) hr⟩

theorem sends_retry_series {p : RetryPlan τ} {act : Run τ α}
    {kind : Request τ × Reply τ → Prop} {shows : α → Request τ × Reply τ → Prop}
    (hact : act.Sends (Once kind shows)) (hretry : ∀ k e, (p.onRetry k e).Quiet)
    (hpause : (p.pause p.budget.delay).Quiet) : (retry p act).Sends (Series kind shows) :=
  sends_retry series_nil hact Once.series (fun h _ hpost => hpost.prepend h.series.1) hretry hpause

theorem sends_poll_series {action : String} {b : Budget τ} {reached : Run τ Bool}
    {kind shows : Request τ × Reply τ → Prop}
    (hreached : reached.Sends (Once kind fun seen x => seen = true → shows x)) :
    (poll action b reached).Sends (Series kind fun _ x => shows x) := by
  refine sends_poll series_nil hreached ?_ ?_ fun h _ hpost => hpost.prepend h.series.1
  · intro new h
    refine ⟨h.series.1, fun _ _ => ?_⟩
    obtain ⟨pre, x, hnew, hx⟩ := h.series.2 true rfl
    exact ⟨pre, x, hnew, hx rfl⟩
  · exact fun h => ⟨h.series.1, fun _ h => by cases h⟩

end Run

end OutOfBand
