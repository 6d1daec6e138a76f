import OutOfBand.Proofs.Redfish.Failures
import OutOfBand.Proofs.Remote.Unbounded

namespace OutOfBand.Redfish

/-- A reply after which the same request may succeed when it is sent again. -/
def Passing (method : Method) : Answer → Prop
  | .timedOut => True
  | .failed _ => True
  | .response r => 500 ≤ r.status ∧ (method = .get ∨ r.status ≠ 501)

/-- A reply to a read after which there may be another one: it may pass by itself, or shows an
object with which the wait goes on. -/
def Pending (goesOn : Resource → Prop) (answer : Answer) : Prop :=
  Passing .get answer ∨ ∃ es, Shows answer es ∧ goesOn es

theorem transient_refusal?_iff {method : Method} {url : String} {r : Response} :
    (∃ cause, refusal? method url r = some cause ∧ cause.kind.isTransient = true) ↔
      500 ≤ r.status ∧ (method = .get ∨ r.status ≠ 501) := by
  rw [refusal?]
  split
  next hs =>
    have hs' : r.status = 401 ∨ r.status = 403 := by simpa using hs
    refine iff_of_false ?_ (by omega)
    rintro ⟨cause, hc, hk⟩
    cases hc
    cases hk
  next =>
    split
    next hm =>
      simp only [Bool.and_eq_true, Bool.or_eq_true, decide_eq_true_eq] at hm
      refine iff_of_false ?_ (by rintro ⟨h, hget | h'⟩ <;> [exact hm.2 hget; omega])
      rintro ⟨cause, hc, hk⟩
      cases hc
      cases hk
    next hm =>
      split
      next hs =>
        refine iff_of_true ⟨_, rfl, rfl⟩ ⟨hs, ?_⟩
        by_cases hget : method = .get
        · exact .inl hget
        · refine .inr fun h => hm ?_
          simp [h, hget]
      next hs =>
        refine iff_of_false ?_ fun h => hs h.1
        rintro ⟨cause, hc, hk⟩
        split at hc
        next => cases hc; cases hk
        next => cases hc

theorem transient_answered_iff (action : String) (method : Method) (url : String)
    (answer : Answer) :
    (∃ f, answered action method url answer = .error f ∧ f.isTransient = true) ↔
      Passing method answer := by
  cases answer with
  | timedOut => exact iff_of_true ⟨_, rfl, rfl⟩ trivial
  | failed reason => exact iff_of_true ⟨_, rfl, rfl⟩ trivial
  | response r =>
    rw [Passing, ← transient_refusal?_iff, answered]
    cases refusal? method url r with
    | none => simp
    | some cause => simp [Failure.isTransient, RemoteError.isTransient, RemoteError.kind]

theorem answered_of_accepted {answer : Answer} {r : Response} (h : Accepted answer r)
    (action : String) (method : Method) (url : String) :
    answered action method url answer = .ok r := by
  obtain ⟨rfl, hs⟩ := h
  have hcredentials : ¬(r.status = 401 || r.status = 403) = true := by simp; omega
  have hmethod :
      ¬((r.status = 404 || r.status = 405 || r.status = 501) && method ≠ .get) = true := by
    simp
    omega
  have hnone : refusal? method url r = none := by
    rw [refusal?, if_neg hcredentials, if_neg hmethod, if_neg (by omega), if_neg (by omega)]
  simp only [answered, hnone]

theorem Accepted.not_passing {answer : Answer} {r : Response} (h : Accepted answer r)
    (method : Method) : ¬Passing method answer := by
  obtain ⟨rfl, hs⟩ := h
  rintro ⟨hlow, -⟩
  omega

theorem shown_eq_ok_iff {action path : String} {r : Response} {es : Resource} :
    shown action path r = .ok es ↔ r.body = some (.map es) := by
  refine ⟨body_of_shown, fun hb => ?_⟩
  rw [shown, hb]

theorem looked_eq_ok_iff {action path url : String} {answer : Answer} {es : Resource} :
    (answered action .get url answer >>= shown action path) = .ok es ↔ Shows answer es := by
  rw [bind_eq_ok_iff]
  constructor
  · rintro ⟨r, hr, hshown⟩
    exact ⟨r, accepted_of_answered hr, body_of_shown hshown⟩
  · rintro ⟨r, hr, hbody⟩
    exact ⟨r, answered_of_accepted hr action .get url, shown_eq_ok_iff.mpr hbody⟩

theorem Shows.eq {answer : Answer} {es es' : Resource} (h : Shows answer es)
    (h' : Shows answer es') : es = es' := by
  obtain ⟨r, hr, hbody⟩ := h
  obtain ⟨r', hr', hbody'⟩ := h'
  cases hr.1.symm.trans hr'.1
  cases hbody.symm.trans hbody'
  rfl

theorem Shows.not_passing {answer : Answer} {es : Resource} (h : Shows answer es)
    (method : Method) : ¬Passing method answer := by
  obtain ⟨r, hr, -⟩ := h
  exact hr.not_passing method

theorem Pending.of_shows {goesOn : Resource → Prop} {answer : Answer} {es : Resource}
    (h : Pending goesOn answer) (hes : Shows answer es) : goesOn es := by
  rcases h with hpassing | ⟨es', hes', hgoesOn⟩
  · exact absurd hpassing (hes.not_passing .get)
  · rwa [hes.eq hes']

theorem isTransient_of_shown {action path : String} {r : Response} {f : Failure}
    (h : shown action path r = .error f) : f.isTransient = false := by
  rw [shown] at h
  split at h
  next => cases h; rfl
  next => cases h
  next => cases h; rfl

theorem transient_looked_iff (action path url : String) (answer : Answer) :
    (∃ f, (answered action .get url answer >>= shown action path) = .error f ∧
      f.isTransient = true) ↔ Passing .get answer := by
  rw [← transient_answered_iff action .get url]
  cases answered action .get url answer with
  | error f => simp [bind, Except.bind]
  | ok r =>
    refine iff_of_false ?_ (by simp)
    rintro ⟨f, hf, ht⟩
    cases ht.symm.trans (isTransient_of_shown hf)

/-- A reply that does not pass by itself rejects its request, unless it is accepted. -/
theorem exists_rejects {τ : Type} {s : System τ} {x : Request τ × Reply τ}
    (hp : ¬Passing x.1.method x.2.answer) (hr : ∀ r, ¬Accepted x.2.answer r) :
    ∃ cause, Rejects s x cause := by
  cases ha : x.2.answer with
  | timedOut =>
    rw [ha] at hp
    exact absurd trivial hp
  | failed reason =>
    rw [ha] at hp
    exact absurd trivial hp
  | response r =>
    rw [ha] at hp hr
    have hlow : 400 ≤ r.status := by
      by_contra h
      exact hr r ⟨rfl, by omega⟩
    by_cases hcredentials : r.status = 401 ∨ r.status = 403
    · exact ⟨_, .credentials ha hcredentials⟩
    · by_cases hm : x.1.method = .get
      · have hhigh : r.status < 500 := by
          by_contra h
          exact hp ⟨by omega, .inl hm⟩
        exact ⟨_, .client ha hlow hhigh hcredentials fun _ => hm⟩
      · by_cases hunsupported : r.status = 404 ∨ r.status = 405 ∨ r.status = 501
        · exact ⟨_, .unsupported ha hunsupported hm⟩
        · have hhigh : r.status < 500 := by
            by_contra h
            exact hp ⟨by omega, .inr (by omega)⟩
          exact ⟨_, .client ha hlow hhigh hcredentials (by omega)⟩

theorem exists_rejects_of_read {τ : Type} {s : System τ} {x : Request τ × Reply τ} {path : String}
    (hx : s.IsRequest .get path none x.1) (hp : ¬Passing .get x.2.answer)
    (hshows : ∀ es, ¬Shows x.2.answer es) : ∃ cause, Rejects s x cause := by
  by_cases haccepted : ∃ r, Accepted x.2.answer r
  · obtain ⟨r, hr⟩ := haccepted
    cases hb : r.body with
    | none => exact ⟨_, .invalidJson hr.1 hr.2 hx.1 hx.2.1 hb⟩
    | some v =>
      refine ⟨_, .notAnObject hr.1 hr.2 hx.1 hx.2.1 hb fun es hv => ?_⟩
      exact hshows es ⟨r, hr, by rw [hb, hv]⟩
  · exact exists_rejects (by rwa [hx.1]) fun r hr => haccepted ⟨r, hr⟩

namespace System

variable {τ : Type} (s : System τ)

/-- A request as it is sent where nothing bounds it. -/
def plainly (method : Method) (path : String) (payload : Option Value) : Request τ :=
  ⟨method, s.url path, payload, s.requestTimeout⟩

/-- What a reply to a read shows of the state that is waited for. -/
def seen (action path : String) (test : Resource → Except Failure Bool) (answer : Answer) :
    Except Failure Bool :=
  answered action .get (s.url path) answer >>= shown action path >>= test

variable {s} in
theorem seen_eq_of_shows {action path : String} {test : Resource → Except Failure Bool}
    {answer : Answer} {es : Resource} (h : Shows answer es) :
    s.seen action path test answer = test es := by
  rw [seen, looked_eq_ok_iff.mpr h]
  rfl

variable {s} in
theorem seen_eq_ok_iff {action path : String} {test : Resource → Except Failure Bool}
    {answer : Answer} {b : Bool} :
    s.seen action path test answer = .ok b ↔ ∃ es, Shows answer es ∧ test es = .ok b := by
  rw [seen, bind_eq_ok_iff]
  exact exists_congr fun es => and_congr_left fun _ => looked_eq_ok_iff

variable [Seconds τ] (net : Network τ)

/-- The plan by which a request is sent again. -/
def plan (action : String) : RetryPlan τ where
  action := action
  budget := s.budget
  retryOn := Failure.isTransient
  onRetry k e := Run.say .info (s.retryLine action k e)
  pause d := Run.sleep d (some action)

/-- The attempts at a request that changes something. -/
def sendings (action : String) (method : Method) (path : String) (payload : Value) :
    Rounds τ Response :=
  (s.plan action).rounds (s.request net action method path (some payload))

variable {s net} {t : Timeline τ}

theorem run_request_of_isOpen (hnet : net.IsSteady) (ht : t.limits.IsOpen) (action : String)
    (method : Method) (path : String) (payload : Option Value) :
    ∃ t', (s.request net action method path payload).run t =
        (answered action method (s.url path)
          (net t.requests (s.plainly method path payload)).answer, t') ∧
      Spends t t' [(s.plainly method path payload,
        net t.requests (s.plainly method path payload))] [] := by
  have htimeout : s.timeout? t.limits t.now = some s.requestTimeout := by
    rw [timeout?, ht.remaining]
  rw [run_request, ht.fault?, htimeout]
  refine ⟨_, rfl, ?_, ?_, ?_⟩
  · rw [history_received, history_announced]
    rfl
  · simp [Timeline.waits, Run.received, announced, Timeline.record, Effect.wait?]
  · simp only [Run.received, hnet t.requests, Bool.false_eq_true, if_false]
    rfl

theorem asks_send (hnet : net.IsSteady) (action : String) (method : Method) (path : String)
    (payload : Value) :
    (s.sendings net action method path payload).Asks net
      (s.plainly method path (some payload)) (answered action method (s.url path)) s.delay where
  bar ht := by simp [sendings, RetryPlan.rounds, ht.fault?]
  act ht := run_request_of_isOpen hnet ht action method path (some payload)
  tell k out t := by
    cases out with
    | ok r => exact ⟨t, rfl, Spends.refl t⟩
    | error e => exact ⟨_, rfl, (Spends.said t _).trans (Spends.said _ _)⟩
  pause ht := Run.run_sleep_of_isOpen ht s.delay (some action)

theorem run_read (action path : String) (t : Timeline τ) :
    (s.read net action path).run t =
      (((s.request net action .get path none).run t).1 >>= shown action path,
        ((s.request net action .get path none).run t).2) := by
  rw [read, Run.run_bind]
  rcases (s.request net action .get path none).run t with ⟨f | r, t'⟩
  · rfl
  · change _ = (shown action path r, t')
    dsimp only
    rw [shown]
    cases r.body with
    | none => rfl
    | some v => cases v <;> rfl

theorem run_read_of_isOpen (hnet : net.IsSteady) (ht : t.limits.IsOpen) (action path : String) :
    ∃ t', (s.read net action path).run t =
        (answered action .get (s.url path) (net t.requests (s.plainly .get path none)).answer >>=
          shown action path, t') ∧
      Spends t t' [(s.plainly .get path none, net t.requests (s.plainly .get path none))] [] := by
  obtain ⟨t', hrun, hspent⟩ := run_request_of_isOpen hnet ht action .get path none
  exact ⟨t', by rw [run_read, hrun], hspent⟩

theorem asks_looks (hnet : net.IsSteady) {action path : String} (waiting : String)
    {test : Resource → Except Failure Bool} {reached : Run τ Bool}
    (hreached : ∀ t, reached.run t = match (s.read net action path).run t with
      | (.ok es, t') => (test es, t')
      | (.error f, t') => (.error f, t')) :
    (Run.looks waiting s.budget reached).Asks net (s.plainly .get path none)
      (s.seen action path test) s.delay where
  bar _ := rfl
  act {t} ht := by
    obtain ⟨t', hrun, hspent⟩ := run_request_of_isOpen hnet ht action .get path none
    refine ⟨t', ?_, hspent⟩
    change reached.run t = _
    rw [hreached, run_read, hrun, seen]
    cases answered action .get (s.url path) (net t.requests (s.plainly .get path none)).answer with
    | error f => rfl
    | ok r => cases hshown : shown action path r <;> simp [hshown, bind, Except.bind]
  tell k out t := by
    cases out with
    | ok seen => exact ⟨t, rfl, Spends.refl t⟩
    | error e => exact ⟨_, rfl, Spends.said t _⟩
  pause ht := Run.run_sleep_of_isOpen ht s.delay (some waiting)

/-- All attempts have failed. -/
def gaveUp (s : System τ) (action : String) (r : Nat) : Failure :=
  .remote ⟨.exhausted s.given (r + 1), some action, none⟩

theorem again_sendings_iff (action : String) (method : Method) (path : String) (payload : Value)
    (answer : Answer) :
    (s.sendings net action method path payload).again
        (answered action method (s.url path) answer) = true ↔ Passing method answer := by
  rw [← transient_answered_iff action method (s.url path)]
  cases answered action method (s.url path) answer with
  | ok r => simp [sendings, RetryPlan.rounds]
  | error f => simp [sendings, RetryPlan.rounds, plan]

theorem again_looks_iff (waiting action path : String) {test : Resource → Except Failure Bool}
    (htest : ∀ es f, test es = .error f → f.isTransient = false) (b : Budget τ)
    (reached : Run τ Bool) (answer : Answer) :
    (Run.looks waiting b reached).again (s.seen action path test answer) = true ↔
      Pending (fun es => test es = .ok false) answer := by
  have hshows : ∀ es, Shows answer es ↔
      (answered action .get (s.url path) answer >>= shown action path) = .ok es :=
    fun es => looked_eq_ok_iff.symm
  rw [seen, Pending, ← transient_looked_iff action path (s.url path)]
  simp only [hshows]
  cases answered action .get (s.url path) answer >>= shown action path with
  | error f => simp [Run.looks, bind, Except.bind]
  | ok es =>
    cases hes : test es with
    | error f =>
      have hf : f.isTransient = false := htest es f hes
      simp [Run.looks, bind, Except.bind, hes, hf]
    | ok seen => simp [Run.looks, bind, Except.bind, hes]

section Outcomes

variable (hnet : net.IsSteady) (ht : t.limits.IsOpen) {r : Nat} (hr : s.retries = r)

include hr in
theorem run_send (action : String) (method : Method) (path : String) (payload : Value)
    (t : Timeline τ) :
    (s.send net action method path payload).run t =
      (s.sendings net action method path payload).run (r + 1) 1 t := by
  have hattempts : (s.plan action).budget.attempts.toNat = r + 1 := by
    change (s.retries + 1).toNat = r + 1
    omega
  have hsend : s.send net action method path payload =
      Run.retry (s.plan action) (s.request net action method path (some payload)) := rfl
  rw [hsend, Run.retry, RetryPlan.run_retryFrom, hattempts, sendings]

include hr in
theorem run_poll (waiting : String) (reached : Run τ Bool) (t : Timeline τ) :
    (s.poll waiting reached).run t =
      (((Run.looks waiting s.budget reached).run (r + 1) 1 t).1.map fun _ => (),
        ((Run.looks waiting s.budget reached).run (r + 1) 1 t).2) := by
  have hattempts : s.budget.attempts.toNat = r + 1 := by
    change (s.retries + 1).toNat = r + 1
    omega
  rw [poll, Run.poll, Run.run_pollFrom, hattempts]

include hnet ht hr

/-- What is sent again comes to the first reply that does not pass by itself. -/
theorem run_send_of_settled (action : String) {method : Method} (path : String) (payload : Value)
    {i : Nat} (hi : i ≤ r)
    (hbefore : ∀ k < i, Passing method
      (net.reply t.requests (s.plainly method path (some payload)) k).answer)
    (hlast : ¬Passing method
      (net.reply t.requests (s.plainly method path (some payload)) i).answer) :
    ∃ t', (s.send net action method path payload).run t =
        (answered action method (s.url path)
          (net.reply t.requests (s.plainly method path (some payload)) i).answer, t') ∧
      Spends t t' (net.series t.requests (s.plainly method path (some payload)) (i + 1))
        (pauses s.delay i) := by
  have hsettled : (s.sendings net action method path payload).again
      (answered action method (s.url path)
        (net.reply t.requests (s.plainly method path (some payload)) i).answer) = false :=
    Bool.eq_false_iff.mpr fun h => hlast ((again_sendings_iff _ _ _ _ _).mp h)
  rw [run_send hr]
  exact (asks_send hnet action method path payload).run_of_settled ht i r 1 hi
    (fun k hk => (again_sendings_iff _ _ _ _ _).mpr (hbefore k hk)) hsettled

theorem run_send_of_spent (action : String) {method : Method} (path : String) (payload : Value)
    (hall : ∀ k ≤ r, Passing method
      (net.reply t.requests (s.plainly method path (some payload)) k).answer) :
    ∃ t', (s.send net action method path payload).run t = (.error (s.gaveUp action r), t') ∧
      Spends t t' (net.series t.requests (s.plainly method path (some payload)) (r + 1))
        (pauses s.delay r) := by
  have hgaveUp : (s.sendings net action method path payload).gaveUp = s.gaveUp action r := by
    change Failure.remote ⟨.exhausted s.given (s.retries + 1), some action, none⟩ = _
    rw [hr, gaveUp]
  rw [run_send hr, ← hgaveUp]
  exact (asks_send hnet action method path payload).run_of_spent ht (r + 1) 1
    fun k hk => (again_sendings_iff _ _ _ _ _).mpr (hall k (by omega))

theorem run_poll_of_settled (waiting : String) {action path : String}
    {test : Resource → Except Failure Bool}
    (htest : ∀ es f, test es = .error f → f.isTransient = false) {reached : Run τ Bool}
    (hreached : ∀ t, reached.run t = match (s.read net action path).run t with
      | (.ok es, t') => (test es, t')
      | (.error f, t') => (.error f, t'))
    {j : Nat} (hj : j ≤ r)
    (hbefore : ∀ k < j, Pending (fun es => test es = .ok false)
      (net.reply t.requests (s.plainly .get path none) k).answer)
    (hlast : ¬Pending (fun es => test es = .ok false)
      (net.reply t.requests (s.plainly .get path none) j).answer) :
    ∃ t', (s.poll waiting reached).run t =
        ((s.seen action path test
          (net.reply t.requests (s.plainly .get path none) j).answer).map fun _ => (), t') ∧
      Spends t t' (net.series t.requests (s.plainly .get path none) (j + 1))
        (pauses s.delay j) := by
  have hsettled : (Run.looks waiting s.budget reached).again (s.seen action path test
      (net.reply t.requests (s.plainly .get path none) j).answer) = false :=
    Bool.eq_false_iff.mpr fun h => hlast ((again_looks_iff waiting _ _ htest _ _ _).mp h)
  obtain ⟨t', hrun, hspent⟩ := (asks_looks hnet waiting hreached).run_of_settled ht j r 1 hj
    (fun k hk => (again_looks_iff waiting _ _ htest _ _ _).mpr (hbefore k hk)) hsettled
  refine ⟨t', ?_, hspent⟩
  rw [run_poll hr, hrun]

theorem run_poll_of_spent (waiting : String) {action path : String}
    {test : Resource → Except Failure Bool}
    (htest : ∀ es f, test es = .error f → f.isTransient = false) {reached : Run τ Bool}
    (hreached : ∀ t, reached.run t = match (s.read net action path).run t with
      | (.ok es, t') => (test es, t')
      | (.error f, t') => (.error f, t'))
    (hall : ∀ k ≤ r, Pending (fun es => test es = .ok false)
      (net.reply t.requests (s.plainly .get path none) k).answer) :
    ∃ t', (s.poll waiting reached).run t = (.error (s.gaveUp waiting r), t') ∧
      Spends t t' (net.series t.requests (s.plainly .get path none) (r + 1))
        (pauses s.delay r) := by
  have hgaveUp : (Run.looks waiting s.budget reached).gaveUp = s.gaveUp waiting r := by
    change Failure.remote ⟨.exhausted s.given (s.retries + 1), some waiting, none⟩ = _
    rw [hr, gaveUp]
  obtain ⟨t', hrun, hspent⟩ := (asks_looks hnet waiting hreached).run_of_spent ht (r + 1) 1
    fun k hk => (again_looks_iff waiting _ _ htest _ _ _).mpr (hall k (by omega))
  refine ⟨t', ?_, hspent⟩
  rw [run_poll hr, hrun, hgaveUp]
  rfl

end Outcomes

/-- The last request is the only one that is rejected, and that is the failure. -/
def FailsAtRejected (s : System τ) (final : Except Failure Unit × Timeline τ) (t : Timeline τ) :
    Prop :=
  ∃ pre x e, final.2.history = t.history ++ (pre ++ [x]) ∧
    (∀ y ∈ pre, ∀ cause, ¬Rejects s y cause) ∧ Rejects s x e.cause ∧ final.1 = .error (.remote e)

theorem failsAtRejected_of_mem {op : Operation} {sent : History τ} {x : Request τ × Reply τ}
    {cause : Remote.Cause}
    (hsent : (((s.client net).perform op).run t).2.history = t.history ++ sent) (hx : x ∈ sent)
    (hrejects : Rejects s x cause) :
    s.FailsAtRejected (((s.client net).perform op).run t) t := by
  obtain ⟨new, hnew, h⟩ := (keeps_rejections (s := s) net).perform op t
  obtain rfl : sent = new := List.append_cancel_left (hsent.symm.trans hnew)
  rcases h with hnone | ⟨pre, y, e, action, rfl, hpre, hy, -, ho⟩
  · exact absurd hrejects (hnone x hx cause)
  · exact ⟨pre, y, e, hnew, hpre, hy, eq_error_of_faultOf? ho⟩

end System

end OutOfBand.Redfish
