import OutOfBand.Proofs.Remote.History
import OutOfBand.Proofs.Sequence
import OutOfBand.Redfish.System

namespace OutOfBand.Redfish

/-- What a reply comes to. -/
def answered (action : String) (method : Method) (url : String) : Answer → Except Failure Response
  | .timedOut => .error (.remote ⟨.timedOut method url, some action, none⟩)
  | .failed reason => .error (.remote ⟨.requestFailed method url reason, some action, none⟩)
  | .response r =>
    match refusal? method url r with
    | some cause => .error (.remote ⟨cause, some action, none⟩)
    | none => .ok r

/-- A reply that is taken for success. -/
def Accepted (answer : Answer) (r : Response) : Prop := answer = .response r ∧ r.status < 400

theorem status_of_refusal? {method : Method} {url : String} {r : Response}
    (h : refusal? method url r = none) : r.status < 400 := by
  rcases Int.lt_or_le r.status 400 with hs | hs
  · exact hs
  · rw [refusal?, if_pos hs] at h
    split at h
    next => cases h
    next =>
      split at h
      next => cases h
      next => split at h <;> cases h

theorem accepted_of_answered {action : String} {method : Method} {url : String} {answer : Answer}
    {r : Response} (h : answered action method url answer = .ok r) : Accepted answer r := by
  cases answer with
  | timedOut => cases h
  | failed reason => cases h
  | response r' =>
    rw [answered] at h
    cases hr : refusal? method url r' with
    | some cause => simp [hr] at h
    | none =>
      rw [hr] at h
      cases h
      exact ⟨rfl, status_of_refusal? hr⟩

/-- What an accepted reply shows of the object at a path. -/
def shown (action path : String) (r : Response) : Except Failure Resource :=
  match r.body with
  | none => .error (.remote ⟨.invalidJson path, some action, none⟩)
  | some (.map es) => .ok es
  | some v => .error (.remote ⟨.notAnObject path v.kindName, some action, none⟩)

/-- A reply that shows an object. -/
def Shows (answer : Answer) (es : Resource) : Prop :=
  ∃ r, Accepted answer r ∧ r.body = some (.map es)

theorem body_of_shown {action path : String} {r : Response} {es : Resource}
    (h : shown action path r = .ok es) : r.body = some (.map es) := by
  rw [shown] at h
  split at h
  next => cases h
  next es' hb => cases h; exact hb
  next => cases h

namespace System

open Run

variable {τ : Type}

/-- A request that is announced in the log. -/
def announced (t : Timeline τ) (method : Method) (url : String) : Timeline τ :=
  t.record (.noted (.wrote (.log ⟨.debug, "redfish " ++ method.name ++ " " ++ url⟩)))

theorem requests_announced (t : Timeline τ) (method : Method) (url : String) :
    (announced t method url).requests = t.requests := by
  simp [announced, Timeline.requests, Timeline.record, Effect.request?]

theorem history_announced (t : Timeline τ) (method : Method) (url : String) :
    (announced t method url).history = t.history := history_record t _

theorem run_answer (action : String) (method : Method) (url : String) (answer : Answer)
    (t : Timeline τ) :
    (match answer with
      | .timedOut => Run.fail (.timedOut method url) (some action)
      | .failed reason => Run.fail (.requestFailed method url reason) (some action)
      | .response r =>
        match refusal? method url r with
        | some cause => Run.fail cause (some action)
        | none => return r : Run τ Response).run t = (answered action method url answer, t) := by
  cases answer with
  | timedOut => rfl
  | failed reason => rfl
  | response r =>
    simp only [answered]
    cases refusal? method url r <;> rfl

variable [Seconds τ] (net : Network τ) (s : System τ)

/-- How long the reply to a request of this moment may take; none if there is no time left. -/
def timeout? (l : Limits τ) (now : τ) : Option τ :=
  match l.remaining now with
  | none => some s.requestTimeout
  | some r => if Seconds.le r Seconds.zero then none else some (Seconds.least s.requestTimeout r)

theorem run_patience (action : String) (t : Timeline τ) :
    (s.patience action).run t =
      match s.timeout? t.limits t.now with
      | some w => (.ok w, t)
      | none => (.error (.remote ⟨.deadlineBeforeRequest, some action, none⟩), t) := by
  change (match t.limits.remaining t.now with
    | none => pure s.requestTimeout
    | some r => if Seconds.le r Seconds.zero then fail .deadlineBeforeRequest (some action)
      else pure (Seconds.least s.requestTimeout r) : Run τ τ).run t = _
  rw [timeout?]
  cases t.limits.remaining t.now with
  | none => rfl
  | some r => cases hr : Seconds.le r Seconds.zero <;> simp [hr] <;> rfl

theorem run_request (action : String) (method : Method) (path : String) (payload : Option Value)
    (t : Timeline τ) :
    (s.request net action method path payload).run t =
      match t.limits.fault? t.now, s.timeout? t.limits t.now with
      | some cause, _ => (.error (.remote ⟨cause, some action, none⟩), t)
      | none, none => (.error (.remote ⟨.deadlineBeforeRequest, some action, none⟩), t)
      | none, some w =>
        let q : Request τ := ⟨method, s.url path, payload, w⟩
        let reply := net t.requests q
        (answered action method (s.url path) reply.answer,
          received (announced t method (s.url path)) q reply) := by
  rw [request, run_bind, run_check]
  cases t.limits.fault? t.now with
  | some cause => rfl
  | none =>
    simp only []
    rw [run_bind, run_patience]
    cases s.timeout? t.limits t.now with
    | none => rfl
    | some w =>
      simp only []
      rw [run_bind, run_say]
      simp only []
      rw [run_bind, run_exchange]
      have hreq := requests_announced t method (s.url path)
      rw [announced] at hreq
      rw [hreq]
      exact run_answer action method (s.url path) _ _

theorem history_received (t : Timeline τ) (q : Request τ) (reply : Reply τ) :
    (received t q reply).history = t.history ++ [(q, reply)] := by
  simp [received, Timeline.history, Effect.exchange?]

def IsRequest (method : Method) (path : String) (payload : Option Value) (q : Request τ) : Prop :=
  q.method = method ∧ q.url = s.url path ∧ q.payload = payload

/-- One request and its reply, which comes to the outcome; or a failure before any request. -/
def Asks (action : String) (method : Method) (path : String) (payload : Option Value)
    (new : History τ) (o : Except Failure Response) : Prop :=
  (new = [] ∧ ∃ e, o = .error e) ∨
    ∃ x, new = [x] ∧ s.IsRequest method path payload x.1 ∧
      o = answered action method (s.url path) x.2.answer

theorem sends_request (action : String) (method : Method) (path : String)
    (payload : Option Value) :
    (s.request net action method path payload).Sends (s.Asks action method path payload) := by
  intro t
  rw [run_request]
  cases t.limits.fault? t.now with
  | some cause => exact ⟨[], by simp, .inl ⟨rfl, _, rfl⟩⟩
  | none =>
    cases s.timeout? t.limits t.now with
    | none => exact ⟨[], by simp, .inl ⟨rfl, _, rfl⟩⟩
    | some w =>
      let q : Request τ := ⟨method, s.url path, payload, w⟩
      refine ⟨[(q, net t.requests q)], ?_, .inr ⟨_, rfl, ⟨rfl, rfl, rfl⟩, rfl⟩⟩
      simp only [history_received, history_announced, q]

theorem sends_request_once (action : String) (method : Method) (path : String)
    (payload : Option Value) :
    (s.request net action method path payload).Sends
      (Once (fun x => s.IsRequest method path payload x.1) fun r x => Accepted x.2.answer r) := by
  refine (sends_request net s action method path payload).mono ?_
  rintro new o (hnone | ⟨x, rfl, hx, rfl⟩)
  · exact .inl hnone
  · exact .inr ⟨x, rfl, hx, fun r => accepted_of_answered⟩

/-- One read and its reply, which comes to the outcome; or a failure before any request. -/
def Looks (action path : String) (new : History τ) (o : Except Failure Resource) : Prop :=
  (new = [] ∧ ∃ e, o = .error e) ∨
    ∃ x, new = [x] ∧ s.IsRequest .get path none x.1 ∧
      o = answered action .get (s.url path) x.2.answer >>= shown action path

theorem sends_looks (action path : String) :
    (s.read net action path).Sends (s.Looks action path) := by
  refine (sends_request net s action .get path none).bind
    (Q := fun r new o => new = [] ∧ o = shown action path r) ?_ ?_ ?_
  · intro r t
    rw [shown]
    cases hb : r.body with
    | none => exact ⟨[], by simp [run_fail], rfl, rfl⟩
    | some v => cases v <;> exact ⟨[], by simp [run_fail, run_pure], rfl, rfl⟩
  · rintro new e (⟨rfl, -⟩ | ⟨x, rfl, hx, ha⟩)
    · exact .inl ⟨rfl, e, rfl⟩
    · exact .inr ⟨x, rfl, hx, by rw [← ha]; rfl⟩
  · rintro pre r post o (⟨-, e, he⟩ | ⟨x, rfl, hx, ha⟩) ⟨rfl, rfl⟩
    · cases he
    · exact .inr ⟨x, rfl, hx, by rw [← ha]; rfl⟩

theorem sends_read (action path : String) :
    (s.read net action path).Sends
      (Once (fun x => s.IsRequest .get path none x.1) fun es x => Shows x.2.answer es) := by
  refine (sends_looks net s action path).mono ?_
  rintro new o (hnone | ⟨x, rfl, hx, rfl⟩)
  · exact .inl hnone
  · refine .inr ⟨x, rfl, hx, fun es hes => ?_⟩
    obtain ⟨r, hr, hshown⟩ := bind_eq_ok_iff.mp hes
    exact ⟨r, accepted_of_answered hr, body_of_shown hshown⟩

theorem sends_send (action : String) (method : Method) (path : String) (payload : Value) :
    (s.send net action method path payload).Sends
      (Series (fun x => s.IsRequest method path (some payload) x.1)
        fun r x => Accepted x.2.answer r) :=
  sends_retry_series (sends_request_once net s action method path (some payload))
    (fun _ _ => quiet_say _ _) (quiet_sleep _ _)

end System

end OutOfBand.Redfish
