import OutOfBand.Proofs.Redfish.Operations
import OutOfBand.Proofs.Redfish.Requests

namespace OutOfBand.Redfish

variable {τ : Type}

/-- Why a reply fails a request for good: its status refuses the request, or it shows no object
where one is read. -/
inductive Rejects (s : System τ) (x : Request τ × Reply τ) : Remote.Cause → Prop
  | credentials {r : Response} (answer : x.2.answer = .response r)
      (status : r.status = 401 ∨ r.status = 403) :
      Rejects s x (.rejectedCredentials x.1.method x.1.url r.status)
  | unsupported {r : Response} (answer : x.2.answer = .response r)
      (status : r.status = 404 ∨ r.status = 405 ∨ r.status = 501) (method : x.1.method ≠ .get) :
      Rejects s x (.notSupported x.1.method x.1.url r.status)
  | client {r : Response} (answer : x.2.answer = .response r) (low : 400 ≤ r.status)
      (high : r.status < 500) (credentials : ¬(r.status = 401 ∨ r.status = 403))
      (method : r.status = 404 ∨ r.status = 405 → x.1.method = .get) :
      Rejects s x (.clientError x.1.method x.1.url r.status r.text)
  | invalidJson {r : Response} {path : String} (answer : x.2.answer = .response r)
      (status : r.status < 400) (method : x.1.method = .get) (url : x.1.url = s.url path)
      (body : r.body = none) : Rejects s x (.invalidJson path)
  | notAnObject {r : Response} {v : Value} {path : String} (answer : x.2.answer = .response r)
      (status : r.status < 400) (method : x.1.method = .get) (url : x.1.url = s.url path)
      (body : r.body = some v) (shape : ∀ es, v ≠ .map es) :
      Rejects s x (.notAnObject path v.kindName)

/-- A reply that turns the user of the session away. -/
def turnsAway (x : Request τ × Reply τ) : Bool :=
  match x.2.answer with
  | .response r => r.status = 401 || r.status = 403
  | _ => false

variable {s : System τ} {x : Request τ × Reply τ} {cause : Remote.Cause}

theorem Rejects.of_turnsAway (h : turnsAway x = true) : ∃ cause, Rejects s x cause := by
  rw [turnsAway] at h
  split at h
  next r hr => exact ⟨_, .credentials hr (by simpa using h)⟩
  next => cases h

theorem Rejects.kind (h : Rejects s x cause) :
    cause.kind = .authentication ∨ cause.kind = .unsupported ∨ cause.kind = .operation := by
  cases h <;> simp [Remote.Cause.kind]

theorem Rejects.not_isTransient (h : Rejects s x cause) : cause.kind.isTransient = false := by
  rcases h.kind with hk | hk | hk <;> rw [hk] <;> rfl

theorem not_rejects_of_unanswered (h : ∀ r, x.2.answer ≠ .response r) : ¬Rejects s x cause := by
  rintro (⟨hr, _⟩ | ⟨hr, _⟩ | ⟨hr, _⟩ | ⟨hr, _⟩ | ⟨hr, _⟩) <;> exact h _ hr

theorem not_rejects_of_accepted {r : Response} (h : Accepted x.2.answer r)
    (hbody : x.1.method = .get → ∃ es, r.body = some (.map es)) : ¬Rejects s x cause := by
  obtain ⟨hanswer, hlow⟩ := h
  have same {r' : Response} (h' : x.2.answer = .response r') : r' = r := by
    rw [hanswer] at h'
    exact (Answer.response.inj h').symm
  intro hrej
  cases hrej with
  | credentials hr hs => cases same hr; omega
  | unsupported hr hs => cases same hr; omega
  | client hr hs => cases same hr; omega
  | invalidJson hr _ hm _ hb =>
    cases same hr
    obtain ⟨es, hes⟩ := hbody hm
    rw [hb] at hes
    cases hes
  | notAnObject hr _ hm _ hb hv =>
    cases same hr
    obtain ⟨es, hes⟩ := hbody hm
    rw [hb] at hes
    exact hv es (Option.some.inj hes)

theorem rejects_of_refusal? {r : Response} (hanswer : x.2.answer = .response r)
    (h : refusal? x.1.method x.1.url r = some cause) :
    Rejects s x cause ∨ ∀ c, ¬Rejects s x c := by
  rw [refusal?] at h
  split at h
  next hs =>
    cases h
    exact .inl (.credentials hanswer (by simpa using hs))
  next hs =>
    have hs' : ¬(r.status = 401 ∨ r.status = 403) := by simpa using hs
    split at h
    next hm =>
      cases h
      simp only [Bool.and_eq_true, Bool.or_eq_true, decide_eq_true_eq, or_assoc] at hm
      exact .inl (.unsupported hanswer hm.1 hm.2)
    next hm =>
      have hm' : r.status = 404 ∨ r.status = 405 ∨ r.status = 501 → x.1.method = .get := by
        simpa [or_assoc] using hm
      split at h
      next hfail =>
        cases h
        refine .inr fun c hc => ?_
        cases hc with
        | credentials hr hst => cases hanswer.symm.trans hr; exact hs' hst
        | unsupported hr hst hget => cases hanswer.symm.trans hr; exact hget (hm' hst)
        | client hr _ hhigh => cases hanswer.symm.trans hr; omega
        | invalidJson hr hst => cases hanswer.symm.trans hr; omega
        | notAnObject hr hst => cases hanswer.symm.trans hr; omega
      next hfail =>
        split at h
        next hlow =>
          cases h
          exact .inl (.client hanswer hlow (by omega) hs' fun hst =>
            hm' (hst.elim .inl fun h => .inr (.inl h)))
        next => cases h

namespace System

open Run

variable (s)

/-- Nothing is rejected; or only the last request is, and that is the failure. -/
def EndsAtRejection (new : History τ) (o : Option Failure) : Prop :=
  (∀ x ∈ new, ∀ cause, ¬Rejects s x cause) ∨
    ∃ pre x e action, new = pre ++ [x] ∧ (∀ y ∈ pre, ∀ cause, ¬Rejects s y cause) ∧
      Rejects s x e.cause ∧ e.action = some action ∧ o = some (.remote e)

theorem cumulative_endsAtRejection : Cumulative s.EndsAtRejection where
  nil _ := .inl (by simp)
  append := by
    rintro new new' o (hnone | ⟨_, _, _, _, _, _, _, _, ho⟩) h'
    · rcases h' with hnone' | ⟨pre, x, e, action, rfl, hpre, hx, ha, ho⟩
      · exact .inl fun y hy => (List.mem_append.mp hy).elim (hnone y) (hnone' y)
      · exact .inr ⟨new ++ pre, x, e, action, by simp,
          fun y hy => (List.mem_append.mp hy).elim (hnone y) (hpre y), hx, ha, ho⟩
    · cases ho
  recover := by
    rintro new e (hnone | ⟨_, x, e', _, _, _, hx, _, ho⟩) he
    · exact .inl hnone
    · cases ho
      have hfinal := hx.not_isTransient
      rw [Failure.isTransient, RemoteError.isTransient, RemoteError.kind, hfinal] at he
      cases he

/-- A rejected request is the last one. -/
def rejections : Contract τ := .ofHistory (cumulative_endsAtRejection s)

variable {s}

theorem EndsAtRejection.last {new pre post : History τ} {o : Option Failure}
    (h : s.EndsAtRejection new o) (hcut : new = pre ++ x :: post) (hx : Rejects s x cause) :
    post = [] ∧
      ∃ e action, o = some (.remote e) ∧ Rejects s x e.cause ∧ e.action = some action := by
  rcases h with hnone | ⟨pre', x', e, action, hnew, hpre, hx', ha, ho⟩
  · exact absurd hx (hnone x (by simp [hcut]) cause)
  · rw [hnew] at hcut
    rcases append_eq_append_cons_iff.mp hcut with ⟨mid, rfl, -⟩ | ⟨mid, -, hlast⟩
    · exact absurd hx (hpre x (by simp) cause)
    · obtain ⟨-, hlast⟩ | ⟨-, hnil⟩ := List.append_eq_singleton_iff.mp hlast.symm
      · obtain ⟨rfl, rfl⟩ := List.cons.inj hlast
        exact ⟨rfl, e, action, ho, hx', ha⟩
      · cases hnil

theorem EndsAtRejection.countP_turnsAway_le {new : History τ} {o : Option Failure}
    (h : s.EndsAtRejection new o) : new.countP turnsAway ≤ 1 := by
  have zero {ys : History τ} (hys : ∀ y ∈ ys, ∀ cause, ¬Rejects s y cause) :
      ys.countP turnsAway = 0 :=
    List.countP_eq_zero.mpr fun y hy haway =>
      have ⟨cause, hcause⟩ := Rejects.of_turnsAway haway
      hys y hy cause hcause
  rcases h with hnone | ⟨pre, x, _, _, rfl, hpre, -, -, -⟩
  · rw [zero hnone]
    exact Nat.zero_le 1
  · rw [List.countP_append, zero hpre, Nat.zero_add]
    exact List.countP_le_length

theorem endsAtRejection_of_error {action path : String} {method : Method} {payload : Option Value}
    {f : Failure} (hx : s.IsRequest method path payload x.1)
    (h : answered action method (s.url path) x.2.answer = .error f) :
    s.EndsAtRejection [x] (some f) := by
  cases ha : x.2.answer with
  | timedOut => exact .inl (by simpa using fun _ => not_rejects_of_unanswered (by simp [ha]))
  | failed reason => exact .inl (by simpa using fun _ => not_rejects_of_unanswered (by simp [ha]))
  | response r =>
    obtain ⟨rfl, hurl, -⟩ := hx
    rw [ha, answered, ← hurl] at h
    cases hr : refusal? x.1.method x.1.url r with
    | none =>
      rw [hr] at h
      cases h
    | some cause =>
      rw [hr] at h
      cases h
      rcases rejects_of_refusal? (s := s) ha hr with hrej | hnone
      · exact .inr ⟨[], x, _, action, rfl, by simp, hrej, rfl, rfl⟩
      · exact .inl (by simpa using hnone)

theorem endsAtRejection_of_ok {action path : String} {method : Method} {payload : Option Value}
    {r : Response} (hx : s.IsRequest method path payload x.1)
    (h : answered action method (s.url path) x.2.answer = .ok r)
    (hbody : method = .get → ∃ es, r.body = some (.map es)) : s.EndsAtRejection [x] none := by
  have hnone : ∀ cause, ¬Rejects s x cause := fun _ =>
    not_rejects_of_accepted (accepted_of_answered h) fun hget => hbody (hx.1.symm.trans hget)
  exact .inl (by simpa using hnone)

/-- An accepted reply without an object is a rejection of the read. -/
theorem endsAtRejection_shown {action path : String} {r : Response}
    (hx : s.IsRequest .get path none x.1)
    (h : answered action .get (s.url path) x.2.answer = .ok r) :
    s.EndsAtRejection [x] (faultOf? (shown action path r)) := by
  obtain ⟨hanswer, hstatus⟩ := accepted_of_answered h
  rw [shown]
  split
  next hb =>
    have hrej := Rejects.invalidJson hanswer hstatus hx.1 hx.2.1 hb
    exact .inr ⟨[], x, _, action, rfl, by simp, hrej, rfl, rfl⟩
  next es hb => exact endsAtRejection_of_ok hx h fun _ => ⟨es, hb⟩
  next v hv hb =>
    have hrej := Rejects.notAnObject hanswer hstatus hx.1 hx.2.1 hb hv
    exact .inr ⟨[], x, _, action, rfl, by simp, hrej, rfl, rfl⟩

/-- Every request goes to a path at the service. -/
def Addressed (s : System τ) (new : History τ) : Prop := ∀ x ∈ new, ∃ path, x.1.url = s.url path

theorem cumulative_addressed : Cumulative fun new _ => s.Addressed new where
  nil _ := by simp [Addressed]
  append h h' x hx := (List.mem_append.mp hx).elim (h x) (h' x)
  recover h _ := h

variable [Seconds τ] (net : Network τ)

theorem obeys_rejections_request (action : String) {method : Method} (hm : method ≠ .get)
    (path : String) (payload : Option Value) :
    (s.request net action method path payload).Obeys s.rejections := by
  refine (sends_request net s action method path payload).obeys _ ?_
  rintro new o (⟨rfl, -⟩ | ⟨x, rfl, hx, rfl⟩)
  · exact (cumulative_endsAtRejection s).nil _
  · cases ha : answered action method (s.url path) x.2.answer with
    | error f => exact endsAtRejection_of_error hx ha
    | ok r => exact endsAtRejection_of_ok hx ha fun hget => absurd hget hm

theorem obeys_rejections_read (action path : String) :
    (s.read net action path).Obeys s.rejections := by
  refine (sends_looks net s action path).obeys _ ?_
  rintro new o (⟨rfl, -⟩ | ⟨x, rfl, hx, rfl⟩)
  · exact (cumulative_endsAtRejection s).nil _
  · cases ha : answered action .get (s.url path) x.2.answer with
    | error f => exact endsAtRejection_of_error hx ha
    | ok r => exact endsAtRejection_shown hx ha

theorem keeps_rejections : s.Keeps net s.rejections where
  read := obeys_rejections_read net
  send action _ path payload hm :=
    obeys_retry rfl (obeys_rejections_request net action hm path (some payload))
      (fun _ _ => obeys_say _ _) ((quiet_sleep _ _).obeys _)
  sleep _ := (quiet_sleep _ _).obeys _

theorem keeps_addressed :
    s.Keeps net (Contract.ofHistory (cumulative_addressed (s := s))) := by
  refine keeps_of_request (fun action method path payload => ?_) fun _ =>
    (quiet_sleep _ _).obeys _
  refine (sends_request net s action method path payload).obeys _ ?_
  rintro new o (⟨rfl, -⟩ | ⟨x, rfl, hx, -⟩)
  · exact cumulative_addressed.nil none
  · simpa [Addressed] using ⟨path, hx.2.1⟩

variable (s)

/-- A rejected request is the last one of its operation, which fails for the reason of the
rejection; so at most one request is sent in vain with credentials that are not accepted. -/
theorem operation_ends_at_rejection (op : Operation) (t : Timeline τ) :
    ∃ new, (((s.client net).perform op).run t).2.history = t.history ++ new ∧
      s.Addressed new ∧
      (∀ pre x post cause, new = pre ++ x :: post → Rejects s x cause →
        post = [] ∧ ∃ e action, (((s.client net).perform op).run t).1 = .error (.remote e) ∧
          Rejects s x e.cause ∧ e.action = some action ∧
          (e.kind = .authentication ∨ e.kind = .unsupported ∨ e.kind = .operation)) ∧
      new.countP turnsAway ≤ 1 := by
  obtain ⟨new, hnew, h⟩ := (keeps_rejections net).perform op t
  obtain ⟨new', hnew', haddressed⟩ := (keeps_addressed (s := s) net).perform op t
  obtain rfl : new = new' := List.append_cancel_left (hnew.symm.trans hnew')
  refine ⟨new, hnew, haddressed, fun pre x post cause hcut hx => ?_, h.countP_turnsAway_le⟩
  obtain ⟨hpost, e, action, ho, hx, ha⟩ := h.last hcut hx
  exact ⟨hpost, e, action, eq_error_of_faultOf? ho, hx, ha, hx.kind⟩

variable {s}

/-- A failure of a remote call that says during which action it happened. -/
def named : Contract τ where
  holds _ o _ := ∀ f, o = some f → ∃ e action, f = .remote e ∧ e.action = some action
  refl _ := by simp
  seq _ h' := h'
  recover _ _ := by simp
  say _ _ _ := by simp
  stop _ cause action _ := by
    rintro f hf
    cases hf
    exact ⟨_, action, rfl, rfl⟩

theorem named_of_answered {action : String} {method : Method} {url : String} {answer : Answer}
    {f : Failure} (h : answered action method url answer = .error f) :
    ∃ e, f = .remote e ∧ e.action = some action := by
  cases answer with
  | timedOut => cases h; exact ⟨_, rfl, rfl⟩
  | failed reason => cases h; exact ⟨_, rfl, rfl⟩
  | response r =>
    rw [answered] at h
    split at h
    next => cases h; exact ⟨_, rfl, rfl⟩
    next => cases h

theorem obeys_named_request (action : String) (method : Method) (path : String)
    (payload : Option Value) : (s.request net action method path payload).Obeys named := by
  intro t
  rw [run_request]
  cases hf : t.limits.fault? t.now with
  | some cause => exact named.stop t cause action (Limits.fault?_ne_deadlineBeforeRequest hf)
  | none =>
    cases s.timeout? t.limits t.now with
    | none =>
      rintro f hfault
      cases hfault
      exact ⟨_, action, rfl, rfl⟩
    | some w =>
      rintro f hfault
      obtain ⟨e, he, ha⟩ := named_of_answered (eq_error_of_faultOf? hfault)
      exact ⟨e, action, he, ha⟩

theorem obeys_named_sleep (delay : τ) (action : String) :
    (Run.sleep delay (some action)).Obeys named := by
  intro t
  rw [run_sleep]
  cases hf : t.limits.fault? t.now with
  | some cause => exact named.stop t cause action (Limits.fault?_ne_deadlineBeforeRequest hf)
  | none => exact obeys_check (C := named) action _

theorem keeps_named : s.Keeps net (named : Contract τ) :=
  keeps_of_request (obeys_named_request net) fun action => obeys_named_sleep s.delay action

variable (s)

/-- Whatever comes back, an operation succeeds or fails as a remote call does, with its action. -/
theorem operation_failure_named (op : Operation) (t : Timeline τ) :
    (((s.client net).perform op).run t).1 = .ok () ∨
      ∃ e action, (((s.client net).perform op).run t).1 = .error (.remote e) ∧
        e.action = some action := by
  have h := (keeps_named (s := s) net).perform op t
  cases ho : (((s.client net).perform op).run t).1 with
  | ok a => exact .inl rfl
  | error f =>
    obtain ⟨e, action, rfl, ha⟩ := h f (by rw [ho]; rfl)
    exact .inr ⟨e, action, rfl, ha⟩

end System

end OutOfBand.Redfish
