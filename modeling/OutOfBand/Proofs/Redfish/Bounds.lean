import OutOfBand.Proofs.Exact
import OutOfBand.Proofs.Redfish.Operations
import OutOfBand.Proofs.Redfish.Requests

namespace OutOfBand

variable {τ : Type}

/-- Whether a call is cancelled by what comes back. -/
def Effect.cancels : Effect τ → Bool
  | exchange _ _ reply => reply.cancels
  | _ => false

/-- The bounds of a call after some of its effects. -/
def Limits.after (l : Limits τ) (es : List (Effect τ)) : Limits τ :=
  { l with cancelled := l.cancelled || es.any Effect.cancels }

theorem Limits.after_nil (l : Limits τ) : l.after [] = l := by simp [after]

theorem Limits.after_append (l : Limits τ) (es fs : List (Effect τ)) :
    l.after (es ++ fs) = (l.after es).after fs := by
  simp [after, Bool.or_assoc]

/-- Replies that are there before their requests time out. -/
def Prompt [LE τ] (es : List (Effect τ)) : Prop :=
  ∀ sentAt q reply, .exchange sentAt q reply ∈ es → reply.elapsed ≤ q.timeout

namespace Redfish

theorem refusal?_ne_deadlineBeforeRequest {method : Method} {url : String} {r : Response}
    {cause : Remote.Cause} (h : refusal? method url r = some cause) :
    cause ≠ .deadlineBeforeRequest := by
  rw [refusal?] at h
  repeat' split at h
  all_goals cases h
  all_goals simp

theorem cause_of_answered {action : String} {method : Method} {url : String} {answer : Answer}
    {e : RemoteError} (h : answered action method url answer = .error (.remote e)) :
    e.cause ≠ .deadlineBeforeRequest := by
  cases answer with
  | timedOut => cases h; simp
  | failed reason => cases h; simp
  | response r =>
    rw [answered] at h
    cases hr : refusal? method url r with
    | none => simp [hr] at h
    | some cause =>
      rw [hr] at h
      cases h
      exact refusal?_ne_deadlineBeforeRequest hr

namespace System

open Run

variable [AddCommGroup τ] [LinearOrder τ] [Seconds τ]

/-- A request at a moment within some bounds, whose reply may take what is left of them. -/
structure Timely (s : System τ) (l : Limits τ) (sentAt : τ) (q : Request τ) : Prop where
  not_cancelled : l.isCancelled sentAt = false
  not_expired : l.isExpired sentAt = false
  timeout_pos : 0 < q.timeout
  timeout_eq : q.timeout = match l.deadline with
    | none => s.requestTimeout
    | some d => min s.requestTimeout (d - sentAt)

/-- What a part of a call does within the bounds that it finds. -/
structure Bounded (s : System τ) (t : Timeline τ) (o : Option Failure) (t' : Timeline τ)
    (new : List (Effect τ)) : Prop where
  trace : t'.trace = t.trace ++ new
  limits : t'.limits = t.limits.after new
  timely : ∀ pre sentAt q reply post, new = pre ++ .exchange sentAt q reply :: post →
    s.Timely (t.limits.after pre) sentAt q
  inTime : Prompt new → ∀ d, t.limits.deadline = some d → t'.now ≤ max t.now d
  cause : ∀ e, o = some (.remote e) → e.cause ≠ .deadlineBeforeRequest

variable {s : System τ}

theorem bounded_of_silent {t t' : Timeline τ} {o : Option Failure} {new : List (Effect τ)}
    (htrace : t'.trace = t.trace ++ new) (hlimits : t'.limits = t.limits)
    (hsilent : ∀ e ∈ new, e.exchange? = none)
    (hover : ∀ d, t.limits.deadline = some d → t'.now ≤ max t.now d)
    (hcause : ∀ e, o = some (.remote e) → e.cause ≠ .deadlineBeforeRequest) :
    s.Bounded t o t' new where
  trace := htrace
  limits := by
    have hany : new.any Effect.cancels = false := by
      rw [List.any_eq_false]
      intro e he
      have hs := hsilent e he
      cases e <;> simp_all [Effect.exchange?, Effect.cancels]
    rw [hlimits, Limits.after, hany, Bool.or_false]
  timely := by
    intro pre sentAt q reply post hcut
    have hs := hsilent (.exchange sentAt q reply) (by simp [hcut])
    cases hs
  inTime _ := hover
  cause := hcause

theorem Bounded.append {t t' t'' : Timeline τ} {o : Option Failure} {new new' : List (Effect τ)}
    (h : s.Bounded t none t' new) (h' : s.Bounded t' o t'' new') :
    s.Bounded t o t'' (new ++ new') where
  trace := by rw [h'.trace, h.trace, List.append_assoc]
  limits := by rw [h'.limits, h.limits, Limits.after_append]
  timely := by
    intro pre sentAt q reply post hcut
    rcases append_eq_append_cons_iff.mp hcut with ⟨mid, hnew, -⟩ | ⟨mid, rfl, hnew'⟩
    · exact h.timely pre sentAt q reply mid hnew
    · have ht := h'.timely mid sentAt q reply post hnew'
      rwa [h.limits, ← Limits.after_append] at ht
  inTime := by
    intro hprompt d hd
    have hnow := h.inTime (fun a q r hm => hprompt a q r (List.mem_append_left _ hm)) d hd
    have hd' : t'.limits.deadline = some d := by rw [h.limits]; exact hd
    have hnow' := h'.inTime (fun a q r hm => hprompt a q r (List.mem_append_right _ hm)) d hd'
    exact hnow'.trans (max_le hnow (le_max_right _ _))
  cause := h'.cause

variable (s) in
/-- Whatever a call does, it does within its bounds. -/
def bounds : Contract τ where
  holds t o t' := ∃ new, s.Bounded t o t' new
  refl t := ⟨[], bounded_of_silent (by simp) rfl (by simp) (fun d _ => le_max_left _ _) (by simp)⟩
  seq := by
    rintro t t' o t'' ⟨new, h⟩ ⟨new', h'⟩
    exact ⟨new ++ new', h.append h'⟩
  recover := by
    rintro t e t' ⟨new, h⟩ -
    exact ⟨new, { h with cause := by simp }⟩
  say t level text := by
    refine ⟨[_], bounded_of_silent rfl rfl ?_ (fun d _ => le_max_left _ _) (by simp)⟩
    simp [Effect.exchange?]
  stop t cause action h := by
    refine ⟨[], bounded_of_silent (by simp) rfl (by simp) (fun d _ => le_max_left _ _) ?_⟩
    rintro e he
    cases he
    exact h

variable [Seconds.Exact τ] [IsOrderedAddMonoid τ]

theorem timeout?_of_lt (hs : 0 < s.requestTimeout) {l : Limits τ} {now : τ}
    (h : l.isExpired now = false) :
    ∃ w, s.timeout? l now = some w ∧ 0 < w ∧
      w = match l.deadline with
        | none => s.requestTimeout
        | some d => min s.requestTimeout (d - now) := by
  rw [timeout?]
  cases hd : l.deadline with
  | none =>
    rw [Limits.remaining, hd]
    exact ⟨_, rfl, hs, rfl⟩
  | some d =>
    have hlt := Limits.lt_of_not_expired hd h
    have hpos : 0 < d - now := sub_pos.mpr hlt
    have hle : ¬Seconds.le (d - now) Seconds.zero = true := by
      rw [Seconds.Exact.le_iff, Seconds.Exact.zero_eq]
      exact not_le.mpr hpos
    rw [Limits.remaining_of_lt hd hlt]
    refine ⟨min s.requestTimeout (d - now), ?_, lt_min hs hpos, rfl⟩
    simp only [if_neg hle, Seconds.least_eq]

theorem bounded_received {t : Timeline τ} {q : Request τ} {o : Option Failure} (reply : Reply τ)
    (h : s.Timely t.limits t.now q)
    (hcause : ∀ e, o = some (.remote e) → e.cause ≠ .deadlineBeforeRequest) :
    s.Bounded t o (received t q reply) [.exchange t.now q reply] where
  trace := rfl
  limits := by
    cases hc : reply.cancels <;> simp [received, Limits.after, Effect.cancels, hc]
  timely := by
    intro pre sentAt q' reply' post hcut
    cases pre with
    | nil =>
      obtain ⟨heq, -⟩ := List.cons.inj hcut
      cases heq
      rwa [Limits.after_nil]
    | cons e pre => simp at hcut
  inTime := by
    intro hprompt d hd
    have helapsed := hprompt t.now q reply (by simp)
    have htimeout : q.timeout ≤ d - t.now := by
      rw [h.timeout_eq, hd]
      exact min_le_right _ _
    have hnow : t.now + reply.elapsed ≤ d := by
      rw [← le_sub_iff_add_le']
      exact helapsed.trans htimeout
    rw [received]
    exact (Seconds.Exact.add_eq t.now reply.elapsed ▸ hnow).trans (le_max_right _ _)
  cause := hcause

theorem obeys_request (hs : 0 < s.requestTimeout) (net : Network τ) (action : String)
    (method : Method) (path : String) (payload : Option Value) :
    (s.request net action method path payload).Obeys s.bounds := by
  intro t
  rw [run_request]
  cases hf : t.limits.fault? t.now with
  | some cause => exact s.bounds.stop t cause action (Limits.fault?_ne_deadlineBeforeRequest hf)
  | none =>
    obtain ⟨hcancelled, hexpired⟩ := Limits.fault?_eq_none_iff.mp hf
    obtain ⟨w, hw, hpos, heq⟩ := timeout?_of_lt hs hexpired
    rw [hw]
    refine s.bounds.seq (s.bounds.say t _ _) ⟨_, bounded_received _ ?_ ?_⟩
    · exact ⟨hcancelled, hexpired, hpos, heq⟩
    · exact fun e he => cause_of_answered (eq_error_of_faultOf? he)

theorem obeys_sleep (action : String) : (Run.sleep s.delay (some action)).Obeys s.bounds := by
  intro t
  rw [run_sleep]
  cases hf : t.limits.fault? t.now with
  | some cause => exact s.bounds.stop t cause action (Limits.fault?_ne_deadlineBeforeRequest hf)
  | none =>
    obtain ⟨-, hexpired⟩ := Limits.fault?_eq_none_iff.mp hf
    refine s.bounds.seq ?_ (obeys_check action _)
    split
    next hpos =>
      rw [Seconds.Exact.lt_iff, Seconds.Exact.zero_eq] at hpos
      refine ⟨[_], bounded_of_silent rfl rfl (by simp [Effect.exchange?]) ?_ (by simp)⟩
      intro d hd
      have hlt := Limits.lt_of_not_expired hd hexpired
      rw [Limits.remaining_of_lt hd hlt, pauseLength, Seconds.least_eq] at hpos ⊢
      have hwake := Limits.wakeTime_le (l := t.limits) t.now _ hpos.le
      refine (hwake.trans ?_).trans (le_max_right _ _)
      rw [← le_sub_iff_add_le']
      exact min_le_right _ _
    next => exact s.bounds.refl t

/-- Every operation of a client is bounded by its call. -/
theorem operation_bounded (hs : 0 < s.requestTimeout) (net : Network τ) (op : Operation)
    (t : Timeline τ) :
    ∃ new, (((s.client net).perform op).run t).2.trace = t.trace ++ new ∧
      (∀ pre sentAt q reply post, new = pre ++ .exchange sentAt q reply :: post →
        s.Timely (t.limits.after pre) sentAt q) ∧
      (Prompt new → ∀ d, t.limits.deadline = some d →
        (((s.client net).perform op).run t).2.now ≤ max t.now d) ∧
      ∀ e, (((s.client net).perform op).run t).1 = .error (.remote e) →
        e.cause ≠ .deadlineBeforeRequest := by
  have keeps : s.Keeps net s.bounds := keeps_of_request (obeys_request hs net) obeys_sleep
  obtain ⟨new, h⟩ := keeps.perform op t
  refine ⟨new, h.trace, h.timely, h.inTime, fun e he => h.cause e ?_⟩
  rw [he]
  rfl

end System

end Redfish

namespace Sample

def system : Redfish.System Int where
  given := "http://bmc/redfish/v1/Systems/1"
  address := ⟨"http://bmc", "/redfish/v1/Systems/1", "1"⟩
  dialect := .standard
  session := .ofUser false false "admin" "pw"
  retries := 2
  delay := 1
  requestTimeout := 30

/-- Every reply shows the machine switched on, after a second. -/
def alwaysOn : Network Int := fun _ _ =>
  ⟨.response ⟨200, "", [], some (Redfish.payload [("PowerState", .str "On")])⟩, 1, false⟩

/-- A call that has five seconds. -/
def fiveSeconds : Timeline Int := ⟨0, Limits.starting (some 5) 0, []⟩

end Sample

open Sample in
/-- A status that is read within five seconds is waited for no longer than that. -/
theorem power_status_bounded :
    let final := ((system.client alwaysOn).perform .powerStatus).run fiveSeconds
    0 < system.requestTimeout ∧
      (∃ q reply, final.2.trace.getLast? = some (.exchange 0 q reply) ∧
        system.Timely fiveSeconds.limits 0 q) ∧
      final.2.now ≤ 5 := by
  intro final
  have hs : 0 < system.requestTimeout := by decide
  obtain ⟨new, htrace, htimely, hover, -⟩ :=
    Redfish.System.operation_bounded hs alwaysOn .powerStatus fiveSeconds
  let q : Request Int := ⟨.get, "http://bmc/redfish/v1/Systems/1", none, 5⟩
  have hfinal : final.2.trace = [.noted (.wrote (.log ⟨.debug,
      "redfish GET http://bmc/redfish/v1/Systems/1"⟩)), .exchange 0 q (alwaysOn [] q)] := by
    rfl
  have hnew : new = final.2.trace := by
    rw [htrace]
    rfl
  rw [hfinal] at hnew
  refine ⟨hs, ⟨q, alwaysOn [] q, by rw [hfinal]; rfl, ?_⟩, ?_⟩
  · exact htimely [_] 0 q (alwaysOn [] q) [] hnew
  · refine (hover ?_ 5 rfl).trans (by decide)
    intro sentAt q' reply hm
    simp only [hnew, List.mem_cons, reduceCtorEq, false_or, List.not_mem_nil, or_false] at hm
    cases hm
    decide

end OutOfBand
