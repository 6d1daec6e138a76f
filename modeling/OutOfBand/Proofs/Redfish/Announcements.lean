import OutOfBand.Proofs.Redfish.Attempts
import OutOfBand.Proofs.Redfish.Bounds
import OutOfBand.Proofs.Remote.Pauses

namespace OutOfBand

variable {τ α β : Type}

/-- A line of the log among the effects of a run. -/
def Effect.line (level : Level) (text : String) : Effect τ := .noted (.wrote (.log ⟨level, text⟩))

namespace Redfish

/-- A request that is to change something, and what for. -/
structure Order where
  action : String
  method : Method
  path : String
  payload : Value

namespace System

open Run

/-- A request and its reply among the effects of a run, behind the line of the log about it. -/
def asked (s : System τ) (method : Method) (path : String) (sentAt : τ) (q : Request τ)
    (reply : Reply τ) : List (Effect τ) :=
  [.line .debug ("redfish " ++ method.name ++ " " ++ s.url path), .exchange sentAt q reply]

/-- An effect of which there is nothing to be told: no announcement, and no attempt at an order that
may be made again. -/
def Untold : Effect τ → Prop
  | .noted (.wrote (.log l)) => l.level ≠ .info
  | .exchange _ q reply => q.method = .get ∨ ¬Passing q.method reply.answer
  | _ => True

theorem untold_waits {ws : List (Effect τ)} (h : ∀ e ∈ ws, ∃ w, e = .wait w) :
    ∀ e ∈ ws, Untold e := by
  intro e he
  obtain ⟨w, rfl⟩ := h e he
  trivial

section Attempts

variable [Seconds τ]

/-- What the log says of an attempt that failed in a way that may pass. -/
def missLines (s : System τ) (action : String) (k : Nat) (e : Failure) : List (Effect τ) :=
  [.line .debug (failedLine (s.plan action) k e), .line .info (s.retryLine action k e)]

/-- A reply to an attempt at an order, and the rest of a trace, which begins with what the log says
of the attempt if it may be made again. -/
structure Attempted (s : System τ) (o : Order) (k : Nat) (q : Request τ) (reply : Reply τ)
    (rest : List (Effect τ)) : Prop where
  request : s.IsRequest o.method o.path (some o.payload) q
  miss : Passing o.method reply.answer → ∃ e rest',
    answered o.action o.method (s.url o.path) reply.answer = .error e ∧
      rest = s.missLines o.action k e ++ rest'

theorem trace_received (s : System τ) (method : Method) (path : String) (q : Request τ)
    (reply : Reply τ) (t : Timeline τ) :
    (received (System.announced t method (s.url path)) q reply).trace =
      t.trace ++ s.asked method path t.now q reply := by
  simp [received, System.announced, Timeline.record, asked, Effect.line]

theorem Attempted.append {s : System τ} {o : Order} {k : Nat} {q : Request τ} {reply : Reply τ}
    {rest : List (Effect τ)} (h : s.Attempted o k q reply rest) (more : List (Effect τ)) :
    s.Attempted o k q reply (rest ++ more) := by
  refine ⟨h.request, fun hp => ?_⟩
  obtain ⟨e, rest', he, rfl⟩ := h.miss hp
  exact ⟨e, rest' ++ more, he, List.append_assoc ..⟩

theorem not_isTransient_of_fault {l : Limits τ} {now : τ} {cause : Remote.Cause}
    (h : l.fault? now = some cause) (action : String) :
    (Failure.remote ⟨cause, some action, none⟩).isTransient = false := by
  rw [Limits.fault?] at h
  split at h
  next =>
    cases h
    rfl
  next =>
    split at h
    next =>
      cases h
      rfl
    next => cases h

end Attempts

variable [Seconds τ] [AddCommGroup τ] [LinearOrder τ]

/-- What comes after attempt `k` at an order has been announced as one that is retried. -/
inductive Sequel (s : System τ) (o : Order) (k : Nat) (due : τ) (final : Timeline τ)
    (out : Option Failure) : List (Effect τ) → Prop
  /-- After a full pause the next attempt is made. -/
  | again {q : Request τ} {reply : Reply τ} {rest : List (Effect τ)}
      (few : (k : Int) ≤ s.retries) (next : s.Attempted o (k + 1) q reply rest) :
      Sequel s o k due final out
        (waits s.delay ++ s.asked o.method o.path due q reply ++ rest)
  /-- The call is cancelled or expires before the pause is over. -/
  | stopped {ws : List (Effect τ)} {cause : Remote.Cause} (few : (k : Int) ≤ s.retries)
      (waited : ∀ e ∈ ws, ∃ w, e = .wait w) (fault : final.limits.fault? final.now = some cause)
      (failed : out = some (.remote ⟨cause, some o.action, none⟩)) :
      Sequel s o k due final out ws
  /-- The attempt was the last one. -/
  | gaveUp (last : (k : Int) = s.retries + 1)
      (failed : out = some (.remote
        ⟨.exhausted s.given (s.retries + 1), some o.action, none⟩)) :
      Sequel s o k due final out []

/-- A line that announces a retry, between what is before it in a trace and what is after it. -/
inductive Announced (s : System τ) (final : Timeline τ) (out : Option Failure) :
    List (Effect τ) → String → List (Effect τ) → Prop
  | intro {o : Order} {k : Nat} {e : Failure} {sentAt : τ} {q : Request τ} {reply : Reply τ}
      {post : List (Effect τ)} (before : List (Effect τ)) (first : 1 ≤ k)
      (request : s.IsRequest o.method o.path (some o.payload) q)
      (failure : answered o.action o.method (s.url o.path) reply.answer = .error e)
      (passing : e.isTransient = true)
      (sequel : s.Sequel o k (sentAt + reply.elapsed + max s.delay 0) final out post) :
      Announced s final out
        (before ++ [.exchange sentAt q reply, .line .debug (failedLine (s.plan o.action) k e)])
        (s.retryLine o.action k e) post

/-- What a part of a call adds to a trace, with its announcements: each is of an attempt, and each
attempt that may be made again has one. -/
structure Discloses (s : System τ) (t : Timeline τ) (out : Option Failure) (final : Timeline τ)
    (new : List (Effect τ)) : Prop where
  trace : final.trace = t.trace ++ new
  announced : ∀ pre text post, new = pre ++ .line .info text :: post →
    s.Announced final out pre text post
  announces : ∀ pre sentAt q reply post, new = pre ++ .exchange sentAt q reply :: post →
    q.method ≠ .get → Passing q.method reply.answer →
    ∃ action k e post', post = s.missLines action k e ++ post'

variable {s : System τ} {o : Order} {k : Nat} {due : τ} {t t' final : Timeline τ}
  {out : Option Failure} {pre post new : List (Effect τ)} {text : String}

/-- Where a part of a call has succeeded, every retry that was announced has been made. -/
theorem Sequel.append (h : s.Sequel o k due t none post) (more : List (Effect τ)) :
    s.Sequel o k due final out (post ++ more) := by
  cases h with
  | again few next =>
    rw [List.append_assoc]
    exact .again few (next.append more)
  | stopped _ _ _ failed => cases failed
  | gaveUp _ failed => cases failed

theorem Sequel.recover {e : Failure} (h : s.Sequel o k due final (some e) post)
    (he : e.isTransient = true) : s.Sequel o k due final none post := by
  cases h with
  | again few next => exact .again few next
  | stopped _ _ fault failed =>
    cases failed
    rw [not_isTransient_of_fault fault] at he
    cases he
  | gaveUp _ failed =>
    cases failed
    cases he

theorem Announced.append (h : s.Announced t none pre text post) (more : List (Effect τ)) :
    s.Announced final out pre text (post ++ more) := by
  obtain ⟨before, first, request, failure, passing, sequel⟩ := h
  exact .intro before first request failure passing (sequel.append more)

theorem Announced.prepend (h : s.Announced final out pre text post) (more : List (Effect τ)) :
    s.Announced final out (more ++ pre) text post := by
  obtain ⟨before, first, request, failure, passing, sequel⟩ := h
  rw [← List.append_assoc]
  exact .intro (more ++ before) first request failure passing sequel

theorem Announced.recover {e : Failure} (h : s.Announced final (some e) pre text post)
    (he : e.isTransient = true) : s.Announced final none pre text post := by
  obtain ⟨before, first, request, failure, passing, sequel⟩ := h
  exact .intro before first request failure passing (sequel.recover he)

theorem Discloses.append {new' : List (Effect τ)} (h : s.Discloses t none t' new)
    (h' : s.Discloses t' out final new') : s.Discloses t out final (new ++ new') where
  trace := by rw [h'.trace, h.trace, List.append_assoc]
  announced := by
    intro pre text post hcut
    rcases append_eq_append_cons_iff.mp hcut with ⟨mid, hnew, rfl⟩ | ⟨mid, rfl, hnew⟩
    · exact (h.announced pre text mid hnew).append new'
    · exact (h'.announced mid text post hnew).prepend new
  announces := by
    intro pre sentAt q reply post hcut hm hp
    rcases append_eq_append_cons_iff.mp hcut with ⟨mid, hnew, rfl⟩ | ⟨mid, rfl, hnew⟩
    · obtain ⟨action, k, e, post', rfl⟩ := h.announces pre sentAt q reply mid hnew hm hp
      exact ⟨action, k, e, post' ++ new', List.append_assoc ..⟩
    · exact h'.announces mid sentAt q reply post hnew hm hp

theorem Discloses.recover {e : Failure} (h : s.Discloses t (some e) final new)
    (he : e.isTransient = true) : s.Discloses t none final new where
  trace := h.trace
  announced pre text post hcut := (h.announced pre text post hcut).recover he
  announces := h.announces

theorem discloses_of_untold (htrace : final.trace = t.trace ++ new)
    (h : ∀ e ∈ new, Untold e) : s.Discloses t out final new where
  trace := htrace
  announced := by
    rintro pre text post rfl
    exact absurd rfl (h (.line .info text) (by simp))
  announces := by
    rintro pre sentAt q reply post rfl hm hp
    rcases h (.exchange sentAt q reply) (by simp) with hget | hnot
    · exact absurd hget hm
    · exact absurd hp hnot

variable (s) in
/-- A call whose announcements are such, wherever it starts. -/
def Candid (r : Run τ α) : Prop :=
  ∀ t, ∃ new, s.Discloses t (faultOf? (r.run t).1) (r.run t).2 new

theorem candid_pure (a : α) : s.Candid (pure a : Run τ α) :=
  fun t => ⟨[], discloses_of_untold (by simp [run_pure]) (by simp)⟩

theorem candid_throw (e : Failure) : s.Candid (throw e : Run τ α) :=
  fun t => ⟨[], discloses_of_untold (by simp [run_throw]) (by simp)⟩

theorem candid_note (text : String) : s.Candid (Run.say .debug text : Run τ Unit) := by
  refine fun t => ⟨[.line .debug text], discloses_of_untold rfl ?_⟩
  simp [Effect.line, Untold]

theorem Candid.bind {r : Run τ α} {f : α → Run τ β} (hr : s.Candid r)
    (hf : ∀ a, s.Candid (f a)) : s.Candid (r >>= f) := by
  intro t
  obtain ⟨new, h⟩ := hr t
  rw [run_bind]
  rcases hrun : r.run t with ⟨e | a, t'⟩
  · rw [hrun] at h
    exact ⟨new, h⟩
  · rw [hrun] at h
    obtain ⟨new', h'⟩ := hf a t'
    exact ⟨new ++ new', h.append h'⟩

/-- A failure that may pass is got over, any other one is final. -/
theorem Candid.tryCatch {r : Run τ α} {handle : Failure → Run τ α} (hr : s.Candid r)
    (hh : ∀ e, s.Candid (handle e)) :
    s.Candid (tryCatch r fun e => if e.isTransient then handle e else throw e) := by
  intro t
  obtain ⟨new, h⟩ := hr t
  rw [run_tryCatch]
  rcases hrun : r.run t with ⟨e | a, t'⟩
  · rw [hrun] at h
    dsimp only
    split
    next he =>
      obtain ⟨new', h'⟩ := hh e t'
      exact ⟨new ++ new', (h.recover he).append h'⟩
    next => exact ⟨new, h⟩
  · rw [hrun] at h
    exact ⟨new, h⟩

theorem candid_poll {action : String} {b : Budget τ} {reached : Run τ Bool}
    (hreached : s.Candid reached) (hsleep : s.Candid (Run.sleep b.delay (some action))) :
    s.Candid (Run.poll action b reached) := by
  have look (k : Nat) : s.Candid (pollOnce action b reached k) :=
    hreached.tryCatch fun e => (candid_note _).bind fun _ => candid_pure false
  have looks : ∀ left k, s.Candid (pollFrom action b reached left k) := by
    intro left
    induction left with
    | zero => exact fun k => candid_throw _
    | succ left ih =>
      refine fun k => (look k).bind fun seen => ?_
      split
      next => exact candid_pure ()
      next =>
        dsimp only
        split
        next => exact hsleep.bind fun _ => ih (k + 1)
        next => exact ih (k + 1)
  exact looks _ _

variable (s) in
/-- To announce the attempts that may be made again, and nothing else. -/
def candour : Habit τ where
  has := s.Candid
  pure := candid_pure
  bind := Candid.bind
  note := candid_note
  fail _ _ := candid_throw _
  poll := candid_poll

/-- An attempt that may be made again is announced between its reply and what comes after it. -/
theorem discloses_miss {q : Request τ} {reply : Reply τ} {e : Failure} {tail : List (Effect τ)}
    (hk : 1 ≤ k) (hq : s.IsRequest o.method o.path (some o.payload) q)
    (he : answered o.action o.method (s.url o.path) reply.answer = .error e)
    (hpassing : e.isTransient = true)
    (htrace : t'.trace = t.trace ++ s.asked o.method o.path t.now q reply ++
      s.missLines o.action k e)
    (hsequel : s.Sequel o k (t.now + reply.elapsed + max s.delay 0) final out tail)
    (htail : s.Discloses t' out final tail) :
    s.Discloses t out final
      (s.asked o.method o.path t.now q reply ++ (s.missLines o.action k e ++ tail)) := by
  have hshape : s.asked o.method o.path t.now q reply ++ (s.missLines o.action k e ++ tail) =
      [.line .debug ("redfish " ++ o.method.name ++ " " ++ s.url o.path), .exchange t.now q reply,
        .line .debug (failedLine (s.plan o.action) k e), .line .info (s.retryLine o.action k e)] ++
        tail := rfl
  refine ⟨?_, ?_, ?_⟩
  · rw [htail.trace, htrace]
    simp only [List.append_assoc]
  · intro pre text post hcut
    rw [hshape] at hcut
    rcases append_eq_append_cons_iff.mp hcut with ⟨mid, hhead, rfl⟩ | ⟨mid, rfl, hrest⟩
    · rcases pre with _ | ⟨_, _ | ⟨_, _ | ⟨_, _ | ⟨_, pre⟩⟩⟩⟩ <;>
        simp [Effect.line] at hhead
      obtain ⟨rfl, rfl, rfl, rfl, rfl⟩ := hhead
      exact .intro [_] hk hq he hpassing hsequel
    · exact (htail.announced mid text post hrest).prepend _
  · intro pre sentAt q' reply' post hcut hm hp
    rw [hshape] at hcut
    rcases append_eq_append_cons_iff.mp hcut with ⟨mid, hhead, rfl⟩ | ⟨mid, rfl, hrest⟩
    · rcases pre with _ | ⟨_, _ | ⟨_, _ | ⟨_, _ | ⟨_, pre⟩⟩⟩⟩ <;>
        simp [Effect.line] at hhead
      obtain ⟨rfl, -, rfl⟩ := hhead
      exact ⟨o.action, k, e, tail, rfl⟩
    · exact htail.announces mid sentAt q' reply' post hrest hm hp

variable [Seconds.Exact τ]

theorem exists_miss (net : Network τ) {o : Order} {q : Request τ} {reply : Reply τ} (left k : Nat)
    (hgoes : t.limits.Allows t.now)
    (hact : (s.request net o.action o.method o.path (some o.payload)).run t =
      (answered o.action o.method (s.url o.path) reply.answer,
        received (System.announced t o.method (s.url o.path)) q reply))
    (hp : Passing o.method reply.answer) :
    let R := s.sendings net o.action o.method o.path o.payload
    ∃ e t', answered o.action o.method (s.url o.path) reply.answer = .error e ∧
      e.isTransient = true ∧ t'.now = t.now + reply.elapsed ∧
      t'.trace = t.trace ++ s.asked o.method o.path t.now q reply ++ s.missLines o.action k e ∧
      R.run (left + 1) k t =
        if left = 0 then (.error R.gaveUp, t')
        else match (Run.sleep s.delay (some o.action)).run t' with
          | (.ok (), t'') => R.run left (k + 1) t''
          | (.error f, t'') => (.error f, t'') := by
  intro R
  obtain ⟨e, he, hpassing⟩ :=
    (transient_answered_iff o.action o.method (s.url o.path) reply.answer).mpr hp
  have hagain : R.again (answered o.action o.method (s.url o.path) reply.answer) = true :=
    (again_sendings_iff _ _ _ _ _).mpr hp
  have hbar : R.bar t = none := by
    simp [R, sendings, RetryPlan.rounds, Limits.fault?_eq_none_iff_allows.mpr hgoes]
  let t₁ := received (System.announced t o.method (s.url o.path)) q reply
  let t₂ := (t₁.record (.line .debug (failedLine (s.plan o.action) k e))).record
    (.line .info (s.retryLine o.action k e))
  have htold : (R.tell k (answered o.action o.method (s.url o.path) reply.answer)).run t₁ =
      (.ok (), t₂) := by
    rw [he]
    rfl
  refine ⟨e, t₂, he, hpassing, Seconds.Exact.add_eq _ _, ?_, Rounds.run_told hbar hact hagain htold⟩
  rw [← trace_received]
  simp [t₂, t₁, Timeline.record, missLines]

variable [IsOrderedAddMonoid τ]

theorem candid_sleep (delay : τ) (action : Option String) : s.Candid (sleep delay action) := by
  intro t
  obtain ⟨t', hrun, hend⟩ := exists_end delay action t
  obtain ⟨ws, htrace, hwaits, -⟩ := hend.waited
  have hafter : ((check action : Run τ Unit).run t').2 = t' := by
    rw [run_check]
    cases t'.limits.fault? t'.now <;> rfl
  rw [hrun]
  exact ⟨ws, discloses_of_untold (by rw [hafter, htrace]) (untold_waits hwaits)⟩

theorem exists_timeout? (h : t.limits.Allows t.now) : ∃ w, s.timeout? t.limits t.now = some w := by
  rw [timeout?]
  cases hd : t.limits.deadline with
  | none => exact ⟨s.requestTimeout, by rw [Limits.remaining, hd]; rfl⟩
  | some d =>
    have hahead := h.ahead d hd
    have hleft : ¬Seconds.le (d - t.now) Seconds.zero = true := by
      rw [Seconds.Exact.le_iff, Seconds.Exact.zero_eq, not_le]
      exact sub_pos.mpr hahead
    rw [Limits.remaining_of_lt hd hahead]
    exact ⟨_, if_neg hleft⟩

variable (net : Network τ)

theorem run_request_cases (action : String) (method : Method) (path : String)
    (payload : Option Value) (t : Timeline τ) :
    (¬t.limits.Allows t.now ∧ (s.request net action method path payload).run t =
        (.error (.remote ⟨t.limits.reason t.now, some action, none⟩), t)) ∨
      t.limits.Allows t.now ∧ ∃ q reply, s.IsRequest method path payload q ∧
        (s.request net action method path payload).run t =
          (answered action method (s.url path) reply.answer,
            received (System.announced t method (s.url path)) q reply) := by
  rw [run_request]
  by_cases h : t.limits.Allows t.now
  · obtain ⟨w, hw⟩ := exists_timeout? (s := s) h
    rw [Limits.fault?_eq_none_iff_allows.mpr h, hw]
    exact .inr ⟨h, _, _, ⟨rfl, rfl, rfl⟩, rfl⟩
  · rw [Limits.fault?_of_not_allows h]
    exact .inl ⟨h, rfl⟩

theorem candid_read (action path : String) : s.Candid (s.read net action path) := by
  have request : s.Candid (s.request net action .get path none) := by
    intro t
    obtain ⟨-, hrun⟩ | ⟨-, q, reply, hq, hrun⟩ :=
      run_request_cases (s := s) net action .get path none t
    · rw [hrun]
      exact ⟨[], discloses_of_untold (by simp) (by simp)⟩
    · rw [hrun]
      refine ⟨_, discloses_of_untold (trace_received s .get path q reply t) ?_⟩
      simp [asked, Effect.line, Untold, hq.1]
  refine request.bind fun r => ?_
  split
  next => exact candid_throw _
  next => exact candid_pure _
  next => exact candid_throw _

/-- After a full pause the next attempt is made, otherwise the call has ended. -/
theorem exists_sequel {α : Type} {next : Timeline τ → Except Failure α × Timeline τ}
    (hfew : (k : Int) ≤ s.retries)
    (hnext : ∀ u, u.limits.Allows u.now → ∃ q reply rest, s.Attempted o (k + 1) q reply rest ∧
      s.Discloses u (faultOf? (next u).1) (next u).2
        (s.asked o.method o.path u.now q reply ++ rest)) (t : Timeline τ) :
    let final := match (sleep s.delay (some o.action)).run t with
      | (.ok (), u) => next u
      | (.error f, u) => (.error f, u)
    ∃ tail, s.Sequel o k (t.now + max s.delay 0) final.2 (faultOf? final.1) tail ∧
      s.Discloses t (faultOf? final.1) final.2 tail := by
  intro final
  obtain ⟨u, hsleep, hend⟩ := exists_end s.delay (some o.action) t
  obtain ⟨ws, hwaited, hwaits, hfull⟩ := hend.waited
  have hpause : s.Discloses t none u ws := discloses_of_untold hwaited (untold_waits hwaits)
  by_cases hon : u.limits.Allows u.now
  · have hfinal : final = next u := by
      simp only [final, hsleep, run_check, Limits.fault?_eq_none_iff_allows.mpr hon]
    have hthen : t.limits.Allows u.now := hend.limits ▸ hon
    obtain ⟨q, reply, rest, hattempted, hdiscloses⟩ := hnext u hon
    rw [hfinal]
    refine ⟨ws ++ (s.asked o.method o.path u.now q reply ++ rest), ?_, hpause.append hdiscloses⟩
    rw [hfull hthen, ← hend.inFull hthen, ← List.append_assoc]
    exact .again hfew hattempted
  · have hfault := Limits.fault?_of_not_allows hon
    have hfinal : final = (.error (.remote ⟨u.limits.reason u.now, some o.action, none⟩), u) := by
      simp only [final, hsleep, run_check, hfault]
    rw [hfinal]
    exact ⟨ws, .stopped hfew hwaits hfault rfl, discloses_of_untold hwaited (untold_waits hwaits)⟩

/-- The attempts at an order from attempt `k` on: the first of them is made at once, where the call
may go on. -/
theorem discloses_sendings (o : Order) {left k : Nat} (hk : 1 ≤ k)
    (hleft : (k : Int) + left = s.retries + 2) (t : Timeline τ) :
    let final := (s.sendings net o.action o.method o.path o.payload).run left k t
    ∃ new, s.Discloses t (faultOf? final.1) final.2 new ∧
      (0 < left → t.limits.Allows t.now → ∃ q reply rest, s.Attempted o k q reply rest ∧
        new = s.asked o.method o.path t.now q reply ++ rest) := by
  let R := s.sendings net o.action o.method o.path o.payload
  -- by the attempts that are left, of which the next one discloses what comes after this one
  induction left generalizing k t with
  | zero => exact ⟨[], discloses_of_untold (by simp [Rounds.run]) (by simp), by simp⟩
  | succ left ih =>
    intro final
    push_cast at hleft
    obtain ⟨hends, -⟩ | ⟨hgoes, q, reply, hq, hact⟩ :=
      run_request_cases (s := s) net o.action o.method o.path (some o.payload) t
    · have hbar : R.bar t = some (.remote ⟨t.limits.reason t.now, some o.action, none⟩) := by
        simp [R, sendings, RetryPlan.rounds, Limits.fault?_of_not_allows hends, plan]
      have hfinal : final = _ := Rounds.run_barred hbar
      rw [hfinal]
      exact ⟨[], discloses_of_untold (by simp) (by simp), fun _ h => absurd h hends⟩
    by_cases hp : Passing o.method reply.answer
    · obtain ⟨e, t₁, he, hpassing, hnow, htrace, hfinal⟩ :=
        exists_miss net left k hgoes hact hp
      have opens (tail : List (Effect τ)) : 0 < left + 1 → t.limits.Allows t.now →
          ∃ q' reply' rest, s.Attempted o k q' reply' rest ∧
            s.asked o.method o.path t.now q reply ++ (s.missLines o.action k e ++ tail) =
              s.asked o.method o.path t.now q' reply' ++ rest :=
        fun _ _ => ⟨q, reply, _, ⟨hq, fun _ => ⟨e, tail, he, rfl⟩⟩, rfl⟩
      change final = _ at hfinal
      rw [hfinal]
      by_cases hl : left = 0
      · subst hl
        have hlast : (k : Int) = s.retries + 1 := by omega
        rw [if_pos rfl]
        exact ⟨_, discloses_miss hk hq he hpassing htrace (.gaveUp hlast rfl)
          (discloses_of_untold (List.append_nil _).symm (by simp)), opens []⟩
      · have hfew : (k : Int) ≤ s.retries := by omega
        have hnext (u : Timeline τ) (hon : u.limits.Allows u.now) :
            ∃ q' reply' rest, s.Attempted o (k + 1) q' reply' rest ∧
              s.Discloses u (faultOf? (R.run left (k + 1) u).1) (R.run left (k + 1) u).2
                (s.asked o.method o.path u.now q' reply' ++ rest) := by
          obtain ⟨_, h', hopens⟩ := ih (k := k + 1) (by omega) (by push_cast; omega) u
          obtain ⟨q', reply', rest, hattempted, rfl⟩ := hopens (by omega) hon
          exact ⟨q', reply', rest, hattempted, h'⟩
        obtain ⟨tail, hsequel, htail⟩ := exists_sequel hfew hnext t₁
        rw [hnow] at hsequel
        rw [if_neg hl]
        exact ⟨_, discloses_miss hk hq he hpassing htrace hsequel htail, opens tail⟩
    · have hbar : R.bar t = none := by
        simp [R, sendings, RetryPlan.rounds, Limits.fault?_eq_none_iff_allows.mpr hgoes]
      have hsettled : R.again (answered o.action o.method (s.url o.path) reply.answer) = false :=
        Bool.eq_false_iff.mpr fun h => hp ((again_sendings_iff _ _ _ _ _).mp h)
      have hfinal : final = _ := Rounds.run_settled hbar hact hsettled
      rw [hfinal]
      refine ⟨_, discloses_of_untold (trace_received s o.method o.path q reply t) ?_,
        fun _ _ => ⟨q, reply, [], ⟨hq, fun h => absurd h hp⟩, by simp⟩⟩
      simp [asked, Effect.line, Untold, hq.1, hp]

theorem candid_send (action : String) (method : Method) (path : String) (payload : Value) :
    s.Candid (s.send net action method path payload) := by
  intro t
  have hsend : (s.send net action method path payload).run t =
      (s.sendings net action method path payload).run (s.retries + 1).toNat 1 t :=
    (s.plan action).run_retryFrom _ _ _ t
  rw [hsend]
  by_cases h : s.retries + 1 ≤ 0
  · rw [Int.toNat_of_nonpos h]
    exact ⟨[], discloses_of_untold (by simp [Rounds.run]) (by simp)⟩
  · have hleft : ((1 : Nat) : Int) + (s.retries + 1).toNat = s.retries + 2 := by omega
    obtain ⟨new, hnew, -⟩ :=
      discloses_sendings net ⟨action, method, path, payload⟩ le_rfl hleft t
    exact ⟨new, hnew⟩

theorem keeps_candour : s.Keeps net s.candour where
  read := candid_read net
  send action method path payload _ := candid_send net action method path payload
  sleep action := candid_sleep s.delay (some action)

/-- What an operation announces, and what comes of it: every announcement is of an attempt that failed
in a way that may pass, and after a full pause the next attempt at the same order is made, unless the
call is over before or the attempt was the last one, with which the operation gives up. Every such
attempt has been announced. -/
theorem operation_announces_attempts (op : Operation) (t : Timeline τ) :
    let final := ((s.client net).perform op).run t
    ∃ new, final.2.trace = t.trace ++ new ∧
      (∀ pre text post, new = pre ++ .line .info text :: post →
        s.Announced final.2 (faultOf? final.1) pre text post) ∧
      ∀ pre sentAt q reply post, new = pre ++ .exchange sentAt q reply :: post →
        q.method ≠ .get → Passing q.method reply.answer →
        ∃ action k e post', post = s.missLines action k e ++ post' := by
  intro final
  obtain ⟨new, h⟩ := (keeps_candour net).perform op t
  exact ⟨new, h.trace, h.announced, h.announces⟩

end System

end Redfish

namespace Sample

/-- A service that is busy when it is first told to do something, and shows the machine on. -/
def busyAtFirst : Network Int := fun past q =>
  let answer : Response :=
    if q.method = .get then ⟨200, "", [], some (Redfish.payload [("PowerState", .str "On")])⟩
    else if past.isEmpty then ⟨503, "busy", [], none⟩
    else ⟨204, "", [], none⟩
  ⟨.response answer, 1, false⟩

/-- A service that is always busy. -/
def alwaysBusy : Network Int := fun _ _ => ⟨.response ⟨503, "busy", [], none⟩, 1, false⟩

/-- Where nothing is retried. -/
def onceOnly : Redfish.System Int := { system with retries := 0 }

/-- What is announced of the first attempt at switching the machine on. -/
def busyLine : String :=
  system.retryLine "power_on" 1 (.remote ⟨.serverError .post
    "http://bmc/redfish/v1/Systems/1/Actions/ComputerSystem.Reset" 503 "busy", some "power_on",
    none⟩)

end Sample

open Sample in
/-- The second attempt is announced after the first one, and is made a second later. -/
theorem power_on_announced_again :
    let final := ((system.client busyAtFirst).perform .powerOn).run Timeline.start
    final.1 = .ok () ∧ final.2.requests.length = 3 ∧
      ∃ pre post, final.2.trace = pre ++ .line .info busyLine :: .wait 1 :: post ∧
        system.Announced final.2 none pre busyLine (.wait 1 :: post) := by
  intro final
  obtain ⟨new, htrace, hannounced, -⟩ :=
    Redfish.System.operation_announces_attempts (s := system) busyAtFirst .powerOn Timeline.start
  have hcut : final.2.trace =
      final.2.trace.take 3 ++ .line .info busyLine :: .wait 1 :: final.2.trace.drop 5 := by rfl
  have hnew : new = final.2.trace := htrace.symm
  exact ⟨by rfl, by rfl, _, _, hcut, hannounced _ _ _ (hnew.trans hcut)⟩

open Sample in
/-- The only attempt is announced as one that is retried, and the operation gives up. -/
theorem power_on_announced_at_last :
    let final := ((onceOnly.client alwaysBusy).perform .powerOn).run Timeline.start
    final.1 = .error (.remote ⟨.exhausted onceOnly.given 1, some "power_on", none⟩) ∧
      final.2.limits.fault? final.2.now = none ∧ final.2.requests.length = 1 ∧
      final.2.trace.getLast? = some (.line .info busyLine) := by
  intro final
  exact ⟨by rfl, by rfl, by rfl, by rfl⟩

end OutOfBand
