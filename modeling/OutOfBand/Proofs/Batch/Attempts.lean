import OutOfBand.Proofs.Batch.SideBySide

namespace OutOfBand

variable {τ α β : Type}

/-- A call as its callers know it: it tells of nothing, and fails only as remote calls do. -/
structure Run.IsRemote (r : Run τ α) : Prop where
  events : ∀ t, (r.run t).2.events = t.events
  ne_fault : ∀ t m, (r.run t).1 ≠ .error (.fault m)

theorem Run.Silent.isRemote {r : Run τ α} (h : r.Silent) : r.IsRemote where
  events t := by
    obtain ⟨es, hevents, rfl, -⟩ := Task.Tells.run h t
    exact hevents.trans (List.append_nil _)
  ne_fault := h.ne_fault

namespace Timeline

/-- No time passes and nothing is done, but that something may be noted. -/
structure Idles (t t' : Timeline τ) : Prop where
  now : t'.now = t.now
  trace : ∃ notes : List Notice, t'.trace = t.trace ++ notes.map .noted

namespace Idles

variable {t t' t'' : Timeline τ}

theorem refl (t : Timeline τ) : t.Idles t := ⟨rfl, [], by simp⟩

theorem trans (h : t.Idles t') (h' : t'.Idles t'') : t.Idles t'' where
  now := h'.now.trans h.now
  trace := by
    obtain ⟨notes, hnotes⟩ := h.trace
    obtain ⟨more, hmore⟩ := h'.trace
    exact ⟨notes ++ more, by rw [hmore, hnotes, List.map_append, List.append_assoc]⟩

theorem contacts (h : t.Idles t') : t'.contacts = t.contacts := by
  obtain ⟨notes, hnotes⟩ := h.trace
  have hnone : (marksOf (notes.map .noted : List (Effect τ))).filterMap Mark.contact? = [] := by
    simp only [marksOf, List.filterMap_map, List.filterMap_filterMap, List.filterMap_eq_nil_iff]
    intro n _
    cases n <;> rfl
  rw [Timeline.contacts, marks, hnotes, marksOf, List.filterMap_append, List.filterMap_append]
  exact (congrArg _ hnone).trans (List.append_nil _)

theorem said (level : Level) (text : String) (t : Timeline τ) :
    t.Idles ((Run.say level text).run t).2 :=
  ⟨rfl, [.wrote (.log ⟨level, text⟩)], rfl⟩

theorem told (bus : Option Bus) (e : Event) (t : Timeline τ) :
    t.Idles ((Run.tell bus e).run t).2 :=
  ⟨rfl, Bus.notices bus t.notices e, rfl⟩

end Idles

end Timeline

/-- An action that leaves everything that may fail to the operations of its host. -/
inductive Host.Forwards (h : Host (Client τ)) : {α : Type} → Run τ α → Prop
  | order (op : Operation) : Forwards h (h.call (·.perform op))
  | status : Forwards h (h.call (·.powerStatus))
  | sure {α : Type} {r : Run τ α} (ok : ∀ t, ∃ a, (r.run t).1 = .ok a) : Forwards h r
  | bind {α β : Type} {r : Run τ α} {f : α → Run τ β} (first : Forwards h r)
      (next : ∀ a, Forwards h (f a)) : Forwards h (r >>= f)

/-- A failure with which the client has ended a call; the host is named if the client did not name
any. -/
def Host.Blames (h : Host (Client τ)) (e : RemoteError) (t' : Timeline τ) : Prop :=
  ∃ op t e₀, (h.client.perform op).run t = (.error (.remote e₀), t') ∧
    e = e₀.onHost h.name.text ∧ (e₀.host = none → e.host = some h.name.text)

namespace Host

variable {h : Host (Client τ)} {e : RemoteError} {t t' : Timeline τ}

theorem error_of_run_call {operation : Client τ → Run τ α}
    (hr : (h.call operation).run t = (.error (.remote e), t')) :
    ∃ e₀, (operation h.client).run t = (.error (.remote e₀), t') ∧
      e = e₀.onHost h.name.text ∧ (e₀.host = none → e.host = some h.name.text) := by
  rw [call, Run.run_tryCatch] at hr
  rcases ho : (operation h.client).run t with ⟨⟨e₀ | m⟩ | a, t₁⟩
  · rw [ho] at hr
    obtain ⟨he, rfl⟩ := Prod.mk.inj hr
    cases he
    exact ⟨e₀, rfl, rfl, fun hnone => by rw [RemoteError.onHost, hnone]; rfl⟩
  · rw [ho] at hr
    cases congrArg Prod.fst hr
  · rw [ho] at hr
    cases congrArg Prod.fst hr

/-- Every failure of an action that forwards is a failure of the client. -/
theorem Forwards.blames {r : Run τ α} (hf : h.Forwards r)
    (hr : r.run t = (.error (.remote e), t')) : h.Blames e t' := by
  induction hf generalizing t with
  | order op =>
    obtain ⟨e₀, he₀, he⟩ := error_of_run_call hr
    exact ⟨op, t, e₀, he₀, he⟩
  | status =>
    obtain ⟨e₀, he₀, he⟩ := error_of_run_call hr
    refine ⟨.powerStatus, t, e₀, ?_, he⟩
    rw [Client.perform, Run.run_bind, he₀]
  | sure ok =>
    obtain ⟨a, ha⟩ := ok t
    cases ha.symm.trans (congrArg Prod.fst hr)
  | @bind _ _ r f _ _ ihr ihf =>
    rw [Run.run_bind] at hr
    rcases hfirst : r.run t with ⟨f | a, t₁⟩
    · rw [hfirst] at hr
      obtain ⟨he, rfl⟩ := Prod.mk.inj hr
      cases he
      exact ihr hfirst
    · rw [hfirst] at hr
      exact ihf a hr

end Host

/-- Every command leaves what may fail to the operations of its host. -/
theorem Command.forwards (c : Command) (h : Host (Client τ)) : h.Forwards (c.action h) := by
  have sure : ∀ {β : Type} (b : β), h.Forwards (pure b) := fun b => .sure fun t => ⟨b, rfl⟩
  cases c with
  | powerOn => exact .bind (.order .powerOn) fun _ => sure none
  | powerOff => exact .bind (.order .powerOff) fun _ => sure none
  | powerStatus => exact .bind .status fun _ => sure _
  | reboot => exact .bind (.order .reboot) fun _ => sure none
  | ejectMedia => exact .bind (.order .ejectVirtualMedia) fun _ => sure none
  | remoteDirect image =>
    refine .bind (.bind (.sure fun t => ⟨(), rfl⟩) fun _ => ?_) fun _ => sure none
    exact .bind (.order (.setVirtualMedia image)) fun _ =>
      .bind (.order .setBootSource) fun _ => .order .reboot

/-- One host that is tried: the moment at which its action is called, and its result. -/
structure Attempt (τ : Type) where
  host : Host (Client τ)
  start : Timeline τ
  result : HostResult

namespace Batch

open Run

variable {b : Batch τ} {goOn : Bool} {h : Host (Client τ)} {hosts : List (Host (Client τ))}
  {t t' t'' : Timeline τ} {a : Attempt τ} {as : List (Attempt τ)} {rs : List HostResult}
  {stories : List (List Event)}

/-- The call of the action that an attempt is. -/
def call (b : Batch τ) (a : Attempt τ) : Except Failure (Option String) × Timeline τ :=
  (b.action a.host).run a.start

/-- Attempts one after the other, with nothing in between. -/
def InOrder (b : Batch τ) : Timeline τ → List (Attempt τ) → Timeline τ → Prop
  | t, [], t' => t.Idles t'
  | t, a :: rest, t' => t.Idles a.start ∧ InOrder b (b.call a).2 rest t'

theorem count_add_count_add_count (rs : List HostResult) :
    count Outcome.isOk rs + count Outcome.isFailed rs + count Outcome.isSkipped rs = rs.length := by
  induction rs with
  | nil => rfl
  | cons r rs ih =>
    rw [count_cons, count_cons, count_cons, List.length_cons, ← ih]
    cases r.outcome <;> simp only [Outcome.isOk, Outcome.isFailed, Outcome.isSkipped, if_true,
      Bool.false_eq_true, if_false] <;> omega

theorem events_tell (b : Batch τ) (e : Happening) (t : Timeline τ) :
    ((b.tell e).run t).2.events = t.events ++ b.heard e := by
  rw [Timeline.events, marks_told, List.filterMap_append, events_told]
  rfl

theorem events_say (level : Level) (text : String) (t : Timeline τ) :
    ((Run.say level text).run t).2.events = t.events := by
  rw [Timeline.events, marks_say]
  rfl

/-- The end of an action is told of, in no time. -/
theorem said_and_told (b : Batch τ) (level : Level) (text : String) (e : Happening)
    (t : Timeline τ) :
    let t' := ((b.tell e).run ((Run.say level text).run t).2).2
    t.Idles t' ∧ t'.events = t.events ++ b.heard e :=
  ⟨(Timeline.Idles.said level text t).trans (.told _ _ _),
    (events_tell b e _).trans (congrArg (· ++ b.heard e) (events_say level text t))⟩

theorem run_failedOn (b : Batch τ) (h : Host (Client τ)) (e : RemoteError) (t : Timeline τ) :
    ∃ t', (b.failedOn h e).run t = (.ok (b.result h (.failed e)), t') ∧ t.Idles t' ∧
      t'.events = t.events ++ b.heard (.failed h.name b.name e.message) :=
  ⟨_, rfl, b.said_and_told .error _ _ t⟩

theorem InOrder.trans_idles (h : b.InOrder t as t') (h' : t'.Idles t'') : b.InOrder t as t'' := by
  induction as generalizing t with
  | nil => exact Timeline.Idles.trans h h'
  | cons a as ih => exact ⟨h.1, ih h.2⟩

variable [Seconds τ]

/-- An attempt has bounds of its own from its own start, and its result is what the action ends
with. -/
structure IsAttempt (b : Batch τ) (a : Attempt τ) : Prop where
  bounds : a.start.limits = Limits.starting b.timeout a.start.now
  outcome : (∃ value, (b.call a).1 = .ok value ∧ a.result = b.result a.host (.ok value)) ∨
    ∃ e, (b.call a).1 = .error (.remote e) ∧ a.result = b.result a.host (.failed e)

theorem IsAttempt.name (ha : b.IsAttempt a) : a.result.host = a.host.name := by
  obtain ⟨_, -, hr⟩ | ⟨_, -, hr⟩ := ha.outcome <;> rw [hr] <;> rfl

theorem IsAttempt.call_of_failed (ha : b.IsAttempt a) {e : RemoteError}
    (he : a.result.outcome = .failed e) : b.call a = (.error (.remote e), (b.call a).2) := by
  obtain ⟨_, -, hr⟩ | ⟨e', hcall, hr⟩ := ha.outcome
  · rw [hr] at he
    cases he
  · rw [hr] at he
    cases he
    exact Prod.ext hcall rfl

theorem IsAttempt.ok_or_failed (ha : b.IsAttempt a) :
    a.result.outcome.isOk = true ∨ a.result.outcome.isFailed = true := by
  obtain ⟨_, -, hr⟩ | ⟨_, -, hr⟩ := ha.outcome
  · exact .inl (by rw [hr]; rfl)
  · exact .inr (by rw [hr]; rfl)

/-- The moment at which the action of a host is called: its start has been told of. -/
def begun (b : Batch τ) (h : Host (Client τ)) (t : Timeline τ) : Timeline τ :=
  ((b.tell (.started h.name b.name)).run { t with limits := Limits.starting b.timeout t.now }).2

theorem idles_begun (b : Batch τ) (h : Host (Client τ)) (t : Timeline τ) :
    t.Idles (b.begun h t) :=
  ⟨rfl, _, rfl⟩

theorem run_runOn_eq (b : Batch τ) (h : Host (Client τ)) (t : Timeline τ) :
    (b.runOn h).run t = match (b.action h).run (b.begun h t) with
      | (.ok value, t') => (b.succeededOn h t.now value).run t'
      | (.error (.remote e), t') => (b.failedOn h e).run t'
      | (.error (.fault m), t') => (.error (.fault m), t') := by
  change (b.attempt h >>= _ : Run τ HostResult).run (b.begun h t) = _
  rw [run_bind, attempt, run_tryCatch, run_bind]
  rcases (b.action h).run (b.begun h t) with ⟨⟨e | m⟩ | value, t'⟩ <;> rfl

theorem run_succeededOn (b : Batch τ) (h : Host (Client τ)) (started : τ) (value : Option String)
    (t : Timeline τ) :
    ∃ ms t', (b.succeededOn h started value).run t = (.ok (b.result h (.ok value)), t') ∧
      t.Idles t' ∧ t'.events = t.events ++ b.heard (.succeeded h.name b.name ms value) :=
  ⟨_, _, rfl, b.said_and_told .info _ _ t⟩

theorem run_runOn_of_isRemote (remote : (b.action h).IsRemote) (t : Timeline τ) :
    ∃ a t' es, (b.runOn h).run t = (.ok a.result, t') ∧ a.host = h ∧ b.IsAttempt a ∧
      t.Idles a.start ∧ (b.call a).2.Idles t' ∧ b.Story h a.result es ∧
      t'.events = t.events ++ es := by
  have hbegun : (b.begun h t).events = t.events ++ b.heard (.started h.name b.name) :=
    events_tell b _ _
  have hevents := (remote.events (b.begun h t)).trans hbegun
  have hrun := run_runOn_eq b h t
  rcases hcall : (b.action h).run (b.begun h t) with ⟨⟨e | m⟩ | value, t₁⟩
  · obtain ⟨t', hend, hidles, hmore⟩ := run_failedOn b h e t₁
    rw [hcall] at hrun hevents
    refine ⟨⟨h, b.begun h t, b.result h (.failed e)⟩, t', _, hrun.trans hend, rfl,
      ⟨rfl, .inr ⟨e, congrArg Prod.fst hcall, rfl⟩⟩, idles_begun b h t, ?_, .failed e, ?_⟩
    · rwa [call, hcall]
    · rw [hmore, ← List.append_assoc, ← hevents]
  · exact absurd (congrArg Prod.fst hcall) (remote.ne_fault _ m)
  · obtain ⟨ms, t', hend, hidles, hmore⟩ := run_succeededOn b h t.now value t₁
    rw [hcall] at hrun hevents
    refine ⟨⟨h, b.begun h t, b.result h (.ok value)⟩, t', _, hrun.trans hend, rfl,
      ⟨rfl, .inl ⟨value, congrArg Prod.fst hcall, rfl⟩⟩, idles_begun b h t, ?_,
      .succeeded ms value, ?_⟩
    · rwa [call, hcall]
    · rw [hmore, ← List.append_assoc, ← hevents]

/-- What a batch in turn comes to: the first hosts are tried, in order and one after the other, and
the others are left alone; none is if the batch goes on after failures, and otherwise those that
follow the first failure. -/
structure Course (b : Batch τ) (goOn : Bool) (hosts : List (Host (Client τ))) (t t' : Timeline τ)
    (as : List (Attempt τ)) (rs : List HostResult) (stories : List (List Event)) : Prop where
  tried : as.map Attempt.host = hosts.take as.length
  attempts : ∀ a ∈ as, b.IsAttempt a
  inOrder : b.InOrder t as t'
  results : rs = as.map Attempt.result ++
    (hosts.drop as.length).map fun h => b.result h .skipped
  stories : List.Forall₂ (fun a es => b.Story a.host a.result es) as stories
  goesOn : goOn = true → as.length = hosts.length
  stops : goOn = false →
    (as.length = hosts.length ∧ ∀ a ∈ as, a.result.outcome.isOk = true) ∨
      ∃ before a, as = before ++ [a] ∧ (∀ x ∈ before, x.result.outcome.isOk = true) ∧
        a.result.outcome.isFailed = true

namespace Course

variable {es : List Event}

theorem nil (t : Timeline τ) : b.Course goOn [] t t [] [] [] where
  tried := rfl
  attempts := by simp
  inOrder := .refl t
  results := rfl
  stories := .nil
  goesOn _ := rfl
  stops _ := .inl ⟨rfl, by simp⟩

theorem stop (rest : List (Host (Client τ))) (ha : b.IsAttempt a) (hbefore : t.Idles a.start)
    (hafter : (b.call a).2.Idles t') (hstory : b.Story a.host a.result es)
    (hfailed : a.result.outcome.isFailed = true) :
    b.Course false (a.host :: rest) t t' [a] (a.result :: rest.map fun h => b.result h .skipped)
      [es] where
  tried := rfl
  attempts := by simpa using ha
  inOrder := ⟨hbefore, hafter⟩
  results := rfl
  stories := .cons hstory .nil
  goesOn h := by cases h
  stops _ := .inr ⟨[], a, rfl, by simp, hfailed⟩

theorem cons (ha : b.IsAttempt a) (hbefore : t.Idles a.start) (hafter : (b.call a).2.Idles t')
    (hstory : b.Story a.host a.result es)
    (hgoesOn : goOn = false → a.result.outcome.isOk = true)
    (hrest : b.Course goOn hosts t' t'' as rs stories) :
    b.Course goOn (a.host :: hosts) t t'' (a :: as) (a.result :: rs) (es :: stories) where
  tried := by simp [hrest.tried]
  attempts := by simpa using ⟨ha, hrest.attempts⟩
  inOrder := by
    refine ⟨hbefore, ?_⟩
    have hinOrder := hrest.inOrder
    cases as with
    | nil => exact hafter.trans hinOrder
    | cons a' as => exact ⟨hafter.trans hinOrder.1, hinOrder.2⟩
  results := by simp [hrest.results]
  stories := .cons hstory hrest.stories
  goesOn h := by simp [hrest.goesOn h]
  stops h := by
    rcases hrest.stops h with ⟨hlength, hok⟩ | ⟨before, x, rfl, hok, hfailed⟩
    · exact .inl ⟨by simp [hlength], by simpa using ⟨hgoesOn h, hok⟩⟩
    · exact .inr ⟨a :: before, x, rfl, by simpa using ⟨hgoesOn h, hok⟩, hfailed⟩

theorem names (h : b.Course goOn hosts t t' as rs stories) :
    rs.map HostResult.host = hosts.map Host.name := by
  have hnames : as.map (fun a => a.result.host) = (hosts.take as.length).map Host.name := by
    rw [← h.tried, List.map_map]
    exact List.map_congr_left fun a ha => (h.attempts a ha).name
  have hskipped : ((hosts.drop as.length).map fun h => b.result h .skipped).map HostResult.host =
      (hosts.drop as.length).map Host.name := by
    rw [List.map_map]
    rfl
  rw [h.results, List.map_append, List.map_map, hskipped]
  change as.map (fun a => a.result.host) ++ _ = _
  rw [hnames, ← List.map_append, List.take_append_drop]

/-- Unless the batch goes on, all results are good, or those before the first failure are and those
after it say that the host was left alone. -/
theorem stops_at_failure (h : b.Course false hosts t t' as rs stories) :
    (∀ r ∈ rs, r.outcome.isOk = true) ∨
      ∃ pre r post, rs = pre ++ r :: post ∧ (∀ x ∈ pre, x.outcome.isOk = true) ∧
        r.outcome.isFailed = true ∧ ∀ x ∈ post, x.outcome.isSkipped = true := by
  rcases h.stops rfl with ⟨hlength, hok⟩ | ⟨before, a, rfl, hok, hfailed⟩
  · left
    have hrs : rs = as.map Attempt.result := by simp [h.results, hlength]
    simpa [hrs] using hok
  · right
    let rest := hosts.drop (before ++ [a]).length
    refine ⟨before.map Attempt.result, a.result, rest.map fun h => b.result h .skipped, ?_,
      by simpa using hok, hfailed, ?_⟩
    · rw [h.results, List.map_append, List.append_assoc]
      rfl
    · intro x hx
      obtain ⟨k, -, rfl⟩ := List.mem_map.mp hx
      rfl

theorem none_skipped (h : b.Course true hosts t t' as rs stories) :
    ∀ r ∈ rs, r.outcome.isSkipped = false := by
  have hrs : rs = as.map Attempt.result := by simp [h.results, h.goesOn rfl]
  intro r hr
  rw [hrs] at hr
  obtain ⟨a, ha, rfl⟩ := List.mem_map.mp hr
  obtain ⟨_, -, hout⟩ | ⟨_, -, hout⟩ := (h.attempts a ha).outcome <;> rw [hout] <;> rfl

end Course

theorem results_inTurn (remote : ∀ h ∈ hosts, (b.action h).IsRemote) (goOn : Bool)
    (t : Timeline τ) :
    ∃ rs t' as stories, (b.runInTurn goOn hosts).run t = (.ok rs, t') ∧
      b.Course goOn hosts t t' as rs stories ∧ t'.events = t.events ++ stories.flatten := by
  induction hosts generalizing t with
  | nil => exact ⟨[], t, [], [], rfl, .nil t, by simp⟩
  | cons h rest ih =>
    obtain ⟨a, t₁, es, hrun, rfl, ha, hbefore, hafter, hstory, hevents⟩ :=
      run_runOn_of_isRemote (remote h List.mem_cons_self) t
    by_cases hstops : (a.result.outcome.isFailed && !goOn) = true
    · obtain ⟨hfailed, hgoOn⟩ := Bool.and_eq_true_iff.mp hstops
      obtain rfl : goOn = false := by simpa using hgoOn
      refine ⟨_, t₁, [a], [es], ?_, .stop rest ha hbefore hafter hstory hfailed, by simp [hevents]⟩
      rw [runInTurn, run_bind, hrun]
      dsimp only
      rw [if_pos hstops]
      rfl
    · obtain ⟨rs, t', as, stories, hrest, hcourse, hmore⟩ :=
        ih (fun h hh => remote h (List.mem_cons_of_mem _ hh)) t₁
      have hgoesOn : goOn = false → a.result.outcome.isOk = true := by
        rintro rfl
        have hfailed : a.result.outcome.isFailed = false := by simpa using hstops
        exact ha.ok_or_failed.resolve_right (by simp [hfailed])
      refine ⟨a.result :: rs, t', a :: as, es :: stories, ?_,
        hcourse.cons ha hbefore hafter hstory hgoesOn, by simp [hmore, hevents]⟩
      rw [runInTurn, run_bind, hrun]
      dsimp only
      rw [if_neg hstops, run_bind, hrest]
      rfl

/-- A batch in turn has one result for each host, in their order. Every host is tried if the batch
goes on after failures; otherwise those after the first failure are left alone, without a call and
without an event. The events are the stories of the hosts that are tried, and then the sums, which
add up to the number of hosts. Every attempt has bounds of its own, from its own start; and the
failure of an action that leaves all to its host is one of the client, with the host's name. -/
theorem batch_in_turn_accounts (remote : ∀ h ∈ hosts, (b.action h).IsRemote) (goOn : Bool)
    (t : Timeline τ) :
    let final := (b.run (.inTurn goOn) hosts).run t
    ∃ rs as stories, final.1 = .ok rs ∧ rs.map HostResult.host = hosts.map Host.name ∧
      b.Course goOn hosts t final.2 as rs stories ∧
      (goOn = true → ∀ r ∈ rs, r.outcome.isSkipped = false) ∧
      (goOn = false → (∀ r ∈ rs, r.outcome.isOk = true) ∨
        ∃ pre r post, rs = pre ++ r :: post ∧ (∀ x ∈ pre, x.outcome.isOk = true) ∧
          r.outcome.isFailed = true ∧ ∀ x ∈ post, x.outcome.isSkipped = true) ∧
      final.2.events = t.events ++ stories.flatten ++ b.heard (b.summary rs) ∧
      count Outcome.isOk rs + count Outcome.isFailed rs + count Outcome.isSkipped rs =
        hosts.length ∧
      ∀ a ∈ as, a.host.Forwards (b.action a.host) → ∀ e, a.result.outcome = .failed e →
        a.host.Blames e (b.call a).2 := by
  intro final
  obtain ⟨rs, t', as, stories, hrun, hcourse, hevents⟩ := results_inTurn remote goOn t
  have hfinal : final = (.ok rs, ((b.tell (b.summary rs)).run t').2) := by
    have hresults : (b.results (.inTurn goOn) hosts).run t = (.ok rs, t') := hrun
    change (b.run (.inTurn goOn) hosts).run t = _
    rw [run, run_bind, hresults]
    rfl
  have hnames := hcourse.names
  have hlength : rs.length = hosts.length := by simpa using congrArg List.length hnames
  refine ⟨rs, as, stories, congrArg Prod.fst hfinal, hnames, ?_, ?_, ?_, ?_, ?_, ?_⟩
  · rw [hfinal]
    exact { hcourse with inOrder := hcourse.inOrder.trans_idles (.told _ _ _) }
  · rintro rfl
    exact hcourse.none_skipped
  · rintro rfl
    exact hcourse.stops_at_failure
  · rw [hfinal, ← hevents]
    exact events_tell b _ t'
  · rw [count_add_count_add_count, hlength]
  · intro a ha hforwards e he
    exact hforwards.blames ((hcourse.attempts a ha).call_of_failed he)

end Batch

open Sample in
/-- A batch that stops at the first failure asks one of two machines for its status. -/
theorem statusOfAll_stopped :
    let hosts := [hostAt "b" "http://b", hostAt "a" "http://a"]
    let final := (statusOfAll.run (.inTurn false) hosts).run Timeline.start
    let missing : RemoteError :=
      ⟨.clientError .get "http://b/redfish/v1/Systems/1" 404 "none", some "power_status", some "b"⟩
    (∀ h ∈ hosts, (statusOfAll.action h).IsRemote) ∧
      final.1 = .ok [⟨.str "b", "powerstatus", .failed missing⟩,
        ⟨.str "a", "powerstatus", .skipped⟩] ∧
      final.2.contacts.length = 1 ∧
      final.2.events.getLast? = some ⟨statusOfAll.stamp, .summary "powerstatus" 0 1 1⟩ := by
  intro hosts final missing
  have remote : ∀ h ∈ hosts, (statusOfAll.action h).IsRemote := by
    intro h hh
    simp only [hosts, List.mem_cons, List.not_mem_nil, or_false] at hh
    rcases hh with rfl | rfl <;>
      exact (Command.powerStatus.silent_action Redfish.System.silent_client).isRemote
  obtain ⟨rs, as, stories, hok, -, -, -, -, hevents, -⟩ :=
    Batch.batch_in_turn_accounts remote false Timeline.start
  have results : final.1 = .ok [⟨.str "b", "powerstatus", .failed missing⟩,
      ⟨.str "a", "powerstatus", .skipped⟩] := rfl
  cases hok.symm.trans results
  refine ⟨remote, results, rfl, ?_⟩
  rw [hevents]
  exact List.getLast?_concat

end OutOfBand
