import OutOfBand.Proofs.Exact
import OutOfBand.Proofs.Remote.Discipline
import OutOfBand.Proofs.Remote.Ensures
import Mathlib.Algebra.Order.Monoid.Unbundled.MinMax

namespace OutOfBand

variable {τ α β : Type}

/-- What a client has to do with the other side: a request and its reply, or a call. -/
inductive Contact (τ : Type) where
  | exchanged (q : Request τ) (reply : Reply τ)
  | called (client : Nat) (call : List String)

/-- What a run leaves on a trace for others: its contacts and the events that it tells of. -/
inductive Mark (τ : Type) where
  | contact (c : Contact τ)
  | told (e : Event)

namespace Mark

def contact? : Mark τ → Option (Contact τ)
  | contact c => some c
  | told _ => none

def event? : Mark τ → Option Event
  | contact _ => none
  | told e => some e

def request? : Mark τ → Option (Request τ)
  | contact (.exchanged q _) => some q
  | _ => none

/-- The contacts of one party, which are its own marks. -/
def isOf (owner : Contact τ → Nat) (i : Nat) : Mark τ → Bool
  | contact c => owner c = i
  | told _ => false

end Mark

def Effect.mark? : Effect τ → Option (Mark τ)
  | exchange _ q reply => some (.contact (.exchanged q reply))
  | called client call => some (.contact (.called client call))
  | noted (.told e) => some (.told e)
  | _ => none

/-- The marks on a trace. -/
def marksOf (trace : List (Effect τ)) : List (Mark τ) := trace.filterMap Effect.mark?

namespace Timeline

def marks (t : Timeline τ) : List (Mark τ) := marksOf t.trace

def contacts (t : Timeline τ) : List (Contact τ) := t.marks.filterMap Mark.contact?

def events (t : Timeline τ) : List Event := t.marks.filterMap Mark.event?

end Timeline

/-- The events that an event bus is told of; none if there is no bus. -/
def Bus.heard (bus : Option Bus) (e : Event) : List Event :=
  match bus with
  | none => []
  | some _ => [e]

theorem marks_say (level : Level) (text : String) (t : Timeline τ) :
    ((Run.say level text).run t).2.marks = t.marks := by
  simp [Run.run_say, Timeline.marks, marksOf, Timeline.record, Effect.mark?]

theorem marks_tell (bus : Option Bus) (e : Event) (t : Timeline τ) :
    ((Run.tell bus e).run t).2.marks = t.marks ++ (Bus.heard bus e).map .told := by
  change marksOf (t.trace ++ (Bus.notices bus t.notices e).map .noted) = _
  rw [marksOf, List.filterMap_append, Timeline.marks, marksOf]
  congr 1
  cases bus with
  | none => rfl
  | some bus =>
    have hnone : ∀ os : List Output,
        ((os.map Notice.wrote).map Effect.noted).filterMap (Effect.mark? (τ := τ)) = [] := by
      intro os
      simp [Effect.mark?]
    simp only [Bus.notices, List.map_cons, List.filterMap_cons, hnone]
    rfl

theorem requests_eq (t : Timeline τ) : t.requests = t.marks.filterMap Mark.request? := by
  rw [Timeline.requests, Timeline.marks, marksOf, List.filterMap_filterMap]
  congr 1
  funext x
  rcases x with ⟨sentAt, q, reply⟩ | w | ⟨client, call⟩ | ⟨o | e⟩ <;> rfl

/-- What comes back for some requests depends only on those among them that were sent before. -/
def Network.Minds (net : Network τ) (mine : String → Bool) : Prop :=
  ∀ earlier q, mine q.url = true → net earlier q = net (earlier.filter (mine ·.url)) q

section Alike

variable [AddCommGroup τ]

/-- The same bounds, later by some time. -/
def Limits.later (l : Limits τ) (shift : τ) : Limits τ :=
  { l with deadline := l.deadline.map (· + shift), cancelAt := l.cancelAt.map (· + shift) }

theorem Limits.later_zero (l : Limits τ) : l.later 0 = l := by
  simp [later]

/-- Two moments, the second later by some time, which are the same to whoever counts time from a
start of its own and looks at its own marks only. -/
structure Alike (own : Mark τ → Bool) (shift : τ) (t t' : Timeline τ) : Prop where
  now : t'.now = t.now + shift
  limits : t'.limits = t.limits.later shift
  marks : t'.marks.filter own = t.marks.filter own

/-- The same change of two such moments: time and bounds go on alike, and the same marks are added,
all of them such as may be added. -/
structure SameChange (may : Mark τ → Prop) (shift : τ) (t u t' u' : Timeline τ) : Prop where
  now : u'.now = u.now + shift
  limits : u'.limits = u.limits.later shift
  marks : ∃ new, u.marks = t.marks ++ new ∧ u'.marks = t'.marks ++ new ∧ ∀ m ∈ new, may m

variable {own : Mark τ → Bool} {may : Mark τ → Prop} {shift : τ} {t u v t' u' v' : Timeline τ}

theorem Alike.refl (t : Timeline τ) : Alike own 0 t t :=
  ⟨(add_zero _).symm, t.limits.later_zero.symm, rfl⟩

theorem SameChange.alike (h : SameChange may shift t u t' u') (ht : Alike own shift t t') :
    Alike own shift u u' where
  now := h.now
  limits := h.limits
  marks := by
    obtain ⟨new, hu, hu', -⟩ := h.marks
    rw [hu, hu', List.filter_append, List.filter_append, ht.marks]

theorem Alike.sameChange (h : Alike own shift t t') : SameChange may shift t t t' t' :=
  ⟨h.now, h.limits, [], by simp, by simp, by simp⟩

theorem SameChange.trans (h : SameChange may shift t u t' u')
    (h' : SameChange may shift u v u' v') : SameChange may shift t v t' v' where
  now := h'.now
  limits := h'.limits
  marks := by
    obtain ⟨new, hu, hu', hnew⟩ := h.marks
    obtain ⟨new', hv, hv', hnew'⟩ := h'.marks
    exact ⟨new ++ new', by rw [hv, hu, List.append_assoc], by rw [hv', hu', List.append_assoc],
      fun m hm => (List.mem_append.mp hm).elim (hnew m) (hnew' m)⟩

theorem Alike.requests {mine : String → Bool} (h : Alike own shift t t')
    (hown : ∀ q reply, own (.contact (.exchanged q reply)) = mine q.url) :
    t'.requests.filter (mine ·.url) = t.requests.filter (mine ·.url) := by
  have seen : ∀ ms : List (Mark τ), (ms.filterMap Mark.request?).filter (mine ·.url) =
      (ms.filter own).filterMap Mark.request? := by
    intro ms
    rw [List.filter_filterMap, List.filterMap_filter]
    congr 1
    funext m
    rcases m with (⟨q, reply⟩ | ⟨client, call⟩) | e
    · simp [Mark.request?, hown, Option.filter]
    · simp [Mark.request?]
    · simp [Mark.request?]
  rw [requests_eq, requests_eq, seen, seen, h.marks]

/-- Tasks that make the same changes, step by step, at moments that are alike to them. -/
inductive Task.InStep (own : Mark τ → Bool) (may : Mark τ → Prop) (shift : τ) :
    Task (Timeline τ) α → Task (Timeline τ) α → Prop
  | done (a : α) : InStep own may shift (.done a) (.done a)
  | step {change change' : Timeline τ → Timeline τ} {next next' : Timeline τ → Task (Timeline τ) α}
      (moves : ∀ t t', Alike own shift t t' → SameChange may shift t (change t) t' (change' t'))
      (goesOn : ∀ t t', Alike own shift t t' → InStep own may shift (next t) (next' t')) :
      InStep own may shift (.step change next) (.step change' next')

namespace Task.InStep

theorem bind {r r' : Task (Timeline τ) α} {f f' : α → Task (Timeline τ) β}
    (hr : InStep own may shift r r') (hf : ∀ a, InStep own may shift (f a) (f' a)) :
    InStep own may shift (r.bind f) (r'.bind f') := by
  induction hr with
  | done a => exact hf a
  | step moves _ ih => exact .step moves ih

theorem mono {may' : Mark τ → Prop} {r r' : Task (Timeline τ) α}
    (h : InStep own may shift r r') (hmay : ∀ m, may m → may' m) : InStep own may' shift r r' := by
  induction h with
  | done a => exact .done a
  | step moves _ ih =>
    refine .step (fun t t' ht => ?_) ih
    obtain ⟨hnow, hlimits, new, hu, hu', hnew⟩ := moves t t' ht
    exact ⟨hnow, hlimits, new, hu, hu', fun m hm => hmay m (hnew m hm)⟩

theorem run {r r' : Task (Timeline τ) α} (h : InStep own may shift r r')
    (ht : Alike own shift t t') :
    (r'.run t').1 = (r.run t).1 ∧ SameChange may shift t (r.run t).2 t' (r'.run t').2 := by
  induction h generalizing t t' with
  | done a => exact ⟨rfl, ht.sameChange⟩
  | step moves _ ih =>
    have hmove := moves t t' ht
    obtain ⟨hout, hchange⟩ := ih t t' ht (hmove.alike ht)
    exact ⟨hout, hmove.trans hchange⟩

end Task.InStep

namespace Run

/-- Runs whose tasks are in step. -/
def InStep (own : Mark τ → Bool) (may : Mark τ → Prop) (shift : τ) (r r' : Run τ α) : Prop :=
  Task.InStep own may shift (ExceptT.run r) (ExceptT.run r')

/-- A run that looks only at its own marks and at the time since its start, and leaves no others. -/
def Isolated (own : Mark τ → Bool) (r : Run τ α) : Prop :=
  ∀ shift, r.InStep own (fun m => own m = true) shift r

theorem inStep_pure (a : α) : (pure a : Run τ α).InStep own may shift (pure a) := .done _

theorem inStep_throw (e : Failure) : (throw e : Run τ α).InStep own may shift (throw e) := .done _

theorem InStep.bind {r r' : Run τ α} {f f' : α → Run τ β} (hr : r.InStep own may shift r')
    (hf : ∀ a, (f a).InStep own may shift (f' a)) :
    (r >>= f).InStep own may shift (r' >>= f') := by
  have hcont : ∀ out, Task.InStep own may shift (ExceptT.bindCont f out)
      (ExceptT.bindCont f' out) := by
    intro out
    cases out with
    | ok a => exact hf a
    | error e => exact .done _
  exact Task.InStep.bind hr hcont

theorem InStep.tryCatch {r r' : Run τ α} {handle handle' : Failure → Run τ α}
    (hr : r.InStep own may shift r')
    (hh : ∀ e, (handle e).InStep own may shift (handle' e)) :
    (tryCatch r handle).InStep own may shift (tryCatch r' handle') := by
  refine Task.InStep.bind hr fun out => ?_
  cases out with
  | ok a => exact .done _
  | error e => exact hh e

theorem inStep_get {k k' : Timeline τ → Run τ α}
    (h : ∀ t t', Alike own shift t t' → (k t).InStep own may shift (k' t')) :
    (get >>= k : Run τ α).InStep own may shift (get >>= k') :=
  .step (fun _ _ ht => ht.sameChange) h

theorem inStep_modify {change change' : Timeline τ → Timeline τ}
    (h : ∀ t t', Alike own shift t t' → SameChange may shift t (change t) t' (change' t')) :
    (modify change : Run τ Unit).InStep own may shift (modify change') :=
  .step h fun _ _ _ => .done _

theorem inStep_modifyGet {f : Timeline τ → α × Timeline τ}
    (h : ∀ t t', Alike own shift t t' →
      (f t').1 = (f t).1 ∧ SameChange may shift t (f t).2 t' (f t').2) :
    (modifyGet f : Run τ α).InStep own may shift (modifyGet f) := by
  refine .step (fun t t' ht => (h t t' ht).2) fun t t' ht => ?_
  change Task.InStep own may shift (.done (Except.ok (f t).1)) (.done (Except.ok (f t').1))
  rw [(h t t' ht).1]
  exact .done _

theorem inStep_say (level : Level) (text text' : String) :
    (say level text : Run τ Unit).InStep own may shift (say level text') := by
  refine inStep_modify fun t t' ht => ⟨ht.now, ht.limits, [], ?_, ?_, by simp⟩
  · exact (marks_say level text t).trans (List.append_nil _).symm
  · exact (marks_say level text' t').trans (List.append_nil _).symm

theorem inStep_tell (bus : Option Bus) (e : Event) (hmay : may (.told e)) :
    (tell bus e : Run τ Unit).InStep own may shift (tell bus e) := by
  refine inStep_modify fun t t' ht =>
    ⟨ht.now, ht.limits, _, marks_tell bus e t, marks_tell bus e t', fun m hm => ?_⟩
  obtain ⟨e', he', rfl⟩ := List.mem_map.mp hm
  cases bus with
  | none => cases he'
  | some bus => rwa [List.mem_singleton.mp he']

theorem isolated_pure (a : α) : (pure a : Run τ α).Isolated own := fun _ => inStep_pure a

theorem isolated_throw (e : Failure) : (throw e : Run τ α).Isolated own := fun _ => inStep_throw e

theorem isolated_say (level : Level) (text : String) : (say level text : Run τ Unit).Isolated own :=
  fun _ => inStep_say level text text

theorem Isolated.bind {r : Run τ α} {f : α → Run τ β} (hr : r.Isolated own)
    (hf : ∀ a, (f a).Isolated own) : (r >>= f).Isolated own :=
  fun shift => (hr shift).bind fun a => hf a shift

theorem Isolated.tryCatch {r : Run τ α} {handle : Failure → Run τ α} (hr : r.Isolated own)
    (hh : ∀ e, (handle e).Isolated own) : (tryCatch r handle).Isolated own :=
  fun shift => (hr shift).tryCatch fun e => hh e shift

theorem Isolated.marks {r : Run τ α} (h : r.Isolated own) (t : Timeline τ) :
    ∃ new, (r.run t).2.marks = t.marks ++ new ∧ ∀ m ∈ new, own m = true := by
  obtain ⟨-, -, -, new, hnew, -, hown⟩ := (h 0).run (Alike.refl t)
  exact ⟨new, hnew, hown⟩

end Run

end Alike

section Exact

variable [AddCommGroup τ] [LinearOrder τ] [Seconds τ] [Seconds.Exact τ] {own : Mark τ → Bool}
  {may : Mark τ → Prop} {shift : τ} {t t' : Timeline τ}

open Seconds.Exact

theorem Limits.starting_later (timeout : Option τ) (now : τ) :
    starting timeout (now + shift) = (starting timeout now).later shift := by
  cases timeout with
  | none => rfl
  | some d => simp [starting, later, add_eq, add_right_comm]

theorem Limits.remaining_later (l : Limits τ) (now : τ) :
    (l.later shift).remaining (now + shift) = l.remaining now := by
  simp [remaining, later, Function.comp_def, sub_eq, add_sub_add_right_eq_sub]

theorem Alike.remaining (h : Alike own shift t t') :
    t'.limits.remaining t'.now = t.limits.remaining t.now := by
  rw [h.now, h.limits, Limits.remaining_later]

theorem Run.inStep_enter (timeout : Option τ) :
    (enter timeout : Run τ Unit).InStep own may shift (enter timeout) := by
  refine inStep_modify fun t t' ht =>
    ⟨ht.now, ?_, [], by simp [Timeline.marks], by simp [Timeline.marks], by simp⟩
  rw [ht.now]
  exact Limits.starting_later timeout t.now

/-- A request is isolated where the other side minds only requests like it. -/
theorem Run.isolated_exchange {net : Network τ} {mine : String → Bool} {q : Request τ}
    (hnet : net.Minds mine) (hq : mine q.url = true)
    (hown : ∀ q reply, own (.contact (.exchanged q reply)) = mine q.url) :
    (exchange net q).Isolated own := by
  refine fun shift => inStep_modifyGet fun t t' ht => ?_
  have reply : net t'.requests q = net t.requests q := by
    rw [hnet t'.requests q hq, ht.requests hown, ← hnet t.requests q hq]
  change (net t'.requests q).answer = (net t.requests q).answer ∧ SameChange _ shift t
    (received t q (net t.requests q)) t' (received t' q (net t'.requests q))
  rw [reply]
  refine ⟨rfl, ?_, ?_, [.contact (.exchanged q (net t.requests q))], ?_, ?_, ?_⟩
  · rw [received, received, ht.now, add_eq, add_eq, add_right_comm]
  · rw [received, received, ht.limits]
    dsimp only
    split <;> rfl
  · simp [received, Timeline.marks, marksOf, Effect.mark?]
  · simp [received, Timeline.marks, marksOf, Effect.mark?]
  · simpa [hown] using hq

variable [IsOrderedAddMonoid τ]

theorem Seconds.le_later (a b shift : τ) : le (a + shift) (b + shift) = le a b := by
  rw [Bool.eq_iff_iff, le_iff, le_iff, add_le_add_iff_right]

namespace Limits

variable (l : Limits τ) (now : τ)

theorem fault?_later : (l.later shift).fault? (now + shift) = l.fault? now := by
  have cancelled : (l.later shift).isCancelled (now + shift) = l.isCancelled now := by
    simp [isCancelled, later, Option.any_map, Seconds.le_later]
  have expired : (l.later shift).isExpired (now + shift) = l.isExpired now := by
    simp [isExpired, later, Option.any_map, Seconds.le_later]
  rw [fault?, fault?, cancelled, expired]
  rfl

theorem wakeTime_later (seconds : τ) :
    (l.later shift).wakeTime (now + shift) seconds = l.wakeTime now seconds + shift := by
  have final : Seconds.add (now + shift) seconds = Seconds.add now seconds + shift := by
    rw [add_eq, add_eq, add_right_comm]
  rw [wakeTime, wakeTime, final, later]
  cases l.cancelAt with
  | none => rfl
  | some c =>
    simp only [Option.map_some, Seconds.le_later, Seconds.greatest_eq, max_add_add_right]
    split <;> rfl

end Limits

theorem Alike.fault? (h : Alike own shift t t') :
    t'.limits.fault? t'.now = t.limits.fault? t.now := by
  rw [h.now, h.limits, Limits.fault?_later]

namespace Run

theorem isolated_check (action : Option String) : (check action : Run τ Unit).Isolated own := by
  refine fun shift => inStep_get fun t t' ht => ?_
  rw [ht.fault?]
  cases t.limits.fault? t.now with
  | none => exact inStep_pure ()
  | some cause => exact inStep_throw _

theorem isolated_wait (seconds : τ) : (wait seconds).Isolated own := by
  refine fun shift => inStep_modify fun t t' ht => ⟨?_, ht.limits, [], ?_, ?_, by simp⟩
  · rw [ht.now, ht.limits]
    exact t.limits.wakeTime_later t.now seconds
  · simp [Timeline.marks, marksOf, Effect.mark?]
  · simp [Timeline.marks, marksOf, Effect.mark?]

theorem isolated_sleep (delay : τ) (action : Option String) :
    (sleep delay action).Isolated own := by
  refine .bind (isolated_check action) fun _ shift => inStep_get fun t t' ht => ?_
  rw [ht.remaining]
  dsimp only
  split
  next => exact (isolated_wait _).bind (fun _ => isolated_check action) shift
  next => exact isolated_check action shift

/-- Isolation as something that a call has if its steps have it; any failure may be raised. -/
def isolation (own : Mark τ → Bool) : Routine τ where
  has := Isolated own
  may _ := True
  remote _ := trivial
  pure := isolated_pure
  throw _ := isolated_throw _
  bind := Isolated.bind
  handle h hf := h.tryCatch fun e => hf e trivial
  say := isolated_say
  check := isolated_check

end Run

end Exact

end OutOfBand
