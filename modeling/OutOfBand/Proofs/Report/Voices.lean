import OutOfBand.Proofs.Interleaving
import OutOfBand.Report.Observer
import Mathlib.Data.List.Flatten

namespace OutOfBand

variable {ε : Type}

/-- The warning that stands in the log for an observer that has failed on an event. -/
def Observer.warning (o : Observer) (e : Event) : Output :=
  .log ⟨.warning, "observer " ++ o.name ++ " failed on " ++ e.name⟩

/-- What is left of an observer that is notified of some events, one after the other: what it writes
of each of them, or one warning if it fails. -/
def Observer.stream (o : Observer) (earlier : List Event) : List Event → List Output
  | [] => []
  | e :: es =>
    match o.notify earlier e with
    | some outputs => outputs ++ stream o (earlier ++ [e]) es
    | none => o.warning e :: stream o (earlier ++ [e]) es

theorem Observer.stream_singleton (o : Observer) (earlier : List Event) (e : Event) :
    o.stream earlier [e] = o.tell earlier e := by
  rw [stream, tell]
  cases o.notify earlier e with
  | some outputs => exact List.append_nil outputs
  | none => rfl

theorem Observer.stream_cons (o : Observer) (earlier : List Event) (e : Event) (es : List Event) :
    o.stream earlier (e :: es) = o.stream earlier [e] ++ o.stream (earlier ++ [e]) es := by
  rw [stream, stream_singleton, tell]
  cases o.notify earlier e <;> rfl

/-- A record in which everyone on a bus is notified of every event as soon as it is told of. -/
def Bus.voiced (told? : ε → Option Event) (note : Output → ε) (bus : Bus) (earlier : List Event) :
    List ε → List ε
  | [] => []
  | x :: xs =>
    match told? x with
    | none => x :: voiced told? note bus earlier xs
    | some e => x :: (bus.flatMap fun o => o.stream earlier [e]).map note ++
        voiced told? note bus (earlier ++ [e]) xs

namespace Bus

variable {told? : ε → Option Event} {note : Output → ε} {bus : Bus} {earlier : List Event}
  {xs : List ε}

theorem tell_eq (bus : Bus) (earlier : List Event) (e : Event) :
    bus.tell earlier e = bus.flatMap fun o => o.stream earlier [e] := by
  rw [tell]
  congr 1
  funext o
  rw [o.stream_singleton]

theorem voiced_append (xs ys : List ε) :
    bus.voiced told? note earlier (xs ++ ys) = bus.voiced told? note earlier xs ++
      bus.voiced told? note (earlier ++ xs.filterMap told?) ys := by
  induction xs generalizing earlier with
  | nil => simp [voiced]
  | cons x xs ih =>
    rw [List.cons_append, voiced, voiced, List.filterMap_cons]
    cases told? x with
    | none => simp [ih]
    | some e => simp [ih]

theorem voiced_of_untold (h : ∀ x ∈ xs, told? x = none) :
    bus.voiced told? note earlier xs = xs := by
  induction xs with
  | nil => rfl
  | cons x xs ih =>
    have hx : told? x = none := h x List.mem_cons_self
    rw [voiced, hx, ih fun y hy => h y (List.mem_cons_of_mem x hy)]

theorem voiced_told {x : ε} {e : Event} (hx : told? x = some e) :
    bus.voiced told? note earlier [x] = x :: (bus.tell earlier e).map note := by
  rw [voiced, hx, tell_eq]
  exact List.append_nil _

/-- Whatever can be read off a record without what observers write is the same in the end. -/
theorem filterMap_voiced {β : Type} {f : ε → Option β} (hf : ∀ o, f (note o) = none) :
    (bus.voiced told? note earlier xs).filterMap f = xs.filterMap f := by
  have hnotes : ∀ os : List Output, (os.map note).filterMap f = [] := by
    intro os
    simp [List.filterMap_map, hf]
  induction xs generalizing earlier with
  | nil => rfl
  | cons x xs ih =>
    rw [voiced]
    cases told? x with
    | none => rw [List.filterMap_cons, List.filterMap_cons, ih]
    | some e =>
      change (x :: ((bus.flatMap fun o => o.stream earlier [e]).map note ++ _)).filterMap f = _
      rw [List.filterMap_cons, List.filterMap_append, hnotes, ih, List.nil_append,
        List.filterMap_cons]

/-- Without some of the observers, only what these have written is missing. -/
theorem voiced_sublist (keep : Observer → Bool) :
    (Bus.voiced told? note (bus.filter keep) earlier xs).Sublist
      (bus.voiced told? note earlier xs) := by
  have hfewer : ∀ f : Observer → List Output,
      ((bus.filter keep).flatMap f).Sublist (bus.flatMap f) :=
    fun f => List.filter_sublist.flatMap f
  induction xs generalizing earlier with
  | nil => exact .slnil
  | cons x xs ih =>
    rw [voiced, voiced]
    cases told? x with
    | none => exact ih.cons_cons x
    | some e => exact (((hfewer _).map note).append ih).cons_cons x

/-- A record that everyone has heard of is made of what was done and of one stream for each
observer: whoever else is on the bus, it is notified of every event, in their order. -/
theorem interleaves_voiced (bus : Bus) (earlier : List Event) (xs : List ε) :
    Interleaves (xs :: bus.map fun o => (o.stream earlier (xs.filterMap told?)).map note)
      (bus.voiced told? note earlier xs) := by
  induction xs generalizing earlier with
  | nil => exact .nil (by simp [Observer.stream])
  | cons x xs ih =>
    rw [voiced, List.filterMap_cons]
    cases told? x with
    | none => exact .cons (i := 0) rfl (ih earlier)
    | some e =>
      refine .cons (i := 0) rfl ?_
      have heads :=
        (Interleaves.flatten (bus.map fun o => (o.stream earlier [e]).map note)).cons_nil
      have hboth := heads.append (ih (earlier ++ [e])) (by simp)
      have hsplit : ∀ o : Observer, (o.stream earlier (e :: xs.filterMap told?)).map note =
          (o.stream earlier [e]).map note ++
            (o.stream (earlier ++ [e]) (xs.filterMap told?)).map note := by
        intro o
        rw [o.stream_cons, List.map_append]
      rw [List.flatMap, List.map_flatten, List.map_map]
      simpa [hsplit, List.zipWith_map, List.zipWith_self, Function.comp_def] using hboth

/-- How a record goes on after some things were done, where everyone on a bus is notified of the
events among them, which follow earlier ones: of each as soon as it is told of, and each observer of
all of them. -/
structure Hears (told? : ε → Option Event) (note : Output → ε) (bus : Bus) (earlier : List Event)
    (new added : List ε) : Prop where
  exact : added = bus.voiced told? note earlier new
  events : added.filterMap told? = new.filterMap told?
  streams : Interleaves
    (new :: bus.map fun o => (o.stream earlier (added.filterMap told?)).map note) added

theorem Hears.voiced (hnote : ∀ o, told? (note o) = none) (bus : Bus) (earlier : List Event)
    (new : List ε) : bus.Hears told? note earlier new (bus.voiced told? note earlier new) where
  exact := rfl
  events := filterMap_voiced hnote
  streams := by
    rw [filterMap_voiced hnote]
    exact interleaves_voiced bus earlier new

end Bus

end OutOfBand
