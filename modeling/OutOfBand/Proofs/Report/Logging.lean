import OutOfBand.Inventory.Bundle
import OutOfBand.Phase
import OutOfBand.Proofs.Sequence

namespace OutOfBand

variable {ε ε' α β : Type}

namespace Logged

/-- A computation that ends in one way from every log. -/
def Ends (c : Logged ε α) (o : Except ε α) : Prop := ∀ log, (c.run log).1 = o

theorem ends_pure (a : α) : Ends (pure a : Logged ε α) (.ok a) := fun _ => rfl

theorem ends_throw (e : ε) : Ends (throw e : Logged ε α) (.error e) := fun _ => rfl

theorem ends_debug (text : String) : Ends (debug text : Logged ε Unit) (.ok ()) := fun _ => rfl

theorem ends_silently (x : Except ε α) : Ends (silently x) x := by
  cases x with
  | ok a => exact ends_pure a
  | error e => exact ends_throw e

theorem Ends.bind {c : Logged ε α} {f : α → Logged ε β} {o : Except ε α} {g : α → Except ε β}
    (hc : Ends c o) (hf : ∀ a, o = .ok a → Ends (f a) (g a)) : Ends (c >>= f) (o >>= g) := by
  intro log
  have hrun : ((c >>= f).run log).1 = match c.run log with
      | (.ok a, log') => ((f a).run log').1
      | (.error e, _) => .error e := by
    change (StateT.run (ExceptT.run c >>= ExceptT.bindCont f) log).1 = _
    rw [StateT.run_bind]
    change _ = match StateT.run (ExceptT.run c) log with
      | (.ok a, log') => ((f a).run log').1
      | (.error e, _) => .error e
    rcases StateT.run (ExceptT.run c) log with ⟨e | a, log'⟩ <;> rfl
  rw [hrun]
  have hlog := hc log
  rcases hcrun : c.run log with ⟨e | a, log'⟩ <;> rw [hcrun] at hlog <;> subst hlog
  · rfl
  · exact hf a rfl log'

theorem Ends.after {c : Logged ε Unit} {d : Logged ε α} {o : Except ε α} (hc : Ends c (.ok ()))
    (hd : Ends d o) : Ends (c >>= fun _ => d) o :=
  hc.bind fun _ _ => hd

theorem Ends.within {f : ε → ε'} {c : Logged ε α} {o : Except ε α} (hc : Ends c o) :
    Ends (c.within f) (o.mapError f) := by
  intro log
  change (StateT.run (Except.mapError f <$> ExceptT.run c) log).1 = _
  rw [StateT.run_map]
  exact congrArg (Except.mapError f) (hc log)

end Logged

open Logged

theorem Bundle.ends_load (m : Machine) (root : Path) :
    Ends (Bundle.load m root) (Bundle.ofPath m root) := by
  rw [← bind_pure (Bundle.ofPath m root)]
  exact (ends_silently _).bind fun b _ => (ends_debug _).after (ends_pure b)

namespace Phases

variable (p : Phases) (phase : String)

theorem ends_documents :
    Ends p.documents ((Bundle.ofPath p.machine p.folder).mapError .document) :=
  (Bundle.ends_load _ _).within

theorem ends_liftDocument (r : Except DocumentError α) :
    Ends (liftDocument r) (r.mapError .document) :=
  (ends_silently r).within

/-- The names of the phases of a bundle in order. -/
def namesIn (b : Bundle) : Except PhaseError (List Value) := do
  let docs ← (b.select (.ofKind phaseKind)).mapError .document
  let names ← (Query.liftShape (docs.mapM Document.name)).mapError .document
  match Value.sorted? names with
  | some ns => .ok ns
  | none => .error (.document (.shape .notSortable))

/-- The folder of a phase of a bundle. -/
def rootIn (b : Bundle) : Except PhaseError Path := do
  let d ← documentOf b phase
  let entry ← entryPoint phase d
  return p.rootOf entry

theorem ends_names : Ends p.names
    ((Bundle.ofPath p.machine p.folder).mapError .document >>= namesIn) := by
  refine p.ends_documents.bind fun b _ => (ends_liftDocument _).bind fun docs _ =>
    (ends_liftDocument _).bind fun names _ => ?_
  cases Value.sorted? names with
  | some ns => exact ends_pure ns
  | none => exact ends_throw _

theorem ends_root : Ends (p.root phase)
    ((Bundle.ofPath p.machine p.folder).mapError .document >>= p.rootIn phase) :=
  p.ends_documents.bind fun _ _ => (ends_silently _).bind fun _ _ =>
    (ends_silently _).bind fun entry _ => (ends_debug _).after (ends_pure (p.rootOf entry))

theorem ends_bundle : Ends (p.bundle phase) (do
    let b ← (Bundle.ofPath p.machine p.folder).mapError .document
    let root ← p.rootIn phase b
    (Bundle.ofPath p.machine root).mapError .document) := by
  rw [← bind_assoc]
  exact (p.ends_root phase).bind fun root _ => (Bundle.ends_load p.machine root).within

end Phases

end OutOfBand
