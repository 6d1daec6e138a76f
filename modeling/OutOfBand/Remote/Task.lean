/-!
Tasks: computations that change a state in single steps. A task that runs alone takes its steps one
after the other; tasks that run side by side take turns, and no turn splits a step.
-/

namespace OutOfBand

inductive Task (σ α : Type) where
  | done (a : α)
  /-- One step: the state changes, and what follows depends on the state before. -/
  | step (change : σ → σ) (next : σ → Task σ α)

namespace Task

variable {σ α β : Type}

def bind : Task σ α → (α → Task σ β) → Task σ β
  | done a, f => f a
  | step change next, f => step change fun s => (next s).bind f

instance : Monad (Task σ) where
  pure := done
  bind := bind

instance : MonadStateOf σ (Task σ) where
  get := step id done
  set s := step (fun _ => s) fun _ => done ()
  modifyGet f := step (fun s => (f s).2) fun s => done (f s).1

def run : Task σ α → σ → α × σ
  | done a, s => (a, s)
  | step change next, s => (next s).run (change s)

@[simp] theorem run_pure (a : α) (s : σ) : (pure a : Task σ α).run s = (a, s) := rfl

@[simp] theorem run_done (a : α) (s : σ) : (done a).run s = (a, s) := rfl

@[simp] theorem run_get (s : σ) : (get : Task σ σ).run s = (s, s) := rfl

@[simp] theorem run_set (s t : σ) : (set t : Task σ PUnit).run s = ((), t) := rfl

@[simp] theorem run_modifyGet (f : σ → α × σ) (s : σ) :
    (modifyGet f : Task σ α).run s = f s := rfl

@[simp] theorem run_modify (f : σ → σ) (s : σ) :
    (modify f : Task σ PUnit).run s = ((), f s) := rfl

theorem run_bind (t : Task σ α) (f : α → Task σ β) (s : σ) :
    (t >>= f).run s = (f (t.run s).1).run (t.run s).2 := by
  induction t generalizing s with
  | done a => rfl
  | step change next ih => exact ih s (change s)

end Task

end OutOfBand
