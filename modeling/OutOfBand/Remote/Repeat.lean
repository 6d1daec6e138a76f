import OutOfBand.Remote.Run

namespace OutOfBand

structure Budget (τ : Type) where
  /-- Whom the attempts are made on, as messages call it. -/
  target : String
  retries : Int
  /-- The pause between two attempts. -/
  delay : τ
  deriving Repr

def Budget.attempts {τ : Type} (b : Budget τ) : Int := b.retries + 1

def Failure.isTransient : Failure → Bool
  | remote e => e.isTransient
  | fault _ => false

/-- What is retried, and what is done between two attempts. -/
structure RetryPlan (τ : Type) where
  action : String
  budget : Budget τ
  /-- The failures after which there is another attempt. -/
  retryOn : Failure → Bool
  /-- Told of every such failure with the number of its attempt. -/
  onRetry : Nat → Failure → Run τ Unit
  pause : τ → Run τ Unit

namespace Run

variable {τ α : Type} [Seconds τ]

/-- All attempts of a budget have failed. -/
def giveUp (action : String) (b : Budget τ) : Run τ α :=
  fail (.exhausted b.target b.attempts) (some action)

def failedLine (p : RetryPlan τ) (k : Nat) (e : Failure) : String :=
  p.action ++ " on " ++ p.budget.target ++ " failed (attempt " ++ natText k ++ "/" ++
    intText p.budget.attempts ++ "): " ++ e.message

/-- The attempts that are left, the next of which is number `k`. -/
def retryFrom (p : RetryPlan τ) (act : Run τ α) : Nat → Nat → Run τ α
  | 0, _ => giveUp p.action p.budget
  | left + 1, k => do
    check (some p.action)
    tryCatch act fun e =>
      if p.retryOn e then do
        say .debug (failedLine p k e)
        p.onRetry k e
        if left ≠ 0 then p.pause p.budget.delay
        retryFrom p act left (k + 1)
      else throw e

/-- An action, again as long as the plan says so. -/
def retry (p : RetryPlan τ) (act : Run τ α) : Run τ α :=
  retryFrom p act p.budget.attempts.toNat 1

def pollLine (action : String) (b : Budget τ) (k : Nat) (e : Failure) : String :=
  action ++ " poll " ++ natText k ++ "/" ++ intText b.attempts ++ " failed: " ++ e.message

/-- One look at a state; a failure that may pass counts as not reached. -/
def pollOnce (action : String) (b : Budget τ) (reached : Run τ Bool) (k : Nat) :
    Run τ Bool :=
  tryCatch reached fun e =>
    if e.isTransient then do
      say .debug (pollLine action b k e)
      return false
    else throw e

def pollFrom (action : String) (b : Budget τ) (reached : Run τ Bool) : Nat → Nat → Run τ Unit
  | 0, _ => giveUp action b
  | left + 1, k => do
    if ← pollOnce action b reached k then return ()
    if left ≠ 0 then sleep b.delay (some action)
    pollFrom action b reached left (k + 1)

/-- Looks at a state until it is reached. -/
def poll (action : String) (b : Budget τ) (reached : Run τ Bool) : Run τ Unit :=
  pollFrom action b reached b.attempts.toNat 1

end Run

end OutOfBand
