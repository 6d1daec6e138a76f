import OutOfBand.Remote.Run
import Mathlib.Algebra.Order.Group.Basic
import Mathlib.Algebra.Order.Group.Int

namespace OutOfBand

/-- Seconds whose operations are those of an ordered group. -/
class Seconds.Exact (τ : Type) [AddCommGroup τ] [LinearOrder τ] [Seconds τ] : Prop where
  zero_eq : (Seconds.zero : τ) = 0
  add_eq : ∀ a b : τ, Seconds.add a b = a + b
  sub_eq : ∀ a b : τ, Seconds.sub a b = a - b
  lt_iff : ∀ a b : τ, Seconds.lt a b = true ↔ a < b
  le_iff : ∀ a b : τ, Seconds.le a b = true ↔ a ≤ b

/-- Whole seconds. -/
instance : Seconds Int where
  zero := 0
  add := (· + ·)
  sub := (· - ·)
  lt a b := a < b
  le a b := a ≤ b
  millis n := n * 1000
  text := intText

instance : Seconds.Exact Int where
  zero_eq := rfl
  add_eq _ _ := rfl
  sub_eq _ _ := rfl
  lt_iff _ _ := decide_eq_true_iff
  le_iff _ _ := decide_eq_true_iff

variable {τ : Type} [AddCommGroup τ] [LinearOrder τ] [Seconds τ] [Seconds.Exact τ]

namespace Seconds

open Exact

theorem least_eq (a b : τ) : least a b = min a b := by
  rw [least]
  split
  next h => exact (min_eq_right ((lt_iff b a).mp h).le).symm
  next h => exact (min_eq_left (not_lt.mp fun hlt => h ((lt_iff b a).mpr hlt))).symm

theorem greatest_eq (a b : τ) : greatest a b = max a b := by
  rw [greatest]
  split
  next h => exact (max_eq_right ((lt_iff a b).mp h).le).symm
  next h => exact (max_eq_left (not_lt.mp fun hlt => h ((lt_iff a b).mpr hlt))).symm

end Seconds

namespace Limits

open Seconds.Exact

variable {l : Limits τ} {now d : τ}

theorem lt_of_not_expired (hd : l.deadline = some d) (h : l.isExpired now = false) : now < d := by
  rw [isExpired, hd] at h
  refine lt_of_not_ge fun hle => ?_
  have hle' := (le_iff d now).mpr hle
  simp [hle'] at h

variable [IsOrderedAddMonoid τ]

theorem remaining_of_lt (hd : l.deadline = some d) (h : now < d) :
    l.remaining now = some (d - now) := by
  rw [remaining, hd, Option.map_some, sub_eq, Seconds.greatest_eq, zero_eq,
    max_eq_right (sub_pos.mpr h).le]

theorem wakeTime_le (now seconds : τ) (h : 0 ≤ seconds) :
    l.wakeTime now seconds ≤ now + seconds := by
  rw [wakeTime]
  simp only [add_eq, Seconds.greatest_eq]
  cases l.cancelAt with
  | none => exact le_refl _
  | some c =>
    dsimp only
    split
    next hc => exact max_le (le_add_of_nonneg_right h) ((le_iff _ _).mp hc)
    next => exact le_refl _

end Limits

end OutOfBand
