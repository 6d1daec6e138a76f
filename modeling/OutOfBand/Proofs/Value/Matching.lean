import OutOfBand.Inventory.Document
import OutOfBand.Proofs.Value.Entries

namespace OutOfBand

/-- Mappings with the same keys, whose values are related under each of them. Values that are no
mappings are equal. -/
inductive Value.Matching (R : Value → Value → Value → Prop) : Value → Value → Prop where
  | map {es fs : Entries} (h : List.Forall₂ (EntryRel R) es fs) :
    Matching R (.map es) (.map fs)
  | same (v : Value) : Matching R v v

namespace Value.Matching

variable {R : Value → Value → Value → Prop} {v w : Value}

theorem get? (hR : ∀ key v, R key v v) (h : v.Matching R w) (key : String) :
    Option.Rel (R (.str key)) (v.get? key) (w.get? key) := by
  have refl : ∀ o : Option Value, Option.Rel (R (.str key)) o o := by
    rintro (_ | u)
    · exact .none
    · exact .some (hR _ u)
  cases h with
  | same v => exact refl _
  | map h =>
    change Option.Rel _ (Entries.get? _ key) (Entries.get? _ key)
    induction h with
    | nil => exact refl none
    | @cons e f es fs hef _ ih =>
      obtain ⟨k, v⟩ := e
      obtain ⟨k', w⟩ := f
      obtain ⟨rfl, hval⟩ := hef
      rw [Entries.get?_cons, Entries.get?_cons]
      split
      next hk => exact .some (Value.str_alike_iff.mp hk ▸ hval)
      next => exact ih

theorem member (hR : ∀ key v, R key v v) (h : v.Matching R w) (key : String) :
    Agree (Option.Rel (R (.str key))) (v.member key) (w.member key) := by
  have hget := h.get? hR key
  cases h with
  | map h => exact .ok hget
  | same v =>
    cases v with
    | map es => exact .ok hget
    | _ => exact .error _

theorem isGiven (h : v.Matching R w) : v.isGiven = w.isGiven := by
  cases h with
  | same v => rfl
  | map h => cases h <;> rfl

end Value.Matching

theorem orElse_matching {R S : Value → Value → Value → Prop} {key : Value} {o p : Option Value}
    (hRS : ∀ {v w}, R key v w → v.Matching S w) (h : Option.Rel (R key) o p) (other : Value) :
    (orElse o other).Matching S (orElse p other) := by
  cases h with
  | none => exact .same other
  | @some v w h =>
    have hm := hRS h
    rw [orElse, orElse, hm.isGiven]
    split
    · exact hm
    · exact .same other

end OutOfBand
