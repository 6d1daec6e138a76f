import OutOfBand.Yaml.Load

namespace OutOfBand

namespace Value

mutual
/-- Whether two values made of texts are exactly the same. -/
def isExactly : Value → Value → Bool
  | .str a, .str b => a = b
  | .list xs, .list ys => areExactly xs ys
  | .map es, .map fs => entriesAreExactly es fs
  | _, _ => false
termination_by structural v => v
def areExactly : List Value → List Value → Bool
  | [], [] => true
  | x :: xs, y :: ys => isExactly x y && areExactly xs ys
  | _, _ => false
termination_by structural xs => xs
def entriesAreExactly : List (Value × Value) → List (Value × Value) → Bool
  | [], [] => true
  | e :: es, f :: fs => entryIsExactly e f && entriesAreExactly es fs
  | _, _ => false
termination_by structural es => es
def entryIsExactly : Value × Value → Value × Value → Bool
  | (k, v), (k', v') => isExactly k k' && isExactly v v'
termination_by structural e => e
end

mutual
theorem eq_of_isExactly : ∀ {v w : Value}, isExactly v w = true → v = w
  | .str _, .str _, h => congrArg Value.str (of_decide_eq_true h)
  | .list _, .list _, h => congrArg Value.list (eq_of_areExactly h)
  | .map _, .map _, h => congrArg Value.map (eq_of_entriesAreExactly h)
theorem eq_of_areExactly : ∀ {xs ys : List Value}, areExactly xs ys = true → xs = ys
  | [], [], _ => rfl
  | x :: xs, y :: ys, h => by
    obtain ⟨hx, hxs⟩ := Bool.and_eq_true_iff.mp h
    rw [eq_of_isExactly hx, eq_of_areExactly hxs]
theorem eq_of_entriesAreExactly : ∀ {es fs : List (Value × Value)},
    entriesAreExactly es fs = true → es = fs
  | [], [], _ => rfl
  | (k, v) :: es, (k', v') :: fs, h => by
    obtain ⟨he, hes⟩ := Bool.and_eq_true_iff.mp h
    obtain ⟨hk, hv⟩ := Bool.and_eq_true_iff.mp he
    rw [eq_of_isExactly hk, eq_of_isExactly hv, eq_of_entriesAreExactly hes]
end

end Value

namespace Yaml

theorem eq_ok_of_any {ε α : Type} {x : Except ε α} {p : α → Bool} {a : α}
    (hp : ∀ {b}, p b = true → a = b) (h : x.toOption.any p = true) : x = .ok a := by
  cases x with
  | ok b => rw [hp h]
  | error f => cases h

theorem loadAll_of_areExactly {text : String} {vs : List Value}
    (h : (loadAll text).toOption.any (Value.areExactly vs) = true) : loadAll text = .ok vs :=
  eq_ok_of_any Value.eq_of_areExactly h

theorem load_of_isExactly {text : String} {v : Value}
    (h : (load text).toOption.any v.isExactly = true) : load text = .ok v :=
  eq_ok_of_any Value.eq_of_isExactly h

end Yaml

end OutOfBand
