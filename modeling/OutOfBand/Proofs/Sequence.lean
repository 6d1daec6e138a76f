import Mathlib.Data.List.Forall2

namespace OutOfBand

variable {ε ε' α β : Type}

/-- The fault of an attempt that failed. -/
def faultOf? : Except ε α → Option ε
  | .ok _ => none
  | .error e => some e

theorem eq_ok_of_faultOf?_eq_none {x : Except ε α} (h : faultOf? x = none) : ∃ a, x = .ok a := by
  cases x with
  | ok a => exact ⟨a, rfl⟩
  | error e => cases h

theorem eq_error_of_faultOf? {x : Except ε α} {e : ε} (h : faultOf? x = some e) : x = .error e := by
  cases x with
  | ok a => cases h
  | error e' => rw [Option.some.inj h]

theorem bind_eq_ok_iff {x : Except ε α} {f : α → Except ε β} {b : β} :
    x >>= f = .ok b ↔ ∃ a, x = .ok a ∧ f a = .ok b := by
  cases x with
  | error e => simp [bind, Except.bind]
  | ok a => simp [bind, Except.bind]

theorem bind_eq_error_iff {x : Except ε α} {f : α → Except ε β} {e : ε} :
    x >>= f = .error e ↔ x = .error e ∨ ∃ a, x = .ok a ∧ f a = .error e := by
  cases x with
  | error e' => simp [bind, Except.bind]
  | ok a => simp [bind, Except.bind]

theorem map_eq_ok_iff {f : α → β} {x : Except ε α} {b : β} :
    x.map f = .ok b ↔ ∃ a, x = .ok a ∧ f a = b := by
  cases x <;> simp [Except.map]

theorem mapError_eq_error_iff {f : ε → ε'} {x : Except ε α} {e : ε'} :
    x.mapError f = .error e ↔ ∃ e', x = .error e' ∧ f e' = e := by
  cases x <;> simp [Except.mapError]

theorem mapError_eq_ok_iff {f : ε → ε'} {x : Except ε α} {a : α} :
    x.mapError f = .ok a ↔ x = .ok a := by
  cases x <;> simp [Except.mapError]

theorem guarded_eq_ok_iff {c : Prop} [Decidable c] {e : ε} {f : α → Except ε β} {x : Except ε β}
    {b : β} : (if c then throw e >>= f else x) = .ok b ↔ ¬ c ∧ x = .ok b := by
  split
  next h => exact ⟨nofun, fun hx => absurd h hx.1⟩
  next h => exact (and_iff_right h).symm

theorem guarded_eq_error_iff {c : Prop} [Decidable c] {e e' : ε} {f : α → Except ε β}
    {x : Except ε β} :
    (if c then throw e >>= f else x) = .error e' ↔ c ∧ e = e' ∨ ¬ c ∧ x = .error e' := by
  split
  next h => simp [h, throw, throwThe, MonadExceptOf.throw, bind, Except.bind]
  next h => simp [h]

theorem mapM_eq_ok_iff {f : α → Except ε β} {xs : List α} {ys : List β} :
    xs.mapM f = .ok ys ↔ List.Forall₂ (fun x y => f x = .ok y) xs ys := by
  induction xs generalizing ys with
  | nil =>
    rw [List.mapM_nil, List.forall₂_nil_left_iff]
    exact ⟨fun h => (Except.ok.inj h).symm, fun h => congrArg _ h.symm⟩
  | cons x xs ih =>
    rw [List.mapM_cons, bind_eq_ok_iff, List.forall₂_cons_left_iff]
    constructor
    · rintro ⟨y, hy, h⟩
      obtain ⟨zs, hzs, h⟩ := bind_eq_ok_iff.mp h
      exact ⟨y, zs, hy, ih.mp hzs, (Except.ok.inj h).symm⟩
    · rintro ⟨y, zs, hy, hzs, rfl⟩
      exact ⟨y, hy, bind_eq_ok_iff.mpr ⟨zs, ih.mpr hzs, rfl⟩⟩

theorem mapM_eq_error_iff {f : α → Except ε β} {xs : List α} {e : ε} :
    xs.mapM f = .error e ↔ ∃ pre x post ys, xs = pre ++ x :: post ∧
      List.Forall₂ (fun x y => f x = .ok y) pre ys ∧ f x = .error e := by
  induction xs with
  | nil => simp [pure, Except.pure]
  | cons x xs ih =>
    rw [List.mapM_cons, bind_eq_error_iff]
    constructor
    · rintro (hx | ⟨y, hy, hrest⟩)
      · exact ⟨[], x, xs, [], rfl, .nil, hx⟩
      · rcases bind_eq_error_iff.mp hrest with hxs | ⟨ys, -, hpure⟩
        · obtain ⟨pre, x', post, ys, rfl, hpre, hx'⟩ := ih.mp hxs
          exact ⟨x :: pre, x', post, y :: ys, rfl, .cons hy hpre, hx'⟩
        · cases hpure
    · rintro ⟨_ | ⟨x', pre⟩, x'', post, ys, hxs, hpre, hx⟩
      · cases hxs
        exact .inl hx
      · cases hxs
        obtain ⟨y, zs, hy, hzs, -⟩ := List.forall₂_cons_left_iff.mp hpre
        have hrest := ih.mpr ⟨pre, x'', post, zs, rfl, hzs, hx⟩
        exact .inr ⟨y, hy, bind_eq_error_iff.mpr (.inl hrest)⟩

theorem mapM_congr {f g : α → Except ε β} {xs : List α} (h : ∀ x ∈ xs, f x = g x) :
    xs.mapM f = xs.mapM g := by
  induction xs with
  | nil => rfl
  | cons x xs ih =>
    obtain ⟨hx, hxs⟩ := List.forall_mem_cons.mp h
    rw [List.mapM_cons, List.mapM_cons, hx, ih hxs]

/-- Only which attempts are made decides whether all of them succeed, not their order. -/
theorem exists_mapM_eq_ok_iff {f : α → Except ε β} {xs : List α} :
    (∃ ys, xs.mapM f = .ok ys) ↔ ∀ x ∈ xs, ∃ y, f x = .ok y := by
  induction xs with
  | nil =>
    refine iff_of_true ⟨[], rfl⟩ ?_
    simp
  | cons x xs ih =>
    rw [List.forall_mem_cons, ← ih]
    simp only [List.mapM_cons, bind_eq_ok_iff]
    constructor
    · rintro ⟨_, y, hy, zs, hzs, -⟩
      exact ⟨⟨y, hy⟩, zs, hzs⟩
    · rintro ⟨⟨y, hy⟩, zs, hzs⟩
      exact ⟨y :: zs, y, hy, zs, hzs, rfl⟩

theorem faultOf?_bind (x : Except ε α) (f : α → Except ε β) :
    faultOf? (x >>= f) = match x with
      | .ok a => faultOf? (f a)
      | .error e => some e := by
  cases x <;> rfl

theorem faultOf?_mapM (f : α → Except ε β) (xs : List α) :
    faultOf? (xs.mapM f) = xs.findSome? fun x => faultOf? (f x) := by
  induction xs with
  | nil => rfl
  | cons x xs ih =>
    rw [List.mapM_cons, List.findSome?_cons, ← ih]
    cases hx : f x with
    | error e => rfl
    | ok y => cases hxs : xs.mapM f <;> rfl

/-- Two attempts that end alike: with one fault, or with results that are related. -/
inductive Agree (R : α → β → Prop) : Except ε α → Except ε β → Prop where
  | ok {a : α} {b : β} (h : R a b) : Agree R (.ok a) (.ok b)
  | error (e : ε) : Agree R (.error e) (.error e)

namespace Agree

variable {R : α → β → Prop} {x : Except ε α} {y : Except ε β}

theorem refl {R : α → α → Prop} (hR : ∀ a, R a a) : ∀ x : Except ε α, Agree R x x
  | .ok a => .ok (hR a)
  | .error e => .error e

theorem same (x : Except ε α) : Agree Eq x x := refl (fun _ => rfl) x

theorem bind {α' β' : Type} {S : α' → β' → Prop} {f : α → Except ε α'} {g : β → Except ε β'}
    (h : Agree R x y) (hfg : ∀ a b, R a b → Agree S (f a) (g b)) : Agree S (x >>= f) (y >>= g) := by
  cases h with
  | ok hab => exact hfg _ _ hab
  | error e => exact .error e

theorem mono {Q : α → β → Prop} (h : Agree R x y) (hRQ : ∀ a b, R a b → Q a b) : Agree Q x y := by
  cases h with
  | ok hab => exact .ok (hRQ _ _ hab)
  | error e => exact .error e

theorem mapError (f : ε → ε') (h : Agree R x y) : Agree R (x.mapError f) (y.mapError f) := by
  cases h with
  | ok hab => exact .ok hab
  | error e => exact .error (f e)

end Agree

section Forall₂

variable {R : α → β → Prop} {xs : List α} {ys : List β}

theorem exists_of_mem_right (h : List.Forall₂ R xs ys) {y : β} (hy : y ∈ ys) : ∃ x ∈ xs, R x y := by
  induction h with
  | nil => simp at hy
  | @cons x y' xs ys hxy _ ih =>
    rcases List.mem_cons.mp hy with rfl | hy
    · exact ⟨x, by simp, hxy⟩
    · obtain ⟨x', hx', hr⟩ := ih hy
      exact ⟨x', List.mem_cons_of_mem x hx', hr⟩

theorem exists_of_mem_left (h : List.Forall₂ R xs ys) {x : α} (hx : x ∈ xs) : ∃ y ∈ ys, R x y :=
  exists_of_mem_right h.flip hx

theorem exists_of_forall₂_append {ws : List α} (h : List.Forall₂ R (xs ++ ws) ys) :
    ∃ us vs, List.Forall₂ R xs us ∧ List.Forall₂ R ws vs ∧ ys = us ++ vs := by
  induction xs generalizing ys with
  | nil => exact ⟨[], ys, .nil, h, rfl⟩
  | cons x xs ih =>
    obtain ⟨y, zs, hxy, hzs, rfl⟩ := List.forall₂_cons_left_iff.mp h
    obtain ⟨us, vs, hus, hvs, rfl⟩ := ih hzs
    exact ⟨y :: us, vs, .cons hxy hus, hvs, rfl⟩

theorem exists_forall₂ (h : ∀ x ∈ xs, ∃ y, R x y) : ∃ ys, List.Forall₂ R xs ys := by
  induction xs with
  | nil => exact ⟨[], .nil⟩
  | cons x xs ih =>
    obtain ⟨⟨y, hy⟩, hxs⟩ := List.forall_mem_cons.mp h
    obtain ⟨ys, hys⟩ := ih hxs
    exact ⟨y :: ys, .cons hy hys⟩

theorem any_eq_of_forall₂ {p : α → Bool} {q : β → Bool} (hpq : ∀ x y, R x y → p x = q y)
    (h : List.Forall₂ R xs ys) : xs.any p = ys.any q := by
  induction h with
  | nil => rfl
  | cons hxy _ ih => rw [List.any_cons, List.any_cons, hpq _ _ hxy, ih]

theorem all_eq_of_forall₂ {p : α → Bool} {q : β → Bool} (hpq : ∀ x y, R x y → p x = q y)
    (h : List.Forall₂ R xs ys) : xs.all p = ys.all q := by
  induction h with
  | nil => rfl
  | cons hxy _ ih => rw [List.all_cons, List.all_cons, hpq _ _ hxy, ih]

theorem map_eq_of_forall₂ {γ : Type} {f : α → γ} {g : β → γ} (hfg : ∀ x y, R x y → f x = g y)
    (h : List.Forall₂ R xs ys) : xs.map f = ys.map g := by
  induction h with
  | nil => rfl
  | cons hxy _ ih => rw [List.map_cons, List.map_cons, hfg _ _ hxy, ih]

theorem forall₂_concat_left {x : α} (h : List.Forall₂ R (xs ++ [x]) ys) :
    ∃ zs z, ys = zs ++ [z] ∧ List.Forall₂ R xs zs ∧ R x z := by
  have htake := List.forall₂_take_append ys xs [x] h.flip
  have hdrop := List.forall₂_drop_append ys xs [x] h.flip
  obtain ⟨z, zs, hz, hnil, hd⟩ := List.forall₂_cons_right_iff.mp hdrop
  rw [List.forall₂_nil_right_iff.mp hnil] at hd
  exact ⟨ys.take xs.length, z, by rw [← hd, List.take_append_drop], htake.flip, hz⟩

end Forall₂

end OutOfBand
