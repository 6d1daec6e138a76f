import OutOfBand.Value

namespace OutOfBand

open Float.Model (UnpackedFloat)

/-- A number that is no integer, but for the sign of a zero. -/
inductive FloatForm where
  | notANumber
  | infinity (sign : Float.Model.UnpackedFloat.Sign)
  | zero
  | finite (sign : Float.Model.UnpackedFloat.Sign) (mantissa : Nat) (exponent : Int)

def floatForm : UnpackedFloat → FloatForm
  | .notANumber => .notANumber
  | .infinity s => .infinity s
  | .zero _ => .zero
  | .finite s m e _ => .finite s m e

theorem compare_eq_iff (x y : UnpackedFloat) :
    x.compare y = some .eq ↔ floatForm x ≠ .notANumber ∧ floatForm x = floatForm y := by
  rcases x with (_ | _) | _ | (_ | _) | ⟨_ | _, m, e, _⟩ <;>
    rcases y with (_ | _) | _ | (_ | _) | ⟨_ | _, n, f, _⟩ <;>
    dsimp only [UnpackedFloat.compare, floatForm] <;>
    simp [Ordering.then_eq_eq, Ordering.swap_eq_eq, and_comm] <;> decide

theorem isNaN_iff (x : UnpackedFloat) : x.isNaN = true ↔ floatForm x = .notANumber := by
  cases x with
  | notANumber => exact iff_of_true rfl rfl
  | infinity | zero | finite => exact iff_of_false Bool.false_ne_true nofun

/-- What makes a key the key that it is. -/
inductive KeyForm where
  | null
  | number (n : Int ⊕ FloatForm)
  | str (s : String)
  | bytes (bs : List UInt8)
  | date (d : Date)
  /-- An instant, or a reading of the clock where there is no offset. -/
  | moment (hasOffset : Bool) (micros : Int)
  | pair (a b : KeyForm)

def KeyForm.isNumber : KeyForm → Bool
  | number _ => true
  | _ => false

def numberForm (n : Int ⊕ Float) : Int ⊕ FloatForm :=
  n.map id fun x => floatForm x.toModel.unpack

namespace Value

def keyForm? : Value → Option KeyForm
  | null => some .null
  | str s => some (.str s)
  | bytes bs => some (.bytes bs)
  | date d => some (.date d)
  | moment t => some (.moment t.offset.isSome t.micros)
  | pair a b => (keyForm? a).bind fun x => (keyForm? b).map (KeyForm.pair x)
  | list _ | set _ | map _ | enclosing _ => none
  | v => v.number?.map fun n => .number (numberForm n)

theorem number?_isSome_of_float (x : Float) : ∃ n, (float x).number? = some n := by
  cases h : floatInt? x with
  | some n => exact ⟨.inl n, by simp [number?, h]⟩
  | none => exact ⟨.inr x, by simp [number?, h]⟩

theorem keyForm?_of_isKey {v : Value} (h : v.isKey = true) : ∃ k, v.keyForm? = some k := by
  match v with
  | null | bool _ | int _ | str _ | bytes _ | date _ | moment _ => exact ⟨_, rfl⟩
  | float x =>
    obtain ⟨n, hn⟩ := number?_isSome_of_float x
    exact ⟨.number (numberForm n), by simp [keyForm?, hn]⟩
  | pair a b =>
    simp only [isKey, Bool.and_eq_true] at h
    obtain ⟨x, hx⟩ := keyForm?_of_isKey h.1
    obtain ⟨y, hy⟩ := keyForm?_of_isKey h.2
    exact ⟨.pair x y, by simp [keyForm?, hx, hy]⟩
  | list _ | set _ | map _ => simp [isKey] at h

theorem sameNumber_or_isNaN_iff (m n : Int ⊕ Float) :
    (sameNumber m n = true ∨ ∃ x y, m = .inr x ∧ n = .inr y ∧ x.isNaN = true ∧ y.isNaN = true) ↔
      numberForm m = numberForm n := by
  cases m with
  | inl m => cases n <;> simp [sameNumber, numberForm]
  | inr x =>
    cases n with
    | inl n => simp [sameNumber, numberForm]
    | inr y =>
      have hbeq : (x == y) = (x.toModel.unpack.compare y.toModel.unpack == some .eq) := rfl
      have hx : x.isNaN = x.toModel.unpack.isNaN := rfl
      have hy : y.isNaN = y.toModel.unpack.isNaN := rfl
      simp only [sameNumber, numberForm, hbeq, hx, hy, beq_iff_eq, compare_eq_iff, isNaN_iff,
        Sum.map_inr, Sum.inr.injEq, exists_and_left, exists_eq_left']
      constructor
      · rintro (h | ⟨h, g⟩)
        · exact h.2
        · rw [h, g]
      · intro h
        by_cases hn : floatForm x.toModel.unpack = .notANumber
        · exact .inr ⟨hn, h ▸ hn⟩
        · exact .inl ⟨hn, h⟩

theorem bothNaN_iff {a b : Value} {m n : Int ⊕ Float} (ha : a.number? = some m)
    (hb : b.number? = some n) : bothNaN a b = true ↔
      ∃ x y, m = .inr x ∧ n = .inr y ∧ x.isNaN = true ∧ y.isNaN = true := by
  rcases m with m | x <;> rcases n with n | y <;> simp [bothNaN, ha, hb]

theorem alike_numbers_iff {a b : Value} {m n : Int ⊕ Float} (ha : a.number? = some m)
    (hb : b.number? = some n) : a.alike b = true ↔ numberForm m = numberForm n := by
  have hsame : same a b = sameNumber m n := by
    cases a <;> simp only [number?, reduceCtorEq] at ha <;>
      cases b <;> simp only [number?, reduceCtorEq] at hb <;> simp [same, number?, ha, hb]
  rw [← sameNumber_or_isNaN_iff, ← bothNaN_iff ha hb, alike, hsame, Bool.or_eq_true]

@[simp] theorem alike_pair (a b c d : Value) :
    (pair a b).alike (pair c d) = (a.alike c && b.alike d) := by
  simp [alike, same, bothNaN, number?]

theorem keyForm?_pair_eq_some {a b : Value} {k : KeyForm} :
    (pair a b).keyForm? = some k ↔
      ∃ x y, a.keyForm? = some x ∧ b.keyForm? = some y ∧ k = .pair x y := by
  simp only [keyForm?, Option.bind_eq_some_iff, Option.map_eq_some_iff]
  constructor
  · rintro ⟨x, hx, y, hy, rfl⟩
    exact ⟨x, y, hx, hy, rfl⟩
  · rintro ⟨x, y, hx, hy, rfl⟩
    exact ⟨x, hx, y, hy, rfl⟩

theorem number?_isSome_of_alike {a b : Value} (h : a.alike b = true) :
    a.number?.isSome = b.number?.isSome := by
  cases hm : a.number? <;> cases hn : b.number? <;> try rfl
  · cases a <;> cases b <;> simp_all [alike, same, bothNaN, number?]
  · cases a <;> cases b <;> simp_all [alike, same, bothNaN, number?]

theorem keyForm?_of_number {a : Value} {m : Int ⊕ Float} (h : a.number? = some m) :
    a.keyForm? = some (.number (numberForm m)) := by
  cases a <;> simp_all [keyForm?, number?]

theorem number?_isSome_of_keyForm {a : Value} {k : KeyForm} (h : a.keyForm? = some k) :
    a.number?.isSome = k.isNumber := by
  cases a with
  | bool | int =>
    cases h
    rfl
  | float x =>
    obtain ⟨m, hm⟩ := number?_isSome_of_float x
    rw [keyForm?_of_number hm] at h
    cases h
    rw [hm]
    rfl
  | pair x y =>
    obtain ⟨_, _, -, -, rfl⟩ := keyForm?_pair_eq_some.mp h
    rfl
  | null | str | bytes | date | moment =>
    cases h
    rfl
  | list | set | map | enclosing => simp [keyForm?] at h

theorem alike_iff_keyForm {a b : Value} {k l : KeyForm} (ha : a.keyForm? = some k)
    (hb : b.keyForm? = some l) : a.alike b = true ↔ k = l := by
  by_cases hs : a.number?.isSome = b.number?.isSome
  · cases hm : a.number? with
    | some m =>
      obtain ⟨n, hn⟩ := Option.isSome_iff_exists.mp (hs.symm.trans (by rw [hm]; rfl))
      rw [keyForm?_of_number hm] at ha
      rw [keyForm?_of_number hn] at hb
      cases ha
      cases hb
      rw [alike_numbers_iff hm hn, KeyForm.number.injEq]
    | none =>
      have hn : b.number? = none := by simpa [hm] using hs
      have hnan : bothNaN a b = false := by simp [bothNaN, hm]
      match a with
      | pair x y =>
        obtain ⟨kx, ky, hx, hy, rfl⟩ := keyForm?_pair_eq_some.mp ha
        cases b with
        | pair u v =>
          obtain ⟨ku, kv, hu, hv, rfl⟩ := keyForm?_pair_eq_some.mp hb
          simp [alike_iff_keyForm hx hu, alike_iff_keyForm hy hv]
        | null | str | bytes | date | moment =>
          cases hb
          simp [alike, same, hnan, number?]
        | bool | int | float | list | set | map | enclosing => simp_all [number?, keyForm?]
      | list _ | set _ | map _ | enclosing _ => simp [keyForm?] at ha
      | bool _ | int _ | float _ => simp_all [keyForm?]
      | null | str _ | bytes _ | date _ | moment _ =>
        cases ha
        cases b with
        | null | str | bytes | date | moment =>
          cases hb
          simp [alike, same, hnan, Moment.same, number?]
        | pair u v =>
          obtain ⟨_, _, -, -, rfl⟩ := keyForm?_pair_eq_some.mp hb
          simp [alike, same, hnan, number?]
        | bool | int | float | list | set | map | enclosing => simp_all [number?, keyForm?]
  · constructor
    · exact fun h => absurd (number?_isSome_of_alike h) hs
    · rintro rfl
      exact absurd ((number?_isSome_of_keyForm ha).trans (number?_isSome_of_keyForm hb).symm) hs

theorem alike_refl {a : Value} (ha : a.isKey = true) : a.alike a = true := by
  obtain ⟨k, hk⟩ := keyForm?_of_isKey ha
  exact (alike_iff_keyForm hk hk).mpr rfl

theorem alike_symm {a b : Value} (ha : a.isKey = true) (hb : b.isKey = true)
    (h : a.alike b = true) : b.alike a = true := by
  obtain ⟨k, hk⟩ := keyForm?_of_isKey ha
  obtain ⟨l, hl⟩ := keyForm?_of_isKey hb
  exact (alike_iff_keyForm hl hk).mpr ((alike_iff_keyForm hk hl).mp h).symm

theorem alike_trans {a b c : Value} (ha : a.isKey = true) (hb : b.isKey = true)
    (hc : c.isKey = true) (hab : a.alike b = true) (hbc : b.alike c = true) :
    a.alike c = true := by
  obtain ⟨k, hk⟩ := keyForm?_of_isKey ha
  obtain ⟨l, hl⟩ := keyForm?_of_isKey hb
  obtain ⟨m, hm⟩ := keyForm?_of_isKey hc
  exact (alike_iff_keyForm hk hm).mpr
    (((alike_iff_keyForm hk hl).mp hab).trans ((alike_iff_keyForm hl hm).mp hbc))

/-- Values that can be told apart: keys, no two of which are alike. -/
structure Apart (vs : List Value) : Prop where
  keys : ∀ v ∈ vs, v.isKey = true
  pairwise : vs.Pairwise fun a b => b.alike a = false

theorem Apart.nodup {vs : List Value} (h : Apart vs) : vs.Nodup := by
  refine List.Pairwise.imp_of_mem ?_ h.pairwise
  rintro a _ ha - hne rfl
  rw [alike_refl (h.keys a ha)] at hne
  cases hne

theorem Apart.not_alike {vs : List Value} (h : Apart vs) {i j : Nat} {a b : Value}
    (hi : vs[i]? = some a) (hj : vs[j]? = some b) (hij : i ≠ j) : a.alike b = false := by
  obtain ⟨hi', rfl⟩ := List.getElem?_eq_some_iff.mp hi
  obtain ⟨hj', rfl⟩ := List.getElem?_eq_some_iff.mp hj
  have later := List.pairwise_iff_getElem.mp h.pairwise
  rcases Nat.lt_or_gt_of_ne hij with hlt | hlt
  · -- the pair stands the other way round in the list
    rw [Bool.eq_false_iff]
    intro hsame
    have hback := alike_symm (h.keys _ (by simp)) (h.keys _ (by simp)) hsame
    rw [later i j hi' hj' hlt] at hback
    cases hback
  · exact later j i hj' hi' hlt

theorem same_str_iff {s : String} {v : Value} : (str s).same v = true ↔ v = str s := by
  cases v <;> simp [same, number?, eq_comm]

theorem str_alike_iff {s : String} {v : Value} : (str s).alike v = true ↔ v = str s := by
  cases v <;> simp [alike, same, bothNaN, number?, eq_comm]

theorem alike_str_iff {s : String} {v : Value} : v.alike (str s) = true ↔ v = str s := by
  cases v <;> simp [alike, same, bothNaN, number?]

end Value

end OutOfBand
