import OutOfBand.Proofs.Text.Base64
import Mathlib.Data.List.Infix
import Mathlib.Data.List.TakeWhile
import Mathlib.Data.Nat.Digits.Defs
import Mathlib.Tactic.Ring

namespace OutOfBand.Base64

/-- Six-bit values that carry bytes: read as one number they are the bytes, with fewer than eight
bits behind them. -/
def Carries (ns : List Nat) (bs : List UInt8) : Prop :=
  ∃ left rest, left < 8 ∧ rest < 2 ^ left ∧ 6 * ns.length = 8 * bs.length + left ∧
    Nat.ofDigits 64 ns.reverse =
      Nat.ofDigits 256 (bs.map UInt8.toNat).reverse * 2 ^ left + rest

/-- In natural numbers, without the casts of a general semiring. -/
theorem ofDigits_cons (b d : Nat) (ds : List Nat) :
    Nat.ofDigits b (d :: ds) = d + b * Nat.ofDigits b ds := Nat.ofDigits_cons

theorem ofDigits_reverse_append (b : Nat) (xs ys : List Nat) :
    Nat.ofDigits b (xs ++ ys).reverse =
      Nat.ofDigits b ys.reverse + b ^ ys.length * Nat.ofDigits b xs.reverse := by
  rw [List.reverse_append, Nat.ofDigits_append, List.length_reverse]

theorem Carries.append (group : List Nat) (cs : List UInt8) {ns : List Nat} {bs : List UInt8}
    (h : Carries ns bs) (hlength : 6 * group.length = 8 * cs.length)
    (hvalue : Nat.ofDigits 64 group.reverse = Nat.ofDigits 256 (cs.map UInt8.toNat).reverse) :
    Carries (group ++ ns) (cs ++ bs) := by
  obtain ⟨left, rest, hleft, hrest, hbits, hnumber⟩ := h
  have hweight : 64 ^ ns.length = 256 ^ bs.length * 2 ^ left := by
    rw [show 64 = 2 ^ 6 from rfl, show 256 = 2 ^ 8 from rfl, ← pow_mul, ← pow_mul, ← pow_add, hbits]
  refine ⟨left, rest, hleft, hrest, ?_, ?_⟩
  · simp only [List.length_append]
    omega
  · rw [List.map_append, ofDigits_reverse_append, ofDigits_reverse_append, hnumber, hvalue,
      List.length_map, hweight]
    ring

theorem carries_bytesOf {ns : List Nat} (h : ∀ n ∈ ns, n < 64) : Carries ns (bytesOf ns) := by
  induction ns using bytesOf.induct with
  | case1 a b c d r ih =>
    simp only [List.forall_mem_cons] at h
    obtain ⟨ha, hb, hc, hd, hr⟩ := h
    rw [bytesOf]
    refine Carries.append [a, b, c, d] [_, _, _] (ih hr) rfl ?_
    simp [ofDigits_cons]
    omega
  | case2 a b c =>
    simp only [List.forall_mem_cons] at h
    obtain ⟨ha, hb, hc, -⟩ := h
    refine ⟨2, c % 4, by omega, by omega, rfl, ?_⟩
    simp [bytesOf, ofDigits_cons]
    omega
  | case3 a b =>
    simp only [List.forall_mem_cons] at h
    obtain ⟨ha, hb, -⟩ := h
    refine ⟨4, b % 16, by omega, by omega, rfl, ?_⟩
    simp [bytesOf, ofDigits_cons]
    omega
  | case4 ns h1 h2 h3 =>
    rcases ns with _ | ⟨a, _ | ⟨b, _ | ⟨c, _ | ⟨d, r⟩⟩⟩⟩
    · exact ⟨0, 0, by omega, by omega, rfl, rfl⟩
    · have ha := h a List.mem_cons_self
      exact ⟨6, a, by omega, ha, rfl, by simp [bytesOf]⟩
    · exact absurd rfl (h3 a b)
    · exact absurd rfl (h2 a b c)
    · exact absurd rfl (h1 a b c d r)

theorem Carries.unique {ns : List Nat} {bs cs : List UInt8} (h : Carries ns bs)
    (h' : Carries ns cs) : bs = cs := by
  obtain ⟨left, rest, hleft, hrest, hbits, hvalue⟩ := h
  obtain ⟨left', rest', hleft', hrest', hbits', hvalue'⟩ := h'
  obtain ⟨rfl, hlength⟩ : left = left' ∧ bs.length = cs.length := by omega
  have hnumber : Nat.ofDigits 256 (bs.map UInt8.toNat).reverse =
      Nat.ofDigits 256 (cs.map UInt8.toNat).reverse := by
    have hdiv (x : Nat) {r : Nat} (hr : r < 2 ^ left) : (x * 2 ^ left + r) / 2 ^ left = x := by
      rw [Nat.add_comm, Nat.add_mul_div_right _ _ (by positivity), Nat.div_eq_of_lt hr,
        Nat.zero_add]
    calc Nat.ofDigits 256 (bs.map UInt8.toNat).reverse
        = Nat.ofDigits 64 ns.reverse / 2 ^ left := by rw [hvalue, hdiv _ hrest]
      _ = Nat.ofDigits 256 (cs.map UInt8.toNat).reverse := by rw [hvalue', hdiv _ hrest']
  have hbyte (bs : List UInt8) : ∀ n ∈ (bs.map UInt8.toNat).reverse, n < 256 := by
    simpa using fun b _ => b.toNat_lt
  have hdigits := Nat.ofDigits_inj_of_len_eq (by decide) (by simpa using hlength) (hbyte bs)
    (hbyte cs) hnumber
  exact (List.map_inj_right fun _ _ => UInt8.toNat_inj.mp).mp (List.reverse_inj.mp hdigits)

theorem padsAfter_iff {n pads : Nat} : padsAfter n pads = true ↔
    (n + pads) % 4 = 0 ∧ pads < 3 ∨ n % 4 = 0 ∧ n ≠ 0 := by
  obtain h | h | h | h : n % 4 = 0 ∨ n % 4 = 1 ∨ n % 4 = 2 ∨ n % 4 = 3 := by omega
  all_goals
    simp [padsAfter, h]
    omega

theorem toNat_of_value? {c : Char} {n : Nat} (h : value? c = some n) :
    n < 64 ∧ c.toNat = if n < 26 then n + 65 else if n < 52 then n + 71 else
      if n < 62 then n - 4 else if n = 62 then 43 else 47 := by
  have hle {d e : Char} (h : d ≤ e) : d.toNat ≤ e.toNat := h
  rw [value?] at h
  split at h
  next hc =>
    have hA : 65 ≤ c.toNat := hle hc.1
    have hZ : c.toNat ≤ 90 := hle hc.2
    obtain rfl := Option.some.inj h
    rw [if_pos (by omega)]
    omega
  split at h
  next hc =>
    have ha : 97 ≤ c.toNat := hle hc.1
    have hz : c.toNat ≤ 122 := hle hc.2
    obtain rfl := Option.some.inj h
    rw [if_neg (by omega), if_pos (by omega)]
    omega
  split at h
  next hc =>
    have h0 : 48 ≤ c.toNat := hle hc.1
    have h9 : c.toNat ≤ 57 := hle hc.2
    obtain rfl := Option.some.inj h
    rw [if_neg (by omega), if_neg (by omega), if_pos (by omega)]
    omega
  split at h
  next hc =>
    cases h
    rw [hc]
    decide
  split at h
  next hc =>
    cases h
    rw [hc]
    decide
  next => cases h

theorem digit_of_value? {c : Char} {n : Nat} (h : value? c = some n) : n < 64 ∧ digit n = c := by
  obtain ⟨hn, hc⟩ := toNat_of_value? h
  obtain ⟨-, hdigit⟩ := toNat_of_value? (value?_digit n hn)
  exact ⟨hn, Char.toNat_inj.mp (hdigit.trans hc.symm)⟩

theorem map_digit_filterMap_value? {ds : List Char} (h : ∀ c ∈ ds, (value? c).isSome = true) :
    (ds.filterMap value?).map digit = ds := by
  induction ds with
  | nil => rfl
  | cons c ds ih =>
    obtain ⟨hc, hds⟩ := List.forall_mem_cons.mp h
    obtain ⟨n, hn⟩ := Option.isSome_iff_exists.mp hc
    rw [List.filterMap_cons_some hn, List.map_cons, ih hds, (digit_of_value? hn).2]

/-- A text that spells bytes: digits that carry them, and the padding that completes the last group
of digits; after complete groups there may be any. -/
inductive Spells : List Char → List UInt8 → Prop where
  | intro {ns : List Nat} {bs : List UInt8} {pads : Nat} (hns : ∀ n ∈ ns, n < 64)
      (hcarries : Carries ns bs)
      (hpads : (ns.length + pads) % 4 = 0 ∧ pads < 3 ∨ ns.length % 4 = 0 ∧ ns.length ≠ 0) :
      Spells (ns.map digit ++ List.replicate pads '=') bs

theorem Spells.toNat_lt {s : List Char} {bs : List UInt8} (h : Spells s bs) :
    ∀ c ∈ s, c.toNat < 128 := by
  obtain ⟨hns, -, -⟩ := h
  exact toNat_lt_of_mem_digits hns _

theorem decode?_of_spells {s : List Char} {bs : List UInt8} (h : Spells s bs) :
    decode? s = some bs := by
  obtain ⟨hns, hcarries, hpads⟩ := h
  rw [decode?_digits hns, if_pos (padsAfter_iff.mpr hpads)]
  exact congrArg some ((carries_bytesOf hns).unique hcarries)

theorem spells_of_decode? {s : List Char} {bs : List UInt8} (h : decode? s = some bs) :
    Spells s bs := by
  let ds := s.takeWhile fun c => (value? c).isSome
  let ns := ds.filterMap value?
  have hds : ns.map digit = ds := by
    refine map_digit_filterMap_value? fun c hc => ?_
    exact List.mem_takeWhile_imp (p := fun c => (value? c).isSome) hc
  have hns : ∀ n ∈ ns, n < 64 := by
    intro n hn
    obtain ⟨c, -, hc⟩ := List.mem_filterMap.mp hn
    exact (digit_of_value? hc).1
  have hlength : ns.length = ds.length := by rw [← hds, List.length_map]
  rw [decode?] at h
  split at h
  next hrest =>
    simp only [Bool.and_eq_true, List.all_eq_true, decide_eq_true_eq] at hrest
    obtain ⟨hpads, hcount⟩ := hrest
    have hs : s = ns.map digit ++ List.replicate (s.drop ds.length).length '=' := by
      rw [hds, ← List.eq_replicate_of_mem hpads]
      exact (List.prefix_append_drop (List.takeWhile_prefix _))
    have hbytes : Carries ns bs := by
      rw [← Option.some.inj h]
      exact carries_bytesOf hns
    rw [hs]
    exact .intro hns hbytes (padsAfter_iff.mp (hlength ▸ hcount))
  next => cases h

theorem decode?_eq_some_iff {s : List Char} {bs : List UInt8} :
    decode? s = some bs ↔ Spells s bs := ⟨spells_of_decode?, decode?_of_spells⟩

end OutOfBand.Base64
