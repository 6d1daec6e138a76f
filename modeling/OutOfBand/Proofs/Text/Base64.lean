import OutOfBand.Text.Base64
import Mathlib.Data.List.Basic

namespace OutOfBand.Base64

/-- The six-bit values that stand for bytes, the last one filled up with zeros. -/
def sextets : List UInt8 → List Nat
  | a :: b :: c :: r =>
    let n := a.toNat * 65536 + b.toNat * 256 + c.toNat
    n / 262144 :: n / 4096 % 64 :: n / 64 % 64 :: n % 64 :: sextets r
  | [a, b] =>
    let n := a.toNat * 256 + b.toNat
    [n / 1024, n / 16 % 64, n % 16 * 4]
  | [a] => [a.toNat / 4, a.toNat % 4 * 16]
  | [] => []

/-- How many padding characters follow the digits of so many bytes. -/
def padding (bytes : Nat) : Nat := (3 - bytes % 3) % 3

theorem value?_digit : ∀ n < 64, value? (digit n) = some n := by decide +kernel

theorem toNat_digit_lt : ∀ n < 64, (digit n).toNat < 128 := by decide +kernel

theorem value?_pad : value? '=' = none := by decide

theorem encode_eq (bs : List UInt8) :
    encode bs = (sextets bs).map digit ++ List.replicate (padding bs.length) '=' := by
  induction bs using encode.induct with
  | case1 a b c r ih =>
    have hpad : padding (a :: b :: c :: r).length = padding r.length := by
      simp only [padding, List.length_cons]
      omega
    rw [encode, sextets, ih, hpad]
    rfl
  | case2 a b => rfl
  | case3 a => rfl
  | case4 => rfl

theorem lt_of_mem_sextets {bs : List UInt8} : ∀ n ∈ sextets bs, n < 64 := by
  induction bs using sextets.induct with
  | case1 a b c r ih =>
    have ha := a.toNat_lt
    have hb := b.toNat_lt
    have hc := c.toNat_lt
    simp only [sextets, List.forall_mem_cons]
    refine ⟨?_, ?_, ?_, ?_, ih⟩ <;> omega
  | case2 a b =>
    have ha := a.toNat_lt
    have hb := b.toNat_lt
    simp only [sextets, List.forall_mem_cons]
    refine ⟨?_, ?_, ?_, by simp⟩ <;> omega
  | case3 a =>
    have ha := a.toNat_lt
    simp only [sextets, List.forall_mem_cons]
    refine ⟨?_, ?_, by simp⟩ <;> omega
  | case4 => simp [sextets]

theorem ofNat_eq_of_toNat {n : Nat} {b : UInt8} (h : n = b.toNat) : UInt8.ofNat n = b := by
  rw [h, UInt8.ofNat_toNat]

/-- The zeros that fill up the last value are dropped again. -/
theorem bytesOf_sextets (bs : List UInt8) : bytesOf (sextets bs) = bs := by
  induction bs using sextets.induct with
  | case1 a b c r ih =>
    have ha := a.toNat_lt
    have hb := b.toNat_lt
    have hc := c.toNat_lt
    simp only [sextets, bytesOf, ih]
    congr
    all_goals
      apply ofNat_eq_of_toNat
      omega
  | case2 a b =>
    have ha := a.toNat_lt
    have hb := b.toNat_lt
    simp only [sextets, bytesOf]
    congr
    all_goals
      apply ofNat_eq_of_toNat
      omega
  | case3 a =>
    have ha := a.toNat_lt
    have h : (a.toNat / 4 * 64 + a.toNat % 4 * 16) / 16 = a.toNat := by omega
    simp only [sextets, bytesOf, ofNat_eq_of_toNat h]
  | case4 => rfl

theorem padsAfter_sextets (bs : List UInt8) :
    padsAfter (sextets bs).length (padding bs.length) = true := by
  suffices ((sextets bs).length % 4 = 0 ∧ padding bs.length = 0) ∨
      ((sextets bs).length % 4 = 2 ∧ padding bs.length = 2) ∨
      ((sextets bs).length % 4 = 3 ∧ padding bs.length = 1) by
    obtain ⟨hn, hp⟩ | ⟨hn, hp⟩ | ⟨hn, hp⟩ := this <;> simp [padsAfter, hn, hp]
  induction bs using sextets.induct with
  | case1 a b c r ih =>
    simp only [sextets, padding, List.length_cons] at ih ⊢
    omega
  | case2 a b => simp [sextets, padding]
  | case3 a => simp [sextets, padding]
  | case4 => simp [sextets, padding]

theorem decode?_digits {ns : List Nat} (hns : ∀ n ∈ ns, n < 64) (pads : Nat) :
    decode? (ns.map digit ++ List.replicate pads '=') =
      if padsAfter ns.length pads then some (bytesOf ns) else none := by
  have hdigit : ∀ n ∈ ns, value? (digit n) = some n := fun n hn => value?_digit n (hns n hn)
  have htake : (ns.map digit ++ List.replicate pads '=').takeWhile (fun c => (value? c).isSome) =
      ns.map digit := by
    rw [List.takeWhile_append_of_pos]
    · cases pads <;> simp [List.replicate_succ, value?_pad]
    · intro c hc
      obtain ⟨n, hn, rfl⟩ := List.mem_map.mp hc
      rw [hdigit n hn]
      rfl
  have hvalues : (ns.map digit).filterMap value? = ns := by
    rw [List.filterMap_map]
    calc ns.filterMap (value? ∘ digit)
        = ns.filterMap some := List.filterMap_congr hdigit
      _ = ns := List.filterMap_some
  have hpads : (ns.map digit ++ List.replicate pads '=').drop ns.length =
      List.replicate pads '=' := List.drop_left' (List.length_map _)
  simp only [decode?, htake, hvalues, List.length_map, hpads, List.length_replicate]
  simp

theorem decode?_encode (bs : List UInt8) : decode? (encode bs) = some bs := by
  rw [encode_eq, decode?_digits lt_of_mem_sextets, padsAfter_sextets, bytesOf_sextets]
  rfl

theorem toNat_lt_of_mem_digits {ns : List Nat} (hns : ∀ n ∈ ns, n < 64) (pads : Nat) :
    ∀ c ∈ ns.map digit ++ List.replicate pads '=', c.toNat < 128 := by
  intro c hc
  rcases List.mem_append.mp hc with h | h
  · obtain ⟨n, hn, rfl⟩ := List.mem_map.mp h
    exact toNat_digit_lt n (hns n hn)
  · rw [List.eq_of_mem_replicate h]
    decide

theorem toNat_lt_of_mem_encode {bs : List UInt8} : ∀ c ∈ encode bs, c.toNat < 128 := by
  rw [encode_eq]
  exact toNat_lt_of_mem_digits lt_of_mem_sextets _

end OutOfBand.Base64
