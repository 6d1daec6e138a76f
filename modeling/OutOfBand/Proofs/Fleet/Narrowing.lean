import OutOfBand.Proofs.Fleet.Hosts
import Mathlib.Data.List.Induction

namespace OutOfBand

section EraseDups

variable {α β : Type} {r : α → α → Bool}

theorem eraseDupsBy_induction (r : α → α → Bool) {motive : List α → Prop} (nil : motive [])
    (cons : ∀ a as, motive (as.filter fun b => r b a = false) → motive (a :: as)) (l : List α) :
    motive l :=
  match l with
  | [] => nil
  | a :: as => cons a as (eraseDupsBy_induction r nil cons _)
termination_by l.length
decreasing_by exact Nat.lt_succ_of_le (List.length_filter_le _ _)

theorem eraseDupsBy_sublist (l : List α) : (l.eraseDupsBy r).Sublist l := by
  induction l using eraseDupsBy_induction r with
  | nil => simp
  | cons a as ih =>
    rw [List.eraseDupsBy_cons]
    exact (ih.trans List.filter_sublist).cons_cons a

theorem eraseDupsBy_pairwise (l : List α) :
    (l.eraseDupsBy r).Pairwise fun a b => r b a = false := by
  induction l using eraseDupsBy_induction r with
  | nil => simp
  | cons a as ih =>
    rw [List.eraseDupsBy_cons, List.pairwise_cons]
    refine ⟨fun b hb => ?_, ih⟩
    simpa using (List.mem_filter.mp ((eraseDupsBy_sublist _).mem hb)).2

theorem eraseDupsBy_eq_self {l : List α} (h : l.Pairwise fun a b => r b a = false) :
    l.eraseDupsBy r = l := by
  induction l with
  | nil => rfl
  | cons a as ih =>
    obtain ⟨hfirst, hrest⟩ := List.pairwise_cons.mp h
    have hall : as.filter (fun b => r b a = false) = as :=
      List.filter_eq_self.mpr fun b hb => by simpa using hfirst b hb
    rw [List.eraseDupsBy_cons, hall, ih hrest]

theorem exists_mem_eraseDupsBy {l : List α} (refl : ∀ a ∈ l, r a a = true) {a : α} (ha : a ∈ l) :
    ∃ b ∈ l.eraseDupsBy r, r a b = true := by
  induction l using eraseDupsBy_induction r with
  | nil => simp at ha
  | cons c as ih =>
    rw [List.eraseDupsBy_cons]
    cases hc : r a c with
    | true => exact ⟨c, by simp, hc⟩
    | false =>
      have hm : a ∈ as.filter fun b => r b c = false := by
        rcases List.mem_cons.mp ha with rfl | hm
        · rw [refl a (by simp)] at hc
          cases hc
        · exact List.mem_filter.mpr ⟨hm, by simp [hc]⟩
      obtain ⟨b, hb, hr⟩ :=
        ih (fun d hd => refl d (List.mem_cons_of_mem c (List.mem_filter.mp hd).1)) hm
      exact ⟨b, List.mem_cons_of_mem c hb, hr⟩

theorem forall₂_eraseDupsBy {R : α → β → Prop} {r' : β → β → Bool}
    (hr : ∀ a b c d, R a b → R c d → r a c = r' b d) {l : List α} {k : List β}
    (h : List.Forall₂ R l k) : List.Forall₂ R (l.eraseDupsBy r) (k.eraseDupsBy r') := by
  induction l using eraseDupsBy_induction r generalizing k with
  | nil => cases h; exact .nil
  | cons a as ih =>
    cases h with
    | cons hab h =>
      rw [List.eraseDupsBy_cons, List.eraseDupsBy_cons]
      refine .cons hab (ih (List.rel_filter ?_ h))
      intro c d hcd
      simp [hr _ _ _ _ hcd hab]

end EraseDups

namespace Host

variable {γ : Type}

/-- Whether two hosts have one name. -/
def sameName (h k : Host γ) : Bool := h.name.alike k.name

theorem firsts_eq_eraseDupsBy (seen : List Value) (hs : List (Host γ)) :
    firsts seen hs = (hs.filter fun h => !seen.any h.name.alike).eraseDupsBy sameName := by
  induction hs generalizing seen with
  | nil => rfl
  | cons h r ih =>
    cases hseen : seen.any h.name.alike with
    | true => simp [firsts, hseen, ih]
    | false =>
      rw [firsts, if_neg (by simp [hseen]), ih, List.filter_cons_of_pos (by simp [hseen]),
        List.eraseDupsBy_cons, List.filter_filter]
      congr 2
      refine List.filter_congr fun k _ => ?_
      cases hk : k.name.alike h.name <;> simp [sameName, hk]

/-- Whether every selector has a host of the name of this one. -/
def isShared (hosts : List (List (Host γ))) (h : Host γ) : Bool :=
  hosts.all fun new => new.any h.sameName

theorem narrowed_append (left : Option (List (Host γ))) (hosts : List (List (Host γ)))
    (new : List (Host γ)) :
    narrowed left (hosts ++ [new]) = some (reconcile (narrowed left hosts) new) := by
  simp [narrowed]

theorem isShared_iff {hosts : List (List (Host γ))} {h : Host γ} :
    isShared hosts h = true ↔ ∀ hs ∈ hosts, ∃ k ∈ hs, h.sameName k = true := by
  simp [isShared]

/-- What all share with a host that has the same name, they share with it. -/
theorem isShared_of_sameName {hosts : List (List (Host γ))} {h k : Host γ}
    (keys : ∀ hs ∈ hosts, ∀ h ∈ hs, h.name.isKey = true) (hh : h.name.isKey = true)
    (hk : k.name.isKey = true) (same : h.sameName k = true) (shared : isShared hosts k = true) :
    isShared hosts h = true := by
  refine isShared_iff.mpr fun hs hm => ?_
  obtain ⟨j, hj, hkj⟩ := isShared_iff.mp shared hs hm
  exact ⟨j, hj, Value.alike_trans hh hk (keys hs hm j hj) same hkj⟩

theorem reconcile_none (new : List (Host γ)) :
    reconcile none new = new.eraseDupsBy sameName := by
  simp [reconcile, firsts_eq_eraseDupsBy]

theorem reconcile_some (left new : List (Host γ)) :
    reconcile (some left) new =
      (new.eraseDupsBy sameName).filter fun h => left.any h.sameName := by
  simp only [reconcile, firsts_eq_eraseDupsBy, List.any_nil, Bool.not_false, List.filter_true]
  rfl

/-- After any selectors the last one's hosts are left, each name once, that all of them share. -/
theorem narrowed_eq {hosts : List (List (Host γ))} {new : List (Host γ)}
    (keys : ∀ hs ∈ hosts ++ [new], ∀ h ∈ hs, h.name.isKey = true) :
    narrowed none (hosts ++ [new]) =
      some ((new.eraseDupsBy sameName).filter (isShared (hosts ++ [new]))) := by
  have refl : ∀ hs ∈ hosts ++ [new], ∀ h ∈ hs, h.sameName h = true :=
    fun hs hm h hh => Value.alike_refl (keys hs hm h hh)
  induction hosts using List.reverseRecOn generalizing new with
  | nil =>
    change some (reconcile none new) = _
    rw [reconcile_none, List.filter_eq_self.mpr]
    intro h hh
    have hm := (eraseDupsBy_sublist new).mem hh
    simpa [isShared] using ⟨h, hm, refl new (by simp) h hm⟩
  | append_singleton hosts mid ih =>
    have keys' : ∀ hs ∈ hosts ++ [mid], ∀ h ∈ hs, h.name.isKey = true :=
      fun hs hm => keys hs (List.mem_append_left _ hm)
    rw [narrowed_append, ih keys' fun hs hm => refl hs (List.mem_append_left _ hm), reconcile_some]
    congr 1
    refine List.filter_congr fun h hh => ?_
    have hnew := (eraseDupsBy_sublist new).mem hh
    have hkey := keys new (by simp) h hnew
    rw [Bool.eq_iff_iff, List.any_eq_true]
    constructor
    · rintro ⟨k, hk, hsame⟩
      obtain ⟨hk, hshared⟩ := List.mem_filter.mp hk
      have kkey := keys' mid (by simp) k ((eraseDupsBy_sublist mid).mem hk)
      have := isShared_of_sameName keys' hkey kkey hsame hshared
      refine isShared_iff.mpr fun hs hm => ?_
      rcases List.mem_append.mp hm with hm | hm
      · exact isShared_iff.mp this hs hm
      · rw [List.mem_singleton.mp hm]
        exact ⟨h, hnew, refl new (by simp) h hnew⟩
    · intro hshared
      obtain ⟨j, hj, hsame⟩ := isShared_iff.mp hshared mid (by simp)
      obtain ⟨k, hk, hjk⟩ := exists_mem_eraseDupsBy (refl mid (by simp)) hj
      have jkey := keys' mid (by simp) j hj
      have kkey := keys' mid (by simp) k ((eraseDupsBy_sublist mid).mem hk)
      have hhk := Value.alike_trans hkey jkey kkey hsame hjk
      refine ⟨k, List.mem_filter.mpr ⟨hk, ?_⟩, hhk⟩
      exact isShared_of_sameName keys' kkey hkey (Value.alike_symm hkey kkey hhk)
        (isShared_iff.mpr fun hs hm => isShared_iff.mp hshared hs (List.mem_append_left _ hm))

theorem apart_narrowed {hosts : List (List (Host γ))}
    (keys : ∀ hs ∈ hosts, ∀ h ∈ hs, h.name.isKey = true) :
    Value.Apart (((narrowed none hosts).getD []).map (·.name)) := by
  rcases hosts.eq_nil_or_concat' with rfl | ⟨hosts, new, rfl⟩
  · exact ⟨by simp [narrowed], .nil⟩
  · rw [narrowed_eq keys, Option.getD_some]
    refine ⟨?_, List.pairwise_map.mpr ((eraseDupsBy_pairwise new).filter _)⟩
    intro v hv
    obtain ⟨h, hh, rfl⟩ := List.mem_map.mp hv
    exact keys new (by simp) h ((eraseDupsBy_sublist new).mem (List.mem_filter.mp hh).1)

theorem nodup_narrowed {hosts : List (List (Host γ))}
    (keys : ∀ hs ∈ hosts, ∀ h ∈ hs, h.name.isKey = true) :
    (((narrowed none hosts).getD []).map (·.name)).Nodup := (apart_narrowed keys).nodup

end Host

end OutOfBand
