import OutOfBand.Yaml.Node

namespace OutOfBand.Yaml.Node

variable {anchor : String} {own : Node}

theorem isMergeKey_fillIn (k : Node) : (fillIn anchor own false k).isMergeKey = k.isMergeKey := by
  cases k <;> simp [fillIn, isMergeKey]

mutual
/-- A node that does not merge what an anchor names is the same whatever the anchor offers. -/
theorem fillIn_eq_self : ∀ {merged : Bool} {n : Node}, takesIn anchor merged n = false →
    fillIn anchor own merged n = n
  | merged, .cycle a isMap, h => by
    rw [takesIn] at h
    rw [fillIn, h, if_neg Bool.false_ne_true]
  | merged, .sequence tag items, h => by
    rw [takesIn] at h
    rw [fillIn, fillInItems_eq_self h]
  | merged, .mapping tag es, h => by
    rw [takesIn] at h
    rw [fillIn, fillInEntries_eq_self h]
  | merged, .scalar tag text plain, _ => by rw [fillIn]
theorem fillInItems_eq_self : ∀ {merged : Bool} {ns : List Node},
    takesInItems anchor merged ns = false → fillInItems anchor own merged ns = ns
  | merged, [], _ => by rw [fillInItems]
  | merged, n :: r, h => by
    rw [takesInItems, Bool.or_eq_false_iff] at h
    rw [fillInItems, fillIn_eq_self h.1, fillInItems_eq_self h.2]
theorem fillInEntries_eq_self : ∀ {es : List (Node × Node)},
    takesInEntries anchor es = false → fillInEntries anchor own es = es
  | [], _ => by rw [fillInEntries]
  | (k, v) :: r, h => by
    rw [takesInEntries, Bool.or_eq_false_iff, Bool.or_eq_false_iff] at h
    obtain ⟨⟨hk, hv⟩, hr⟩ := h
    rw [fillInEntries, fillIn_eq_self hk, fillIn_eq_self hv, fillInEntries_eq_self hr]
end

mutual
theorem takesIn_offered : ∀ {n : Node}, n.isAliasOf anchor = false →
    takesIn anchor true (offered anchor n) = false
  | .cycle a isMap, h => by
    rw [isAliasOf] at h
    rw [offered, takesIn, h]
    · rfl
    all_goals simp
  | .sequence tag items, _ => by rw [offered, takesIn, takesInItems_offered]
  | .mapping tag es, _ => by rw [offered, takesIn, takesInEntries_offered]
  | .scalar tag text plain, _ => by
    rw [offered, takesIn]
    all_goals simp
theorem takesInItems_offered : ∀ {ns : List Node},
    takesInItems anchor true (offeredItems anchor ns) = false
  | [] => by rw [offeredItems, takesInItems]
  | n :: r => by
    rw [offeredItems]
    cases h : n.isAliasOf anchor with
    | true => rw [if_pos rfl, takesInItems_offered]
    | false =>
      rw [if_neg Bool.false_ne_true, takesInItems, takesIn_offered h, takesInItems_offered]
      rfl
theorem takesInEntries_offered : ∀ {es : List (Node × Node)},
    takesInEntries anchor (offeredEntries anchor es) = false
  | [] => by rw [offeredEntries, takesInEntries]
  | (k, v) :: r => by
    rw [offeredEntries]
    split
    next => exact takesInEntries_offered
    next hkept =>
      rw [Bool.or_eq_true, not_or, Bool.not_eq_true] at hkept
      obtain ⟨hk, halias⟩ := hkept
      split
      next hmerge =>
        have hv : v.isAliasOf anchor = false := by simpa [hmerge] using halias
        rw [takesInEntries, hk, hmerge, takesIn_offered hv, takesInEntries_offered]
        rfl
      next hmerge =>
        rw [Bool.not_eq_true] at hmerge
        split
        next =>
          rw [takesInEntries, hk, hmerge, takesIn, takesInEntries_offered]
          rfl
        next hv =>
          rw [Bool.not_eq_true] at hv
          rw [takesInEntries, hk, hmerge, hv, takesInEntries_offered]
          rfl
end

mutual
theorem takesIn_fillIn (free : takesIn anchor true own = false) : ∀ {merged : Bool} {n : Node},
    takesIn anchor merged (fillIn anchor own merged n) = false
  | merged, .cycle a isMap => by
    rw [fillIn]
    split
    next h =>
      rw [(Bool.and_eq_true_iff.mp h).1]
      exact free
    next h =>
      rw [takesIn]
      exact Bool.not_eq_true _ ▸ h
  | merged, .sequence tag items => by rw [fillIn, takesIn, takesInItems_fillIn free]
  | merged, .mapping tag es => by rw [fillIn, takesIn, takesInEntries_fillIn free]
  | merged, .scalar tag text plain => by rw [fillIn, takesIn]
theorem takesInItems_fillIn (free : takesIn anchor true own = false) :
    ∀ {merged : Bool} {ns : List Node},
      takesInItems anchor merged (fillInItems anchor own merged ns) = false
  | merged, [] => by rw [fillInItems, takesInItems]
  | merged, n :: r => by
    rw [fillInItems, takesInItems, takesIn_fillIn free, takesInItems_fillIn free]
    rfl
theorem takesInEntries_fillIn (free : takesIn anchor true own = false) :
    ∀ {es : List (Node × Node)}, takesInEntries anchor (fillInEntries anchor own es) = false
  | [] => by rw [fillInEntries, takesInEntries]
  | (k, v) :: r => by
    rw [fillInEntries, takesInEntries, isMergeKey_fillIn, takesIn_fillIn free, takesIn_fillIn free,
      takesInEntries_fillIn free]
    rfl
end

/-- A collection that has been read merges nothing that goes around it. -/
theorem takesIn_closed {n : Node} (h : n.isAliasOf anchor = false) :
    takesIn anchor false (fillIn anchor (offered anchor n) false n) = false :=
  takesIn_fillIn (takesIn_offered h)

end OutOfBand.Yaml.Node
