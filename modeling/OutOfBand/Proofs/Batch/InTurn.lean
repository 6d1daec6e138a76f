import OutOfBand.Proofs.Batch.Lanes

namespace OutOfBand

namespace Batch

open Run

variable {τ : Type} {b : Batch τ} {h : Host (Client τ)} {own : Mark τ → Bool}

/-- What observers hear of a happening in a batch. -/
def heard (b : Batch τ) (h : Happening) : List Event := Bus.heard b.bus ⟨b.stamp, h⟩

theorem count_cons (kind : Outcome → Bool) (r : HostResult) (rs : List HostResult) :
    count kind (r :: rs) = (if kind r.outcome then 1 else 0) + count kind rs := by
  rw [count, count, List.filter_cons]
  split <;> simp [Nat.add_comm]

/-- The events of one host: its start, and then the one end that its result calls for. -/
inductive Story (b : Batch τ) (h : Host (Client τ)) : HostResult → List Event → Prop
  | succeeded (ms : Int) (value : Option String) :
      Story b h (b.result h (.ok value))
        (b.heard (.started h.name b.name) ++ b.heard (.succeeded h.name b.name ms value))
  | failed (e : RemoteError) :
      Story b h (b.result h (.failed e))
        (b.heard (.started h.name b.name) ++ b.heard (.failed h.name b.name e.message))

/-- Every host ends with one result and has one story, in the order of the hosts. -/
structure Ends (b : Batch τ) (hosts : List (Host (Client τ))) (rs : List HostResult)
    (stories : List (List Event)) : Prop where
  oneResult : rs.length = hosts.length
  oneStory : stories.length = hosts.length
  story : ∀ (i : Nat) h r es, hosts[i]? = some h → rs[i]? = some r → stories[i]? = some es →
    b.Story h r es

/-- Marks that a host may leave: contacts of its own, and events. -/
def MayLeave (own : Mark τ → Bool) (m : Mark τ) : Prop := own m = true ∨ ∃ e, m = .told e

/-- What one host adds to a batch. -/
structure Part (τ : Type) where
  result : HostResult
  marks : List (Mark τ)

def Part.events (p : Part τ) : List Event := p.marks.filterMap Mark.event?

theorem marks_told (e : Happening) (t : Timeline τ) :
    ((b.tell e).run t).2.marks = t.marks ++ (b.heard e).map .told :=
  marks_tell b.bus ⟨b.stamp, e⟩ t

theorem events_told (es : List Event) :
    (es.map Mark.told).filterMap (Mark.event? (τ := τ)) = es := by
  simp [List.filterMap_map, Function.comp_def, Mark.event?]

theorem run_attempt {t : Timeline τ} (remote : ∀ m, ((b.action h).run t).1 ≠ .error (.fault m)) :
    ∃ out, (b.attempt h).run t = (.ok out, ((b.action h).run t).2) := by
  rw [attempt, run_tryCatch, run_bind]
  rcases hr : (b.action h).run t with ⟨⟨e | m⟩ | value, t'⟩
  · exact ⟨.error e, rfl⟩
  · exact absurd (congrArg Prod.fst hr) (remote m)
  · exact ⟨.ok value, rfl⟩

theorem events_of_marks {t t' : Timeline τ} {ms : List (Mark τ)} {es : List Event}
    (h : t'.marks = t.marks ++ ms ++ es.map .told) :
    t'.events = t.events ++ ms.filterMap Mark.event? ++ es := by
  rw [Timeline.events, h, List.filterMap_append, List.filterMap_append, events_told]
  rfl

theorem contacts_filter (owner : Contact τ → Nat) (i : Nat) (ms : List (Mark τ)) :
    (ms.filterMap Mark.contact?).filter (owner · = i) =
      (ms.filter (Mark.isOf owner i)).filterMap Mark.contact? := by
  rw [List.filter_filterMap, List.filterMap_filter]
  congr 1
  funext m
  rcases m with c | e
  · simp [Mark.contact?, Mark.isOf, Option.filter]
  · rfl

theorem contacts_of_marks (owner : Contact τ → Nat) (i : Nat) {t t' : Timeline τ}
    {ms : List (Mark τ)} {es : List Event} (h : t'.marks = t.marks ++ ms ++ es.map .told) :
    t'.contacts.filter (owner · = i) = t.contacts.filter (owner · = i) ++
      (ms.filter (Mark.isOf owner i)).filterMap Mark.contact? := by
  have silent : (es.map Mark.told).filterMap (Mark.contact? (τ := τ)) = [] := by
    simp [Mark.contact?]
  rw [Timeline.contacts, h, List.filterMap_append, List.filterMap_append, silent,
    List.append_nil, List.filter_append, contacts_filter owner i ms]
  rfl

/-- What a host adds is one story, told between contacts of its own. -/
structure Part.IsOf (b : Batch τ) (h : Host (Client τ)) (own : Mark τ → Bool) (p : Part τ) :
    Prop where
  story : b.Story h p.result p.events
  marks : ∀ m ∈ p.marks, MayLeave own m

theorem Part.isOf_of_story {r : HostResult} {start stop : List Event} {new : List (Mark τ)}
    (told : ∀ e, own (.told e) = false) (hnew : ∀ m ∈ new, own m = true)
    (hs : b.Story h r (start ++ stop)) :
    Part.IsOf b h own ⟨r, start.map .told ++ new ++ stop.map .told⟩ where
  story := by
    have silent : new.filterMap Mark.event? = [] := by
      refine List.filterMap_eq_nil_iff.mpr fun m hm => ?_
      cases m with
      | contact c => rfl
      | told e => cases (told e).symm.trans (hnew _ hm)
    rw [Part.events, List.filterMap_append, List.filterMap_append, events_told, events_told, silent,
      List.append_nil]
    exact hs
  marks := by
    intro m hm
    simp only [List.mem_append, List.mem_map] at hm
    rcases hm with (⟨e, -, rfl⟩ | hm) | ⟨e, -, rfl⟩
    · exact .inr ⟨e, rfl⟩
    · exact .inl (hnew m hm)
    · exact .inr ⟨e, rfl⟩

/-- Every host can tell its own marks from those of others. -/
structure Separate (own : Nat → Mark τ → Bool) : Prop where
  told : ∀ i e, own i (.told e) = false
  apart : ∀ i j m, i ≠ j → own j m = true → own i m = false

theorem Separate.tail {own : Nat → Mark τ → Bool} (h : Separate own) :
    Separate fun i => own (i + 1) :=
  ⟨fun i => h.told (i + 1), fun i j m hij => h.apart (i + 1) (j + 1) m (by omega)⟩

theorem Separate.of_mayLeave {own : Nat → Mark τ → Bool} (h : Separate own) (i j : Nat)
    (m : Mark τ) (hij : i ≠ j) (hm : MayLeave (own j) m) : own i m = false := by
  rcases hm with hm | ⟨e, rfl⟩
  · exact h.apart i j m hij hm
  · exact h.told i e

theorem separate_isOf (owner : Contact τ → Nat) : Separate (Mark.isOf owner) where
  told _ _ := rfl
  apart := by
    intro i j m hij hm
    cases m with
    | told e => rfl
    | contact c =>
      have hc : owner c = j := of_decide_eq_true hm
      exact decide_eq_false (by omega)

variable [Seconds τ]

theorem run_of_results {mode : Mode} {hosts : List (Host (Client τ))} {rs : List HostResult}
    {t : Timeline τ} (hr : ((b.results mode hosts).run t).1 = .ok rs) :
    ((b.run mode hosts).run t).1 = .ok rs ∧ ((b.run mode hosts).run t).2.marks =
      ((b.results mode hosts).run t).2.marks ++ (b.heard (b.summary rs)).map .told := by
  rw [run, run_bind, show (b.results mode hosts).run t = (.ok rs, _) from Prod.ext hr rfl]
  exact ⟨rfl, marks_told _ _⟩

/-- A host adds a part when it starts where its own marks are the same as among these. -/
structure Adds (b : Batch τ) (h : Host (Client τ)) (own : Mark τ → Bool) (seen : List (Mark τ))
    (p : Part τ) : Prop extends Part.IsOf b h own p where
  start : ∃ u : Timeline τ, u.marks.filter own = seen.filter own ∧
    ((b.runOn h).run u).1 = .ok p.result ∧ ((b.runOn h).run u).2.marks = u.marks ++ p.marks

/-- Every host adds a part of its own. -/
structure AddAll (b : Batch τ) (hosts : List (Host (Client τ))) (own : Nat → Mark τ → Bool)
    (seen : List (Mark τ)) (parts : List (Part τ)) : Prop where
  length : parts.length = hosts.length
  part : ∀ i h p, hosts[i]? = some h → parts[i]? = some p → Adds b h (own i) seen p

theorem AddAll.ends {own : Nat → Mark τ → Bool} {hosts : List (Host (Client τ))}
    {parts : List (Part τ)} {seen : List (Mark τ)} (hp : AddAll b hosts own seen parts) :
    b.Ends hosts (parts.map Part.result) (parts.map Part.events) where
  oneResult := by simp [hp.length]
  oneStory := by simp [hp.length]
  story := by
    intro i h r es hh hr hes
    rw [List.getElem?_map, Option.map_eq_some_iff] at hr hes
    obtain ⟨p, hi, rfl⟩ := hr
    obtain ⟨q, hq, rfl⟩ := hes
    cases hi.symm.trans hq
    exact (hp.part i h p hh hi).story

theorem AddAll.others {own : Nat → Mark τ → Bool} {hosts : List (Host (Client τ))}
    {parts : List (Part τ)} {seen : List (Mark τ)} (hp : AddAll b hosts own seen parts)
    (sep : Separate own) {i : Nat} (j : Nat) (l : List (Mark τ))
    (hl : (parts.map Part.marks)[j]? = some l) (hij : j ≠ i) : l.filter (own i) = [] := by
  rw [List.getElem?_map] at hl
  obtain ⟨p, hj, rfl⟩ := Option.map_eq_some_iff.mp hl
  have hlt : j < hosts.length := hp.length ▸ (List.getElem?_eq_some_iff.mp hj).1
  have adds := hp.part j _ p (List.getElem?_eq_getElem hlt) hj
  exact filter_eq_nil_of_apart sep.of_mayLeave hij.symm adds.marks

variable [AddCommGroup τ]

theorem run_runOn (told : ∀ e, own (.told e) = false) (iso : (b.action h).Isolated own)
    (remote : ∀ t m, ((b.action h).run t).1 ≠ .error (.fault m)) (t : Timeline τ) :
    ∃ p, Part.IsOf b h own p ∧ ((b.runOn h).run t).1 = .ok p.result ∧
      ((b.runOn h).run t).2.marks = t.marks ++ p.marks := by
  let t₁ : Timeline τ := { t with limits := Limits.starting b.timeout t.now }
  let t₂ := ((b.tell (.started h.name b.name)).run t₁).2
  have hstart : t₂.marks = t.marks ++ (b.heard (.started h.name b.name)).map .told :=
    marks_told _ t₁
  obtain ⟨out, hout⟩ := run_attempt (remote t₂)
  obtain ⟨new, hnew, hown⟩ := iso.marks t₂
  have hend : ∀ level text e,
      ((b.tell e).run ((Run.say level text).run ((b.action h).run t₂).2).2).2.marks =
        t.marks ++ ((b.heard (.started h.name b.name)).map .told ++ new ++
          (b.heard e).map .told) := by
    intro level text e
    rw [marks_told, marks_say, hnew, hstart]
    simp only [List.append_assoc]
  cases out with
  | error e =>
    have hrun : (b.runOn h).run t = (b.failedOn h e).run ((b.action h).run t₂).2 := by
      change (b.attempt h >>= _ : Run τ HostResult).run t₂ = _
      rw [run_bind, hout]
    exact ⟨_, Part.isOf_of_story told hown (.failed e), congrArg Prod.fst hrun,
      (congrArg (·.2.marks) hrun).trans (hend .error _ _)⟩
  | ok value =>
    have hrun : (b.runOn h).run t =
        (b.succeededOn h t₂.now value).run ((b.action h).run t₂).2 := by
      change (b.attempt h >>= _ : Run τ HostResult).run t₂ = _
      rw [run_bind, hout]
      rfl
    exact ⟨_, Part.isOf_of_story told hown (.succeeded _ value), congrArg Prod.fst hrun,
      (congrArg (·.2.marks) hrun).trans (hend .info _ _)⟩

theorem run_runInTurn {own : Nat → Mark τ → Bool} {hosts : List (Host (Client τ))}
    (sep : Separate own) (iso : ∀ i h, hosts[i]? = some h → (b.action h).Isolated (own i))
    (remote : ∀ h ∈ hosts, ∀ t m, ((b.action h).run t).1 ≠ .error (.fault m)) (t : Timeline τ) :
    ∃ parts, AddAll b hosts own t.marks parts ∧
      ((b.runInTurn true hosts).run t).1 = .ok (parts.map Part.result) ∧
      ((b.runInTurn true hosts).run t).2.marks = t.marks ++ (parts.map Part.marks).flatten := by
  induction hosts generalizing own t with
  | nil => exact ⟨[], ⟨rfl, fun i h p hi => by cases hi⟩, rfl, by simp [runInTurn, run_pure]⟩
  | cons h rest ih =>
    obtain ⟨p, hp, hout, hmarks⟩ :=
      run_runOn (sep.told 0) (iso 0 h rfl) (remote h List.mem_cons_self) t
    obtain ⟨parts, hparts, houts, hflat⟩ := ih sep.tail (fun i k hk => iso (i + 1) k hk)
      (fun k hk => remote k (List.mem_cons_of_mem h hk)) ((b.runOn h).run t).2
    have hrun : (b.runInTurn true (h :: rest)).run t =
        (.ok (p.result :: parts.map Part.result),
          ((b.runInTurn true rest).run ((b.runOn h).run t).2).2) := by
      rw [runInTurn, run_bind, show (b.runOn h).run t = (.ok p.result, _) from Prod.ext hout rfl]
      simp only [Bool.not_true, Bool.and_false, Bool.false_eq_true, if_false]
      rw [run_bind, show (b.runInTurn true rest).run _ = (.ok _, _) from Prod.ext houts rfl]
      rfl
    refine ⟨p :: parts, ⟨by simp [hparts.length], ?_⟩, congrArg Prod.fst hrun, ?_⟩
    · intro i k q hk hq
      cases i with
      | zero =>
        cases hk
        cases hq
        exact { hp with start := ⟨t, rfl, hout, hmarks⟩ }
      | succ i =>
        have hq' := hparts.part i k q hk hq
        obtain ⟨u, hseen, hu⟩ := hq'.start
        -- the host before leaves nothing that is this one's, so it starts with what it had
        have nothing : p.marks.filter (own (i + 1)) = [] :=
          filter_eq_nil_of_apart sep.of_mayLeave (Nat.succ_ne_zero i) hp.marks
        rw [hmarks, List.filter_append, nothing, List.append_nil] at hseen
        exact { hq' with start := ⟨u, hseen, hu⟩ }
    · rw [hrun, hflat, hmarks]
      simp only [List.map_cons, List.flatten_cons, List.append_assoc]

end Batch

end OutOfBand
