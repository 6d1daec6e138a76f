import OutOfBand.Proofs.Fleet.Matching
import Mathlib.Data.List.Nodup

namespace OutOfBand

variable {γ : Type}

/-- Every host of a bundle has a name of its own. -/
def Bundle.Distinct (b : Bundle) : Prop :=
  ((b.documents.filter Document.isHost).map Document.name).Nodup

theorem Document.sameName_iff {d e : Document} (hd : d.Regular) :
    d.sameName e = true ↔ e.name = d.name := by
  obtain ⟨s, hs⟩ := hd.name
  rw [sameName, hs]
  cases he : e.name with
  | error f => simp
  | ok v => simp [Value.str_alike_iff]

theorem Bundle.namesOnly_of_distinct {b : Bundle} (distinct : b.Distinct) {d : Document}
    (hd : d ∈ b.documents) (hr : d.Regular) (hhost : d.isHost = true) : b.NamesOnly d := by
  intro e he hehost hsame
  have hname := (Document.sameName_iff hr).mp hsame
  exact List.inj_on_of_nodup_map distinct (List.mem_filter.mpr ⟨he, hehost⟩)
    (List.mem_filter.mpr ⟨hd, hhost⟩) hname

namespace HostSelector

variable {b : Bundle} {ss : List HostSelector}

theorem regular_of_mem_common (hb : ∀ d ∈ b.documents, d.Regular) {d : Document}
    (hd : d ∈ common ss b) : d.Regular := by
  obtain ⟨⟨s, -, hs⟩, -⟩ := mem_common hd
  exact hb d (mem_picked.mp hs).1

/-- The names that are left are those that every selector picks. -/
theorem exists_mem_common_iff (hb : ∀ d ∈ b.documents, d.Regular) (hne : ss ≠ []) {v : Value} :
    (∃ d ∈ common ss b, d.name = .ok v) ↔ ∀ s ∈ ss, ∃ d ∈ s.picked b, d.name = .ok v := by
  constructor
  · rintro ⟨d, hd, hv⟩ s hs
    obtain ⟨e, he, hsame⟩ := (mem_common hd).2 s hs
    have hname := (Document.sameName_iff (regular_of_mem_common hb hd)).mp hsame
    exact ⟨e, he, hname.trans hv⟩
  · intro hall
    obtain ⟨pre, last, rfl⟩ := (ss.eq_nil_or_concat').resolve_left hne
    have regular : ∀ d ∈ last.picked b, d.Regular := fun d hd => hb d (mem_picked.mp hd).1
    have refl : ∀ d ∈ last.picked b, d.sameName d = true := fun d hd =>
      (Document.sameName_iff (regular d hd)).mpr rfl
    obtain ⟨d, hd, hv⟩ := hall last (by simp)
    -- of the documents of one name the last selector keeps one, which need not be this one
    obtain ⟨e, he, hsame⟩ := exists_mem_eraseDupsBy refl hd
    have hpicked := (eraseDupsBy_sublist _).mem he
    have hev : e.name = .ok v := ((Document.sameName_iff (regular d hd)).mp hsame).trans hv
    refine ⟨e, ?_, hev⟩
    rw [common, List.getLast?_concat]
    refine List.mem_filter.mpr ⟨he, List.all_eq_true.mpr fun s hs => ?_⟩
    obtain ⟨k, hk, hkv⟩ := hall s hs
    have hek := (Document.sameName_iff (regular e hpicked)).mpr (hkv.trans hev.symm)
    exact List.any_eq_true.mpr ⟨k, hk, hek⟩

/-- Where every host has a name of its own, the documents that all selectors pick are left, in the
order of the bundle. -/
theorem common_of_distinct (hb : ∀ d ∈ b.documents, d.Regular) (distinct : b.Distinct)
    (hne : ss ≠ []) : common ss b = b.documents.filter fun d => ss.all (·.picks d) := by
  obtain ⟨pre, last, rfl⟩ := (ss.eq_nil_or_concat').resolve_left hne
  have hnodup : (last.picked b).Pairwise fun d e => e.sameName d = false := by
    have hsub : (last.picked b).Sublist (b.documents.filter Document.isHost) :=
      List.monotone_filter_right b.documents fun d hd => isHost_of_picks hd
    have hpair := List.pairwise_map.mp (distinct.sublist (hsub.map Document.name))
    refine hpair.imp_of_mem fun {d e} _ he hne => ?_
    refine Bool.eq_false_iff.mpr fun hsame => hne ?_
    exact (Document.sameName_iff (hb e (mem_picked.mp he).1)).mp hsame
  have hself := eraseDupsBy_eq_self hnodup
  have hcommon : common (pre ++ [last]) b = (last.picked b).filter fun d =>
      (pre ++ [last]).all fun s => (s.picked b).any d.sameName := by
    rw [common, List.getLast?_concat]
    exact congrArg _ hself
  rw [hcommon, picked, List.filter_filter]
  refine List.filter_congr fun d hd => ?_
  rw [Bool.eq_iff_iff, Bool.and_eq_true, List.all_eq_true, List.all_eq_true]
  constructor
  · rintro ⟨hall, hlast⟩
    have hmem : d ∈ common (pre ++ [last]) b := by
      rw [hcommon]
      exact List.mem_filter.mpr ⟨mem_picked.mpr ⟨hd, hlast⟩, List.all_eq_true.mpr hall⟩
    have hhost := isHost_of_picks hlast
    exact picks_of_namesOnly hmem (Bundle.namesOnly_of_distinct distinct hd (hb d hd) hhost)
  · intro hall
    have hrefl : d.sameName d = true := (Document.sameName_iff (hb d hd)).mpr rfl
    refine ⟨fun s hs => ?_, hall last (by simp)⟩
    exact List.any_eq_true.mpr ⟨d, mem_picked.mpr ⟨hd, hall s hs⟩, hrefl⟩

end HostSelector

namespace Host

variable {v : Vendors γ} {m : Management} {b : Bundle}

theorem IsOf.unique {d : Document} {h k : Host γ} (hh : h.IsOf v m b d) (hk : k.IsOf v m b d) :
    h = k := by
  have hof := ofDocument_eq_ok_iff.mpr hh
  rw [ofDocument_eq_ok_iff.mpr hk] at hof
  exact (Except.ok.inj hof).symm

theorem mem_names_iff {ds : List Document} {hs : List (Host γ)} {w : Value}
    (h : List.Forall₂ (IsOf v m b) ds hs) :
    w ∈ hs.map (·.name) ↔ ∃ d ∈ ds, d.name = .ok w := by
  rw [List.mem_map]
  constructor
  · rintro ⟨k, hk, rfl⟩
    obtain ⟨d, hd, hof⟩ := exists_of_mem_right h hk
    exact ⟨d, hd, hof.name⟩
  · rintro ⟨d, hd, hw⟩
    obtain ⟨k, hk, hof⟩ := exists_of_mem_left h hd
    exact ⟨k, hk, Except.ok.inj (hof.name.symm.trans hw)⟩

end Host

namespace Build

variable {v : Vendors γ} {s : Settings} {bundle : Logged PhaseError Bundle}
  {ss ts : List HostSelector}

/-- A fleet that is built has the hosts of the common documents, and there is one at least. -/
theorem isOf_of_outcome {f : Fleet γ} (h : outcome v s bundle ss = .ok f) :
    ∃ b, (bundle.run []).1 = .ok b ∧
      List.Forall₂ (Host.IsOf v f.management b) (HostSelector.common ss b) f.hosts ∧
      f.hosts ≠ [] ∧ ss ≠ [] := by
  obtain ⟨m, -, -, b, hb, hosts, hok, hf⟩ := outcome_eq_ok_iff.mp h
  have hof := Host.isOf_common hok
  rw [result] at hf
  split at hf
  next => cases hf
  next hleft =>
    cases hf
    have hne : (Host.narrowed none hosts).getD [] ≠ [] := fun hnil =>
      hleft (List.isEmpty_iff.mpr hnil)
    refine ⟨b, hb, hof, hne, ?_⟩
    rintro rfl
    exact hne (List.forall₂_nil_left_iff.mp hof)

/-- What one list of selectors builds, another one of the same selectors builds too, but for which
document stands for a name. -/
theorem outcome_of_same_selectors
    (hd : ∀ b, (bundle.run []).1 = .ok b → ∀ d ∈ b.documents, d.Regular)
    (same : ∀ t, t ∈ ss ↔ t ∈ ts) {f : Fleet γ} (h : outcome v s bundle ss = .ok f) :
    ∃ g, outcome v s bundle ts = .ok g ∧ g.management = f.management ∧
      ∀ w, w ∈ f.names ↔ w ∈ g.names := by
  obtain ⟨m, hm, hv, b, hb, hosts, hok, hf⟩ := outcome_eq_ok_iff.mp h
  obtain ⟨b', hb', hof, hne, hss⟩ := isOf_of_outcome h
  cases hb.symm.trans hb'
  have hregular := hd b hb
  obtain ⟨hosts', hok'⟩ : ∃ hosts', ts.mapM (Host.ofSelector v m b) = .ok hosts' :=
    exists_mapM_eq_ok_iff.mpr fun t ht => exists_mapM_eq_ok_iff.mp ⟨hosts, hok⟩ t ((same t).mpr ht)
  have hof' := Host.isOf_common hok'
  have hts : ts ≠ [] := by
    obtain ⟨t, ht⟩ := List.exists_mem_of_ne_nil ss hss
    exact List.ne_nil_of_mem ((same t).mp ht)
  have hmanagement : f.management = m := by
    rw [result] at hf
    split at hf
    next => cases hf
    next => exact congrArg Fleet.management (Except.ok.inj hf).symm
  have names : ∀ w, w ∈ f.names ↔ w ∈ ((Host.narrowed none hosts').getD []).map (·.name) := by
    intro w
    rw [Fleet.names, Host.mem_names_iff hof, Host.mem_names_iff hof',
      HostSelector.exists_mem_common_iff hregular hss,
      HostSelector.exists_mem_common_iff hregular hts]
    exact forall_congr' fun t => imp_congr_left (same t)
  have hleft : ((Host.narrowed none hosts').getD []).isEmpty = false := by
    obtain ⟨h, hh⟩ := List.exists_mem_of_ne_nil f.hosts hne
    have hmem := (names h.name).mp (List.mem_map_of_mem hh)
    obtain ⟨k, hk, -⟩ := List.mem_map.mp hmem
    exact List.isEmpty_eq_false_iff.mpr (List.ne_nil_of_mem hk)
  refine ⟨⟨m, _⟩, ?_, hmanagement.symm, names⟩
  rw [outcome_of_loaded hm hv hb, hok']
  exact if_neg (by simp [hleft])

/-- Where every host of the bundle has a name of its own, a fleet has the hosts of the documents
that all selectors pick. -/
theorem isOf_of_distinct {b : Bundle} (hb : (bundle.run []).1 = .ok b)
    (hd : ∀ d ∈ b.documents, d.Regular) (distinct : b.Distinct) {f : Fleet γ}
    (h : outcome v s bundle ss = .ok f) :
    List.Forall₂ (Host.IsOf v f.management b) (b.documents.filter fun d => ss.all (·.picks d))
      f.hosts := by
  obtain ⟨b', hb', hof, -, hss⟩ := isOf_of_outcome h
  cases hb.symm.trans hb'
  rwa [HostSelector.common_of_distinct hd distinct hss] at hof

/-- Two lists of the same selectors, in any order and however often each is given, both build a
fleet or neither does. The two fleets have the same names; where every host of the bundle has a name
of its own they are one fleet, in the order of the bundle. -/
theorem fleet_of_same_selectors
    (hd : ∀ b, (bundle.run []).1 = .ok b → ∀ d ∈ b.documents, d.Regular)
    (same : ∀ t, t ∈ ss ↔ t ∈ ts) (phase : String) (bus : Option Bus) (stamp : Stamp)
    (r : BuildRecord γ) :
    let one := ((fleet v s phase bundle ss bus stamp).run.run r).1
    let other := ((fleet v s phase bundle ts bus stamp).run.run r).1
    ((∃ f, one = .ok f) ↔ ∃ g, other = .ok g) ∧
    ∀ f g, one = .ok f → other = .ok g →
      (∀ w, w ∈ f.names ↔ w ∈ g.names) ∧
      ∀ b, (bundle.run []).1 = .ok b → b.Distinct → f = g ∧
        List.Forall₂ (Host.IsOf v f.management b)
          (b.documents.filter fun d => ss.all (·.picks d)) f.hosts := by
  intro one other
  have hone : one = outcome v s bundle ss := ends_fleet phase bus stamp r
  have hother : other = outcome v s bundle ts := ends_fleet phase bus stamp r
  rw [hone, hother]
  have same' : ∀ t, t ∈ ts ↔ t ∈ ss := fun t => (same t).symm
  refine ⟨⟨fun ⟨f, hf⟩ => ?_, fun ⟨g, hg⟩ => ?_⟩, fun f g hf hg => ?_⟩
  · obtain ⟨g, hg, -⟩ := outcome_of_same_selectors hd same hf
    exact ⟨g, hg⟩
  · obtain ⟨f, hf, -⟩ := outcome_of_same_selectors hd same' hg
    exact ⟨f, hf⟩
  · obtain ⟨g', hg', hmanagement, hnames⟩ := outcome_of_same_selectors hd same hf
    cases hg.symm.trans hg'
    refine ⟨hnames, fun b hb distinct => ?_⟩
    have hof := isOf_of_distinct hb (hd b hb) distinct hf
    have hof' := isOf_of_distinct hb (hd b hb) distinct hg
    have hpicks : ∀ d, (ts.all fun t => t.picks d) = ss.all fun t => t.picks d := by
      intro d
      rw [Bool.eq_iff_iff, List.all_eq_true, List.all_eq_true]
      exact forall_congr' fun t => imp_congr_left (same' t)
    rw [hmanagement] at hof'
    simp only [hpicks] at hof'
    -- the documents are the same, and each of them has one host
    have hhosts : f.hosts = g.hosts :=
      List.right_unique_forall₂' (fun _ _ _ hh hk => hh.unique hk) hof hof'
    refine ⟨?_, hof⟩
    cases f
    cases g
    cases hhosts
    cases hmanagement
    rfl

end Build

namespace Sample

/-- Two hosts at one site, each with a name of its own. -/
def pair : Bundle :=
  ⟨[host "m" "A" [("site", "1")], host "m" "B" [("site", "1")], secret "m" "u"]⟩

theorem pair_regular : ∀ d ∈ pair.documents, d.Regular := by
  intro d hd
  simp only [pair, List.mem_cons, List.not_mem_nil, or_false] at hd
  rcases hd with rfl | rfl | rfl
  · exact host_regular _ _ _
  · exact host_regular _ _ _
  · exact secret_regular _ _

end Sample

open Sample in
/-- A site and a name in it, in both orders and the name twice. -/
theorem fleet_of_same_selectors_twice :
    let ss : List HostSelector := [.byLabel "site=1", .byName "B"]
    let ts : List HostSelector := [.byName "B", .byLabel "site=1", .byName "B"]
    let bundle : Logged PhaseError Bundle := pure pair
    (∀ t, t ∈ ss ↔ t ∈ ts) ∧ pair.Distinct ∧
      ∃ f, ((Build.fleet vendors settings "p" bundle ss none stamp).run.run
          BuildRecord.start).1 = .ok f ∧
        ((Build.fleet vendors settings "p" bundle ts none stamp).run.run
          BuildRecord.start).1 = .ok f ∧
        List.Forall₂ (Host.IsOf vendors f.management pair) [host "m" "B" [("site", "1")]] f.hosts := by
  intro ss ts bundle
  have same : ∀ t, t ∈ ss ↔ t ∈ ts := by simp [ss, ts]
  have distinct : pair.Distinct := by
    have names : (pair.documents.filter Document.isHost).map Document.name =
        [.ok (.str "A"), .ok (.str "B")] := rfl
    simp [Bundle.Distinct, names]
  have hd : ∀ b, (bundle.run []).1 = .ok b → ∀ d ∈ b.documents, d.Regular := by
    intro b hb
    cases hb
    exact pair_regular
  have h := Build.fleet_of_same_selectors (v := vendors) (s := settings) hd same "p" none stamp
    BuildRecord.start
  have built : ∃ f, ((Build.fleet vendors settings "p" bundle ss none stamp).run.run
      BuildRecord.start).1 = .ok f := ⟨⟨management, [_]⟩, rfl⟩
  obtain ⟨f, hf⟩ := built
  obtain ⟨g, hg⟩ := h.1.mp ⟨f, hf⟩
  obtain ⟨-, hone⟩ := h.2 f g hf hg
  obtain ⟨rfl, hof⟩ := hone pair rfl distinct
  exact ⟨same, distinct, f, hf, hg, hof⟩

end OutOfBand
