import OutOfBand.Proofs.Batch.Stories
import OutOfBand.Proofs.Value.Key

namespace OutOfBand

variable {τ : Type}

namespace Event

/-- Whether an event is about the host of a name. -/
def isAbout (e : Event) (host : Value) : Bool := e.happening.host?.any host.alike

def isSuccess (e : Event) : Bool :=
  match e.happening with
  | .succeeded .. => true
  | _ => false

def isFailure (e : Event) : Bool :=
  match e.happening with
  | .failed .. => true
  | _ => false

end Event

/-- The events of one host: its action starts, and then it either succeeds or fails. -/
inductive Episode (stamp : Stamp) (action : String) (host : Value) : List Event → Prop
  | succeeded (ms : Int) (result : Option String) : Episode stamp action host
      [⟨stamp, .started host action⟩, ⟨stamp, .succeeded host action ms result⟩]
  | failed (error : String) : Episode stamp action host
      [⟨stamp, .started host action⟩, ⟨stamp, .failed host action error⟩]

/-- Events that are about some hosts and no others, with one episode of each of them. -/
structure Account (stamp : Stamp) (action : String) (hosts : List Value) (es : List Event) :
    Prop where
  stamped : ∀ e ∈ es, e.stamp = stamp
  about : ∀ e ∈ es, ∃ host ∈ hosts, e.happening.host? = some host
  episode : ∀ host ∈ hosts, Episode stamp action host (es.filter (·.isAbout host))

/-- Whether each of some hosts has an event of its success. -/
def allSucceed (hosts : List Value) (es : List Event) : Bool :=
  hosts.all fun host => es.any fun e => e.isAbout host && e.isSuccess

theorem Episode.of_mem {stamp : Stamp} {action : String} {host : Value} {es : List Event}
    (h : Episode stamp action host es) {e : Event} (he : e ∈ es) :
    e.stamp = stamp ∧ e.happening.host? = some host := by
  cases h with
  | succeeded ms result =>
    rcases List.mem_pair.mp he with rfl | rfl <;> exact ⟨rfl, rfl⟩
  | failed error =>
    rcases List.mem_pair.mp he with rfl | rfl <;> exact ⟨rfl, rfl⟩

theorem Episode.filter_isAbout {stamp : Stamp} {action : String} {host other : Value}
    {es : List Event} (h : Episode stamp action host es) :
    es.filter (·.isAbout other) = if other.alike host then es else [] := by
  have all : ∀ e ∈ es, e.isAbout other = other.alike host := by
    intro e he
    rw [Event.isAbout, (h.of_mem he).2]
    rfl
  split
  next halike => exact List.filter_eq_self.mpr fun e he => (all e he).trans halike
  next halike => exact List.filter_eq_nil_iff.mpr fun e he => by rwa [all e he]

theorem Account.eq_of_one {stamp : Stamp} {action : String} {host : Value} {es : List Event}
    (key : host.isKey = true) (account : Account stamp action [host] es)
    (hall : allSucceed [host] es = true) : ∃ ms result,
      es = [⟨stamp, .started host action⟩, ⟨stamp, .succeeded host action ms result⟩] := by
  have hself : es.filter (·.isAbout host) = es := by
    refine List.filter_eq_self.mpr fun e he => ?_
    obtain ⟨other, hother, habout⟩ := account.about e he
    cases List.mem_singleton.mp hother
    rw [Event.isAbout, habout]
    exact Value.alike_refl key
  have hepisode := account.episode host (List.mem_singleton_self host)
  rw [hself] at hepisode
  cases hepisode with
  | succeeded ms result => exact ⟨ms, result, rfl⟩
  | failed error => simp [allSucceed, Event.isSuccess] at hall

namespace Batch

variable {b : Batch τ} {bus : Bus} {h : Host (Client τ)} {hosts : List (Host (Client τ))}
  {r : HostResult} {rs : List HostResult} {es mixed : List Event} {stories : List (List Event)}

theorem Story.episode (hbus : b.bus = some bus) (hs : b.Story h r es) :
    Episode b.stamp b.name h.name es := by
  have heard (e : Happening) : b.heard e = [⟨b.stamp, e⟩] := by rw [heard, hbus]; rfl
  cases hs with
  | succeeded ms value =>
    rw [heard, heard]
    exact .succeeded ms value
  | failed e =>
    rw [heard, heard]
    exact .failed e.message

theorem Story.countP_isSuccess (hbus : b.bus = some bus) (hs : b.Story h r es) :
    es.countP Event.isSuccess = if r.outcome.isOk then 1 else 0 := by
  cases hs <;> simp [heard, Bus.heard, hbus, Event.isSuccess, result, Outcome.isOk]

theorem Story.countP_isFailure (hbus : b.bus = some bus) (hs : b.Story h r es) :
    es.countP Event.isFailure = if r.outcome.isFailed then 1 else 0 := by
  cases hs <;> simp [heard, Bus.heard, hbus, Event.isFailure, result, Outcome.isFailed]

theorem Story.not_skipped (hs : b.Story h r es) : r.outcome.isSkipped = false := by
  cases hs <;> rfl

namespace Ends

variable (hends : b.Ends hosts rs stories)

include hends

theorem of_host {i : Nat} (hh : hosts[i]? = some h) :
    ∃ r es, rs[i]? = some r ∧ stories[i]? = some es ∧ b.Story h r es := by
  have hi := (List.getElem?_eq_some_iff.mp hh).1
  have hr := List.getElem?_eq_getElem (hends.oneResult.symm ▸ hi)
  have hes := List.getElem?_eq_getElem (hends.oneStory.symm ▸ hi)
  exact ⟨_, _, hr, hes, hends.story i h _ _ hh hr hes⟩

/-- Where one event of every story stands for its result, there are as many in all. -/
theorem countP_eq {p : Event → Bool} {kind : Outcome → Bool}
    (one : ∀ h r es, b.Story h r es → es.countP p = if kind r.outcome then 1 else 0) :
    stories.flatten.countP p = count kind rs := by
  induction hosts generalizing rs stories with
  | nil =>
    rw [List.eq_nil_of_length_eq_zero hends.oneResult,
      List.eq_nil_of_length_eq_zero hends.oneStory]
    rfl
  | cons h hosts ih =>
    obtain ⟨r, rs, es, stories, rfl, rfl, hstory, hrest⟩ := hends.of_cons
    rw [List.flatten_cons, List.countP_append, one h r es hstory, ih hrest, count_cons]

theorem count_isSkipped : count Outcome.isSkipped rs = 0 := by
  have hnone : stories.flatten.countP (fun _ => false) = count Outcome.isSkipped rs :=
    hends.countP_eq fun h r es hs => by
      rw [hs.not_skipped]
      exact List.countP_eq_zero.mpr (by simp)
  rw [← hnone, List.countP_eq_zero]
  simp

variable (hbus : b.bus = some bus) (hmixed : Interleaves stories mixed)
  (apart : Value.Apart (hosts.map (·.name)))

include hbus hmixed apart

/-- Among the events of all hosts, those about one of them are its own story. -/
theorem filter_isAbout {i : Nat} (hh : hosts[i]? = some h) (hes : stories[i]? = some es) :
    mixed.filter (·.isAbout h.name) = es := by
  have hname : (hosts.map (·.name))[i]? = some h.name := by simp [hh]
  have others : ∀ j (l : List Event), stories[j]? = some l → j ≠ i →
      l.filter (·.isAbout h.name) = [] := by
    intro j l hl hj
    have hlt : j < hosts.length := hends.oneStory ▸ (List.getElem?_eq_some_iff.mp hl).1
    have hk : hosts[j]? = some hosts[j] := List.getElem?_eq_getElem hlt
    obtain ⟨_, _, -, hl', hstory⟩ := hends.of_host hk
    cases hl.symm.trans hl'
    have hother : (hosts.map (·.name))[j]? = some hosts[j].name := by simp [hk]
    have hne := apart.not_alike hname hother hj.symm
    rw [(hstory.episode hbus).filter_isAbout, hne, if_neg (by simp)]
  obtain ⟨_, _, -, hes', hstory⟩ := hends.of_host hh
  cases hes.symm.trans hes'
  have hself := Value.alike_refl (apart.keys _ (List.mem_of_getElem? hname))
  rw [hmixed.filter_eq_of_only hes others, (hstory.episode hbus).filter_isAbout, if_pos hself]

theorem account : Account b.stamp b.name (hosts.map (·.name)) mixed := by
  have from_story : ∀ e ∈ mixed, ∃ h ∈ hosts, ∃ es, e ∈ es ∧ Episode b.stamp b.name h.name es := by
    intro e he
    obtain ⟨es, hes, he⟩ := List.mem_flatten.mp (hmixed.perm_flatten.mem_iff.mp he)
    obtain ⟨i, hi, rfl⟩ := List.mem_iff_getElem.mp hes
    have hh := List.getElem?_eq_getElem (hends.oneStory ▸ hi)
    obtain ⟨_, _, -, hes', hstory⟩ := hends.of_host hh
    cases (List.getElem?_eq_getElem hi).symm.trans hes'
    exact ⟨_, List.mem_of_getElem? hh, _, he, hstory.episode hbus⟩
  refine ⟨fun e he => ?_, fun e he => ?_, fun host hm => ?_⟩
  · obtain ⟨h, -, es, hes, hepisode⟩ := from_story e he
    exact (hepisode.of_mem hes).1
  · obtain ⟨h, hh, es, hes, hepisode⟩ := from_story e he
    exact ⟨h.name, List.mem_map_of_mem hh, (hepisode.of_mem hes).2⟩
  · obtain ⟨h, hh, rfl⟩ := List.mem_map.mp hm
    obtain ⟨i, hi⟩ := List.mem_iff_getElem?.mp hh
    obtain ⟨r, es, -, hes, hstory⟩ := hends.of_host hi
    rw [hends.filter_isAbout hbus hmixed apart hi hes]
    exact hstory.episode hbus

theorem all_isOk : (rs.all fun r => r.outcome.isOk) = allSucceed (hosts.map (·.name)) mixed := by
  have succeeds {i : Nat} {h r es} (hh : hosts[i]? = some h) (hes : stories[i]? = some es)
      (hs : b.Story h r es) :
      r.outcome.isOk = mixed.any fun e => e.isAbout h.name && e.isSuccess := by
    have hone : r.outcome.isOk = true ↔ 0 < es.countP Event.isSuccess := by
      rw [hs.countP_isSuccess hbus]
      cases r.outcome.isOk <;> simp
    rw [Bool.eq_iff_iff, hone, List.countP_pos_iff,
      ← hends.filter_isAbout hbus hmixed apart hh hes]
    simp [and_assoc]
  rw [Bool.eq_iff_iff, allSucceed, List.all_eq_true, List.all_eq_true]
  constructor
  · intro hok host hm
    obtain ⟨h, hh, rfl⟩ := List.mem_map.mp hm
    obtain ⟨i, hi⟩ := List.mem_iff_getElem?.mp hh
    obtain ⟨r, es, hr, hes, hstory⟩ := hends.of_host hi
    exact (succeeds hi hes hstory).symm.trans (hok r (List.mem_of_getElem? hr))
  · intro hall r hr
    obtain ⟨i, hi, rfl⟩ := List.mem_iff_getElem.mp hr
    have hh := List.getElem?_eq_getElem (hends.oneResult ▸ hi)
    obtain ⟨_, es, hr', hes, hstory⟩ := hends.of_host hh
    cases (List.getElem?_eq_getElem hi).symm.trans hr'
    have hhost := hall _ (List.mem_map_of_mem (List.mem_of_getElem? hh))
    exact (succeeds hh hes hstory).trans hhost

end Ends

end Batch

end OutOfBand
