import OutOfBand.Proofs.Batch.InTurn
import OutOfBand.Proofs.Redfish.Isolation
import OutOfBand.Proofs.Redfish.Silence

namespace OutOfBand

namespace Batch

open Run

variable {τ : Type} [Seconds τ] {b : Batch τ} {h : Host (Client τ)} {own : Mark τ → Bool}

theorem run_results_sideBySide (workers : Option Nat) (schedule : List Nat)
    {hosts : List (Host (Client τ))} {rs : List HostResult} {t : Timeline τ}
    (hr : ((Run.sideBySide schedule (hosts.map b.runOn)).run t).1 = .ok (rs.map .ok)) :
    (b.results (.sideBySide (workers.map Int.ofNat) schedule) hosts).run t =
      (.ok rs, ((Run.sideBySide schedule (hosts.map b.runOn)).run t).2) := by
  have enough : (checkWorkers (workers.map Int.ofNat) : Run τ Unit) = pure () := by
    cases workers <;> simp [checkWorkers]
  have same : b.results (.sideBySide (workers.map Int.ofNat) schedule) hosts =
      Run.sideBySide schedule (hosts.map b.runOn) >>= Run.collect := by
    rw [results]
    split
    next =>
      rw [enough]
      rfl
    next => rfl
  rw [same, run_bind, show (Run.sideBySide schedule (hosts.map b.runOn)).run t =
    (.ok (rs.map .ok), _) from Prod.ext hr rfl]
  exact run_collect rs _

section Exact

variable [AddCommGroup τ] [LinearOrder τ] [Seconds.Exact τ] {shift : τ}

open Seconds.Exact

theorem inStep_runOn (iso : (b.action h).Isolated own) :
    (b.runOn h).InStep own (MayLeave own) shift (b.runOn h) := by
  have tell : ∀ e, (b.tell e).InStep own (MayLeave own) shift (b.tell e) := fun e =>
    inStep_tell b.bus ⟨b.stamp, e⟩ (.inr ⟨_, rfl⟩)
  have attempt : (b.attempt h).InStep own (MayLeave own) shift (b.attempt h) := by
    refine InStep.tryCatch (.bind ?_ fun a => inStep_pure _) fun e => ?_
    · exact (iso shift).mono fun m hm => .inl hm
    · cases e with
      | remote e => exact inStep_pure _
      | fault m => exact inStep_throw _
  refine .bind (inStep_enter b.timeout) fun _ => .bind (tell _) fun _ => ?_
  refine inStep_get fun t t' ht => .bind attempt fun out => ?_
  cases out with
  | error e =>
    exact .bind (inStep_say _ _ _) fun _ => .bind (tell _) fun _ => inStep_pure _
  | ok value =>
    refine inStep_get fun u u' hu => ?_
    have ms : Seconds.sub u'.now t'.now = Seconds.sub u.now t.now := by
      rw [sub_eq, sub_eq, ht.now, hu.now, add_sub_add_right_eq_sub]
    simp only [ms]
    exact .bind (inStep_say _ _ _) fun _ => .bind (tell _) fun _ => inStep_pure _

/-- A host's lane is in step with the run in which the host adds its part, whenever the lane starts:
a host that has to wait for a worker does no other than one that has not. -/
theorem Adds.tracks {p : Part τ} {trace : List (Effect τ)} (hp : Adds b h own (marksOf trace) p)
    (iso : (b.action h).Isolated own) (now : τ) (limits : Limits τ) :
    (Lane.mk now limits (ExceptT.run (b.runOn h))).Tracks own (MayLeave own) trace
      (.ok p.result) p.marks := by
  obtain ⟨u, hseen, hout, hmarks⟩ := hp.start
  let s : Timeline τ := { u with limits := limits.later (u.now - now) }
  have alike : Alike own (u.now - now) ⟨now, limits, trace⟩ s :=
    ⟨(add_sub_cancel now u.now).symm, rfl, hseen⟩
  -- a host's run starts with bounds of its own, whatever they were before
  have hs : (b.runOn h).run s = (b.runOn h).run u := rfl
  refine ⟨_, ExceptT.run (b.runOn h), s, inStep_runOn iso, alike, ?_, ?_⟩
  · exact (congrArg Prod.fst hs).trans hout
  · exact (congrArg (·.2.marks) hs).trans hmarks

theorem AddAll.tracks {own : Nat → Mark τ → Bool} {hosts : List (Host (Client τ))}
    {parts : List (Part τ)} {t : Timeline τ} (hp : AddAll b hosts own t.marks parts)
    (iso : ∀ i h, hosts[i]? = some h → (b.action h).Isolated (own i)) :
    (Lanes.mk ((hosts.map b.runOn).map fun r => ⟨t.now, t.limits, ExceptT.run r⟩) t.trace).Tracks
      own (fun i => MayLeave (own i)) ((parts.map Part.result).map .ok) (parts.map Part.marks) where
  outcomes := by simp [hp.length]
  marks := by simp [hp.length]
  lane := by
    intro i l a rest hl ha hrest
    simp only [List.getElem?_map, Option.map_eq_some_iff] at hl ha hrest
    obtain ⟨_, ⟨h, hh, rfl⟩, rfl⟩ := hl
    obtain ⟨_, ⟨p, hi, rfl⟩, rfl⟩ := ha
    obtain ⟨q, hq, rfl⟩ := hrest
    cases hi.symm.trans hq
    exact (hp.part i h p hh hi).tracks (iso i h hh) t.now t.limits

/-- Where every host's action is isolated and raises failures of remote calls only, a batch side by
side, under any schedule, is a batch in turn up to the order of the hosts' events: the results are
the same, every host has the same contacts, the hosts' stories are interleaved, and the sums come
last. -/
theorem sideBySide_eq_inTurn (b : Batch τ) (hosts : List (Host (Client τ)))
    (owner : Contact τ → Nat)
    (isolated : ∀ i h, hosts[i]? = some h → (b.action h).Isolated (Mark.isOf owner i))
    (remote : ∀ h ∈ hosts, ∀ t m, ((b.action h).run t).1 ≠ .error (.fault m))
    (workers : Option Nat) (schedule : List Nat) (t : Timeline τ) :
    let inTurn := (b.run (.inTurn true) hosts).run t
    let sideBySide := (b.run (.sideBySide (workers.map Int.ofNat) schedule) hosts).run t
    ∃ (rs : List HostResult) (stories : List (List Event)) (mixed : List Event),
      inTurn.1 = .ok rs ∧ sideBySide.1 = .ok rs ∧
      b.Ends hosts rs stories ∧
      (∀ i, sideBySide.2.contacts.filter (owner · = i) =
        inTurn.2.contacts.filter (owner · = i)) ∧
      inTurn.2.events = t.events ++ stories.flatten ++ b.heard (b.summary rs) ∧
      sideBySide.2.events = t.events ++ mixed ++ b.heard (b.summary rs) ∧
      Interleaves stories mixed ∧ sideBySide.2.events.Perm inTurn.2.events := by
  intro inTurn sideBySide
  have sep := separate_isOf owner
  obtain ⟨parts, hparts, hout, hmarks⟩ := run_runInTurn sep isolated remote t
  obtain ⟨houts, ms, hms, hmarks'⟩ :=
    run_sideBySide (hparts.tracks isolated) sep.of_mayLeave schedule
  let rs := parts.map Part.result
  let stories := parts.map Part.events
  let mixed := ms.filterMap Mark.event?
  have hall : ((b.results (.inTurn true) hosts).run t).1 = .ok rs := hout
  have hres := run_results_sideBySide workers schedule houts
  obtain ⟨hturn, hend⟩ := run_of_results hall
  obtain ⟨hside, hend'⟩ := run_of_results (congrArg Prod.fst hres)
  have marks : inTurn.2.marks =
      t.marks ++ (parts.map Part.marks).flatten ++ (b.heard (b.summary rs)).map .told :=
    hend.trans (congrArg (· ++ _) hmarks)
  have marks' : sideBySide.2.marks = t.marks ++ ms ++ (b.heard (b.summary rs)).map .told :=
    hend'.trans (congrArg (· ++ _) ((congrArg (·.2.marks) hres).trans hmarks'))
  have told := events_of_marks marks
  have told' := events_of_marks marks'
  have inOrder : (parts.map Part.marks).flatten.filterMap Mark.event? = stories.flatten := by
    rw [List.filterMap_flatten, List.map_map]
    rfl
  rw [inOrder] at told
  have interleaved : Interleaves stories mixed := by
    have := hms.filterMap Mark.event?
    rwa [List.map_map] at this
  refine ⟨rs, stories, mixed, hturn, hside, hparts.ends, fun i => ?_, told, told',
    interleaved, ?_⟩
  · have alone : ms.filter (Mark.isOf owner i) =
        (parts.map Part.marks).flatten.filter (Mark.isOf owner i) :=
      hms.filter_eq (hparts.others sep)
    rw [contacts_of_marks owner i marks, contacts_of_marks owner i marks', alone]
  · rw [told, told']
    exact (interleaved.perm_flatten.append_left _).append_right _

end Exact

end Batch

namespace Sample

/-- A machine at a service of its own. -/
def machineAt (base : String) : Redfish.System Int where
  given := base ++ "/redfish/v1/Systems/1"
  address := ⟨base, "/redfish/v1/Systems/1", "1"⟩
  dialect := .standard
  session := .ofUser false false "admin" "pw"
  retries := 2
  delay := 1
  requestTimeout := 30

/-- One service shows its machine switched on after a second, all others have none. -/
def oneService : Network Int := fun _ q =>
  if q.url = "http://a/redfish/v1/Systems/1" then
    ⟨.response ⟨200, "", [], some (Redfish.payload [("PowerState", .str "On")])⟩, 1, false⟩
  else ⟨.response ⟨404, "none", [], none⟩, 2, false⟩

def hostAt (name base : String) : Host (Client Int) :=
  ⟨.str name, base, (machineAt base).client oneService, ⟨"admin", "pw"⟩⟩

def statusOfAll : Batch Int :=
  ⟨Command.powerStatus.action, "powerstatus", some 5, some [], ⟨"", "", none, none⟩⟩

/-- The number of the machine at a URL. -/
def ownerOf (url : String) : Nat := if "http://a/".toList.isPrefixOf url.toList then 0 else 1

def contactOwner : Contact Int → Nat
  | .exchanged q _ => ownerOf q.url
  | .called _ _ => 2

theorem apart_machineAt (base : String) (i : Nat)
    (hsystem : ownerOf ((machineAt base).url (machineAt base).address.systemPath) = i)
    (hreset : ownerOf ((machineAt base).url (machineAt base).resetPath) = i) :
    (machineAt base).Apart oneService (Mark.isOf contactOwner i) fun url => ownerOf url = i where
  marks _ _ := rfl
  net _ _ _ := rfl
  system := decide_eq_true hsystem
  reset := decide_eq_true hreset

end Sample

open Sample in
/-- Two machines, one of which is not there, asked for their status under a schedule that mixes
their turns. -/
theorem statusOfAll_sideBySide :
    let hosts := [hostAt "a" "http://a", hostAt "b" "http://b"]
    let missing : RemoteError :=
      ⟨.clientError .get "http://b/redfish/v1/Systems/1" 404 "none", some "power_status", some "b"⟩
    let inTurn := (statusOfAll.run (.inTurn true) hosts).run Timeline.start
    let sideBySide := (statusOfAll.run (.sideBySide (some 2) [1, 0, 1, 0]) hosts).run Timeline.start
    (∀ i h, hosts[i]? = some h → (statusOfAll.action h).Isolated (Mark.isOf contactOwner i)) ∧
      (∀ h ∈ hosts, ∀ t m, ((statusOfAll.action h).run t).1 ≠ .error (.fault m)) ∧
      sideBySide.1 = .ok [⟨.str "a", "powerstatus", .ok (some "On")⟩,
        ⟨.str "b", "powerstatus", .failed missing⟩] ∧
      sideBySide.2.events.Perm inTurn.2.events := by
  intro hosts missing inTurn sideBySide
  have isolated : ∀ i h, hosts[i]? = some h →
      (statusOfAll.action h).Isolated (Mark.isOf contactOwner i) := by
    intro i h hh
    have power : Command.powerStatus ∈ [.powerOn, .powerOff, .powerStatus, .reboot] := by decide
    match i with
    | 0 =>
      cases hh
      have alone := apart_machineAt "http://a" 0 (by decide) (by decide)
      exact alone.action rfl power
    | 1 =>
      cases hh
      have alone := apart_machineAt "http://b" 1 (by decide) (by decide)
      exact alone.action rfl power
    | i + 2 => cases hh
  have remote : ∀ h ∈ hosts, ∀ t m, ((statusOfAll.action h).run t).1 ≠ .error (.fault m) := by
    intro h hh
    simp only [hosts, List.mem_cons, List.not_mem_nil, or_false] at hh
    rcases hh with rfl | rfl
    · exact Redfish.System.action_ne_fault rfl .powerStatus
    · exact Redfish.System.action_ne_fault rfl .powerStatus
  obtain ⟨rs, stories, mixed, hturn, hside, -, -, -, -, -, hperm⟩ :=
    Batch.sideBySide_eq_inTurn statusOfAll hosts contactOwner isolated remote (some 2) [1, 0, 1, 0]
      Timeline.start
  have results : inTurn.1 = .ok [⟨.str "a", "powerstatus", .ok (some "On")⟩,
      ⟨.str "b", "powerstatus", .failed missing⟩] := by rfl
  exact ⟨isolated, remote, (hside.trans hturn.symm).trans results, hperm⟩

end OutOfBand
