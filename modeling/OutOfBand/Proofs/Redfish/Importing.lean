import OutOfBand.Proofs.Redfish.Search
import OutOfBand.Proofs.Redfish.Switching
import OutOfBand.Redfish.Boot

namespace OutOfBand

namespace Redfish

/-- Where the job of an accepted import is. -/
def jobOf? (r : Response) : Option String := (r.header? "Location").filter (!·.isEmpty)

/-- An object that shows a job which is not over. -/
def IsUnderway (es : Resource) : Prop := JobState.ofResource es = .pending

instance : DecidablePred IsUnderway := fun es =>
  inferInstanceAs (Decidable (JobState.ofResource es = .pending))

/-- The failure that a failed job is. -/
def jobFailure (action job state : String) (es : Resource) : Failure :=
  .remote ⟨.jobFailed job state (jobMessage es), some action, none⟩

/-- What an object shows of the end of a job. -/
def jobTest (action job : String) (es : Resource) : Except Failure Bool :=
  match JobState.ofResource es with
  | .completed => .ok true
  | .failed state => .error (jobFailure action job state es)
  | .pending => .ok false

theorem isTransient_of_jobTest {action job : String} {es : Resource} {f : Failure}
    (h : jobTest action job es = .error f) : f.isTransient = false := by
  rw [jobTest] at h
  split at h
  next => cases h
  next => cases h; rfl
  next => cases h

theorem jobTest_eq_ok_true_iff {action job : String} {es : Resource} :
    jobTest action job es = .ok true ↔ JobState.ofResource es = .completed := by
  rw [jobTest]
  cases JobState.ofResource es <;> simp

theorem isUnderway_eq (action job : String) :
    (fun es => jobTest action job es = .ok false) = IsUnderway := by
  funext es
  rw [jobTest, IsUnderway]
  cases JobState.ofResource es <;> simp

namespace System

variable {τ : Type} (s : System τ)

def importOrder (manager : String) : Request τ :=
  s.plainly .post (importPath manager) (some importPayload)

def jobLook (job : String) : Request τ := s.plainly .get job none

variable (net : Network τ) (t : Timeline τ)

def systemReply : Reply τ := net t.requests s.glance

/-- The reply to the import that follows some others. -/
def importReply (manager : String) (i : Nat) : Reply τ :=
  net.reply (t.requests ++ [s.glance]) (s.importOrder manager) i

/-- What has been sent when import number `i`, counted from zero, was the last one. -/
def importsUntil (manager : String) (i : Nat) : List (Request τ) :=
  t.requests ++ [s.glance] ++ List.replicate (i + 1) (s.importOrder manager)

/-- The reply to the look at a job that follows some others, all of them after import `i`. -/
def jobReply (manager job : String) (i k : Nat) : Reply τ :=
  net.reply (s.importsUntil t manager i) (s.jobLook job) k

/-- The system shows this manager as its first one. -/
def Managed (manager : String) : Prop :=
  ∃ es, Shows (s.systemReply net t).answer es ∧ managerLink? es = some manager

/-- Import number `i` is accepted, and those before it fail in a way that may pass. -/
structure Takes (manager : String) (i : Nat) (response : Response) : Prop where
  managed : s.Managed net t manager
  passing : ∀ k < i, Passing .post (s.importReply net t manager k).answer
  accepted : Accepted (s.importReply net t manager i).answer response

/-- Import number `i` is accepted as a job. -/
def Starts (manager job : String) (i : Nat) : Prop :=
  ∃ response, s.Takes net t manager i response ∧ jobOf? response = some job

/-- Look number `j` at a job shows an object, and no look before it shows an end of the job or
fails for good. -/
structure Reports (manager job : String) (i j : Nat) (es : Resource) : Prop where
  pending : ∀ k < j, Pending IsUnderway (s.jobReply net t manager job i k).answer
  shows : Shows (s.jobReply net t manager job i j).answer es

/-- The imports up to number `i`, after the system has been read. -/
def imports (manager : String) (i : Nat) : History τ :=
  (s.glance, s.systemReply net t) ::
    net.series (t.requests ++ [s.glance]) (s.importOrder manager) (i + 1)

/-- The looks up to number `j` at the job that import number `i` is. -/
def looksAt (manager job : String) (i j : Nat) : History τ :=
  net.series (s.importsUntil t manager i) (s.jobLook job) (j + 1)

/-- What an import comes to while `n` retries are left: its outcome, what is sent, and the pauses.
-/
inductive Course [Seconds τ] (action : String) (n : Nat) :
    Except Failure Unit → History τ → List τ → Prop
  | unseen (hidden : ∀ es, ¬Shows (s.systemReply net t).answer es) {f : Failure}
      (failure : (answered action .get (s.url s.address.systemPath) (s.systemReply net t).answer >>=
        shown action s.address.systemPath) = .error f) :
      Course action n (.error f) [(s.glance, s.systemReply net t)] []
  | unmanaged {es : Resource} (shows : Shows (s.systemReply net t).answer es)
      (missing : managerLink? es = none) :
      Course action n (.error (.remote ⟨.noManager s.address.systemId, some action, none⟩))
        [(s.glance, s.systemReply net t)] []
  | deaf {manager : String} (managed : s.Managed net t manager)
      (passing : ∀ k ≤ n, Passing .post (s.importReply net t manager k).answer) :
      Course action n (.error (s.gaveUp action n)) (s.imports net t manager n) (pauses s.delay n)
  | refused {manager : String} {i : Nat} (hi : i ≤ n) (managed : s.Managed net t manager)
      (passing : ∀ k < i, Passing .post (s.importReply net t manager k).answer)
      (last : ¬Passing .post (s.importReply net t manager i).answer) {f : Failure}
      (failure : answered action .post (s.url (importPath manager))
        (s.importReply net t manager i).answer = .error f) :
      Course action n (.error f) (s.imports net t manager i) (pauses s.delay i)
  | unlocated {manager : String} {i : Nat} (hi : i ≤ n) {response : Response}
      (takes : s.Takes net t manager i response) (missing : jobOf? response = none) :
      Course action n (.error (.remote ⟨.noJobLocation, some action, none⟩))
        (s.imports net t manager i) (pauses s.delay i)
  | waiting {manager job : String} {i : Nat} (hi : i ≤ n) (starts : s.Starts net t manager job i)
      (pending : ∀ k ≤ n, Pending IsUnderway (s.jobReply net t manager job i k).answer) :
      Course action n (.error (s.gaveUp action n))
        (s.imports net t manager i ++ s.looksAt net t manager job i n) (pauses s.delay (i + n))
  | settled {manager job : String} {i j : Nat} (hi : i ≤ n) (hj : j ≤ n)
      (starts : s.Starts net t manager job i)
      (pending : ∀ k < j, Pending IsUnderway (s.jobReply net t manager job i k).answer)
      (last : ¬Pending IsUnderway (s.jobReply net t manager job i j).answer) :
      Course action n ((s.seen action job (jobTest action job)
          (s.jobReply net t manager job i j).answer).map fun _ => ())
        (s.imports net t manager i ++ s.looksAt net t manager job i j) (pauses s.delay (i + j))

/-- An import that the service accepts. -/
def IsAcceptedImport (x : Request τ × Reply τ) : Prop :=
  x.1.method = .post ∧ ∃ r, Accepted x.2.answer r

/-- What an import sends: one read of the system, imports to its first manager, and once one of them
has been accepted nothing but looks at its job, until one shows that the job has failed. -/
structure ImportsOnly (action : String) (out : Except Failure Unit) (sent : History τ) : Prop where
  unpatched : ∀ x ∈ sent, x.1.method ≠ .patch
  orders : ∀ x ∈ sent, x.1.method = .post →
    ∃ manager, s.Managed net t manager ∧ x.1 = s.importOrder manager
  looks : ∀ {pre x post r}, sent = pre ++ x :: post → x.1.method = .post → Accepted x.2.answer r →
    ∀ y ∈ post, ∃ job, jobOf? r = some job ∧ y.1 = s.jobLook job
  failed : ∀ {pre x mid y post r job es state}, sent = pre ++ x :: (mid ++ y :: post) →
    x.1.method = .post → Accepted x.2.answer r → jobOf? r = some job → Shows y.2.answer es →
    JobState.ofResource es = .failed state →
      post = [] ∧ out = .error (jobFailure action job state es)

variable {s net t} {n i j : Nat} {action manager job : String}

theorem Reports.not_pending {es : Resource} (h : s.Reports net t manager job i j es)
    (hover : JobState.ofResource es ≠ .pending) :
    ¬Pending IsUnderway (s.jobReply net t manager job i j).answer :=
  fun hpending => hover (hpending.of_shows h.shows)

section Sent

variable {out : Except Failure Unit} {sent : History τ}

theorem mem_imports {x : Request τ × Reply τ} (h : x ∈ s.imports net t manager i) :
    x = (s.glance, s.systemReply net t) ∨
      ∃ k ≤ i, x = (s.importOrder manager, s.importReply net t manager k) := by
  rcases List.mem_cons.mp h with rfl | h
  · exact .inl rfl
  · obtain ⟨k, hk, rfl⟩ := Network.exists_of_mem_series h
    exact .inr ⟨k, by omega, rfl⟩

theorem not_isAcceptedImport_of_get {x : Request τ × Reply τ} (h : x.1.method = .get) :
    ¬IsAcceptedImport x := by
  rintro ⟨hpost, -⟩
  cases h.symm.trans hpost

theorem ImportsOnly.of_unaccepted
    (horders : ∀ x ∈ sent, x.1 = s.glance ∨
      ∃ manager, s.Managed net t manager ∧ x.1 = s.importOrder manager)
    (hnone : ∀ x ∈ sent, ¬IsAcceptedImport x) : s.ImportsOnly net t action out sent where
  unpatched x hx := by
    rcases horders x hx with h | ⟨manager, -, h⟩ <;> rw [h] <;> simp [glance, importOrder, plainly]
  orders x hx hpost := by
    rcases horders x hx with h | h
    · rw [h] at hpost
      cases hpost
    · exact h
  looks := by
    rintro pre x post r rfl hpost haccepted
    exact absurd ⟨hpost, r, haccepted⟩ (hnone x (by simp))
  failed := by
    rintro pre x mid y post r job es state rfl hpost haccepted
    exact absurd ⟨hpost, r, haccepted⟩ (hnone x (by simp))

/-- The accepted import is the only one, and it is the last one. -/
theorem eq_of_cut_imports {response r : Response} (h : s.Takes net t manager i response)
    {looks pre post : History τ} {x : Request τ × Reply τ} (hlooks : ∀ y ∈ looks, y.1.method = .get)
    (hcut : s.imports net t manager i ++ looks = pre ++ x :: post) (hpost : x.1.method = .post)
    (haccepted : Accepted x.2.answer r) : r = response ∧ post = looks := by
  have hbefore : ∀ y ∈ (s.glance, s.systemReply net t) ::
      net.series (t.requests ++ [s.glance]) (s.importOrder manager) i, ¬IsAcceptedImport y := by
    intro y hy
    rcases List.mem_cons.mp hy with rfl | hy
    · exact not_isAcceptedImport_of_get rfl
    · obtain ⟨k, hk, rfl⟩ := Network.exists_of_mem_series hy
      rintro ⟨-, r', hr'⟩
      exact hr'.not_passing .post (h.passing k hk)
  rw [imports, Network.series_concat, ← List.cons_append, List.append_assoc] at hcut
  obtain ⟨rfl, rfl⟩ := eq_of_append_cons_eq hbefore
    (fun y hy => not_isAcceptedImport_of_get (hlooks y hy)) ⟨hpost, r, haccepted⟩ hcut
  have hr := haccepted.1.symm.trans h.accepted.1
  exact ⟨by cases hr; rfl, rfl⟩

theorem ImportsOnly.of_takes {response : Response} (h : s.Takes net t manager i response)
    {looks : History τ}
    (hlooks : ∀ y ∈ looks, ∃ job, jobOf? response = some job ∧ y.1 = s.jobLook job)
    (hfailed : ∀ {mid y post job es state}, looks = mid ++ y :: post →
      jobOf? response = some job → Shows y.2.answer es → JobState.ofResource es = .failed state →
        post = [] ∧ out = .error (jobFailure action job state es)) :
    s.ImportsOnly net t action out (s.imports net t manager i ++ looks) := by
  have hget : ∀ y ∈ looks, y.1.method = .get := by
    intro y hy
    obtain ⟨job, -, hy⟩ := hlooks y hy
    rw [hy]
    rfl
  refine ⟨fun x hx => ?_, fun x hx hpost => ?_, fun hcut hpost haccepted => ?_,
    fun hcut hpost haccepted => ?_⟩
  · rcases List.mem_append.mp hx with hx | hx
    · rcases mem_imports hx with rfl | ⟨k, -, rfl⟩ <;> simp [glance, importOrder, plainly]
    · rw [hget x hx]
      simp
  · rcases List.mem_append.mp hx with hx | hx
    · rcases mem_imports hx with rfl | ⟨k, -, rfl⟩
      · cases hpost
      · exact ⟨manager, h.managed, rfl⟩
    · cases (hget x hx).symm.trans hpost
  · obtain ⟨rfl, rfl⟩ := eq_of_cut_imports h hget hcut hpost haccepted
    exact hlooks
  · obtain ⟨rfl, hpost⟩ := eq_of_cut_imports h hget hcut hpost haccepted
    exact hfailed hpost.symm

theorem ImportsOnly.of_starts (h : s.Starts net t manager job i)
    (hpending : ∀ k < j, Pending IsUnderway (s.jobReply net t manager job i k).answer)
    (hlast : ∀ {es state}, Shows (s.jobReply net t manager job i j).answer es →
      JobState.ofResource es = .failed state → out = .error (jobFailure action job state es)) :
    s.ImportsOnly net t action out
      (s.imports net t manager i ++ s.looksAt net t manager job i j) := by
  obtain ⟨response, htakes, hjob⟩ := h
  refine .of_takes htakes (fun y hy => ?_)
    fun {mid y post job' es state} hcut hjob' hes hstate => ?_
  · obtain ⟨k, -, rfl⟩ := Network.exists_of_mem_series hy
    exact ⟨job, hjob, rfl⟩
  · obtain rfl := Option.some.inj (hjob.symm.trans hjob')
    have hbefore : ∀ z ∈ net.series (s.importsUntil t manager i) (s.jobLook job) j,
        ¬¬Pending IsUnderway z.2.answer := by
      intro z hz hnot
      obtain ⟨k, hk, rfl⟩ := Network.exists_of_mem_series hz
      exact hnot (hpending k hk)
    have hy : ¬Pending IsUnderway y.2.answer := by
      intro hunderway
      cases hstate.symm.trans (hunderway.of_shows hes : IsUnderway es)
    rw [looksAt, Network.series_concat] at hcut
    obtain ⟨rfl, rfl⟩ := eq_of_append_cons_eq
      (p := fun y : Request τ × Reply τ => ¬Pending IsUnderway y.2.answer) hbefore (by simp) hy hcut
    exact ⟨rfl, hlast hes hstate⟩

theorem ImportsOnly.of_imports (managed : s.Managed net t manager)
    (hnone : ∀ k ≤ i, ∀ r, ¬Accepted (s.importReply net t manager k).answer r) :
    s.ImportsOnly net t action out (s.imports net t manager i) := by
  refine .of_unaccepted (fun x hx => ?_) (fun x hx => ?_)
  · rcases mem_imports hx with rfl | ⟨k, -, rfl⟩
    · exact .inl rfl
    · exact .inr ⟨manager, managed, rfl⟩
  · rcases mem_imports hx with rfl | ⟨k, hk, rfl⟩
    · exact not_isAcceptedImport_of_get rfl
    · rintro ⟨-, r, hr⟩
      exact hnone k hk r hr

end Sent

variable [Seconds τ]

/-- The replies after an import has been accepted as a job: the job is over at some look, or it is
looked at as often as it can be. -/
theorem exists_course_of_starts (hi : i ≤ n) (h : s.Starts net t manager job i) :
    ∃ out sent waited, s.Course net t action n out sent waited := by
  rcases forall_lt_or_exists_first
    (fun k => Pending IsUnderway (s.jobReply net t manager job i k).answer) (n + 1) with
    hall | ⟨j, hj, hpending, hlast⟩
  · exact ⟨_, _, _, .waiting hi h fun k hk => hall k (by omega)⟩
  · exact ⟨_, _, _, .settled hi (by omega) h hpending hlast⟩

theorem exists_course_of_managed (h : s.Managed net t manager) :
    ∃ out sent waited, s.Course net t action n out sent waited := by
  rcases forall_lt_or_exists_first
    (fun k => Passing .post (s.importReply net t manager k).answer) (n + 1) with
    hall | ⟨i, hi, hpassing, hlast⟩
  · exact ⟨_, _, _, .deaf h fun k hk => hall k (by omega)⟩
  · cases ha : answered action .post (s.url (importPath manager))
      (s.importReply net t manager i).answer with
    | error f => exact ⟨_, _, _, .refused (by omega) h hpassing hlast ha⟩
    | ok response =>
      have htakes : s.Takes net t manager i response := ⟨h, hpassing, accepted_of_answered ha⟩
      cases hjob : jobOf? response with
      | none => exact ⟨_, _, _, .unlocated (by omega) htakes hjob⟩
      | some job => exact exists_course_of_starts (by omega) ⟨response, htakes, hjob⟩

theorem exists_course (s : System τ) (net : Network τ) (t : Timeline τ) (action : String)
    (n : Nat) : ∃ out sent waited, s.Course net t action n out sent waited := by
  cases hlooked : answered action .get (s.url s.address.systemPath)
      (s.systemReply net t).answer >>= shown action s.address.systemPath with
  | error f =>
    refine ⟨_, _, _, .unseen (fun es hes => ?_) hlooked⟩
    cases hlooked.symm.trans (looked_eq_ok_iff.mpr hes)
  | ok es =>
    have hes := looked_eq_ok_iff.mp hlooked
    cases hmanager : managerLink? es with
    | none => exact ⟨_, _, _, .unmanaged hes hmanager⟩
    | some manager => exact exists_course_of_managed ⟨es, hes, hmanager⟩

section Runs

variable (s net) in
/-- What follows an accepted import. -/
def followImport (action : String) (r : Response) : Run τ Unit :=
  match jobOf? r with
  | none => Run.fail .noJobLocation (some action)
  | some job => do
    Run.say .debug ("waiting for iDRAC job " ++ job)
    s.poll action (s.jobDone net action job)

variable (s net) in
/-- The import itself, once the manager has been found. -/
def orderImport (action manager : String) : Run τ Unit :=
  s.send net action .post (importPath manager) importPayload >>= s.followImport net action

theorem importBoot_eq (action : String) :
    s.importBoot net action = s.managerPath net action >>= s.orderImport net action :=
  rfl

theorem run_jobDone (action job : String) (t : Timeline τ) :
    (s.jobDone net action job).run t = match (s.read net action job).run t with
      | (.ok es, t') => (jobTest action job es, t')
      | (.error f, t') => (.error f, t') := by
  rw [jobDone, Run.run_bind]
  rcases (s.read net action job).run t with ⟨f | es, t'⟩
  · rfl
  · dsimp only
    rw [jobTest]
    cases JobState.ofResource es <;> rfl

variable (hnet : net.IsSteady) (ht : t.limits.IsOpen)

include hnet ht

theorem run_importBoot_of_unseen {f : Failure}
    (hf : (answered action .get (s.url s.address.systemPath) (s.systemReply net t).answer >>=
      shown action s.address.systemPath) = .error f) :
    ∃ t', (s.importBoot net action).run t = (.error f, t') ∧
      Spends t t' [(s.glance, s.systemReply net t)] [] := by
  obtain ⟨t', hrun, hspent⟩ := run_read_of_isOpen hnet ht action s.address.systemPath
  have herror := hrun.trans (congrArg (·, t') hf)
  refine ⟨t', ?_, hspent⟩
  rw [importBoot_eq, managerPath, Run.run_bind, Run.run_bind, herror]

theorem run_importBoot_of_shows (action : String) {es : Resource}
    (h : Shows (s.systemReply net t).answer es) :
    ∃ t', (s.importBoot net action).run t = (match managerLink? es with
        | none => Run.fail (.noManager s.address.systemId) (some action)
        | some manager => s.orderImport net action manager).run t' ∧
      Spends t t' [(s.glance, s.systemReply net t)] [] := by
  obtain ⟨t', hrun, hspent⟩ := run_read_of_isOpen hnet ht action s.address.systemPath
  have hok := hrun.trans (congrArg (·, t') (looked_eq_ok_iff.mpr h))
  refine ⟨t', ?_, hspent⟩
  rw [importBoot_eq, managerPath, Run.run_bind, Run.run_bind, hok]
  dsimp only [managerLink?]
  cases (itemsOf (member (objectOf (member es "Links")) "ManagedBy")).head?.bind
    linkTarget? <;> rfl

theorem run_importBoot_of_managed (action : String) (h : s.Managed net t manager) :
    ∃ t', (s.importBoot net action).run t = (s.orderImport net action manager).run t' ∧
      Spends t t' [(s.glance, s.systemReply net t)] [] ∧
      t'.requests = t.requests ++ [s.glance] := by
  obtain ⟨es, hes, hmanager⟩ := h
  obtain ⟨t', hrun, hspent⟩ := run_importBoot_of_shows hnet ht action hes
  rw [hmanager] at hrun
  exact ⟨t', hrun, hspent, hspent.requests⟩

variable (hn : s.retries = n)

include hn

theorem run_importBoot_of_deaf (h : s.Managed net t manager)
    (hall : ∀ k ≤ n, Passing .post (s.importReply net t manager k).answer) :
    ∃ t', (s.importBoot net action).run t = (.error (s.gaveUp action n), t') ∧
      Spends t t' (s.imports net t manager n) (pauses s.delay n) := by
  obtain ⟨t₁, hrun, hspent, hsent⟩ := run_importBoot_of_managed hnet ht action h
  simp only [importReply, ← hsent] at hall
  obtain ⟨t', hrun', hspent'⟩ := run_send_of_spent hnet (hspent.isOpen ht) hn action
    (importPath manager) importPayload hall
  refine ⟨t', ?_, ?_⟩
  · rw [hrun, orderImport, Run.run_bind, hrun']
  · rw [hsent] at hspent'
    exact hspent.trans hspent'

theorem run_importBoot_of_ordered (action : String) (hi : i ≤ n) (h : s.Managed net t manager)
    (hpassing : ∀ k < i, Passing .post (s.importReply net t manager k).answer)
    (hlast : ¬Passing .post (s.importReply net t manager i).answer) :
    ∃ t', (s.importBoot net action).run t =
        (match answered action .post (s.url (importPath manager))
            (s.importReply net t manager i).answer with
          | .error f => (.error f, t')
          | .ok response => (s.followImport net action response).run t') ∧
      Spends t t' (s.imports net t manager i) (pauses s.delay i) ∧
      t'.requests = s.importsUntil t manager i := by
  obtain ⟨t₁, hrun, hspent, hsent⟩ := run_importBoot_of_managed hnet ht action h
  simp only [importReply, ← hsent] at hpassing hlast ⊢
  obtain ⟨t', hrun', hspent'⟩ := run_send_of_settled hnet (hspent.isOpen ht) hn action
    (importPath manager) importPayload hi hpassing hlast
  have hall : Spends t t' (s.imports net t manager i) (pauses s.delay i) := by
    rw [hsent] at hspent'
    exact hspent.trans hspent'
  refine ⟨t', ?_, hall, ?_⟩
  · rw [hrun, orderImport, Run.run_bind, hrun', importOrder]
    cases answered action .post (s.url (importPath manager))
      (net.reply t₁.requests (s.plainly .post (importPath manager) (some importPayload)) i).answer
      <;> rfl
  · rw [hspent'.requests, hsent, Network.map_fst_series]
    rfl

theorem run_importBoot_of_takes (action : String) (hi : i ≤ n) {response : Response}
    (h : s.Takes net t manager i response) :
    ∃ t', (s.importBoot net action).run t = (s.followImport net action response).run t' ∧
      Spends t t' (s.imports net t manager i) (pauses s.delay i) ∧
      t'.requests = s.importsUntil t manager i := by
  obtain ⟨t', hrun, h'⟩ := run_importBoot_of_ordered hnet ht hn action hi h.managed
    h.passing (h.accepted.not_passing .post)
  rw [answered_of_accepted h.accepted] at hrun
  exact ⟨t', hrun, h'⟩

theorem run_importBoot_of_starts (action : String) (hi : i ≤ n) (h : s.Starts net t manager job i) :
    ∃ t', (s.importBoot net action).run t = (s.poll action (s.jobDone net action job)).run t' ∧
      Spends t t' (s.imports net t manager i) (pauses s.delay i) ∧
      t'.requests = s.importsUntil t manager i := by
  obtain ⟨response, htakes, hjob⟩ := h
  obtain ⟨t₁, hrun, hspent, hsent⟩ := run_importBoot_of_takes hnet ht hn action hi htakes
  let line : Notice := .wrote (.log ⟨.debug, "waiting for iDRAC job " ++ job⟩)
  have hsaid : Spends t (t₁.record (.noted line)) (s.imports net t manager i)
      (pauses s.delay i) := by
    simpa using hspent.trans (Spends.said t₁ line)
  refine ⟨t₁.record (.noted line), ?_, hsaid, ?_⟩
  · rw [hrun, followImport, hjob]
    rfl
  · rw [← hsent, hsaid.requests, hspent.requests]

theorem run_importBoot_of_settled (hi : i ≤ n) (hj : j ≤ n) (h : s.Starts net t manager job i)
    (hpending : ∀ k < j, Pending IsUnderway (s.jobReply net t manager job i k).answer)
    (hlast : ¬Pending IsUnderway (s.jobReply net t manager job i j).answer) :
    ∃ t', (s.importBoot net action).run t = ((s.seen action job (jobTest action job)
        (s.jobReply net t manager job i j).answer).map fun _ => (), t') ∧
      Spends t t' (s.imports net t manager i ++ s.looksAt net t manager job i j)
        (pauses s.delay (i + j)) := by
  obtain ⟨t₁, hrun, hspent, hsent⟩ := run_importBoot_of_starts hnet ht hn action hi h
  simp only [jobReply, ← hsent, ← isUnderway_eq action job] at hpending hlast ⊢
  obtain ⟨t', hrun', hspent'⟩ := run_poll_of_settled hnet (hspent.isOpen ht) hn action
    (fun _ _ => isTransient_of_jobTest) (run_jobDone action job) hj hpending hlast
  refine ⟨t', hrun.trans hrun', ?_⟩
  rw [hsent] at hspent'
  rw [pauses_add]
  exact hspent.trans hspent'

theorem run_importBoot_of_waiting (hi : i ≤ n) (h : s.Starts net t manager job i)
    (hall : ∀ k ≤ n, Pending IsUnderway (s.jobReply net t manager job i k).answer) :
    ∃ t', (s.importBoot net action).run t = (.error (s.gaveUp action n), t') ∧
      Spends t t' (s.imports net t manager i ++ s.looksAt net t manager job i n)
        (pauses s.delay (i + n)) := by
  obtain ⟨t₁, hrun, hspent, hsent⟩ := run_importBoot_of_starts hnet ht hn action hi h
  simp only [jobReply, ← hsent, ← isUnderway_eq action job] at hall
  obtain ⟨t', hrun', hspent'⟩ := run_poll_of_spent hnet (hspent.isOpen ht) hn action
    (fun _ _ => isTransient_of_jobTest) (run_jobDone action job) hall
  refine ⟨t', hrun.trans hrun', ?_⟩
  rw [hsent] at hspent'
  rw [pauses_add]
  exact hspent.trans hspent'

theorem run_importBoot_of_course {out : Except Failure Unit} {sent : History τ} {waited : List τ}
    (h : s.Course net t action n out sent waited) :
    ∃ t', (s.importBoot net action).run t = (out, t') ∧ Spends t t' sent waited := by
  cases h with
  | unseen hidden failure => exact run_importBoot_of_unseen hnet ht failure
  | unmanaged shows missing =>
    obtain ⟨t', hrun, hspent⟩ := run_importBoot_of_shows hnet ht action shows
    rw [missing] at hrun
    exact ⟨t', hrun, hspent⟩
  | deaf managed passing => exact run_importBoot_of_deaf hnet ht hn managed passing
  | refused hi managed passing last failure =>
    obtain ⟨t', hrun, hspent, -⟩ :=
      run_importBoot_of_ordered hnet ht hn action hi managed passing last
    rw [failure] at hrun
    exact ⟨t', hrun, hspent⟩
  | unlocated hi takes missing =>
    obtain ⟨t', hrun, hspent, -⟩ :=
      run_importBoot_of_takes hnet ht hn action hi takes
    rw [followImport, missing] at hrun
    exact ⟨t', hrun, hspent⟩
  | waiting hi starts pending => exact run_importBoot_of_waiting hnet ht hn hi starts pending
  | settled hi hj starts pending last =>
    exact run_importBoot_of_settled hnet ht hn hi hj starts pending last

end Runs

theorem importsOnly_of_course {out : Except Failure Unit} {sent : History τ} {waited : List τ}
    (h : s.Course net t action n out sent waited) : s.ImportsOnly net t action out sent := by
  cases h with
  | unseen hidden failure =>
    exact .of_unaccepted (by simp) (by simpa using not_isAcceptedImport_of_get rfl)
  | unmanaged shows missing =>
    exact .of_unaccepted (by simp) (by simpa using not_isAcceptedImport_of_get rfl)
  | deaf managed passing =>
    exact .of_imports managed fun k hk r hr => hr.not_passing .post (passing k hk)
  | @refused manager i hi managed passing last f failure =>
    refine .of_imports managed fun k hk r hr => ?_
    by_cases hki : k = i
    · subst hki
      cases failure.symm.trans (answered_of_accepted hr action .post _)
    · exact hr.not_passing .post (passing k (by omega))
  | unlocated hi takes missing =>
    rw [← List.append_nil (s.imports net t _ _)]
    exact .of_takes takes (by simp) (by simp)
  | waiting hi starts pending =>
    refine .of_starts starts (fun k hk => pending k (by omega)) fun hes hstate => ?_
    have hunderway : IsUnderway _ := (pending n le_rfl).of_shows hes
    cases hstate.symm.trans hunderway
  | settled hi hj starts pending last =>
    refine .of_starts starts pending fun hes hstate => ?_
    rw [seen_eq_of_shows hes, jobTest, hstate]
    rfl

theorem importBoot_eq_perform (hd : s.dialect = .dell) :
    (s.client net).perform .setBootSource = s.importBoot net "set_boot_source_by_type" := by
  change s.setBootSource net = _
  rw [setBootSource, hd]

theorem completed_of_course {out : Except Failure Unit} {sent : History τ} {waited : List τ}
    (h : s.Course net t action n out sent waited) (hok : out = .ok ()) :
    ∃ manager job, ∃ i ≤ n, ∃ j ≤ n, ∃ es, s.Starts net t manager job i ∧
      s.Reports net t manager job i j es ∧ JobState.ofResource es = .completed := by
  cases h with
  | unseen => cases hok
  | unmanaged => cases hok
  | deaf => cases hok
  | refused => cases hok
  | unlocated => cases hok
  | waiting => cases hok
  | @settled manager job i j hi hj starts pending last =>
    cases hseen : s.seen action job (jobTest action job)
      (s.jobReply net t manager job i j).answer with
    | error f =>
      rw [hseen] at hok
      cases hok
    | ok done =>
      obtain ⟨es, hes, hdone⟩ := seen_eq_ok_iff.mp hseen
      cases done with
      | false =>
        rw [← isUnderway_eq action job] at last
        exact absurd (.inr ⟨es, hes, hdone⟩) last
      | true =>
        exact ⟨manager, job, i, hi, j, hj, es, starts, ⟨pending, hes⟩,
          jobTest_eq_ok_true_iff.mp hdone⟩

/-- With `n` retries a system with a dialect of its own gets its boot source exactly when it shows
a manager, one of the first `n + 1` imports is accepted as a job, after others that fail in a way
that may pass, and one of the first `n + 1` looks shows the job completed, after others that fail in
such a way or show it under way. A look that shows the job over is the last request, and a failed
job is the failure; an import without a job is the last request; and all attempts have failed where
no look shows the job over. -/
theorem import_ends_by_replies (hnet : net.IsSteady) (ht : t.limits.IsOpen) (hn : s.retries = n)
    (hd : s.dialect = .dell) :
    let action := "set_boot_source_by_type"
    let final := ((s.client net).perform .setBootSource).run t
    (∃ sent, final.2.history = t.history ++ sent ∧ s.ImportsOnly net t action final.1 sent) ∧
      (final.1 = .ok () ↔ ∃ manager job, ∃ i ≤ n, ∃ j ≤ n, ∃ es, s.Starts net t manager job i ∧
        s.Reports net t manager job i j es ∧ JobState.ofResource es = .completed) ∧
      (∀ manager job, ∀ i ≤ n, ∀ j ≤ n, ∀ es, s.Starts net t manager job i →
        s.Reports net t manager job i j es → JobState.ofResource es ≠ .pending →
          Spends t final.2 (s.imports net t manager i ++ s.looksAt net t manager job i j)
              (pauses s.delay (i + j)) ∧
            ∀ state, JobState.ofResource es = .failed state →
              final.1 = .error (jobFailure action job state es)) ∧
      (∀ manager, ∀ i ≤ n, ∀ response, s.Takes net t manager i response →
        jobOf? response = none →
          Spends t final.2 (s.imports net t manager i) (pauses s.delay i) ∧
            final.1 = .error (.remote ⟨.noJobLocation, some action, none⟩)) ∧
      (∀ manager job, ∀ i ≤ n, s.Starts net t manager job i →
        (∀ k ≤ n, Pending IsUnderway (s.jobReply net t manager job i k).answer) →
          Spends t final.2 (s.imports net t manager i ++ s.looksAt net t manager job i n)
              (pauses s.delay (i + n)) ∧
            final.1 = .error (s.gaveUp action n)) := by
  intro action final
  have hfinal : final = (s.importBoot net action).run t := by rw [← importBoot_eq_perform hd]
  -- what the replies come to is what the call comes to
  have hruns : ∀ {out sent waited}, s.Course net t action n out sent waited →
      final.1 = out ∧ Spends t final.2 sent waited := by
    intro out sent waited h
    obtain ⟨t', hrun, hspent⟩ := run_importBoot_of_course hnet ht hn h
    rw [hfinal, hrun]
    exact ⟨rfl, hspent⟩
  have hover : ∀ {manager job i j es}, i ≤ n → j ≤ n → s.Starts net t manager job i →
      s.Reports net t manager job i j es → JobState.ofResource es ≠ .pending →
        final.1 = (jobTest action job es).map (fun _ => ()) ∧
          Spends t final.2 (s.imports net t manager i ++ s.looksAt net t manager job i j)
            (pauses s.delay (i + j)) := by
    intro manager job i j es hi hj hstarts hreports hes
    have h := hruns (.settled hi hj hstarts hreports.pending (hreports.not_pending hes))
    rwa [seen_eq_of_shows hreports.shows] at h
  refine ⟨?_, ⟨fun hok => ?_, ?_⟩, ?_, ?_, ?_⟩
  · obtain ⟨out, sent, waited, h⟩ := exists_course s net t action n
    obtain ⟨hout, hspent⟩ := hruns h
    exact ⟨sent, hspent.history, hout ▸ importsOnly_of_course h⟩
  · obtain ⟨out, sent, waited, h⟩ := exists_course s net t action n
    obtain ⟨hout, -⟩ := hruns h
    exact completed_of_course h (hout.symm.trans hok)
  · rintro ⟨manager, job, i, hi, j, hj, es, hstarts, hreports, hdone⟩
    obtain ⟨hout, -⟩ := hover hi hj hstarts hreports (by simp [hdone])
    rw [hout, jobTest, hdone]
    rfl
  · intro manager job i hi j hj es hstarts hreports hes
    obtain ⟨hout, hspent⟩ := hover hi hj hstarts hreports hes
    refine ⟨hspent, fun state hstate => ?_⟩
    rw [hout, jobTest, hstate]
    rfl
  · intro manager i hi response htakes hmissing
    exact (hruns (.unlocated hi htakes hmissing)).symm
  · intro manager job i hi hstarts hpending
    exact (hruns (.waiting hi hstarts hpending)).symm

end System

end Redfish

namespace Sample

def dellSystem : Redfish.System Int := { system with dialect := .dell }

/-- A service that is busy at first; the job that it starts then is under way when it is first
looked at. -/
def slowImport : Network Int := fun earlier q =>
  let first := (earlier.filter fun p => p.url = q.url).isEmpty
  let manager := Redfish.payload [("@odata.id", .str "/redfish/v1/Managers/1")]
  let system := Redfish.payload [("Links", Redfish.payload [("ManagedBy", .list [manager])])]
  let job := Redfish.payload [("JobState", .str ""),
    ("TaskState", .str (if first then "Running" else "Completed"))]
  match q.method with
  | .get => ⟨.response ⟨200, "", [], some (if q.url = "http://bmc/jobs/7" then job else system)⟩, 1,
      false⟩
  | _ => ⟨.response ⟨if first then 503 else 202, "", [("Location", "/jobs/7")], none⟩, 1, false⟩

end Sample

open Sample Redfish Redfish.System in
/-- The second import is accepted as a job, and the second look shows it completed. -/
theorem imported_at_second_look :
    let t := Timeline.start (τ := Int)
    let final := ((dellSystem.client slowImport).perform .setBootSource).run t
    let manager := "/redfish/v1/Managers/1"
    slowImport.IsSteady ∧ t.limits.IsOpen ∧ dellSystem.retries = (2 : Nat) ∧
      dellSystem.dialect = .dell ∧ dellSystem.Starts slowImport t manager "/jobs/7" 1 ∧
      final.1 = .ok () ∧ final.2.history.length = 5 ∧ final.2.waits = [1, 1] := by
  intro t final manager
  have hnet : slowImport.IsSteady := by
    intro earlier q
    rw [slowImport]
    split <;> rfl
  have ht : t.limits.IsOpen := ⟨rfl, rfl, rfl⟩
  have hn : dellSystem.retries = (2 : Nat) := rfl
  have hmanaged : dellSystem.Managed slowImport t manager := ⟨_, ⟨_, ⟨rfl, by decide⟩, rfl⟩, rfl⟩
  have hstarts : dellSystem.Starts slowImport t manager "/jobs/7" 1 := by
    refine ⟨_, ⟨hmanaged, fun k hk => ?_, rfl, by decide⟩, by decide⟩
    obtain rfl : k = 0 := by omega
    exact ⟨by decide, .inr (by decide)⟩
  have hreports : ∃ es, dellSystem.Reports slowImport t manager "/jobs/7" 1 1 es ∧
      JobState.ofResource es = .completed := by
    refine ⟨_, ⟨fun k hk => ?_, ⟨_, ⟨rfl, by decide⟩, rfl⟩⟩, by decide⟩
    obtain rfl : k = 0 := by omega
    exact .inr ⟨_, ⟨_, ⟨rfl, by decide⟩, rfl⟩, by decide⟩
  obtain ⟨es, hreports, hdone⟩ := hreports
  obtain ⟨-, hok, hover, -⟩ := import_ends_by_replies hnet ht hn rfl
  obtain ⟨hspent, -⟩ := hover manager "/jobs/7" 1 (by decide) 1 (by decide) es hstarts hreports
    (by simp [hdone])
  refine ⟨hnet, ht, hn, rfl, hstarts, ?_, ?_, hspent.waits⟩
  · exact hok.mpr ⟨manager, "/jobs/7", 1, by decide, 1, by decide, es, hstarts, hreports, hdone⟩
  · exact congrArg List.length hspent.history

end OutOfBand
