import OutOfBand.Proofs.Remote.Contract
import OutOfBand.Redfish.Client

namespace OutOfBand

/-- What can be asked of a client. -/
inductive Operation where
  | powerOn
  | powerOff
  | powerStatus
  | reboot
  | setBootSource
  | setVirtualMedia (image : String)
  | ejectVirtualMedia
  deriving DecidableEq, Repr

/-- An operation of a client; a power state is left out. -/
def Client.perform {τ : Type} (c : Client τ) : Operation → Run τ Unit
  | .powerOn => c.powerOn
  | .powerOff => c.powerOff
  | .powerStatus => do let _ ← c.powerStatus
  | .reboot => c.reboot
  | .setBootSource => c.setBootSource
  | .setVirtualMedia image => c.setVirtualMedia image
  | .ejectVirtualMedia => c.ejectVirtualMedia

namespace Redfish.System

open Run

variable {τ : Type} [Seconds τ]

/-- Reads, requests that change something, and pauses keep to a habit. -/
structure Keeps (s : System τ) (net : Network τ) (D : Habit τ) : Prop where
  read : ∀ action path, D.has (s.read net action path)
  send : ∀ action method path payload, method ≠ .get →
    D.has (s.send net action method path payload)
  sleep : ∀ action, D.has (Run.sleep s.delay (some action))

variable {s : System τ} {net : Network τ}

/-- Where any single request keeps to a discipline, all that is made of requests does. -/
theorem keeps_of_request {D : Discipline τ}
    (hreq : ∀ action method path payload, D.has (s.request net action method path payload))
    (hsleep : ∀ action, D.has (Run.sleep s.delay (some action))) : s.Keeps net D where
  read action path := by
    refine (hreq action .get path none).bind fun r => ?_
    split
    next => exact D.fail action (by simp)
    next => exact D.pure _
    next => exact D.fail action (by simp)
  send action method path payload _ :=
    D.retry rfl (hreq action method path (some payload)) (fun _ _ => D.say _ _) (hsleep action)
  sleep := hsleep

namespace Keeps

variable {D : Habit τ}

theorem poll (h : s.Keeps net D) (action : String) {reached : Run τ Bool}
    (hreached : D.has reached) : D.has (s.poll action reached) :=
  D.poll hreached (h.sleep action)

theorem powerStatus (h : s.Keeps net D) : D.has (s.powerStatus net) :=
  (h.read _ _).bind fun _ => D.pure _

theorem reset (h : s.Keeps net D) (action : String) (r : Reset) :
    D.has (s.reset net action r) := by
  refine D.bind ?_ fun _ => h.poll action (h.powerStatus.bind fun _ => D.pure _)
  exact (h.send action .post _ _ (by simp)).bind fun _ => D.pure ()

theorem reboot (h : s.Keeps net D) : D.has (s.reboot net) := by
  refine h.powerStatus.bind fun p => ?_
  split
  next => exact (h.reset _ _).bind fun _ => h.reset _ _
  next => exact h.reset _ _

theorem managerPath (h : s.Keeps net D) (action : String) : D.has (s.managerPath net action) := by
  refine (h.read action _).bind fun system => ?_
  dsimp only
  split
  next => exact D.pure _
  next => exact D.fail action (by simp)

theorem readDevices (h : s.Keeps net D) (action : String) :
    ∀ paths : List String, D.has (s.readDevices net action paths)
  | [] => D.pure []
  | path :: rest => (h.read action path).bind fun _ =>
      (h.readDevices action rest).bind fun _ => D.pure _

theorem devices (h : s.Keeps net D) (action : String) : D.has (s.devices net action) := by
  refine (h.managerPath action).bind fun path => (h.read action path).bind fun manager => ?_
  split
  next => exact D.fail action (by simp)
  next => exact (h.read action _).bind fun _ => h.readDevices action _

theorem opticalDrive (h : s.Keeps net D) (action : String) :
    D.has (s.opticalDrive net action) := by
  refine (h.devices action).bind fun ds => ?_
  split
  next => exact D.pure _
  next => exact D.fail action (by simp)

theorem eject (h : s.Keeps net D) (action : String) (d : Device) :
    D.has (s.eject net action d) :=
  (h.send action .post _ _ (by simp)).bind fun _ =>
    h.poll action ((h.read action d.path).bind fun _ => D.pure _)

theorem ejectAll (h : s.Keeps net D) (action : String) :
    ∀ ds : List Device, D.has (s.ejectAll net action ds)
  | [] => D.pure ()
  | d :: rest => by
    rw [System.ejectAll]
    split
    next =>
      exact (D.note _).bind fun _ => (h.eject action d).bind fun _ => h.ejectAll action rest
    next => exact h.ejectAll action rest

theorem ejectVirtualMedia (h : s.Keeps net D) : D.has (s.ejectVirtualMedia net) :=
  (h.devices _).bind fun ds => h.ejectAll _ ds

theorem setVirtualMedia (h : s.Keeps net D) (image : String) :
    D.has (s.setVirtualMedia net image) := by
  refine (h.opticalDrive _).bind fun d => ?_
  have insert : D.has (do
      let _ ← s.send net "set_virtual_media" .post (d.target .insert) (imagePayload image)
      : Run τ Unit) :=
    (h.send _ .post _ _ (by simp)).bind fun _ => D.pure ()
  split
  next => exact (h.eject _ d).bind fun _ => insert
  next => exact insert

theorem jobDone (h : s.Keeps net D) (action job : String) : D.has (s.jobDone net action job) := by
  refine (h.read action job).bind fun r => ?_
  split
  next => exact D.pure _
  next => exact D.fail action (by simp)
  next => exact D.pure _

theorem setBootSource (h : s.Keeps net D) : D.has (s.setBootSource net) := by
  rw [System.setBootSource]
  split
  next =>
    refine (h.opticalDrive _).bind fun _ => ?_
    exact (h.send _ .patch _ _ (by simp)).bind fun _ => D.pure ()
  next =>
    refine (h.managerPath _).bind fun manager => ?_
    refine (h.send _ .post _ _ (by simp)).bind fun r => ?_
    split
    next => exact D.fail _ (by simp)
    next job _ => exact (D.note _).bind fun _ => h.poll _ (h.jobDone _ job)

theorem perform (h : s.Keeps net D) (op : Operation) : D.has ((s.client net).perform op) := by
  cases op with
  | powerOn => exact h.reset _ _
  | powerOff => exact h.reset _ _
  | powerStatus => exact h.powerStatus.bind fun _ => D.pure ()
  | reboot => exact h.reboot
  | setBootSource => exact h.setBootSource
  | setVirtualMedia image => exact h.setVirtualMedia image
  | ejectVirtualMedia => exact h.ejectVirtualMedia

end Keeps

end Redfish.System

end OutOfBand
