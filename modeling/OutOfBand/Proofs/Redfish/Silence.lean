import OutOfBand.Batch.Action
import OutOfBand.Proofs.Redfish.Operations
import OutOfBand.Proofs.Remote.Telling

namespace OutOfBand

open Run

variable {τ α : Type}

/-- A client whose calls tell of nothing and fail only as remote calls do. -/
structure Client.Silent (c : Client τ) : Prop where
  powerOn : c.powerOn.Silent
  powerOff : c.powerOff.Silent
  powerStatus : c.powerStatus.Silent
  reboot : c.reboot.Silent
  setBootSource : c.setBootSource.Silent
  setVirtualMedia (image : String) : (c.setVirtualMedia image).Silent
  ejectVirtualMedia : c.ejectVirtualMedia.Silent

/-- A client whose calls all have what a routine is about. -/
structure Client.Has [Seconds τ] (R : Routine τ) (c : Client τ) : Prop where
  powerOn : R.has c.powerOn
  powerOff : R.has c.powerOff
  powerStatus : R.has c.powerStatus
  reboot : R.has c.reboot
  setBootSource : R.has c.setBootSource
  setVirtualMedia (image : String) : R.has (c.setVirtualMedia image)
  ejectVirtualMedia : R.has c.ejectVirtualMedia

theorem Host.has_call [Seconds τ] {R : Routine τ} {h : Host (Client τ)}
    {operation : Client τ → Run τ α} (ho : R.has (operation h.client)) :
    R.has (h.call operation) := by
  refine R.handle ho fun e he => ?_
  cases e with
  | remote e => exact R.throw (R.remote _)
  | fault m => exact R.throw he

theorem Command.has_action [Seconds τ] {R : Routine τ} {h : Host (Client τ)} (hc : h.client.Has R)
    (c : Command) : R.has (c.action h) := by
  cases c with
  | powerOn => exact R.bind (Host.has_call hc.powerOn) fun _ => R.pure none
  | powerOff => exact R.bind (Host.has_call hc.powerOff) fun _ => R.pure none
  | powerStatus => exact R.bind (Host.has_call hc.powerStatus) fun _ => R.pure _
  | reboot => exact R.bind (Host.has_call hc.reboot) fun _ => R.pure none
  | ejectMedia => exact R.bind (Host.has_call hc.ejectVirtualMedia) fun _ => R.pure none
  | remoteDirect image =>
    refine R.bind (R.bind (R.say _ _) fun _ => ?_) fun _ => R.pure none
    exact R.bind (Host.has_call (hc.setVirtualMedia image)) fun _ =>
      R.bind (Host.has_call hc.setBootSource) fun _ => Host.has_call hc.reboot

theorem Command.silent_action [Seconds τ] {h : Host (Client τ)} (hc : h.client.Silent)
    (c : Command) : (c.action h).Silent :=
  have has : h.client.Has silence := { hc with }
  has_action has c

namespace Redfish.System

variable [Seconds τ] {s : System τ} {net : Network τ}

theorem silent_request (action : String) (method : Method) (path : String)
    (payload : Option Value) : (s.request net action method path payload).Silent := by
  have patience : (s.patience action).Silent := by
    refine silent_get fun t => ?_
    split
    next => exact silent_pure _
    next =>
      split
      next => exact silent_throw _
      next => exact silent_pure _
  refine .bind (silent_check _) fun _ => .bind patience fun w => ?_
  refine .bind (silent_say _ _) fun _ => .bind (silent_exchange net _) fun answer => ?_
  cases answer with
  | timedOut => exact silent_throw _
  | failed reason => exact silent_throw _
  | response r =>
    dsimp only
    split
    next => exact silent_throw _
    next => exact silent_pure r

theorem keeps_silence : s.Keeps net (silence.discipline : Discipline τ) :=
  keeps_of_request silent_request fun _ => silent_sleep _ _

theorem client_has {R : Routine τ} (h : s.Keeps net R.discipline) : (s.client net).Has R where
  powerOn := h.reset _ _
  powerOff := h.reset _ _
  powerStatus := h.powerStatus
  reboot := h.reboot
  setBootSource := h.setBootSource
  setVirtualMedia := h.setVirtualMedia
  ejectVirtualMedia := h.ejectVirtualMedia

theorem silent_client : (s.client net).Silent :=
  have has : (s.client net).Has silence := client_has keeps_silence
  { has with }

/-- No command fails on a host in another way than a remote call does. -/
theorem action_ne_fault {h : Host (Client τ)} (hc : h.client = s.client net) (c : Command)
    (t : Timeline τ) (m : String) : ((c.action h).run t).1 ≠ .error (.fault m) :=
  (c.silent_action (hc ▸ silent_client)).ne_fault t m

end Redfish.System

end OutOfBand
