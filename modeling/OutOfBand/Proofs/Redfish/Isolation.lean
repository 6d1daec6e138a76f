import OutOfBand.Batch.Action
import OutOfBand.Redfish.Client
import OutOfBand.Proofs.Remote.Isolation

namespace OutOfBand

open Run

variable {τ α : Type}

theorem Host.isolated_call [AddCommGroup τ] {own : Mark τ → Bool} {h : Host (Client τ)}
    {operation : Client τ → Run τ α} (ho : (operation h.client).Isolated own) :
    (h.call operation).Isolated own := by
  refine ho.tryCatch fun e => ?_
  cases e with
  | remote e => exact isolated_throw _
  | fault m => exact isolated_throw _

namespace Redfish.System

/-- A system whose requests for power are marks of its own, at a service that minds no others. -/
structure Apart [AddCommGroup τ] (s : System τ) (net : Network τ) (own : Mark τ → Bool)
    (mine : String → Bool) : Prop where
  marks : ∀ q reply, own (.contact (.exchanged q reply)) = mine q.url
  net : net.Minds mine
  system : mine (s.url s.address.systemPath) = true
  reset : mine (s.url s.resetPath) = true

section Isolated

variable [AddCommGroup τ] [LinearOrder τ] [Seconds τ] [Seconds.Exact τ] [IsOrderedAddMonoid τ]
  {s : System τ} {net : Network τ} {own : Mark τ → Bool} {mine : String → Bool}

namespace Apart

theorem request (h : s.Apart net own mine) {path : String} (hp : mine (s.url path) = true)
    (action : String) (method : Method) (payload : Option Value) :
    (s.request net action method path payload).Isolated own := by
  have patience : (s.patience action).Isolated own := by
    refine fun shift => inStep_get fun t t' ht => ?_
    rw [ht.remaining]
    split
    next => exact inStep_pure _
    next =>
      split
      next => exact inStep_throw _
      next => exact inStep_pure _
  refine .bind (isolated_check _) fun _ => .bind patience fun w => ?_
  refine .bind (isolated_say _ _) fun _ => ?_
  refine .bind (isolated_exchange h.net hp h.marks) fun answer => ?_
  cases answer with
  | timedOut => exact isolated_throw _
  | failed reason => exact isolated_throw _
  | response r =>
    dsimp only
    split
    next => exact isolated_throw _
    next => exact isolated_pure r

theorem powerStatus (h : s.Apart net own mine) : (s.powerStatus net).Isolated own := by
  have read : (s.read net "power_status" s.address.systemPath).Isolated own := by
    refine .bind (h.request h.system _ _ _) fun r => ?_
    split
    next => exact isolated_throw _
    next => exact isolated_pure _
    next => exact isolated_throw _
  exact .bind read fun _ => isolated_pure _

theorem resetTo (h : s.Apart net own mine) (action : String) (r : Reset) :
    (s.reset net action r).Isolated own := by
  have send : (s.sendReset net action r).Isolated own := by
    refine .bind ((isolation own).retry (h.request h.reset _ _ _) ?_ ?_) fun _ => isolated_pure ()
    · exact fun k e => isolated_say _ _
    · exact isolated_sleep _ _
  refine .bind send fun _ => (isolation own).poll ?_ (isolated_sleep _ _)
  exact .bind h.powerStatus fun _ => isolated_pure _

theorem reboot (h : s.Apart net own mine) : (s.reboot net).Isolated own := by
  refine .bind h.powerStatus fun p => ?_
  split
  next => exact .bind (h.resetTo _ _) fun _ => h.resetTo _ _
  next => exact h.resetTo _ _

theorem action (h : s.Apart net own mine) {host : Host (Client τ)}
    (hc : host.client = s.client net) {c : Command}
    (power : c ∈ [.powerOn, .powerOff, .powerStatus, .reboot]) :
    (c.action host).Isolated own := by
  simp only [List.mem_cons, List.not_mem_nil, or_false] at power
  rcases power with rfl | rfl | rfl | rfl
  · exact .bind (Host.isolated_call (hc ▸ h.resetTo _ _)) fun _ => isolated_pure none
  · exact .bind (Host.isolated_call (hc ▸ h.resetTo _ _)) fun _ => isolated_pure none
  · exact .bind (Host.isolated_call (hc ▸ h.powerStatus)) fun _ => isolated_pure _
  · exact .bind (Host.isolated_call (hc ▸ h.reboot)) fun _ => isolated_pure none

end Apart

end Isolated

end Redfish.System

end OutOfBand
