import OutOfBand.Proofs.Redfish.Requests
import OutOfBand.Proofs.Redfish.Silence
import OutOfBand.Proofs.Remote.Voicing

namespace OutOfBand.Redfish.System

open Run

variable {τ : Type} [Seconds τ] {s : System τ} {net : Network τ}

theorem heedless_request (action : String) (method : Method) (path : String)
    (payload : Option Value) : (s.request net action method path payload).Heedless := by
  intro t t' ht
  rw [run_request, run_request, ht.now, ht.limits, ht.requests]
  cases t.limits.fault? t.now with
  | some cause => exact heedless_throw (.remote ⟨cause, some action, none⟩) t t' ht
  | none =>
    cases s.timeout? t.limits t.now with
    | none => exact heedless_throw (.remote ⟨.deadlineBeforeRequest, some action, none⟩) t t' ht
    | some w =>
      let q : Request τ := ⟨method, s.url path, payload, w⟩
      let reply := net t.requests q
      let line : LogLine := ⟨.debug, "redfish " ++ method.name ++ " " ++ s.url path⟩
      refine ⟨answered action method (s.url path) reply.answer, Seconds.add t.now reply.elapsed,
        if reply.cancels then { t.limits with cancelled := true } else t.limits,
        [.written (.log line), .exchange t.now q reply], ?_, ?_, ?_⟩
      · simp [Effect.told?, Effect.written]
      · simp [received, announced, Timeline.record, Effect.written, q, reply, line]
      · simp [received, announced, Timeline.record, Effect.written, q, reply, line, ht.now,
          ht.limits]

theorem heedless_client : (s.client net).Has heedlessness :=
  client_has (keeps_of_request heedless_request fun _ => heedless_sleep _ _)

theorem voices_request {bus : Bus} (action : String) (method : Method) (path : String)
    (payload : Option Value) : (s.request net action method path payload).Voices bus := by
  have patience : (s.patience action).Voices bus := by
    refine voices_get fun t => ?_
    split
    next => exact voices_pure _
    next =>
      split
      next => exact voices_throw _
      next => exact voices_pure _
  refine .bind (voices_check _) fun _ => .bind patience fun w => ?_
  refine .bind (voices_say _ _) fun _ => .bind (voices_exchange net _) fun answer => ?_
  cases answer with
  | timedOut => exact voices_throw _
  | failed reason => exact voices_throw _
  | response r =>
    dsimp only
    split
    next => exact voices_throw _
    next => exact voices_pure r

theorem voicing_client (bus : Bus) : (s.client net).Has (voicing bus) :=
  client_has (keeps_of_request voices_request fun _ => voices_sleep _ _)

end OutOfBand.Redfish.System
