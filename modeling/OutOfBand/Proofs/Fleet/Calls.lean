import OutOfBand.Fleet.Host
import OutOfBand.Proofs.Remote.History
import OutOfBand.Proofs.Sequence

namespace OutOfBand

variable {τ α : Type}

/-- The failure with the name of its host, if it is one of a remote call. -/
def Failure.onHost (host : String) : Failure → Failure
  | remote e => remote (e.onHost host)
  | fault m => fault m

namespace Host

open Run

theorem run_call (h : Host (Client τ)) (operation : Client τ → Run τ α) (t : Timeline τ) :
    (h.call operation).run t =
      (((operation h.client).run t).1.mapError (Failure.onHost h.name.text),
        ((operation h.client).run t).2) := by
  rw [call, run_tryCatch]
  rcases (operation h.client).run t with ⟨⟨e | m⟩ | a, t'⟩ <;> rfl

theorem run_call_eq_ok {h : Host (Client τ)} {operation : Client τ → Run τ α} {t t' : Timeline τ}
    {a : α} (hr : (h.call operation).run t = (.ok a, t')) :
    (operation h.client).run t = (.ok a, t') := by
  rw [run_call] at hr
  obtain ⟨ho, rfl⟩ := Prod.mk.inj hr
  exact Prod.ext (mapError_eq_ok_iff.mp ho) rfl

/-- What a call sends is what its operation sends, where the name of a host makes no difference. -/
theorem sends_call {h : Host (Client τ)} {operation : Client τ → Run τ α}
    {P : History τ → Except Failure α → Prop} (hr : (operation h.client).Sends P)
    (herr : ∀ {new e}, P new (.error e) → P new (.error (e.onHost h.name.text))) :
    (h.call operation).Sends P := by
  intro t
  obtain ⟨new, hnew, hp⟩ := hr t
  rw [run_call]
  refine ⟨new, hnew, ?_⟩
  cases ho : ((operation h.client).run t).1 with
  | ok a =>
    rw [ho] at hp
    exact hp
  | error e =>
    rw [ho] at hp
    exact herr hp

theorem sends_trail_call {h : Host (Client τ)} {operation : Client τ → Run τ α}
    {kind : Request τ × Reply τ → Prop} {shows : α → History τ → Prop}
    (hr : (operation h.client).Sends (Trail kind shows)) :
    (h.call operation).Sends (Trail kind shows) :=
  sends_call hr fun hp => ⟨hp.1, fun _ ha => by cases ha⟩

end Host

end OutOfBand
