import OutOfBand.Fleet.Vendors
import OutOfBand.Redfish.Client
import OutOfBand.Proofs.Sequence

namespace OutOfBand.Redfish.System

variable {τ : Type}

/-- The same system with another user. -/
def withUser (s : System τ) (user : Option (String × String)) : System τ :=
  { s with session := { s.session with user := user } }

/-- The same system, with another user if it has one. -/
def SameButUser (s s' : System τ) : Prop :=
  ∃ user, user.isSome = s.session.user.isSome ∧ s' = s.withUser user

theorem ofSpec_agree (seconds : Float → τ) (dialect : Dialect) {spec spec' : ClientSpec}
    (hname : spec.username.isEmpty = spec'.username.isEmpty)
    (hspec : spec' = { spec with username := spec'.username, password := spec'.password }) :
    Agree SameButUser (ofSpec seconds dialect spec) (ofSpec seconds dialect spec') := by
  rw [hspec, ofSpec, ofSpec]
  refine (Agree.same _).bind fun address address' heq => ?_
  subst heq
  refine .ok ⟨_, ?_, rfl⟩
  simp only [Session.ofUser, hname]
  cases spec'.username.isEmpty <;> rfl

variable [Seconds τ] (net : Network τ) (s : System τ) (user : Option (String × String))

/- A single request is the same by definition, and so is all that consists of a fixed number of
them. Only where devices are gone through one after another it takes an induction. -/

theorem readDevices_withUser (action : String) (paths : List String) :
    (s.withUser user).readDevices net action paths = s.readDevices net action paths := by
  induction paths with
  | nil => rfl
  | cons path rest ih =>
    rw [readDevices, readDevices, ih]
    rfl

theorem ejectAll_withUser (action : String) (ds : List Device) :
    (s.withUser user).ejectAll net action ds = s.ejectAll net action ds := by
  induction ds with
  | nil => rfl
  | cons d rest ih =>
    rw [ejectAll, ejectAll, ih]
    rfl

theorem devices_withUser (action : String) :
    (s.withUser user).devices net action = s.devices net action := by
  simp only [devices, readDevices_withUser]
  rfl

theorem opticalDrive_withUser (action : String) :
    (s.withUser user).opticalDrive net action = s.opticalDrive net action := by
  rw [opticalDrive, devices_withUser]
  rfl

theorem client_withUser : (s.withUser user).client net = s.client net := by
  have media (image : String) :
      (s.withUser user).setVirtualMedia net image = s.setVirtualMedia net image := by
    rw [setVirtualMedia, opticalDrive_withUser]
    rfl
  have eject : (s.withUser user).ejectVirtualMedia net = s.ejectVirtualMedia net := by
    simp only [ejectVirtualMedia, devices_withUser, ejectAll_withUser]
  have boot : (s.withUser user).setBootSource net = s.setBootSource net := by
    rw [setBootSource, overrideBoot, opticalDrive_withUser]
    rfl
  rw [client, eject, boot, funext media]
  rfl

end OutOfBand.Redfish.System
