import Zun.Compute.Manager

/-!
# The steps of the manager are gentle

Almost everything the manager does around a driver call moves the world no more than a driver
does: it assigns mildly, saves, and changes what is outside the records.  The exceptions are
`updateTaskState`, which assigns `task_state`, and `doContainerDelete`, which drops the row.

One lemma for each function, under the relation that all of them respect.
-/

namespace Zun

open Effect Prog

namespace Manager

variable {R : World → World → Prop} {env : Env} {d : Drivers}

/-! ## Volumes -/

section Mobile

variable [Bystander env R]

theorem within_pollDeleted (n : Nat) (vs : List VolMap) : Within R (pollDeleted env n vs) := by
  induction n generalizing vs with
  | zero => cases vs <;> exact within_pure _
  | succ n ih =>
      cases vs with
      | nil => exact within_pure _
      | cons v vs =>
          unfold pollDeleted
          split
          · exact within_pure _
          · refine (within_ask _ _ rfl).bind fun state => ?_
            cases state with
            | ready => exact ih _
            | error => exact within_pure _
            | notYet => exact ih _

theorem within_pollAvailable (n : Nat) (vs : List VolMap) :
    Within R (pollAvailable env n vs) := by
  induction n generalizing vs with
  | zero => cases vs <;> exact within_pure _
  | succ n ih =>
      cases vs with
      | nil => exact within_pure _
      | cons v vs =>
          refine (within_ask _ _ rfl).bind fun state => ?_
          cases state with
          | ready => exact ih _
          | error => exact within_pure _
          | notYet => exact ih _

theorem within_createVolmap [Mapping R] (u : Uuid) (v : VolMap) :
    Within R (createVolmap env u v) := by
  have hcall : Within R (call env (.createVolmap v.id) fun s =>
      { s with volmaps := { v with containerUuid := u } :: s.volmaps }) :=
    within_effect rfl fun _ => Mapping.mapped _
  exact within_of_wp fun s => wp_createVolmap env (fun _ => refl_of R s) fun _ => hcall.wp s

variable [Mobile R]

/-- The volume is connected or not. -/
theorem within_connection {c : Call} (conn : World → List Nat) (hc : c.releases = false) :
    Within R (call env c fun s => { s with connected := conn s }) :=
  within_effect hc fun s => Mobile.moved s.volmaps (conn s) (List.Sublist.refl _)

theorem within_destroyVolmap (v : Nat) : Within R (call env (.destroyVolmap v) fun s =>
    { s with volmaps := s.volmaps.filter (·.id ≠ v) }) :=
  within_effect rfl fun s => Mobile.moved _ s.connected List.filter_sublist

theorem within_detachVolume (reraise : Bool) (v : VolMap) :
    Within R (detachVolume env reraise v) := by
  refine (within_read _).bind fun users => Within.bind ?_ fun _ => ?_
  · exact Within.onlyIf (Within.swallowIf (within_connection _ rfl) _)
  · exact within_destroyVolmap _

theorem within_detachEach (reraise : Bool) (vs : List VolMap) :
    Within R (detachEach env reraise vs) := by
  induction vs with
  | nil => exact within_pure _
  | cons v vs ih =>
      refine (within_read _).bind fun last => (within_detachVolume reraise v).bind fun _ => ?_
      refine within_ite ?_ ih
      exact (within_plain _ rfl).bind fun _ => ih.bind fun _ => within_pure _

theorem within_attachVolume (v : VolMap) : Within R (attachVolume env v) := by
  refine Within.reraising (within_connection _ rfl) fun e => ?_
  refine Within.bind (Within.onlyIf (within_plain _ rfl).swallow) fun _ => ?_
  exact within_destroyVolmap _

variable {fail : Subject → String → Prog World Exn Unit}

omit [Mobile R] in
theorem within_waitForVolumesDeleted {x : Subject} (hfail : ∀ msg, Within R (fail x msg))
    (vs : List VolMap) : Within R (waitForVolumesDeleted env fail x vs) := by
  refine (within_pollDeleted _ vs).bind fun deleted => within_ite (within_pure _) ?_
  exact (hfail _).bind fun _ => within_raise _

theorem within_detachVolumesOf {x : Subject} (hfail : ∀ msg, Within R (fail x msg))
    (reraise : Bool) : Within R (detachVolumesOf env fail reraise x) :=
  (within_ask _ _ rfl).bind fun volmaps => (within_detachEach reraise volmaps).bind fun removed =>
    within_waitForVolumesDeleted hfail removed

theorem within_detachVolumes (hfail : ∀ x msg, Within R (fail x msg)) (reraise : Bool)
    (x : Subject) : Within R (detachVolumes env fail reraise x) := by
  cases x with
  | capsule c =>
      exact (within_forEach fun m _ => within_detachVolumesOf (hfail _) reraise).bind fun _ =>
        within_forEach fun m _ => within_detachVolumesOf (hfail _) reraise
  | container u => exact within_detachVolumesOf (hfail _) reraise
  | member u => exact within_detachVolumesOf (hfail _) reraise

end Mobile

/-! ## Failing a record -/

section Outer

variable [Outer R]

theorem within_networkInfoOf (addresses : List (NetId × List Addr)) :
    Within R (networkInfoOf env addresses) := by
  induction addresses with
  | nil => exact within_pure _
  | cons entry rest ih =>
      obtain ⟨net, addrs⟩ := entry
      cases addrs with
      | nil => exact within_raise _
      | cons a addrs =>
          refine Within.bind (within_beside (.of fun _ => ⟨rfl, rfl, rfl, rfl, rfl, rfl⟩)) fun _ => (within_plain _ rfl).bind fun _ => ?_
          exact ih.bind fun _ => within_pure _

theorem within_getNetworkInfo (addresses : List (NetId × List Addr)) :
    Within R (getNetworkInfo env addresses) := within_networkInfoOf addresses

end Outer

/-- The two assignments that every failed record gets, and its `save`. -/
theorem within_assignFailed [IsPreorder World R] [Easy R] (u : Uuid) {status : Status} (hstatus : status.live = false)
    (error : String) {p : Prog World Exn Unit} (hp : Within R p) :
    Within R (do
      assign u (Obj.setStatus status)
      assign u (Obj.setStatusReason (some error))
      p) :=
  (within_slight (slight_setStatus hstatus)).bind fun _ =>
    (within_slight (slight_setStatusReason _)).bind fun _ => hp

section Freeing

variable [Bystander env R] [Freeing R]

theorem within_deleteAllocation (u : Uuid) : Within R (deleteAllocation env u) :=
  within_effect rfl fun _ => Freeing.freed u

theorem within_releaseAllocation (x : Subject) : Within R (releaseAllocation env x) := by
  cases x with
  | member u => exact within_pure _
  | container u => exact (within_deleteAllocation _).swallow
  | capsule c => exact (within_deleteAllocation _).swallow

variable [Mobile R] [Easy R]

omit [Freeing R] [Mobile R] in
theorem within_failUnfinishedMembers (c : Capsule) (error : String) (lost : Bool) :
    Within R (failUnfinishedMembers env c error lost) :=
  within_forEach fun m _ => (within_read _).bind fun _ =>
    (within_assignFailed m rfl error (within_save m)).onlyIf

omit [Freeing R] [Mobile R] in
theorem within_markFailed (x : Subject) (error : String) (unsetHost : Bool) :
    Within R (markFailed env x error unsetHost) := by
  refine (within_read _).bind fun autoRemove => within_ite ?_ ?_
  · exact within_assignFailed _ rfl _ (within_save _)
  · refine within_assignFailed _ rfl _ ?_
    refine ((within_slight slight_unsetHost).onlyIf).bind fun _ => ?_
    refine (within_save _).bind fun _ => ?_
    cases x with
    | capsule c => exact within_failUnfinishedMembers _ _ _
    | container u => exact within_pure _
    | member u => exact within_pure _

theorem within_failContainer (depth : Nat) (x : Subject) (error : String) (unsetHost : Bool) :
    Within R (failContainer env depth x error unsetHost) := by
  induction depth generalizing x error unsetHost with
  | zero => exact within_halt
  | succ depth ih =>
      refine ((within_detachVolumes (fun y msg => ih y msg true) true x).swallow).bind fun _ => ?_
      refine ((within_releaseAllocation x).onlyIf).bind fun _ => ?_
      exact within_markFailed x error unsetHost

theorem within_failFor (x : Subject) (fallback : String) (unsetHost : Bool) (e : Exn) :
    Within R (failFor env x fallback unsetHost e) := within_failContainer _ _ _ _

theorem within_detachAll (reraise : Bool) (x : Subject) : Within R (detachAll env reraise x) :=
  within_detachVolumes (fun _ _ => within_failContainer _ _ _ _) reraise x

/-! ## The way to a create -/

theorem within_waitForVolumesAvailable (vols : RequestedVolumes) (x : Subject) :
    Within R (waitForVolumesAvailable env vols x) := by
  refine Within.bind ?_ fun failure => ?_
  · exact ((within_pollAvailable _ _).bind fun _ => within_pure _).tryExcept fun _ => within_pure _
  cases failure with
  | none => exact within_pure _
  | some msg =>
      refine Within.bind (within_forEach fun _ _ => (within_plain _ rfl).swallow) fun _ => ?_
      exact (within_failContainer _ _ _ _).bind fun _ => within_raise _

theorem within_attachVolumesOf [Mapping R] (vols : RequestedVolumes) (x : Subject) (isMember : Bool) :
    Within R (attachVolumesOf env vols x isMember) := by
  refine Within.reraising (within_forEach fun v _ => ?_) fun _ => within_failContainer _ _ _ _
  refine (within_createVolmap x.uuid v).bind fun _ => (within_read _).bind fun _ => ?_
  exact within_ite (within_pure _) (within_attachVolume v)

theorem within_refuse (x : Subject) (msg : String) : Within R (refuse env x msg) :=
  (within_failContainer _ _ _ _).bind fun _ => within_raise _

theorem within_checkSupportDiskQuota (x : Subject) :
    Within R (checkSupportDiskQuota env x) := by
  refine (within_plain _ rfl).bind fun _ => (within_read _).bind fun disk => ?_
  refine within_ite (within_slight (slight_setDisk _)) ?_
  refine ((within_refuse x _).onlyIf).bind fun _ => (within_ask _ _ rfl).bind fun options => ?_
  refine ((within_refuse x _).onlyIf).bind fun _ => (within_plain _ rfl).bind fun _ => ?_
  refine ((within_refuse x _).onlyIf).bind fun _ => (within_plain _ rfl).bind fun _ => ?_
  exact (within_slight (slight_setDisk _)).onlyIf

theorem within_createFailed (x : Subject) (e : Exn) : Within R (createFailed env x e) :=
  within_ite (within_failFor _ _ _ e) (within_deleteAllocation _).swallow

/-! ## What an operation does while it owns the record -/

theorem within_pullImage (x : Subject) : Within R (pullImage env x) :=
  ((within_plain _ rfl).bind fun _ => (within_plain _ rfl).onlyIf).reraising fun e =>
    within_failFor _ _ _ e

/-- What a create does while it owns the record, around the driver's create. -/
theorem within_createAround {x : Subject} {nets : List RequestedNetwork} {vols : RequestedVolumes}
    (hcreate : Within R (driverCreate env d nets vols x)) :
    Within R (createOwned env d x nets vols) := by
  refine (within_plain _ rfl).bind fun _ => (within_plain _ rfl).bind fun _ => ?_
  refine ((within_pullImage x).onlyIf).bind fun _ => (within_save _).bind fun _ => ?_
  refine Within.reraising ?_ fun e => within_failFor _ _ _ e
  exact ((within_plain _ rfl).onlyIf).bind fun _ => hcreate

/-- What a delete does while it owns the record, around the driver's delete. -/
theorem within_deleteAround {x : Subject} {force : Bool}
    (hdelete : Within R (driverDelete d force x)) : Within R (deleteOwned env d x force) :=
  (hdelete.reraisingIf (fun e => within_failFor _ _ _ e) _).bind fun _ => within_detachAll _ x

end Freeing

section Outer

variable [Outer R] [Calm R] [Tame R]

theorem meek_preservePorts : Meek preservePorts :=
  meek_of_eq (fun _ => rfl) (fun _ => rfl) (fun _ => rfl) (fun _ => rfl) (fun _ => rfl)

/-- What a rebuild does up to the start, around its create. -/
theorem within_rebuildSteps (hd : d.Lawful) {u : Uuid}
    (hbase : ∀ nets vols, Within R (doContainerCreateBase env d (.container u) nets vols)) :
    Within R (rebuildSteps env d u) := by
  refine (within_ask _ _ rfl).bind fun volmaps => (within_read _).bind fun addresses => ?_
  refine ((within_getNetworkInfo addresses).reraising fun e => within_failFor _ _ _ e).bind
    fun nets => ?_
  refine (hd.driver.checkContainerExist u _).bind fun there => Within.bind ?_ fun _ => ?_
  · refine Within.onlyIf ((within_meek meek_preservePorts).bind fun _ => ?_)
    exact (hd.driver.delete u true _).reraising fun e => within_failFor _ _ _ e
  refine Within.reraising ?_ fun e => within_failFor _ _ _ e
  refine (hbase _ _).bind fun _ => (within_meek (meek_setStatus rfl)).bind fun _ => ?_
  exact (within_meek (meek_setStatusReason _)).bind fun _ => within_save u

end Outer

section Tolerant

variable [Loose R] [Tolerant R]

theorem within_startOwned (hd : d.Lawful) (u : Uuid) : Within R (startOwned env d u) := by
  refine Within.reraising ?_ fun e => within_failFor _ _ _ e
  refine (hd.driver.start u _).bind fun _ => (within_read _).bind fun now => ?_
  exact (within_meek (meek_setStartedAt _)).bind fun _ => within_save u

theorem within_driverCreate (hd : d.Lawful) (nets : List RequestedNetwork)
    (vols : RequestedVolumes) (x : Subject) : Within R (driverCreate env d nets vols x) := by
  cases x with
  | capsule c =>
      refine (hd.capsuleDriver.createCapsule c nets vols R).bind fun _ => ?_
      refine (within_read _).bind fun _ => (within_read _).bind fun _ => ?_
      exact (within_meek (meek_setStartedAt _)).onlyIf
  | container u => exact hd.driver.create u nets vols R
  | member u => exact within_pure _

theorem within_createOwned (hd : d.Lawful) (x : Subject) (nets : List RequestedNetwork)
    (vols : RequestedVolumes) : Within R (createOwned env d x nets vols) :=
  within_createAround (within_driverCreate hd nets vols x)

theorem within_driverDelete (hd : d.Lawful) (force : Bool) (x : Subject) :
    Within R (driverDelete d force x) := by
  cases x with
  | capsule c => exact hd.capsuleDriver.deleteCapsule c force R
  | container u => exact hd.driver.delete u force R
  | member u => exact within_pure _

theorem within_deleteOwned (hd : d.Lawful) (x : Subject) (force : Bool) :
    Within R (deleteOwned env d x force) := within_deleteAround (within_driverDelete hd force x)

end Tolerant

end Manager

end Zun
