import Zun.Effect.Run
import Zun.Effect.Traced
import Zun.Objects.Container

/-!
# What a record is metered as holding

`held` of `zun/compute/notifications.py` tells a meter what a record holds.  It does not consult placement.
It goes by the status and by `started_at`, and the manager deletes the allocation in several handlers
that write neither together with it.

This module has one record with its members, its row and the object an operation works on, and the
allocation that was made for it.  The operations are those of `zun/compute/manager.py`, with the drivers
they call: docker's for a container, the CRI's for a capsule.  Every call may fail.
-/

namespace Zun

open Effect Prog

namespace Metering

/-! ## The meter -/

structure Sizes where
  cpu : Nat
  memory : Nat
  disk : Nat
deriving DecidableEq

/-- `allocation_counts`.  The children of a capsule are its members. -/
def allocationCounts (capsule : Bool) (r : Record) (children : List Record) : Bool :=
  if r.status = .deleted then false
  else if r.status ∉ [Status.creating, .error, .deleting] then true
  else (r :: if capsule then children else []).any (·.startedAt.isSome)

/-- `held`. -/
def held (capsule : Bool) (r : Record) (children : List Record) : Option Sizes :=
  if allocationCounts capsule r children then some ⟨r.cpu, r.memory, r.disk⟩ else none

/-! ## The record -/

/-- A member of a capsule, as its row and as the capsule's object has it. -/
structure Member where
  init : Bool
  row : Record
  obj : Record
deriving DecidableEq

structure State where
  capsule : Bool := false
  row : Option Record := none
  obj : Record := { status := .creating }
  /-- The init containers come first. -/
  members : List Member := []
  /-- Placement has the allocation of the record. -/
  allocation : Bool := false
deriving DecidableEq

def State.setMember (s : State) (i : Nat) (f : Member → Member) : State :=
  { s with members := s.members.modify i f }

/-- Every object is read again.  `_caught_up` keeps the status that the API has set on the way in. -/
def State.reread (s : State) (r : Record) : State :=
  { s with
    obj := if s.obj.status ∈ [Status.deleting, .rebuilding] then { r with status := s.obj.status } else r
    members := s.members.map fun m => { m with obj := m.row } }

/-- What the API writes of a request. -/
def unplaced (r : Record) : Record :=
  { r with status := .creating, taskState := none, host := none, startedAt := none }

/-- The record of a create.  A container has no members. -/
def State.asked (capsule : Bool) (r : Record) (members : List (Bool × Record)) : State where
  capsule := capsule
  row := some (unplaced r)
  obj := unplaced r
  members := if capsule then members.map fun m => ⟨m.1, unplaced m.2, unplaced m.2⟩ else []

/-! ## Calls -/

inductive Failure where
  | resourcesUnavailable
  /-- A 404 of docker's, or a row that is gone. -/
  | notFound
  | conflict
  /-- What was answered is not what the code wants: no host is left, the volumes are still there, the
  disk is not one the host can give. -/
  | refused
  | other
deriving DecidableEq

/-- Where an allocation is deleted. -/
inductive Handler where
  /-- `_fail_container`. -/
  | failed
  /-- The last handler of `_do_container_create`. -/
  | created
  /-- `_do_container_delete`. -/
  | deleted
deriving DecidableEq

/-- The calls, those about a volume with the member it is mounted into. -/
inductive Call where
  | selectDestinations | imageSearch
  | isVolumeAvailable | attachVolumes (member : Option Nat) | detachVolumes (member : Option Nat)
  | isVolumeDeleted
  | checkDisk | containerClaim | pullImage | driverCreate
  | createPodSandbox | createContainer (i : Nat) | startContainer (i : Nat) | waitForInit (i : Nat)
  | waitToRetry | restartContainer (i : Nat) | undoCreate
  | driverStart | onContainerStarted | dockerStop | applyVolumeIoLimits | driverStop
  | getVolInfo | getNetworkInfo | checkContainerExist | driverDelete
  | containerUpdateClaim | driverUpdate
  | freshRecord | removeUsage
  | save | saveMember (i : Nat) | destroy | destroyMember (i : Nat)
  | release (h : Handler)
deriving DecidableEq

/-- What is not known before.  A number is that of the calls made so far. -/
structure Env where
  answer : Nat → Call → Option Failure := fun _ _ => none
  /-- When the runtime says a member has started, if it says. -/
  startedAt : Nat → Option Nat := some
  /-- The init container has failed, and its policy has it run again. -/
  again : Nat → Bool := fun _ => false
  /-- How often an init container runs at most. -/
  rounds : Nat := 1
  /-- Docker has the container. -/
  exist : Nat → Bool := fun _ => true
  now : Nat → Nat := id
  host : Host := "host"
  defaultDisk : Nat := 0

abbrev Op (α : Type) : Type := Prog (Log State Call Failure) Failure α

variable (env : Env)

/-- A call that changes nothing of the record. -/
def call (c : Call) : Op Unit := consult env.answer c id

/-- Assign a field of the object. -/
def assign (f : Record → Record) : Op Unit := change fun s => { s with obj := f s.obj }

def assignMember (i : Nat) (f : Record → Record) : Op Unit :=
  change fun s => s.setMember i fun m => { m with obj := f m.obj }

def setStatus (status : Status) (r : Record) : Record := { r with status := status }

def setStartedAt (t : Option Nat) (r : Record) : Record := { r with startedAt := t.or r.startedAt }

/-- `container.save`.  Nothing else writes the row while an operation works on the object. -/
def save : Op Unit := do
  let row ← look State.row
  if row.isNone then raise .notFound
  else consult env.answer .save fun s => { s with row := some s.obj }

def saveMember (i : Nat) : Op Unit :=
  consult env.answer (.saveMember i) fun s => s.setMember i fun m => { m with row := m.obj }

/-- `container.destroy`. -/
def destroy : Op Unit := do
  let row ← look State.row
  if row.isNone then raise .notFound
  else consult env.answer .destroy fun s => { s with row := none }

/-- `delete_allocation_for_container`. -/
def release (h : Handler) : Op Unit := consult env.answer (.release h) fun s => { s with allocation := false }

/-! ## Failing -/

/-- The body of `_fail_unfinished_members`. -/
def failUnfinishedMember (lostSandbox : Bool) (i : Nat) : Op Unit := do
  let member ← look fun s => s.members[i]?
  onlyIf (member.any (fun m => m.obj.status = .creating || (lostSandbox && m.obj.status = .running)) = true)
    (do assignMember i (setStatus .error)
        saveMember env i)

/-- `_fail_unfinished_members`. -/
def failUnfinishedMembers (lostSandbox : Bool) : Op Unit := do
  let members ← look State.members
  forEach (List.range members.length) (failUnfinishedMember env lostSandbox)

/-- What `_fail_container` writes, once the volumes and the allocation are dealt with. -/
def markFailed (unsetHost : Bool) : Op Unit := do
  let autoRemove ← look (·.obj.autoRemove)
  if autoRemove then do
    assign (setStatus .deleted)
    save env
  else do
    assign (setStatus .error)
    onlyIf unsetHost (assign fun r => { r with host := none })
    save env
    let capsule ← look State.capsule
    onlyIf capsule (failUnfinishedMembers env unsetHost)

/-- What `_fail_container` writes of a member.  Its host goes with every failure there is. -/
def markMemberFailed (i : Nat) : Op Unit := do
  assignMember i fun r =>
    if r.autoRemove then { r with status := .deleted } else { r with status := .error, host := none }
  saveMember env i

/-- `_release_allocation`, of a record that is not a member. -/
def releaseAllocation (h : Handler) : Op Unit := swallow (release env h)

/-- `_wait_for_volumes_deleted`, with the `_fail_container` it calls. -/
def waitForVolumesDeleted (fail : Op Unit) : Op Unit :=
  tryExcept (call env .isVolumeDeleted) fun e => do
    onlyIf (e = .refused) fail
    raise (if e = .refused then .conflict else e)

/-- `_detach_volumes`, of a container or a member. -/
def detachVolumesOf (member : Option Nat) (fail : Op Unit) : Op Unit := do
  call env (.detachVolumes member)
  waitForVolumesDeleted env fail

/-- `_fail_container` as `_wait_for_volumes_deleted` calls it: every mapping is gone, and there is
nothing to wait for. -/
def failUndeleted : Op Unit := do
  swallow (call env (.detachVolumes none))
  releaseAllocation env .failed
  markFailed env true

/-- The same, of a member.  Placement knows the capsule, not its members. -/
def failMemberUndeleted (i : Nat) : Op Unit := do
  swallow (call env (.detachVolumes (some i)))
  markMemberFailed env i

/-- `_detach_volumes`. -/
def detachVolumes : Op Unit := do
  let s ← look id
  if s.capsule then
    forEach (List.range s.members.length) fun i => detachVolumesOf env (some i) (failMemberUndeleted env i)
  else detachVolumesOf env none (failUndeleted env)

/-- `_fail_container`. -/
def failContainer (unsetHost : Bool) : Op Unit := do
  swallow (detachVolumes env)
  onlyIf unsetHost (releaseAllocation env .failed)
  markFailed env unsetHost

/-- `_fail_container`, of a member. -/
def failMember (i : Nat) : Op Unit := do
  swallow (detachVolumesOf env (some i) (failMemberUndeleted env i))
  markMemberFailed env i

/-- `_update_task_state`. -/
def updateTaskState (t : TaskState) (body : Op Unit) : Op Unit := do
  let owner ← look (·.obj.taskState)
  if owner.isSome then body
  else do
    assign fun r => { r with taskState := some t }
    save env
    tryFinally body (do
      assign fun r => { r with taskState := none }
      save env)

/-! ## Creating -/

/-- `_wait_for_volumes_available`. -/
def waitForVolumesAvailable : Op Unit :=
  tryExcept (call env .isVolumeAvailable) fun _ => do
    failContainer env true
    raise .conflict

/-- `_attach_volumes`, and `_attach_volumes_for_capsule`. -/
def attachVolumes : Op Unit := do
  let s ← look id
  reraising
    (if s.capsule then
      forEach (List.range s.members.length) fun i =>
        reraising (call env (.attachVolumes (some i))) fun _ => failMember env i
    else call env (.attachVolumes none))
    fun _ => failContainer env true

/-- `_check_support_disk_quota`. -/
def checkSupportDiskQuota : Op Unit := do
  tryExcept (call env .checkDisk) fun e => do
    onlyIf (e = .refused) (failContainer env true)
    raise e
  assign fun r => { r with disk := if r.disk = 0 then env.defaultDisk else r.disk }

/-- `container_claim`.  A record that asks for nothing is not given the host. -/
def containerClaim : Op Unit := do
  let r ← look State.obj
  onlyIf (r.cpu ≠ 0 ∨ r.memory ≠ 0 ∨ r.disk ≠ 0) (do
    call env .containerClaim
    assign fun r => { r with host := some env.host }
    save env)

/-- `create` of the docker driver.  `_populate_container_state` finds a container that never ran. -/
def driverCreate : Op Unit := do
  call env .driverCreate
  assign fun r => if r.status = .creating then { r with status := .created } else r
  save env

/-- A member is running: what a create, a retry and a restart write of it. -/
def memberStarted (i : Nat) : Op Unit := do
  let t ← told env.startedAt
  assignMember i fun r => setStartedAt t (setStatus .running r)
  saveMember env i

/-- `_create_container`, of a member. -/
def createContainer (i : Nat) : Op Unit := do
  call env (.createContainer i)
  saveMember env i
  call env (.startContainer i)

/-- A turn of `_tend_sidecars`. -/
def tendSidecar (i : Nat) : Op Unit := swallow do
  call env (.restartContainer i)
  memberStarted env i

/-- An init container is over, and the runtime has said what became of it. -/
def memberStopped (i : Nat) : Op Unit := do
  let t ← told env.startedAt
  assignMember i fun r => setStartedAt t (setStatus .stopped r)
  saveMember env i

/-- A turn of the loop of `_run_init_container`, or of `_start_sidecar`. -/
def runInitOnce (sidecars : List Nat) (i : Nat) (sidecar : Bool) : Op (Unit ⊕ Unit) := do
  createContainer env i
  memberStarted env i
  forEach sidecars (tendSidecar env)
  call env (.waitForInit i)
  onlyIf (sidecar = false) (memberStopped env i)
  let again ← told env.again
  if again then do
    save env
    forEach sidecars (tendSidecar env)
    call env .waitToRetry
    pure (.inl ())
  else pure (.inr ())

/-- The init containers before this one that are sidecars. -/
def State.sidecars (s : State) (i : Nat) : List Nat :=
  (List.range i).filter fun j => (s.members[j]?).any fun m => m.init && m.obj.isSidecar

/-- The body of `_run_init_members`. -/
def runInitMember (i : Nat) : Op Unit := do
  let s ← look id
  let sidecar := (s.members[i]?).any fun m => m.obj.isSidecar
  loop env.rounds (fun _ => runInitOnce env (s.sidecars i) i sidecar) ()

/-- Which members are init containers, or are not. -/
def State.members? (s : State) (init : Bool) : List Nat :=
  (List.range s.members.length).filter fun i => (s.members[i]?).any fun m => m.init = init

/-- The loop of `create_capsule`. -/
def startMember (i : Nat) : Op Unit := do
  createContainer env i
  memberStarted env i

/-- `create_capsule` of the CRI driver. -/
def createCapsule : Op Unit := do
  reraising
    (do call env .createPodSandbox
        save env
        let s ← look id
        forEach (s.members? true) (runInitMember env)
        forEach (s.members? false) (startMember env))
    fun _ => swallow (call env .undoCreate)
  assign (setStatus .running)

/-- What `_do_container_create_base` builds. -/
def build : Op Unit := do
  let capsule ← look State.capsule
  if capsule then do
    createCapsule env
    let now ← told env.now
    assign (setStartedAt (some now))
  else driverCreate env

/-- `_do_container_create_base`. -/
def doContainerCreateBase : Op Unit :=
  updateTaskState env .containerCreating do
    reraising (call env .pullImage) fun _ => failContainer env false
    save env
    reraising (build env) fun _ => failContainer env true

/-- The two handlers of `_do_container_create`. -/
def createFailed (e : Failure) : Op Unit :=
  if e = .resourcesUnavailable then failContainer env true else releaseAllocation env .created

/-- `_do_container_create`. -/
def doContainerCreate : Op Unit :=
  reraising
    (do containerClaim env
        doContainerCreateBase env)
    (createFailed env)

/-! ## Starting and stopping -/

/-- `handle_not_found`. -/
def handleNotFound : Op Unit := do
  let r ← look State.obj
  onlyIf (r.status ≠ .deleting) (do
    assign (setStatus (if r.autoRemove then .deleted else .error))
    save env
    raise .conflict)

/-- `wrap_docker_error`. -/
def wrapDockerError (p : Op Unit) : Op Unit := reraising p fun e => onlyIf (e = .notFound) (handleNotFound env)

/-- `start` of the docker driver. -/
def driverStart : Op Unit := wrapDockerError env do
  call env .driverStart
  assign (setStatus .running)
  tryExcept (call env .onContainerStarted) fun _ => do
    swallow (call env .dockerStop)
    assign (setStatus .stopped)
  call env .applyVolumeIoLimits

/-- `_do_container_start`. -/
def doContainerStart : Op Unit :=
  updateTaskState env .containerStarting do
    reraising
      (do driverStart env
          let now ← told env.now
          assign (setStartedAt (some now))
          save env)
      fun _ => failContainer env false

/-- `stop` of the docker driver. -/
def driverStop : Op Unit := wrapDockerError env do
  call env .driverStop
  assign (setStatus .stopped)

/-- `_do_container_stop`. -/
def doContainerStop : Op Unit := updateTaskState env .containerStopping (driverStop env)

/-! ## Rebuilding, resizing, deleting -/

/-- `_do_container_rebuild`, before the start. -/
def rebuildOwned : Op Unit := do
  call env .getVolInfo
  reraising (call env .getNetworkInfo) fun _ => failContainer env false
  call env .checkContainerExist
  let exist ← told env.exist
  onlyIf exist (reraising (call env .driverDelete) fun _ => failContainer env false)
  reraising
    (do doContainerCreateBase env
        assign (setStatus .created)
        save env)
    fun _ => failContainer env false

/-- `_do_container_rebuild`. -/
def doContainerRebuild (run : Bool) : Op Unit :=
  updateTaskState env .containerRebuilding do
    rebuildOwned env
    onlyIf run (doContainerStart env)

/-- `_do_container_update`. -/
def doContainerUpdate (cpu memory : Option Nat) : Op Unit := do
  assign fun r => { r with cpu := cpu.getD r.cpu, memory := memory.getD r.memory }
  call env .containerUpdateClaim
  wrapDockerError env (call env .driverUpdate)
  save env

/-- `_do_container_delete`, while it owns the record. -/
def deleteOwned (force : Bool) : Op Unit := do
  reraisingIf (!force) (call env .driverDelete) fun _ => failContainer env false
  detachVolumes env

/-- `_do_container_delete`. -/
def doContainerDelete (force : Bool) : Op Unit := do
  updateTaskState env .containerDeleting (deleteOwned env force)
  swallow (call env .removeUsage)
  releaseAllocation env .deleted
  destroy env

/-! ## Requests -/

/-- `container_create` of the manager. -/
def containerCreate (run : Bool) : Op Unit := do
  waitForVolumesAvailable env
  attachVolumes env
  checkSupportDiskQuota env
  doContainerCreate env
  onlyIf run (doContainerStart env)

/-- `_schedule_container`: whether there is a host. -/
def schedule : Op Bool :=
  tryExcept
    (do consult env.answer .selectDestinations fun s => { s with allocation := true }
        pure true)
    fun e => do
      assign (setStatus .error)
      save env
      if e = .refused then pure false else raise e

/-- `container_create` of `zun/compute/api.py`, before the cast. -/
def place : Op Bool := do
  let placed ← schedule env
  onlyIf placed (call env .imageSearch)
  pure placed

/-- `_caught_up`, and the operation that waited. -/
def caughtUp (op : Op Unit) : Op Unit := do
  call env .freshRecord
  let row ← look State.row
  onlyIf row.isSome (do
    change fun s => s.reread (row.getD s.obj)
    op)

/-- `get_resource`: the record as the API reads it. -/
def getResource : Op Unit := do
  let row ← look State.row
  if row.isNone then raise .notFound
  else change fun s => { s with
    obj := row.getD s.obj
    members := s.members.map fun m => { m with obj := m.row } }

/-- `validate_container_state`. -/
def validate (states : List Status) : Op Unit := do
  let status ← look (·.obj.status)
  if status ∈ states then ret () else raise .conflict

/-- What a request on a container begins with.  A capsule is none. -/
def getContainer (states : List Status) : Op Unit := do
  getResource
  let capsule ← look State.capsule
  if capsule then raise .notFound else validate states

/-- `utils.VALID_STATES['update']`. -/
def updateStates : List Status := [.created, .running, .stopped, .paused]

/-- The states a delete is valid in. -/
def deleteStates (force stops : Bool) : List Status :=
  validStates (if stops then .deleteAfterStop else if force then .deleteForce else .delete)

/-- The way a delete takes from the API: to the host, or to the row. -/
def deleteFrom (force : Bool) : Op Unit := do
  let s ← look id
  if s.obj.host.isSome then caughtUp env (doContainerDelete env force)
  else do
    onlyIf s.capsule (forEach (List.range s.members.length) fun i => call env (.destroyMember i))
    destroy env

inductive Request where
  | create (capsule run : Bool) (r : Record) (members : List (Bool × Record))
  | start
  | stop
  | rebuild
  | resize (cpu memory : Option Nat)
  | delete (force stops : Bool)
  | deleteCapsule

/-- The request, from the API to its last step. -/
def Request.op : Request → Op Unit
  | .create capsule run r members => do
      let row ← look State.row
      onlyIf row.isNone (do
        change fun _ => State.asked capsule r members
        let placed ← reraising (place env) fun _ => onlyIf (capsule = false) (swallow (destroy env))
        onlyIf placed (containerCreate env run))
  | .start => do
      getContainer (validStates .start)
      caughtUp env (doContainerStart env)
  | .stop => do
      getContainer (validStates .stop)
      caughtUp env (doContainerStop env)
  | .rebuild => do
      getContainer (validStates .rebuild)
      let status ← look (·.obj.status)
      assign (setStatus .rebuilding)
      save env
      caughtUp env (doContainerRebuild env (status = .running))
  | .resize cpu memory => do
      getContainer updateStates
      doContainerUpdate env cpu memory
  | .delete force stops => do
      getContainer (deleteStates force stops)
      assign (setStatus .deleting)
      deleteFrom env force
  | .deleteCapsule => do
      getResource
      let capsule ← look State.capsule
      onlyIf capsule (do
        assign fun r => { r with taskState := some .containerDeleting }
        save env
        deleteFrom env false)

/-- A request, and what it meets. -/
structure Event where
  env : Env := {}
  request : Request

/-- The run of a request. -/
def Event.run (e : Event) (s : State) : Log State Call Failure := (e.request.op e.env ⟨s, []⟩).2

def serve (e : Event) (s : State) : State := (e.run s).state

end Metering

end Zun
