import Zun.Container.Driver

/-!
# The compute manager

The operations of `zun/compute/manager.py` on one container or capsule: create, start,
stop, reboot, pause, unpause, kill, rebuild and delete, each as the thread that the
manager spawns for it, and the start-up code that resumes an interrupted one.  The resource
tracker's `container_claim` is here too, since a create runs inside it.

The drivers are parameters.

Two things of the source show up as numbers.  A wait for volumes polls until a deadline, so
it makes `env.polls` polls.  And `_fail_container` detaches the volumes, which may wait for a
volume to be deleted, which calls `_fail_container` when the wait is over.  `failContainer`
counts that depth down.  The first detach drops every mapping it went through, so the
second has nothing to wait for.
-/

namespace Zun

open Effect Prog

namespace Manager

/-- The members of a record. -/
def members : Subject → List Uuid
  | .capsule c => c.initContainers ++ c.containers
  | _ => []

variable (env : Env)

/-! ## Volumes -/

/-- `_detach_volume`. -/
def detachVolume (reraise : Bool) (v : VolMap) : Prog World Exn Unit := do
  let users ← read fun s => (s.volmaps.filter (·.volumeId = v.volumeId)).length
  onlyIf (users = 1) (swallowIf (!reraise) (call env (.detachVolume v.id) fun s =>
    { s with connected := s.connected.erase v.volumeId }))
  call env (.destroyVolmap v.id) fun s => { s with volmaps := s.volmaps.filter (·.id ≠ v.id) }

/-- The loop of `_detach_volumes`.  Returns the mappings whose volume is being deleted. -/
def detachEach (reraise : Bool) : List VolMap → Prog World Exn (List VolMap)
  | [] => pure []
  | v :: vs => do
      let lastOfCinderVolume ← read fun s =>
        v.cinderVolumeId.isSome &&
          (s.volmaps.filter (·.cinderVolumeId = v.cinderVolumeId)).length == 1
      detachVolume env reraise v
      if v.autoRemove && lastOfCinderVolume then
        call env (.deleteVolume v.id)
        let rest ← detachEach reraise vs
        pure (v :: rest)
      else
        detachEach reraise vs

/-- The loop of `_wait_for_volumes_deleted`: whether every volume was seen deleted. -/
def pollDeleted : Nat → List VolMap → Prog World Exn Bool
  | _, [] => pure true
  | 0, _ :: _ => pure false
  | n + 1, v :: vs =>
      -- A mapping that is not to be removed is passed over, and the next one is asked about
      -- whatever it is.
      match (if v.autoRemove then some (v, vs) else vs.head?.map fun w => (w, vs.tail)) with
      | none => pure true
      | some (w, ws) => do
          let state ← ask env (.isVolumeDeleted w.id) fun s => env.volume s.tick
          match state with
          | .ready => pollDeleted n ws
          | .error => pure false
          | .notYet => pollDeleted n (w :: ws)

def volumesNotDeleted : String :=
  "Volumes cannot be successfully deleted after " ++ toString env.timeoutDeleted ++ " seconds"

/-- `_wait_for_volumes_deleted`.  `fail` is `_fail_container(…, unset_host=True)`. -/
def waitForVolumesDeleted (fail : Subject → String → Prog World Exn Unit) (x : Subject)
    (volmaps : List VolMap) : Prog World Exn Unit := do
  let deleted ← pollDeleted env env.polls volmaps
  if deleted then pure ()
  else
    fail x (volumesNotDeleted env)
    raise { cls := .conflict, text := volumesNotDeleted env }

/-- `_detach_volumes` of a record that is not a capsule. -/
def detachVolumesOf (fail : Subject → String → Prog World Exn Unit) (reraise : Bool)
    (x : Subject) : Prog World Exn Unit := do
  let volmaps ← ask env (.listVolmaps x.uuid) fun s =>
    s.volmaps.filter (·.containerUuid = x.uuid)
  let removed ← detachEach env reraise volmaps
  waitForVolumesDeleted env fail x removed

/-- `_detach_volumes`. -/
def detachVolumes (fail : Subject → String → Prog World Exn Unit) (reraise : Bool) :
    Subject → Prog World Exn Unit
  | .capsule c => do
      forEach c.initContainers fun m => detachVolumesOf env fail reraise (.member m)
      forEach c.containers fun m => detachVolumesOf env fail reraise (.member m)
  | x => detachVolumesOf env fail reraise x

/-! ## Failing a record -/

/-- Delete the allocation of a consumer in placement. -/
def deleteAllocation (u : Uuid) : Prog World Exn Unit :=
  call env (.deleteAllocation u) fun s =>
    { s with allocations := Function.update s.allocations u false }

/-- `_release_allocation`. -/
def releaseAllocation : Subject → Prog World Exn Unit
  | .member _ => pure ()
  | x => swallow (deleteAllocation env x.uuid)

/-- `_fail_unfinished_members`. -/
def failUnfinishedMembers (c : Capsule) (error : String) (lostSandbox : Bool) :
    Prog World Exn Unit :=
  forEach (c.initContainers ++ c.containers) fun m => do
    let status ← obj m (·.status)
    onlyIf (status = .creating ∨ (lostSandbox = true ∧ status = .running)) do
      assign m (Obj.setStatus .error)
      assign m (Obj.setStatusReason (some error))
      save env m

/-- The part of `_fail_container` that marks the record. -/
def markFailed (x : Subject) (error : String) (unsetHost : Bool) : Prog World Exn Unit := do
  let autoRemove ← obj x.uuid (·.autoRemove)
  if autoRemove then
    assign x.uuid (Obj.setStatus .deleted)
    assign x.uuid (Obj.setStatusReason (some error))
    save env x.uuid
  else
    assign x.uuid (Obj.setStatus .error)
    assign x.uuid (Obj.setStatusReason (some error))
    onlyIf unsetHost (assign x.uuid (Obj.setHost none))
    save env x.uuid
    match x with
    | .capsule c => failUnfinishedMembers env c error unsetHost
    | _ => pure ()

/-- `_fail_container`. -/
def failContainer : Nat → Subject → String → Bool → Prog World Exn Unit
  | 0, _, _, _ => halt
  | depth + 1, x, error, unsetHost => do
      swallow (detachVolumes env (fun y msg => failContainer depth y msg true) true x)
      onlyIf unsetHost (releaseAllocation env x)
      markFailed env x error unsetHost

/-- How deep `_fail_container` calls itself through a wait for volumes. -/
def failDepth : Nat := 3

/-- `_fail_container(container, reasons.for_tenant(e, fallback), unset_host)`. -/
def failFor (x : Subject) (fallback : String) (unsetHost : Bool) (e : Exn) :
    Prog World Exn Unit :=
  failContainer env failDepth x (Reasons.forTenant e fallback) unsetHost

/-- `_detach_volumes`, as the operations call it. -/
def detachAll (reraise : Bool) (x : Subject) : Prog World Exn Unit :=
  detachVolumes env (fun y msg => failContainer env failDepth y msg true) reraise x

/-! ## Owning a record -/

/-- `_update_task_state`, around a body. -/
def updateTaskState {α : Type} (u : Uuid) (t : TaskState) (body : Prog World Exn α) :
    Prog World Exn α := do
  let current ← obj u (·.taskState)
  if current.isSome then body
  else
    assign u (Obj.setTaskState (some t))
    save env u
    tryFinally body do
      assign u (Obj.setTaskState none)
      save env u

/-- The statuses the API sets on the way in and that an operation carries out. -/
def keepsStatus (r : Record) : Bool := r.status == .deleting || r.status == .rebuilding

/-- What `_caught_up` does to the object, given the row.  A field that differs is assigned. -/
def catchUp (row : Record) (o : Obj) : Obj where
  val := { row with status := if keepsStatus o.val then o.val.status else row.status }
  changed :=
    { status := o.changed.status || (!keepsStatus o.val && o.val.status != row.status)
      statusReason := o.changed.statusReason || o.val.statusReason != row.statusReason
      statusDetail := o.changed.statusDetail || o.val.statusDetail != row.statusDetail
      taskState := o.changed.taskState || o.val.taskState != row.taskState
      host := o.changed.host || o.val.host != row.host
      containerId := o.changed.containerId || o.val.containerId != row.containerId
      addresses := o.changed.addresses || o.val.addresses != row.addresses
      healthcheck := o.changed.healthcheck || o.val.healthcheck != row.healthcheck
      exitCode := o.changed.exitCode || o.val.exitCode != row.exitCode
      startedAt := o.changed.startedAt || o.val.startedAt != row.startedAt
      disk := o.changed.disk || o.val.disk != row.disk }

/-- `_caught_up`: bring a queued operation's object up to date; `false` if the row is gone. -/
def caughtUp (u : Uuid) : Prog World Exn Bool := do
  let current ← freshRecord env u
  match current with
  | none => pure false
  | some row => do
      assign u (catchUp row)
      pure true

/-- A queued operation: nothing is done when the record is gone by the time it runs. -/
def whenCaughtUp (u : Uuid) (op : Prog World Exn Unit) : Prog World Exn Unit := do
  let there ← caughtUp env u
  onlyIf there op

/-! ## Create -/

def volumesNotAvailable : String :=
  "Volumes did not reach available status after " ++ toString env.timeoutAvailable ++ " seconds"

/-- The loop of `_wait_for_volumes_available`. -/
def pollAvailable : Nat → List VolMap → Prog World Exn Bool
  | _, [] => pure true
  | 0, _ :: _ => pure false
  | n + 1, v :: vs => do
      let state ← ask env (.isVolumeAvailable v.id) fun s => env.volume s.tick
      match state with
      | .ready => pollAvailable n vs
      | .error => pure false
      | .notYet => pollAvailable n (v :: vs)

/-- `_wait_for_volumes_available`. -/
def waitForVolumesAvailable (vols : RequestedVolumes) (x : Subject) : Prog World Exn Unit := do
  let volmaps := vols.flatMap (·.2)
  let failure ← tryExcept
    (do let available ← pollAvailable env env.polls volmaps
        pure (if available then none else some (volumesNotAvailable env)))
    (fun e => pure (some (reasonFor e)))
  match failure with
  | none => pure ()
  | some msg => do
      forEach (volmaps.filter (·.autoRemove)) fun v => swallow (call env (.deleteVolume v.id))
      failContainer env failDepth x msg true
      raise { cls := .conflict, text := msg }

/-- `_attach_volume`. -/
def attachVolume (v : VolMap) : Prog World Exn Unit :=
  reraising
    (call env (.attachVolume v.id) fun s => { s with connected := v.volumeId :: s.connected })
    fun _ => do
      onlyIf v.autoRemove (swallow (call env (.deleteVolume v.id)))
      call env (.destroyVolmap v.id) fun s =>
        { s with volmaps := s.volmaps.filter (·.id ≠ v.id) }

/-- `VolumeMapping.create` for the record of `u`.  The mapping refers to its row, which has to
exist. -/
def createVolmap (u : Uuid) (v : VolMap) : Prog World Exn Unit := fun s =>
  match s.db u with
  | none => (.raise referenceError, s)
  | some _ => call env (.createVolmap v.id)
      (fun s => { s with volmaps := { v with containerUuid := u } :: s.volmaps }) s

theorem wp_createVolmap {u : Uuid} {v : VolMap} {s : World} {Q : Result Exn Unit → World → Prop}
    (hgone : s.db u = none → Q (.raise referenceError) s)
    (hthere : s.db u ≠ none → wp (call env (.createVolmap v.id) fun s =>
      { s with volmaps := { v with containerUuid := u } :: s.volmaps }) Q s) :
    wp (createVolmap env u v) Q s := by
  unfold wp createVolmap
  cases hrow : s.db u with
  | none => exact hgone hrow
  | some row => exact hthere (by rw [hrow]; nofun)

/-- `_attach_volumes` of a record that is not a capsule.  A volume of a capsule that an
earlier member has connected is not connected again. -/
def attachVolumesOf (vols : RequestedVolumes) (x : Subject) (isMember : Bool) :
    Prog World Exn Unit :=
  reraising
    (forEach (vols.of x.uuid) fun v => do
      createVolmap env x.uuid v
      let connected ← read fun s => s.connected.contains v.volumeId
      if connected && isMember then pure () else attachVolume env v)
    fun e => failContainer env failDepth x (reasonFor e) true

/-- `_attach_volumes`. -/
def attachVolumes (vols : RequestedVolumes) : Subject → Prog World Exn Unit
  | .capsule c =>
      reraising
        (do forEach c.initContainers fun m => attachVolumesOf env vols (.member m) true
            forEach c.containers fun m => attachVolumesOf env vols (.member m) true)
        fun e => failContainer env failDepth (.capsule c) (reasonFor e) true
  | .container u => attachVolumesOf env vols (.container u) false
  | .member u => attachVolumesOf env vols (.member u) true

/-- Fail the create over what was asked for. -/
def refuse (x : Subject) (msg : String) : Prog World Exn Unit := do
  failContainer env failDepth x msg true
  raise { cls := .invalid, text := msg }

def diskTooSmall : String :=
  "Disk size cannot be smaller than " ++ toString env.baseSize ++ "."
def cannotApply (options : List String) : String :=
  "This host cannot apply " ++ ", ".intercalate options ++
    ", so the container was not created rather than started without them."
def noDiskQuota : String := "Your host does not support disk quota feature."

/-- `_check_support_disk_quota`. -/
def checkSupportDiskQuota (x : Subject) : Prog World Exn Unit := do
  call env .getHostDefaultBaseSize
  let disk ← obj x.uuid (·.disk)
  if env.baseSize ≠ 0 ∧ disk = 0 then
    assign x.uuid (Obj.setDisk (max env.baseSize env.defaultDisk))
  else
    onlyIf (env.baseSize ≠ 0 ∧ disk < env.baseSize) (refuse env x (diskTooSmall env))
    let unenforceable ← ask env .unenforceableLimits fun s =>
      env.unenforceable (s.mem x.uuid).val
    onlyIf (unenforceable ≠ []) (refuse env x (cannotApply unenforceable))
    call env .nodeSupportDiskQuota
    onlyIf (env.diskQuota = false ∧ disk ≠ 0) (refuse env x noDiskQuota)
    call env .nodeSupportDiskQuota
    onlyIf (env.diskQuota = true ∧ disk = 0) (assign x.uuid (Obj.setDisk env.defaultDisk))

/-- `ComputeNodeTracker.container_claim`.  Whether the claim is a real one: a record that
asks for nothing gets a `NopClaim`. -/
def containerClaim (u : Uuid) (pci : Bool) : Prog World Exn Bool := do
  let asks ← obj u fun r => r.memory ≠ 0 || r.cpu ≠ 0 || pci || r.disk ≠ 0
  if !asks then pure false
  else
    call env .getComputeNode
    call env (.claimTest u)
    call env (.claimPci u)
    assign u (Obj.setHost (some env.host))
    save env u
    call env .updateNode
    pure true

/-- `with claim:`.  A real claim is aborted when its body raises. -/
def withClaim (real : Bool) (body : Prog World Exn Unit) : Prog World Exn Unit :=
  if real then reraising body fun _ => call env .updateNode else body

/-- The pull of `_do_container_create_base`, for a driver that does not pull images itself. -/
def pullImage (x : Subject) : Prog World Exn Unit :=
  reraising
    (do call env (.pullImage x.uuid)
        onlyIf (env.imageLoaded = false) (call env (.loadImage x.uuid)))
    (failFor env x Reasons.imageNotPulled false)

/-- The driver's create, by the class of the record.  A capsule is started by being
created. -/
def driverCreate (d : Drivers) (nets : List RequestedNetwork) (vols : RequestedVolumes) :
    Subject → Prog World Exn Unit
  | .capsule c => do
      d.capsuleDriver.createCapsule c nets vols
      let status ← obj c.uuid (·.status)
      let now ← read fun s => env.now s.tick
      onlyIf (status = .running) (assign c.uuid (Obj.setStartedAt (some now)))
  | .container u => d.driver.create u nets vols
  | .member _ => pure ()

/-- `_get_driver(container).pulls_own_images`. -/
def pullsOwnImages (d : Drivers) : Subject → Bool
  | .container _ => d.driver.pullsOwnImages
  | _ => d.capsuleDriver.pullsOwnImages

/-- The last `try` of `_do_container_create_base`. -/
def build (d : Drivers) (x : Subject) (nets : List RequestedNetwork) (vols : RequestedVolumes) :
    Prog World Exn Unit :=
  reraising
    (do onlyIf env.glance (call env (.readTarImage x.uuid))
        driverCreate env d nets vols x)
    (failFor env x Reasons.notCreated true)

/-- What `_do_container_create_base` does while it owns the record. -/
def createOwned (d : Drivers) (x : Subject) (nets : List RequestedNetwork)
    (vols : RequestedVolumes) : Prog World Exn Unit := do
  call env (.parseImageName x.uuid)
  call env (.imagePullPolicy x.uuid)
  onlyIf (pullsOwnImages d x = false) (pullImage env x)
  save env x.uuid
  build env d x nets vols

/-- `_do_container_create_base`. -/
def doContainerCreateBase (d : Drivers) (x : Subject) (nets : List RequestedNetwork)
    (vols : RequestedVolumes) : Prog World Exn Unit :=
  updateTaskState env x.uuid .containerCreating (createOwned env d x nets vols)

/-- The create inside its claim. -/
def claimAndCreate (d : Drivers) (x : Subject) (nets : List RequestedNetwork)
    (vols : RequestedVolumes) (pci : Bool) : Prog World Exn Unit := do
  let real ← containerClaim env x.uuid pci
  withClaim env real (doContainerCreateBase env d x nets vols)

/-- The two handlers of `_do_container_create`. -/
def createFailed (x : Subject) (e : Exn) : Prog World Exn Unit :=
  if e.cls = .resourcesUnavailable then failFor env x Reasons.notCreated true e
  else swallow (deleteAllocation env x.uuid)

/-- `_do_container_create`. -/
def doContainerCreate (d : Drivers) (x : Subject) (nets : List RequestedNetwork)
    (vols : RequestedVolumes) (pci : Bool) : Prog World Exn Unit :=
  reraising (claimAndCreate env d x nets vols pci) (createFailed env x)

/-! ## The other operations -/

/-- What `_do_container_start` does while it owns the record. -/
def startOwned (d : Drivers) (u : Uuid) : Prog World Exn Unit :=
  reraising
    (do d.driver.start u
        let now ← read fun s => env.now s.tick
        assign u (Obj.setStartedAt (some now))
        save env u)
    (failFor env (.container u) Reasons.notStarted false)

/-- `_do_container_start`. -/
def doContainerStart (d : Drivers) (u : Uuid) : Prog World Exn Unit :=
  updateTaskState env u .containerStarting (startOwned env d u)

/-- The thread of `container_create`, up to the start. -/
def createSteps (d : Drivers) (x : Subject) (nets : List RequestedNetwork)
    (vols : RequestedVolumes) (pci : Bool) : Prog World Exn Unit := do
  waitForVolumesAvailable env vols x
  attachVolumes env vols x
  checkSupportDiskQuota env x
  doContainerCreate env d x nets vols pci

/-- The thread of `container_create`. -/
def containerCreate (d : Drivers) (x : Subject) (nets : List RequestedNetwork)
    (vols : RequestedVolumes) (pci run : Bool) : Prog World Exn Unit := do
  createSteps env d x nets vols pci
  onlyIf run (doContainerStart env d x.uuid)

/-- The loop of `_get_network_info`. -/
def networkInfoOf : List (NetId × List Addr) → Prog World Exn (List RequestedNetwork)
  | [] => pure []
  | (net, addrs) :: rest =>
      match addrs with
      | [] => raise { cls := .other, text := "list index out of range" }
      | a :: _ => do
          call env (.showPort a.port)
          call env (.showNetwork net)
          let nets ← networkInfoOf rest
          pure ({ network := net, port := some a.port,
                  preserveOnDelete := a.preserveOnDelete } :: nets)

/-- `_get_network_info`. -/
def getNetworkInfo (addresses : List (NetId × List Addr)) :
    Prog World Exn (List RequestedNetwork) := networkInfoOf env addresses

/-- Every port of the record marked as not to be deleted.  The dictionaries are changed in
place, so the field does not count as assigned. -/
def preservePorts (o : Obj) : Obj :=
  { o with val := { o.val with
      addresses := o.val.addresses.map fun (net, addrs) =>
        (net, addrs.map fun a => { a with preserveOnDelete := true }) } }

/-- What `_do_container_rebuild` does up to the start. -/
def rebuildSteps (d : Drivers) (u : Uuid) : Prog World Exn Unit := do
  let volmaps ← ask env (.listVolmaps u) fun s => s.volmaps.filter (·.containerUuid = u)
  let addresses ← obj u (·.addresses)
  let nets ← reraising (getNetworkInfo env addresses)
    (failFor env (.container u) Reasons.notRebuilt false)
  let there ← d.driver.checkContainerExist u
  onlyIf there do
    assign u preservePorts
    reraising (d.driver.delete u true) (failFor env (.container u) Reasons.notRebuilt false)
  reraising
    (do doContainerCreateBase env d (.container u) nets [(u, volmaps)]
        assign u (Obj.setStatus .created)
        assign u (Obj.setStatusReason none)
        save env u)
    (failFor env (.container u) Reasons.notRebuilt false)

/-- What `_do_container_rebuild` does while it owns the record. -/
def rebuildOwned (d : Drivers) (u : Uuid) (run : Bool) : Prog World Exn Unit := do
  rebuildSteps env d u
  onlyIf run (doContainerStart env d u)

/-- `_do_container_rebuild`. -/
def doContainerRebuild (d : Drivers) (u : Uuid) (run : Bool) : Prog World Exn Unit :=
  updateTaskState env u .containerRebuilding (rebuildOwned env d u run)

/-- The driver's delete, by the class of the record. -/
def driverDelete (d : Drivers) (force : Bool) : Subject → Prog World Exn Unit
  | .capsule c => d.capsuleDriver.deleteCapsule c force
  | .container u => d.driver.delete u force
  | .member _ => pure ()

/-- What `_do_container_delete` does while it owns the record. -/
def deleteOwned (d : Drivers) (x : Subject) (force : Bool) : Prog World Exn Unit := do
  reraisingIf (!force) (driverDelete d force x) (failFor env x Reasons.notDeleted false)
  detachAll env (!force) x

/-- `_do_container_delete`. -/
def doContainerDelete (d : Drivers) (x : Subject) (force : Bool) : Prog World Exn Unit := do
  let _held ← freshRecord env x.uuid
  updateTaskState env x.uuid .containerDeleting (deleteOwned env d x force)
  swallow (call env (.removeUsage x.uuid))
  releaseAllocation env x
  destroy env x.uuid (members x)

/-- `forget_abandoned`. -/
def forgetAbandoned (u : Uuid) : Prog World Exn Unit :=
  modify fun s => { s with abandoned := s.abandoned.filter (· ≠ u) }

/-- The operations the manager runs on a record that exists. -/
inductive Operation where
  | start | stop | reboot | pause | unpause | kill
  | rebuild (run : Bool)
  | delete (force : Bool)
deriving DecidableEq

/-- An operation that logs what its driver raises and ends. -/
def quietly (u : Uuid) (t : TaskState) (method : Uuid → Prog World Exn Unit) :
    Prog World Exn Unit :=
  swallow (updateTaskState env u t (method u))

/-- The thread the manager spawns for an operation, once it has the record's lock. -/
def thread (d : Drivers) (x : Subject) : Operation → Prog World Exn Unit
  | .start => whenCaughtUp env x.uuid (doContainerStart env d x.uuid)
  | .stop => whenCaughtUp env x.uuid (quietly env x.uuid .containerStopping d.driver.stop)
  | .reboot => whenCaughtUp env x.uuid (quietly env x.uuid .containerRebooting d.driver.reboot)
  | .pause => whenCaughtUp env x.uuid (quietly env x.uuid .containerPausing d.driver.pause)
  | .unpause =>
      whenCaughtUp env x.uuid (quietly env x.uuid .containerUnpausing d.driver.unpause)
  | .kill => whenCaughtUp env x.uuid (quietly env x.uuid .containerKilling d.driver.kill)
  | .rebuild run => whenCaughtUp env x.uuid (doContainerRebuild env d x.uuid run)
  | .delete force =>
      let doIt := whenCaughtUp env x.uuid (doContainerDelete env d x force)
      match x with
      | .capsule c => tryFinally doIt (forgetAbandoned c.uuid)
      | _ => doIt

/-! ## Start-up -/

/-- `_being_deleted`. -/
def beingDeleted (r : Record) : Bool :=
  r.status == .deleting || r.taskState == some .containerDeleting

/-- The task states of an operation that start-up gives up on. -/
def givenUp : Option TaskState → Bool
  | some .containerCreating | some .imagePulling | some .networkAttaching
  | some .networkDetaching | some .sgAdding | some .sgRemoving => true
  | _ => false

/-- What `_init_container` does with a record. -/
inductive Startup where
  /-- The record is set to Error. -/
  | fail
  /-- The operation is run again, on the object with its `task_state` set to `None`. -/
  | resume (op : Operation)
  /-- `container_kill` is called without its `signal`, which raises. -/
  | typeError
  | nothing
deriving DecidableEq

/-- The branches of `_init_container`. -/
def initContainer (r : Record) : Startup :=
  if r.status = .creating ∨ givenUp r.taskState then .fail
  else if beingDeleted r then .resume (.delete true)
  else
    match r.taskState with
    | some .containerRebooting => .resume .reboot
    | some .containerStopping => .resume .stop
    | some .containerStarting => .resume .start
    | some .containerPausing => .resume .pause
    | some .containerUnpausing => .resume .unpause
    | some .containerKilling => .typeError
    | _ => .nothing

/-- The object start-up hands to a resumed operation: the row, with `task_state` set to
`None` in memory. -/
def resumedObj (r : Record) : Obj := (Obj.of r).setTaskState none

end Manager

end Zun
