import Zun.Container.Cri.Runtime

/-!
# Building and removing capsules

`create_capsule` of `zun/container/cri/driver.py` with everything it calls: the port and the
sandbox, the init containers and sidecars with their waits and retries, the members, and the
undo.  Then the rebuild of a capsule whose sandbox died, and `delete_capsule`.

The loops of the source that have no limit are followed for `env.patience` rounds.  The back-off
between two tries is a number of looks, five seconds apart, and so a loop with a limit.

A capsule or a container plays the owner of a sandbox.  Its `container_id` is the id of the
sandbox.  A container of its own has only one such field, and it holds the id of the sandbox
until the container is made.
-/

namespace Zun

open Effect Prog

namespace Cri

variable (env : Env)

/-! ## The sandbox and its port -/

/-- `_write_cni_metadata`. -/
def writeCniMetadata (u : Uuid) (nets : List RequestedNetwork) : Prog World Exn Unit := do
  call env (.securityGroups u)
  match nets with
  | [] => raise { cls := .other, text := "list index out of range" }
  | net :: _ => do
      let addrs ← Neutron.createOrUpdatePort env u net
      assign u (Obj.setAddresses [(net.network, addrs)])
      call env (.showNetwork net.network)
      forEach addrs fun a => call env (.showSubnet a.port)
      call env (.osVif u)
      save env u

/-- `_create_pod_sandbox`. -/
def createPodSandbox (u : Uuid) (nets : List RequestedNetwork) : Prog World Exn Unit := do
  writeCniMetadata env u nets
  call env (.applyPodCeiling u)
  runPodSandbox env u
  let pod ← read fun s => s.sandboxes.head?.map (·.id)
  assign u (Obj.setContainerId pod)
  call env (.applyHostIoLimits (pod.getD 0))

/-- Every address of a record. -/
def addrsOf (r : Record) : List Addr := r.addresses.flatMap (·.2)

/-- `_delete_neutron_ports`. -/
def deleteNeutronPorts (u : Uuid) : Prog World Exn Unit := do
  let r ← obj u id
  onlyIf (r.addresses ≠ [])
    (Neutron.deleteOrUnbindPorts env (Neutron.allPorts (addrsOf r)) (Neutron.ownPorts (addrsOf r)))

/-- The first half of `_undo_create`. -/
def undoSandbox (u : Uuid) : Prog World Exn Unit := do
  let pod ← obj u (·.containerId)
  match pod with
  | none => pure ()
  | some pod =>
      swallow do
        deleteSandbox env pod
        assign u (Obj.setContainerId none)

/-- The second half of `_undo_create`. -/
def undoPorts (u : Uuid) : Prog World Exn Unit := do
  let addresses ← obj u (·.addresses)
  onlyIf (addresses ≠ []) (swallow do
    deleteNeutronPorts env u
    assign u (Obj.setAddresses []))

/-- `_undo_create`. -/
def undoCreate (u : Uuid) : Prog World Exn Unit := do
  undoSandbox env u
  undoPorts env u

/-! ## One container -/

/-- `_stop_if_abandoned`. -/
def stopIfAbandoned (u : Uuid) : Prog World Exn Unit := do
  let abandoned ← read fun s => s.abandoned.contains u
  onlyIf abandoned (raise { cls := .capsuleCreateAbandoned })

/-- `_create_container`, in the sandbox on the record of `owner`. -/
def createContainerIn (owner u : Uuid) (start : Bool) (attempt : Option Nat) :
    Prog World Exn Unit := do
  call env (.criPullImage u)
  stopIfAbandoned owner
  call env (.containerConfig u)
  let pod ← idOf owner
  let tally ← obj u (·.restartCount)
  createContainer env pod u (attempt.getD tally)
  let made ← read fun s => s.containers.head?.map (·.id)
  assign u (Obj.setContainerId made)
  save env u
  onlyIf start (startContainer env (made.getD 0))

/-- A member that was started is put on the record as running. -/
def recordRunning (u : Uuid) : Prog World Exn Unit := do
  assign u (Obj.setStatus .running)
  recordStart env u
  save env u

/-- A member that was started anew is put on the record as running, without the mark of the
run before. -/
def recordNewRun (u : Uuid) : Prog World Exn Unit := do
  assign u (Obj.setStatus .running)
  assign u (Obj.setStatusDetail none)
  recordStart env u
  save env u

/-- Count one more restart of a member. -/
def bumpTally (u : Uuid) : Prog World Exn Unit :=
  assign u fun o => o.setProbeState
    { o.val.healthcheck.state with restarts := some (o.val.restartCount + 1) }

/-- Count some more restarts of a member and forget everything else about its probes. -/
def resetProbes (u : Uuid) (more : Nat) : Prog World Exn Unit :=
  assign u fun o => o.setProbeState { restarts := some (o.val.restartCount + more) }

/-- `_restart_container`.  Whether the container was replaced. -/
def restartContainer (owner u : Uuid) : Prog World Exn Bool := do
  let old ← idOf u
  bumpTally u
  tryExcept
    (do despiteRpc (stopContainer env old)
        call env (.listVolmaps u)
        createContainerIn env owner u true none
        despiteRpc (removeContainer env old)
        pure true)
    fun _ => pure false

/-! ## Probes -/

/-- The probes. -/
inductive ProbeKind where
  | startup | readiness | liveness
deriving DecidableEq

def ProbeState.count (state : ProbeState) : ProbeKind → ProbeCount
  | .startup => state.startup
  | .readiness => state.readiness
  | .liveness => state.liveness

def ProbeState.setCount (state : ProbeState) (kind : ProbeKind) (c : ProbeCount) : ProbeState :=
  match kind with
  | .startup => { state with startup := c }
  | .readiness => { state with readiness := c }
  | .liveness => { state with liveness := c }

/-- `x or d` of a number. -/
def orElse (x d : Nat) : Nat := if x = 0 then d else x

/-- `_probe_due`. -/
def probeDue (state : ProbeState) (kind : ProbeKind) (probe : Probe) (r : Record) (now : Nat) :
    Bool :=
  match (ProbeState.count state kind).next, r.startedAt <|> r.createdAt with
  | some due, _ => due ≤ now
  | none, some started => started + probe.initialDelaySeconds ≤ now
  | none, none => true

/-- `_schedule_next`. -/
def scheduleNext (state : ProbeState) (kind : ProbeKind) (probe : Probe) (now : Nat) : ProbeState :=
  ProbeState.setCount state kind
    { ProbeState.count state kind with next := some (now + max (orElse probe.periodSeconds 10) 1) }

/-- `_probe_passed`: the verdict and the new counters. -/
def probePassed (u : Uuid) (probe : Probe) (state : ProbeState) (kind : ProbeKind) :
    Prog World Exn (Bool × ProbeState) := do
  let id ← idOf u
  let ok ← ask env (.runProbe id) fun s => env.probe s.tick
  let c := ProbeState.count state kind
  if ok then
    let successes := c.successes.getD 0 + 1
    pure (decide (orElse probe.successThreshold 1 ≤ successes),
      ProbeState.setCount state kind { c with failures := some 0, successes := some successes })
  else
    pure (false, ProbeState.setCount state kind
      { c with successes := some 0, failures := some (c.failures.getD 0 + 1) })

/-- `_probe_failed_enough`. -/
def probeFailedEnough (probe : Probe) (state : ProbeState) (kind : ProbeKind) : Bool :=
  orElse probe.failureThreshold 3 ≤ (ProbeState.count state kind).failures.getD 0

/-- `_save_probe_state`. -/
def saveProbeState (u : Uuid) (state : ProbeState) : Prog World Exn Unit := do
  let old ← obj u (·.healthcheck.state)
  onlyIf (old ≠ state) do
    assign u (Obj.setProbeState state)
    save env u

/-! ## Init containers and sidecars -/

/-- `_init_backoff`. -/
def initBackoff (failures : Nat) : Nat := min (10 * Nat.pow 2 (failures - 1)) 300

/-- Whether a sidecar that is down may be restarted now. -/
def backoffOver (state : ProbeState) (restarts now : Nat) : Bool :=
  match state.lastRestart with
  | none => true
  | some last => last = 0 || initBackoff restarts ≤ now - last

/-- The restart of `_tend_sidecars`. -/
def restartSidecar (c m : Uuid) : Prog World Exn Unit := do
  let done ← restartContainer env c m
  let now ← read fun s => env.now s.tick
  onlyIf done do
    assign m fun o => o.setProbeState
      { restarts := some o.val.restartCount, lastRestart := some now }
    recordNewRun env m

/-- One sidecar of `_tend_sidecars`. -/
def tendSidecar (c m : Uuid) : Prog World Exn Unit :=
  swallow do
    showContainer env m
    let r ← obj m id
    let now ← read fun s => env.now s.tick
    onlyIf (r.status ≠ .running ∧ backoffOver r.healthcheck.state r.restartCount now = true)
      (restartSidecar env c m)

/-- `_tend_sidecars`. -/
def tendSidecars (c : Uuid) (sidecars : List Uuid) : Prog World Exn Unit :=
  forEach sidecars (tendSidecar env c)

def unexpectedStatus (status : Status) : Exn where
  cls := .zunException
  text := "Container has unexpected status: " ++ status.label

/-- `_wait_for_init_container`. -/
def waitForInitContainer (c m : Uuid) (sidecars : List Uuid) : Prog World Exn Unit :=
  loop env.patience (fun _ : Unit => do
    stopIfAbandoned c
    let status ← tryExcept (showStatus env m) fun e =>
      if e.isRpc then pure .running else raise e
    if status = .stopped then pure (.inr ())
    else
      onlyIf (status ≠ .running) (raise (unexpectedStatus status))
      tendSidecars env c sidecars
      pure (.inl ())) ()

/-- `_wait_to_retry`. -/
def waitToRetry (c : Uuid) (sidecars : List Uuid) (delay : Nat) (why : String) :
    Prog World Exn Unit := do
  assign c (Obj.setStatusReason
    (some (why ++ "; trying again in " ++ toString delay ++ " seconds")))
  save env c
  forEach (List.range ((delay + 4) / 5)) fun _ => do
    stopIfAbandoned c
    tendSidecars env c sidecars
  stopIfAbandoned c

/-- `_discard_for_retry`. -/
def discardForRetry (m : Uuid) : Prog World Exn Unit := do
  resetProbes m 1
  despiteRpc do
    let id ← idOf m
    stopContainer env id
    removeQuietly env id

/-- What is said of an init container that failed. -/
def initFailed (m : Uuid) (code : Int) : String :=
  "Init container " ++ toString m ++ " failed with exit:" ++ toString code

/-- The code of an exit that is a failure. -/
def failureOf : Option Detail → Option Int
  | some (.exit code) => if code = 0 then none else some code
  | _ => none

/-- `_run_init_container`, counting the failures. -/
def runInitContainer (c m : Uuid) (sidecars : List Uuid) : Prog World Exn Unit :=
  loop env.patience (fun failures : Nat => do
    assign m (Obj.setStatusDetail none)
    assign m (Obj.setExitCode none)
    createContainerIn env c m true none
    recordRunning env m
    waitForInitContainer env c m sidecars
    save env m
    let detail ← obj m (·.statusDetail)
    match failureOf detail with
    | none => pure (.inr ())
    | some code => do
        let again ← obj c (·.restarts)
        onlyIf (again = false) (raise { cls := .initContainerFailed, text := initFailed m code })
        waitToRetry env c sidecars (initBackoff (failures + 1)) (initFailed m code)
        discardForRetry env m
        pure (.inl (failures + 1))) 0

/-- `_sidecar_started`, with the copy of the probe state it works on. -/
def sidecarStarted (c m : Uuid) (sidecars : List Uuid) : Prog World Exn Bool := do
  let r ← obj m id
  match r.healthcheck.probes.startup with
  | none => pure true
  | some probe =>
      loop env.patience (fun state : ProbeState => do
        stopIfAbandoned c
        let status ← showStatus env m
        if status ≠ .running then pure (.inr false)
        else
          let now ← read fun s => env.now s.tick
          let r ← obj m id
          if probeDue state .startup probe r now then
            let (passed, state) ←
              probePassed env m probe (scheduleNext state .startup probe now) .startup
            if passed then
              saveProbeState env m { state with startupPassed := true }
              pure (.inr true)
            else
              saveProbeState env m state
              if probeFailedEnough probe state .startup then pure (.inr false)
              else
                tendSidecars env c sidecars
                pure (.inl state)
          else
            tendSidecars env c sidecars
            pure (.inl state)) r.healthcheck.state

/-- `_start_sidecar`, counting the failures. -/
def startSidecar (c m : Uuid) (sidecars : List Uuid) : Prog World Exn Unit := do
  resetProbes m 0
  loop env.patience (fun failures : Nat => do
    createContainerIn env c m true none
    recordNewRun env m
    let started ← sidecarStarted env c m sidecars
    if started then pure (.inr ())
    else
      waitToRetry env c sidecars (initBackoff (failures + 1))
        ("Sidecar container " ++ toString m ++ " did not start")
      discardForRetry env m
      pure (.inl (failures + 1))) 0

/-- The loop of `_run_init_members`. -/
def runInitEach (c : Uuid) : List Uuid → List Uuid → Prog World Exn Unit
  | [], _ => pure ()
  | m :: ms, sidecars => do
      stopIfAbandoned c
      let sidecar ← obj m (·.isSidecar)
      if sidecar then
        startSidecar env c m sidecars
        runInitEach c ms (sidecars ++ [m])
      else
        runInitContainer env c m sidecars
        runInitEach c ms sidecars

/-- `_run_init_members`. -/
def runInitMembers (c : Capsule) : Prog World Exn Unit := do
  runInitEach env c.uuid c.initContainers []
  let reason ← obj c.uuid (·.statusReason)
  onlyIf reason.isSome do
    assign c.uuid (Obj.setStatusReason none)
    save env c.uuid

/-! ## Capsules -/

/-- The `try` of `create_capsule`. -/
def buildCapsule (c : Capsule) (nets : List RequestedNetwork) : Prog World Exn Unit := do
  createPodSandbox env c.uuid nets
  save env c.uuid
  runInitMembers env c
  forEach c.containers fun m => do
    stopIfAbandoned c.uuid
    createContainerIn env c.uuid m true none
    recordRunning env m

/-- `create_capsule`. -/
def createCapsule (c : Capsule) (nets : List RequestedNetwork) (_vols : RequestedVolumes) :
    Prog World Exn Unit := do
  reraising (buildCapsule env c nets) fun _ => undoCreate env c.uuid
  assign c.uuid (Obj.setStatus .running)

/-- The networks of a record, as a rebuild asks for them again. -/
def networksOf (r : Record) : List RequestedNetwork :=
  r.addresses.map fun (net, addrs) =>
    { network := net, port := addrs.head?.map (·.port)
      preserveOnDelete := (addrs.head?.map (·.preserveOnDelete)).getD false }

/-- One member of `_rebuild_capsule`. -/
def rebuildMember (c m : Uuid) : Prog World Exn Unit := do
  stopIfAbandoned c
  call env (.listVolmaps m)
  bumpTally m
  createContainerIn env c m true none
  recordNewRun env m

def noNetwork (u : Uuid) : Exn where
  cls := .zunException
  text := "Capsule " ++ toString u ++ " records no network to rebuild onto"

/-- `_rebuild_capsule`. -/
def rebuildCapsule (c : Capsule) : Prog World Exn Unit := do
  let r ← obj c.uuid id
  deleteSandbox env (r.containerId.getD 0)
  onlyIf (r.addresses = []) (raise (noNetwork c.uuid))
  createPodSandbox env c.uuid (networksOf r)
  save env c.uuid
  runInitMembers env c
  forEach c.containers (rebuildMember env c.uuid)
  assign c.uuid (Obj.setStatus .running)
  assign c.uuid (Obj.setTaskState none)
  let now ← read fun s => env.now s.tick
  let started ← obj c.uuid (·.startedAt)
  onlyIf started.isNone (assign c.uuid (Obj.setStartedAt (some now)))
  save env c.uuid

/-- The sidecars of a capsule. -/
def sidecarsOf (c : Capsule) (s : World) : List Uuid :=
  c.initContainers.filter fun m => (s.mem m).val.isSidecar

/-- `_stop_in_pod_order`. -/
def stopInPodOrder (c : Capsule) : Prog World Exn Unit := do
  let sidecars ← read (sidecarsOf c)
  onlyIf (sidecars ≠ []) (forEach (c.containers ++ sidecars.reverse) fun m => do
    let id ← obj m (·.containerId)
    onlyIf id.isSome (despiteRpc (stopContainer env (id.getD 0))))

/-- `delete_capsule`. -/
def deleteCapsule (c : Capsule) (force : Bool) : Prog World Exn Unit := do
  let pod ← obj c.uuid (·.containerId)
  match pod with
  | none => pure ()
  | some pod => do
      onlyIf (force = false) (stopInPodOrder env c)
      deleteSandbox env pod
      deleteNeutronPorts env c.uuid

/-- `CriDriver`, as a capsule driver. -/
def capsuleDriver : CapsuleDriver where
  createCapsule := createCapsule env
  deleteCapsule := deleteCapsule env
  pullsOwnImages := true

end Cri

end Zun
