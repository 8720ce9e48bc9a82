import Zun.Container.Cri.Build

/-!
# Containers of their own, restarts and the sweep

The rest of `zun/container/cri/driver.py` that the manager runs: a container as a sandbox with
one container in it, the restart of one that has exited, the periodic sweep with its restart
policy and its probes, and the rebuild that the sweep hands to a thread of its own.

The sweep works on objects it has read at its beginning.  Where it takes a decision it reads
the row again under a lock, and then goes on with the object it holds.
-/

namespace Zun

open Effect Prog

namespace Cri

variable (env : Env)

/-! ## A container of its own -/

/-- `create`. -/
def create (u : Uuid) (nets : List RequestedNetwork) (_vols : RequestedVolumes) :
    Prog World Exn Unit := do
  call env (.refuseOptions u)
  createPodSandbox env u nets
  createContainerIn env u u false none
  assign u (Obj.setStatus .created)
  assign u (Obj.setStatusReason none)

/-- `check_container_exist`. -/
def checkContainerExist (u : Uuid) : Prog World Exn Bool := do
  let id ← obj u (·.containerId)
  match id with
  | none => pure false
  | some id =>
      tryExcept
        (do let found ← listContainer env id
            pure found.isSome)
        fun e => if e.isRpc then pure false else raise e

/-- What `delete` does with the sandbox, or with the container when no sandbox is found. -/
def deleteBody (u : Uuid) (pod : Option RuntimeId) : Prog World Exn Unit := do
  let id ← obj u (·.containerId)
  match pod, id with
  | some pod, _ => deleteSandbox env pod
  | none, some id => removeQuietly env id
  | none, none => pure ()

/-- `delete`. -/
def delete (u : Uuid) (_force : Bool) : Prog World Exn Unit := do
  let pod ← sandboxOf env u
  deleteBody env u pod
  deleteNeutronPorts env u

/-- `_carry_writable_layer`. -/
def carryWritableLayer (dead replacement : RuntimeId) : Prog World Exn Bool :=
  tryExcept
    (do call env (.writableLayer dead)
        call env (.writableLayer replacement)
        onlyIf env.layersFit (call env (.copyLayer dead replacement))
        pure env.layersFit)
    fun _ => pure false

def rebuiltReason : String :=
  "This container had exited, and the runtime does not start an exited container again. " ++
  "It was rebuilt from its image in the sandbox it died in, so its address and its volumes " ++
  "are unchanged and anything written inside the container itself is not."

def sandboxGone (u : Uuid) : Exn where
  cls := .zunException
  text := "The sandbox that held container " ++ toString u ++
    " is gone, so it cannot be started again"

/-- The new incarnation of `_restart_exited`, made in the sandbox and not started. -/
def makeReplacement (u : Uuid) (pod : RuntimeId) (dead : Option RuntimeId) (attempt : Nat) :
    Prog World Exn Unit := do
  assign u (Obj.setContainerId (some pod))
  reraising (createContainerIn env u u false (some attempt)) fun _ =>
    assign u (Obj.setContainerId dead)

/-- The start of `_restart_exited`. -/
def startReplacement (u : Uuid) (dead : Option RuntimeId) : Prog World Exn Unit := do
  let new ← idOf u
  reraising (startContainer env new) fun _ => assign u (Obj.setContainerId dead)

/-- `_restart_exited`. -/
def restartExited (u : Uuid) : Prog World Exn Unit := do
  let pod ← sandboxOf env u
  match pod with
  | none => raise (sandboxGone u)
  | some pod => do
      let dead ← obj u (·.containerId)
      call env (.listVolmaps u)
      let attempt ← attemptOf env (dead.getD 0)
      makeReplacement env u pod dead (attempt + 1)
      let new ← idOf u
      let carried ← carryWritableLayer env (dead.getD 0) new
      startReplacement env u dead
      removeQuietly env (dead.getD 0)
      assign u (Obj.setStatusReason (if carried then none else some rebuiltReason))

def neverCreated (u : Uuid) : Exn where
  cls := .zunException
  text := "Container " ++ toString u ++ " was never created on this host"

/-- `start`. -/
def start (u : Uuid) : Prog World Exn Unit := do
  let id ← obj u (·.containerId)
  match id with
  | none => raise (neverCreated u)
  | some id => do
      let rebuilt ← tryExcept (do startContainer env id; pure false) fun e =>
        if e.cls = .rpcError .containerExited then do
          restartExited env u
          pure true
        else raise e
      assign u (Obj.setStatus .running)
      onlyIf (rebuilt = false) (assign u (Obj.setStatusReason none))

/-- `stop`. -/
def stop (u : Uuid) : Prog World Exn Unit := do
  let id ← obj u (·.containerId)
  match id with
  | none => pure ()
  | some id => do
      stopContainer env id
      assign u (Obj.setStatus .stopped)
      assign u (Obj.setStatusReason none)
      assign u (Obj.setStatusDetail (some .stopped))

/-- `reboot`. -/
def reboot (u : Uuid) : Prog World Exn Unit := do
  stop env u
  start env u

/-- A call to the task service, and the status it leaves. -/
def taskCall (status : Status) (u : Uuid) : Prog World Exn Unit := do
  let id ← idOf u
  call env (.task id)
  assign u (Obj.setStatus status)
  assign u (Obj.setStatusReason none)

/-- `pause`. -/
def pause : Uuid → Prog World Exn Unit := taskCall env .paused

/-- `unpause`. -/
def unpause : Uuid → Prog World Exn Unit := taskCall env .running

/-- `kill`, which leaves the record alone. -/
def kill (u : Uuid) : Prog World Exn Unit := do
  let id ← idOf u
  call env (.task id)

/-- `CriDriver`, as a container driver. -/
def driver : ContainerDriver where
  create := create env
  delete := delete env
  start := start env
  stop := stop env
  reboot := reboot env
  pause := pause env
  unpause := unpause env
  kill := kill env
  checkContainerExist := checkContainerExist env
  pullsOwnImages := true

/-! ## The restart policy -/

/-- Whom the sweep looks at: a capsule, or a container that is its own only member. -/
inductive Owner where
  | capsule (c : Capsule)
  | own (u : Uuid)
deriving DecidableEq

def Owner.uuid : Owner → Uuid
  | .capsule c => c.uuid
  | .own u => u

def retriesSpent (code : Int) (limit : Nat) : String :=
  "This container exited with a non-zero code " ++ toString code ++
    " and its restart policy has used all " ++ toString limit ++
    " of its retries, so it was not started again."

/-- The owner got there first, or an operation is in flight. -/
def ownerFirst (fresh : Record) : Bool :=
  fresh.taskState.isSome || fresh.statusDetail == some .stopped ||
    fresh.status == .deleting || fresh.status == .deleted || fresh.status == .running

/-- What the policy says about an exit. -/
inductive Decision where
  | leave
  /-- The retries are spent, and the record is to say so. -/
  | spent (reason : String)
  | restart
deriving DecidableEq

/-- The part of `_restart_on_exit` that reads the policy of the object. -/
def decide (r : Record) : Decision :=
  match r.restartPolicy with
  | some { name := .onFailure, maximumRetryCount := limit } =>
      match r.exitCode with
      | none => .leave
      | some code =>
          if code = 0 then .leave
          else if limit ≠ 0 ∧ limit ≤ r.restartCount then .spent (retriesSpent code limit)
          else .restart
  | _ => .restart

/-- Hand a capsule whose sandbox died to a rebuild. -/
def handToRebuild (c : Capsule) : Prog World Exn Unit := do
  assign c.uuid (Obj.setStatus .rebuilding)
  save env c.uuid
  modify fun s => { s with rebuilds := c.uuid :: s.rebuilds }

/-- The restart of `_restart_on_exit` for a container of its own. -/
def restartOwn (u : Uuid) : Prog World Exn Bool := do
  let done ← tryExcept (do restartExited env u; pure true) fun _ => pure false
  onlyIf done (bumpTally u)
  pure done

/-- The restart of `_restart_on_exit` for a member of a capsule. -/
def restartMember (c : Capsule) (m : Uuid) : Prog World Exn Bool := do
  let pod ← obj c.uuid (·.containerId)
  let alive ← sandboxAlive env pod
  if alive then restartContainer env c.uuid m
  else do
    let sidecar ← read fun s => (sidecarsOf c s).contains m
    onlyIf (sidecar = false) (handToRebuild env c)
    pure false

/-- The restart of `_restart_on_exit`, by whom the member belongs to. -/
def restartFor (u : Uuid) : Owner → Prog World Exn Bool
  | .own _ => restartOwn env u
  | .capsule c => restartMember env c u

/-- The restart of `_restart_on_exit`, and the record of the new run. -/
def restartAndRecord (o : Owner) (u : Uuid) : Prog World Exn Bool := do
  let done ← restartFor env u o
  onlyIf done (recordNewRun env u)
  pure done

/-- What `_restart_on_exit` does under the lock of the member, on a fresh read. -/
def restartLocked (o : Owner) (u : Uuid) : Prog World Exn Bool := do
  let fresh ← freshRecord env u
  match fresh with
  | none => pure false
  | some fresh =>
      if ownerFirst fresh then pure false
      else do
        let r ← obj u id
        match decide r with
        | .leave => pure false
        | .spent reason => do
            onlyIf (r.statusReason ≠ some reason) do
              assign u (Obj.setStatusReason (some reason))
              save env u
            pure false
        | .restart => restartAndRecord env o u

/-- `_restart_on_exit`. -/
def restartOnExit (o : Owner) (u : Uuid) : Prog World Exn Bool := do
  let r ← obj u id
  if r.restarts = false ∨ r.taskState.isSome then pure false
  else restartLocked env o u

/-! ## The sweep -/

/-- What looking at a container came to. -/
inductive Look where
  | seen
  /-- The runtime does not know the container. -/
  | gone
  | failed
deriving DecidableEq

/-- The `try` of the sweep around `_show_container`. -/
def look (u : Uuid) : Prog World Exn Look :=
  tryExcept (do showContainer env u; pure .seen) fun e =>
    if e.isZun then pure .gone else pure .failed

/-- Whether the object carries the mark of an exit. -/
def exitMarked (r : Record) : Bool := Detail.isExit r.statusDetail

/-- The restart of a container that the runtime has forgotten.  Whether the sweep goes on with
the member. -/
def restartGone (o : Owner) (u : Uuid) : Prog World Exn Bool := do
  let r ← obj u id
  if exitMarked r then restartOnExit env o u else pure false

/-- Whether the sweep goes on with a member it has looked at. -/
def afterLook (o : Owner) (u : Uuid) : Look → Prog World Exn Bool
  | .failed => pure false
  | .gone => restartGone env o u
  | .seen => pure true

/-- The restart of a container that was seen stopped. -/
def restartStopped (o : Owner) (u : Uuid) : Prog World Exn Unit := do
  let r ← obj u id
  onlyIf (r.status = .stopped ∧ exitMarked r = true) do
    let _ ← restartOnExit env o u

/-- What the sweep found of one member. -/
structure Found where
  counted : Bool
  running : Bool
  changed : Bool
deriving DecidableEq

/-- The end of the sweep's turn of a member: what is new is saved. -/
def settle (u : Uuid) (old : Record) : Prog World Exn Found := do
  let r ← obj u id
  onlyIf (r.status ≠ old.status ∨ r.startedAt ≠ old.startedAt) (save env u)
  pure { counted := true, running := r.status == .running, changed := r.status != old.status }

/-- The sweep's turn of one member. -/
def sweepMember (o : Owner) (u : Uuid) : Prog World Exn Found := do
  let old ← obj u id
  let looked ← look env u
  let goOn ← afterLook env o u looked
  if goOn then do
    restartStopped env o u
    settle env u old
  else pure { counted := false, running := false, changed := false }

/-- The sweep's totals over some members. -/
structure Totals where
  counted : Nat := 0
  running : Nat := 0
  changed : Bool := false
deriving DecidableEq

/-- A member added to the totals.  Only main members are counted. -/
def Totals.add (t : Totals) (main : Bool) (f : Found) : Totals where
  counted := t.counted + (if main && f.counted then 1 else 0)
  running := t.running + (if main && f.counted && f.running then 1 else 0)
  changed := t.changed || f.changed

/-- The loop of the sweep over the members of a capsule, each with whether it is a main one. -/
def sweepMembers (o : Owner) : List (Uuid × Bool) → Totals → Prog World Exn Totals
  | [], t => pure t
  | (m, main) :: ms, t => do
      let status ← obj o.uuid (·.status)
      if status = .rebuilding then pure t
      else do
        let f ← sweepMember env o m
        sweepMembers o ms (t.add main f)

/-- `_mains_finished`, for one member. -/
def finished (r : Record) : Bool :=
  r.status == .stopped &&
    match r.restartPolicy with
    | some { name := .always, .. } | some { name := .unlessStopped, .. } => false
    | some { name := .onFailure, maximumRetryCount := limit } =>
        match r.exitCode with
        | none => true
        | some code => code == 0 || (limit != 0 && limit ≤ r.restartCount)
    | _ => true

/-- `_stop_sidecars`. -/
def stopSidecars (sidecars : List Uuid) : Prog World Exn Unit :=
  forEach sidecars.reverse fun m => do
    let r ← obj m id
    onlyIf (r.status = .running ∧ r.statusDetail ≠ some .stopped) do
      let stopped ← tryExcept (do stopContainer env (r.containerId.getD 0); pure true)
        fun e => if e.isRpc then pure false else raise e
      onlyIf stopped do
        assign m (Obj.setStatus .stopped)
        assign m (Obj.setStatusDetail (some .stopped))
        save env m

/-- The end of the sweep's turn of a capsule. -/
def rollUp (c : Capsule) (sidecars : List Uuid) (t : Totals) : Prog World Exn Unit := do
  let done ← read fun s => c.containers.all fun m => finished (s.mem m).val
  onlyIf (sidecars ≠ [] ∧ done = true) (stopSidecars env sidecars)
  let status ← obj c.uuid (·.status)
  let new := if t.running = t.counted then Status.running else .stopped
  onlyIf (status ≠ new) (assign c.uuid (Obj.setStatus new))
  onlyIf (status ≠ new ∨ t.changed = true) (save env c.uuid)

/-- The statuses under which an operation owns the capsule. -/
def midOperation (s : Status) : Bool :=
  s == .creating || s == .rebuilding || s == .deleting || s == .deleted

/-- The sweep's turn of a capsule. -/
def sweepCapsule (c : Capsule) : Prog World Exn Unit := do
  let status ← obj c.uuid (·.status)
  onlyIf (midOperation status = false) do
    let sidecars ← read (sidecarsOf c)
    let t ← sweepMembers env (.capsule c)
      (c.containers.map (·, true) ++ sidecars.map (·, false)) {}
    let status ← obj c.uuid (·.status)
    onlyIf (status ≠ .rebuilding ∧ t.counted ≠ 0) (rollUp env c sidecars t)

/-- The sweep's turn of a container of its own. -/
def sweepOwn (u : Uuid) : Prog World Exn Unit := do
  let status ← obj u (·.status)
  onlyIf (midOperation status = false) do
    let _ ← sweepMember env (.own u) u

/-- `update_containers_states`. -/
def updateContainersStates (os : List Owner) : Prog World Exn Unit :=
  forEach os fun
    | .capsule c => sweepCapsule env c
    | .own u => sweepOwn env u

/-! ## Probes of running containers -/

/-- `_restart_for_probe`, under the lock of the capsule. -/
def restartForProbe (c : Capsule) (m : Uuid) : Prog World Exn Bool := do
  let freshCapsule ← freshRecord env c.uuid
  let fresh ← freshRecord env m
  match freshCapsule, fresh with
  | some rc, some rm =>
      if rc.taskState = none ∧ rc.status = .running ∧ rm.taskState = none ∧ rm.status = .running
      then restartContainer env c.uuid m
      else pure false
  | _, _ => pure false

/-- The copy of the probe state after a restart for a probe: only the tally is kept of a
container that was replaced. -/
def afterRestart (c : Capsule) (m : Uuid) (state : ProbeState) : Prog World Exn ProbeState := do
  let done ← restartForProbe env c m
  let tally ← obj m (·.restartCount)
  pure (if done then { restarts := some tally } else state)

/-- A probe that has failed. -/
def onFailed (c : Capsule) (m : Uuid) (probe : Probe) (kind : ProbeKind) (state : ProbeState) :
    Prog World Exn ProbeState :=
  if probeFailedEnough probe state kind then afterRestart env c m state else pure state

/-- The readiness part of `_check_probes`. -/
def checkReadiness (m : Uuid) (probe : Option Probe) (now : Nat) (state : ProbeState) :
    Prog World Exn ProbeState := do
  let r ← obj m id
  match probe with
  | none => pure state
  | some probe =>
      if probeDue state .readiness probe r now then do
        let (ready, state) ←
          probePassed env m probe (scheduleNext state .readiness probe now) .readiness
        pure { state with ready := some ready }
      else pure state

/-- The liveness part of `_check_probes`. -/
def checkLiveness (c : Capsule) (m : Uuid) (probe : Option Probe) (now : Nat)
    (state : ProbeState) : Prog World Exn ProbeState := do
  let r ← obj m id
  match probe with
  | none => pure state
  | some probe =>
      if probeDue state .liveness probe r now then do
        let (passed, state) ←
          probePassed env m probe (scheduleNext state .liveness probe now) .liveness
        if passed then pure state else onFailed env c m probe .liveness state
      else pure state

/-- The readiness and liveness parts of `_check_probes`. -/
def checkRunning (c : Capsule) (m : Uuid) (probes : Probes) (now : Nat) (state : ProbeState) :
    Prog World Exn Unit := do
  let state ← checkReadiness env m probes.readiness now state
  let state ← checkLiveness env c m probes.liveness now state
  saveProbeState env m state

/-- `_check_probes`, with the copy of the probe state it works on. -/
def checkProbesOf (c : Capsule) (m : Uuid) : Prog World Exn Unit := do
  let r ← obj m id
  let now ← read fun s => env.now s.tick
  let state := r.healthcheck.state
  let probes := r.healthcheck.probes
  onlyIf (probes ≠ {})
    (match probes.startup with
      | some probe =>
          if state.startupPassed then checkRunning env c m probes now state
          else onlyIf (probeDue state .startup probe r now = true) do
            let (passed, state) ←
              probePassed env m probe (scheduleNext state .startup probe now) .startup
            if passed then checkRunning env c m probes now { state with startupPassed := true }
            else do
              let state ← onFailed env c m probe .startup state
              saveProbeState env m state
      | none => checkRunning env c m probes now state)

/-- `check_probes`, for one capsule. -/
def checkProbes (c : Capsule) : Prog World Exn Unit := do
  let status ← obj c.uuid (·.status)
  onlyIf (status = .running) do
    let sidecars ← read (sidecarsOf c)
    forEach (c.containers ++ sidecars) fun m => do
      let status ← obj m (·.status)
      onlyIf (status = .running) (swallow (checkProbesOf env c m))

/-! ## Rebuilds -/

/-- Read a row into the object of a thread. -/
def load (u : Uuid) : Prog World Exn Unit := do
  let row ← read fun s => s.db u
  match row with
  | some r => assign u fun _ => Obj.of r
  | none => pure ()

/-- Read a capsule and its members. -/
def loadCapsule (c : Capsule) : Prog World Exn Unit :=
  forEach (c.uuid :: (c.initContainers ++ c.containers)) load

/-- `CriDriver._being_deleted`. -/
def beingDeleted (r : Record) : Bool :=
  r.status == .deleting || r.status == .deleted || r.taskState == some .containerDeleting

/-- How a rebuild that failed ends: with the one who asked for it, or left to the sweep. -/
def rebuildFailed (c : Capsule) (onDone : Option (Option Exn → Prog World Exn Unit)) (e : Exn) :
    Prog World Exn Unit :=
  match onDone with
  | some done => do
      undoCreate env c.uuid
      done (some e)
  | none => do
      assign c.uuid (Obj.setStatus .stopped)
      save env c.uuid

/-- The rebuild of `_rebuild_under_lock`. -/
def rebuildOrFail (c : Capsule) (onDone : Option (Option Exn → Prog World Exn Unit)) :
    Prog World Exn Unit := do
  let failed ← tryExcept (do rebuildCapsule env c; pure none) fun e => pure (some e)
  match failed, onDone with
  | none, some done => done none
  | none, none => pure ()
  | some e, _ =>
      if e.cls = .capsuleCreateAbandoned then pure () else rebuildFailed env c onDone e

/-- `_rebuild_under_lock`, on objects of its own. -/
def rebuildUnderLock (c : Capsule) (onDone : Option (Option Exn → Prog World Exn Unit)) :
    Prog World Exn Unit := do
  let row ← freshRecord env c.uuid
  match row with
  | none => pure ()
  | some r =>
      onlyIf ((r.status = .rebuilding ∨ r.status = .creating) ∧ beingDeleted r = false) do
        loadCapsule c
        rebuildOrFail env c onDone

/-- `resume_capsule`.  Whether there was a sandbox to go by.  The rebuild has a thread of its
own. -/
def resumeCapsule (c : Capsule) (onDone : Option Exn → Prog World Exn Unit) :
    Prog World Exn Bool := do
  let pod ← obj c.uuid (·.containerId)
  if pod.isNone then
    undoCreate env c.uuid
    pure false
  else
    swallow (rebuildUnderLock env c (some onDone))
    pure true

end Cri

end Zun
