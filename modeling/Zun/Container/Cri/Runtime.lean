import Zun.Container.Driver

/-!
# The CRI runtime

The calls of the CRI that the driver makes, with what they do to the sandboxes and containers
on the node, and the small functions of `zun/container/cri/driver.py` right above them.

A container is made in a sandbox under a name and an attempt number, starts once, and is
gone when it is removed or when its sandbox is.  Whether a call is refused is the
environment's answer, and a runtime that refuses a taken name is one of the environments.
What the model itself refuses is what the runtime cannot do: to start a container that is not
there or that has run, and to describe one that is not there.
-/

namespace Zun

open Effect Prog

/-- `except grpc.RpcError`. -/
def Exn.isRpc (e : Exn) : Bool :=
  match e.cls with
  | .rpcError _ => true
  | _ => false

/-- `except exception.ZunException`. -/
def Exn.isZun (e : Exn) : Bool :=
  match e.cls with
  | .rpcError _ | .other => false
  | _ => true

namespace Cri

variable (env : Env)

/-! ## Sandboxes -/

/-- `RunPodSandbox`.  The new sandbox is the head of the list. -/
def runPodSandbox (owner : Uuid) : Prog World Exn Unit :=
  call env (.runPodSandbox owner) fun s =>
    { s with sandboxes := { id := s.nextId, owner } :: s.sandboxes, nextId := s.nextId + 1 }

/-- A container that runs in the sandbox is killed. -/
def killIn (pod : RuntimeId) (c : CriContainer) : CriContainer :=
  if c.sandbox = pod ∧ c.state = .running then { c with state := .exited, exitCode := 137 } else c

/-- `StopPodSandbox`. -/
def stopPodSandbox (pod : RuntimeId) : Prog World Exn Unit :=
  call env (.stopPodSandbox pod) fun s =>
    { s with
      sandboxes := s.sandboxes.map fun b => if b.id = pod then { b with ready := false } else b
      containers := s.containers.map (killIn pod) }

/-- `RemovePodSandbox`.  The containers go with it. -/
def removePodSandbox (pod : RuntimeId) : Prog World Exn Unit :=
  call env (.removePodSandbox pod) fun s =>
    { s with
      sandboxes := s.sandboxes.filter (·.id ≠ pod)
      containers := s.containers.filter (·.sandbox ≠ pod) }

/-- The codes of a `StopPodSandbox` that is not worth waiting for again. -/
def stopTolerated (e : Exn) : Bool :=
  e.cls = .rpcError .notFound || e.cls = .rpcError .deadlineExceeded ||
    e.cls = .rpcError .unavailable

/-- `_delete_sandbox`. -/
def deleteSandbox (pod : RuntimeId) : Prog World Exn Unit := do
  tryExcept (stopPodSandbox env pod) fun e => if stopTolerated e then pure () else raise e
  tryExcept (removePodSandbox env pod) fun e =>
    if e.cls = .rpcError .notFound then pure () else raise e

/-- `_sandbox_alive`. -/
def sandboxAlive (pod : Option RuntimeId) : Prog World Exn Bool :=
  match pod with
  | none => pure false
  | some pod =>
      tryExcept (ask env (.podSandboxStatus pod) fun s => s.sandboxes.any fun b =>
        b.id = pod ∧ b.ready = true) fun e => if e.isRpc then pure false else raise e

/-! ## Containers -/

/-- The container with an id. -/
def find (id : RuntimeId) (s : World) : Option CriContainer := s.containers.find? (·.id = id)

/-- The state of the container with an id. -/
def stateOf (id : RuntimeId) (s : World) : Option ContainerState := (find id s).map (·.state)

/-- The runtime with one container changed. -/
def alter (id : RuntimeId) (f : CriContainer → CriContainer) (s : World) : World :=
  { s with containers := s.containers.map fun c => if c.id = id then f c else c }

/-- `CreateContainer`.  The new container is the head of the list. -/
def createContainer (pod : RuntimeId) (name : Uuid) (attempt : Nat) : Prog World Exn Unit :=
  call env (.createContainer pod name attempt) fun s =>
    { s with
      containers := { id := s.nextId, sandbox := pod, name, attempt, state := .created } ::
        s.containers
      nextId := s.nextId + 1 }

/-- `StartContainer`. -/
def startContainer (id : RuntimeId) : Prog World Exn Unit := do
  call env (.startContainer id)
  let state ← read (stateOf id)
  match state with
  | some .created =>
      modify fun s =>
        alter id (fun c => { c with state := .running, startedAt := some (env.now s.tick) }) s
  | some .exited => raise { cls := .rpcError .containerExited }
  | some _ => raise { cls := .rpcError .other }
  | none => raise { cls := .rpcError .notFound }

/-- A running container that is stopped. -/
def stopped (c : CriContainer) : CriContainer :=
  if c.state = .running then { c with state := .exited, exitCode := 137 } else c

/-- `StopContainer`. -/
def stopContainer (id : RuntimeId) : Prog World Exn Unit :=
  call env (.stopContainer id) (alter id stopped)

/-- `RemoveContainer`. -/
def removeContainer (id : RuntimeId) : Prog World Exn Unit :=
  call env (.removeContainer id) fun s =>
    { s with containers := s.containers.filter (·.id ≠ id) }

/-- `_remove_container`. -/
def removeQuietly (id : RuntimeId) : Prog World Exn Unit :=
  tryExcept (removeContainer env id) fun e =>
    if e.cls = .rpcError .notFound then pure () else raise e

/-- `ListContainers` with an id. -/
def listContainer (id : RuntimeId) : Prog World Exn (Option CriContainer) :=
  ask env (.listContainers id) (find id)

/-- `ContainerStatus`. -/
def containerStatus (id : RuntimeId) : Prog World Exn CriContainer := do
  let found ← ask env (.containerStatus id) (find id)
  match found with
  | some c => pure c
  | none => raise { cls := .rpcError .notFound }

/-- A program that a failed call to the runtime ends without a word. -/
def despiteRpc (p : Prog World Exn Unit) : Prog World Exn Unit :=
  tryExcept p fun e => if e.isRpc then pure () else raise e

/-- `_attempt_of`. -/
def attemptOf (id : RuntimeId) : Prog World Exn Nat :=
  tryExcept
    (do let found ← listContainer env id
        pure ((found.map (·.attempt)).getD 0))
    fun e => if e.isRpc then pure 0 else raise e

/-- `_sandbox_of`: by its label, else by where the container is. -/
def sandboxOf (u : Uuid) : Prog World Exn (Option RuntimeId) := do
  let labelled ← tryExcept
    (ask env (.listPodSandbox u) fun s => (s.sandboxes.find? (·.owner = u)).map (·.id))
    fun e => if e.isRpc then pure none else raise e
  let id ← obj u (·.containerId)
  match labelled, id with
  | some pod, _ => pure (some pod)
  | none, none => pure none
  | none, some id =>
      tryExcept
        (do let found ← listContainer env id
            pure (found.map (·.sandbox)))
        fun e => if e.isRpc then pure none else raise e

/-! ## Reading a container into its record -/

/-- The id of a container on its record, 0 when there is none. -/
def idOf (u : Uuid) : Prog World Exn RuntimeId := obj u fun r => r.containerId.getD 0

/-- `_record_start`. -/
def recordStart (u : Uuid) : Prog World Exn Unit :=
  despiteRpc do
    let id ← idOf u
    let c ← containerStatus env id
    onlyIf c.startedAt.isSome (assign u (Obj.setStartedAt c.startedAt))

/-- `_record_exit`. -/
def recordExit (u : Uuid) : Prog World Exn Unit := do
  let detail ← obj u (·.statusDetail)
  onlyIf detail.isNone (despiteRpc do
    let id ← idOf u
    let c ← containerStatus env id
    assign u (Obj.setStatusDetail (some (.exit c.exitCode)))
    assign u (Obj.setExitCode (some c.exitCode))
    onlyIf c.startedAt.isSome (assign u (Obj.setStartedAt c.startedAt)))

/-- `_still_paused`.  A container that could not be asked about is as it was. -/
def stillPaused (id : RuntimeId) : Prog World Exn Bool :=
  tryExcept (ask env (.task id) fun s => env.frozen s.tick)
    fun e => if e.isRpc then pure true else raise e

/-- Whether a running container is a paused one that is still held. -/
def pausedNow (u : Uuid) (id : RuntimeId) : Prog World Exn Bool := do
  let status ← obj u (·.status)
  if status = .paused then stillPaused env id else pure false

/-- What `_populate_container_state` does for a running container. -/
def populateRunning (u : Uuid) : Prog World Exn Unit := do
  assign u (Obj.setStatus .running)
  let r ← obj u id
  let newRun := Detail.isExit r.statusDetail || r.statusDetail == some .stopped
  onlyIf newRun (assign u (Obj.setStatusDetail none))
  onlyIf (newRun || r.startedAt.isNone) (recordStart env u)

/-- `_populate_container_state`. -/
def populateContainerState (u : Uuid) (c : CriContainer) : Prog World Exn Unit :=
  match c.state with
  | .created => assign u (Obj.setStatus .created)
  | .running => do
      let paused ← pausedNow env u c.id
      onlyIf (!paused) (populateRunning env u)
  | .exited => do
      assign u (Obj.setStatus .stopped)
      recordExit env u
  | .unknown => assign u (Obj.setStatus .unknown)

def notInRuntime (id : RuntimeId) : String :=
  "Container " ++ toString id ++ " is not found in runtime"

/-- `_show_container`. -/
def showContainer (u : Uuid) : Prog World Exn Unit := do
  let id ← obj u (·.containerId)
  match id with
  | none => pure ()
  | some id => do
      let found ← listContainer env id
      match found with
      | none => raise { cls := .zunException, text := notInRuntime id }
      | some c => populateContainerState env u c

/-- `_show_container(…).status`, which fails on a record that names no container. -/
def showStatus (u : Uuid) : Prog World Exn Status := do
  let id ← obj u (·.containerId)
  onlyIf id.isNone (raise { cls := .other, text := "'NoneType' object has no attribute 'status'" })
  showContainer env u
  obj u (·.status)

end Cri

end Zun
