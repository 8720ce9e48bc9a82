import Zun.Container.Driver

/-!
# The docker driver

The methods of `zun/container/docker/driver.py` that the manager calls, over the `kuryr`
network driver, whose `on_container_started` and `on_container_stopped` do nothing.

Docker's `errors.APIError` becomes a `DockerError` when it leaves `docker_client()`.  Both are
`ExnClass.dockerError` here.  No handler inside such a block asks for a `DockerError`
but that of `connect_container_to_network`, which so never runs and is left out.
-/

namespace Zun

open Effect Prog

namespace Docker

variable (env : Env)

/-! ## Errors -/

/-- The code of an error of docker's. -/
def codeOf (e : Exn) : Option DockerCode :=
  match e.cls with
  | .dockerError code => some code
  | _ => none

def missing : String := "The container is missing from the node"
def cannotAct (s : Status) : String :=
  "Cannot act on container in '" ++ s.label ++ "' state"

/-- The status `handle_not_found` gives a record. -/
def markMissing (u : Uuid) (autoRemove : Bool) : Prog World Exn Unit :=
  if autoRemove then assign u (Obj.setStatus .deleted)
  else do
    assign u (Obj.setStatus .error)
    assign u (Obj.setStatusReason (some missing))

/-- `handle_not_found`. -/
def handleNotFound (u : Uuid) : Prog World Exn Unit := do
  let r ← obj u id
  onlyIf (r.status ≠ .deleting) do
    markMissing u r.autoRemove
    save env u
    let status ← obj u (·.status)
    raise { cls := .conflict, text := cannotAct status }

/-- `wrap_docker_error`. -/
def wrapDockerError (u : Uuid) (body : Prog World Exn Unit) : Prog World Exn Unit :=
  tryExcept body fun e => do
    onlyIf (codeOf e = some .notFound) (handleNotFound env u)
    onlyIf (codeOf e = some .conflict) (raise { cls := .conflict, text := e.text })
    raise e

def uncreated : String := "Cannot operate an uncreated container."

/-- `check_container_id` and `wrap_docker_error` around a method. -/
def guarded (u : Uuid) (body : Prog World Exn Unit) : Prog World Exn Unit := do
  let id ← obj u (·.containerId)
  onlyIf (id = none) (raise { cls := .invalid, text := uncreated })
  wrapDockerError env u body

/-! ## Create and delete -/

/-- `connect_container_to_network`. -/
def connectContainerToNetwork (u : Uuid) (net : RequestedNetwork) :
    Prog World Exn (List Addr) := do
  let addrs ← Neutron.createOrUpdatePort env u net
  call env (.docker .connect u)
  pure addrs

/-- `_setup_network_for_container`.  Each network is put in the addresses the record has. -/
def setupNetworkForContainer (u : Uuid) : List RequestedNetwork → Prog World Exn Unit
  | [] => pure ()
  | net :: nets => do
      let addresses ← obj u (·.addresses)
      if addresses.any (·.1 = net.network) then setupNetworkForContainer u nets
      else do
        let addrs ← connectContainerToNetwork env u net
        assign u (Obj.putAddresses net.network addrs)
        setupNetworkForContainer u nets

/-- `_populate_container` of a container that docker has just made and never started. -/
def populateCreated (o : Obj) : Obj :=
  let o := o.setExitCode (some 0)
  if o.val.status = .creating then
    (o.setStatus .created).setStatusDetail (some (.text "Created"))
  else o

/-- `create`. -/
def create (u : Uuid) (nets : List RequestedNetwork) (_vols : RequestedVolumes) :
    Prog World Exn Unit := do
  forEach nets fun _ => call env (.docker .provisionNetwork u)
  -- The binds, the image's command and the resolvers.
  call env (.docker .prepare u)
  match nets.getLast? with
  | none => raise { cls := .other, text := "pop from empty list" }
  | some net => do
      call env (.securityGroups u)
      let addrs ← Neutron.createOrUpdatePort env u net
      assign u (Obj.setAddresses [(net.network, addrs)])
      call env (.docker .create u) fun s =>
        { s with dockerContainers := s.nextId :: s.dockerContainers, nextId := s.nextId + 1 }
      let id ← read fun s => s.dockerContainers.head?
      assign u (Obj.setContainerId id)
      call env (.securityGroups u)
      setupNetworkForContainer env u nets.dropLast
      let addresses ← obj u (·.addresses)
      assign u (Obj.setAddresses addresses)
      call env (.docker .inspect u)
      assign u populateCreated
      save env u

/-- `_disconnect_container_from_network`. -/
def disconnectContainerFromNetwork (u : Uuid) (addrs : List Addr) : Prog World Exn Unit := do
  let id ← obj u (·.containerId)
  tryFinally (onlyIf (id ≠ none) (call env (.docker .disconnect u)))
    (Neutron.deleteOrUnbindPorts env (Neutron.allPorts addrs) (Neutron.ownPorts addrs))

/-- The `try` of `delete`: the networks, then the container. -/
def removeContainer (u : Uuid) : Prog World Exn Unit := do
  let r ← obj u id
  forEach r.addresses fun entry => disconnectContainerFromNetwork env u entry.2
  onlyIf (r.containerId ≠ none) (call env (.docker .remove u) fun s =>
    { s with dockerContainers := s.dockerContainers.filter (some · ≠ r.containerId) })

/-- `delete`.  A container that is not there, or not on its network, is not an error. -/
def delete (u : Uuid) (_force : Bool) : Prog World Exn Unit := do
  let release ← tryExcept (do removeContainer env u; pure true) fun e =>
    if codeOf e = some .notFound then pure true
    else if codeOf e = some .notConnected then pure false
    else raise e
  onlyIf release (call env (.docker .releaseNetworks u))

def cannotHotplug (verb : String) (u : Uuid) : String :=
  "Cannot " ++ verb ++ " a network on container " ++ toString u ++ " while it is running"

/-- `_refuse_hotplug_on_a_vm`. -/
def refuseHotplugOnAVm (verb : String) (u : Uuid) : Prog World Exn Unit := do
  let status ← obj u (·.status)
  onlyIf (status = .running ∧ env.runc = false)
    (raise { cls := .invalid, text := cannotHotplug verb u })

/-- `network_detach`. -/
def networkDetach (u : Uuid) (net : NetId) : Prog World Exn Unit := do
  refuseHotplugOnAVm env "detach" u
  let addresses ← obj u (·.addresses)
  disconnectContainerFromNetwork env u ((addresses.lookup net).getD [])
  onlyIf (addresses.any (·.1 = net) = false) (raise { cls := .other, text := toString net })
  assign u (Obj.setAddresses (addresses.filter (·.1 ≠ net)))
  save env u

def alreadyConnected (u : Uuid) (net : NetId) : String :=
  "Container " ++ toString u ++ " has already connected to the network " ++ toString net ++ "."

/-- `network_attach`. -/
def networkAttach (u : Uuid) (net : RequestedNetwork) : Prog World Exn Unit := do
  refuseHotplugOnAVm env "attach" u
  call env (.securityGroups u)
  let addresses ← obj u (·.addresses)
  onlyIf (addresses.any (·.1 = net.network))
    (raise { cls := .zunException, text := alreadyConnected u net.network })
  call env (.docker .provisionNetwork u)
  let addrs ← connectContainerToNetwork env u net
  assign u (Obj.setAddresses (addresses ++ [(net.network, addrs)]))
  save env u

/-- `check_container_exist`. -/
def checkContainerExist (u : Uuid) : Prog World Exn Bool := do
  call env (.docker .list u)
  let id ← obj u (·.containerId)
  read fun s => s.dockerContainers.any (some · = id)

/-! ## The life of a container -/

def setState (u : Uuid) (status : Status) : Prog World Exn Unit := do
  assign u (Obj.setStatus status)
  assign u (Obj.setStatusReason none)

def networkFailed (e : Exn) : String := "failed to configure network: " ++ e.text

/-- `start`.  A container that could not be wired to its network is stopped again. -/
def start (u : Uuid) : Prog World Exn Unit :=
  guarded env u do
    call env (.docker .start u)
    setState u .running
    tryExcept (call env (.docker .wire u)) fun e => do
      swallow (call env (.docker .stop u))
      assign u (Obj.setStatus .stopped)
      assign u (Obj.setStatusReason (some (networkFailed e)))

/-- One call to docker, and the status it leaves. -/
def command (verb : DockerVerb) (status : Status) (u : Uuid) : Prog World Exn Unit :=
  guarded env u do
    call env (.docker verb u)
    setState u status

/-- `stop`. -/
def stop : Uuid → Prog World Exn Unit := command env .stop .stopped

/-- `reboot`. -/
def reboot : Uuid → Prog World Exn Unit := command env .restart .running

/-- `pause`. -/
def pause : Uuid → Prog World Exn Unit := command env .pause .paused

/-- `unpause`. -/
def unpause : Uuid → Prog World Exn Unit := command env .unpause .running

/-- `kill`. -/
def kill : Uuid → Prog World Exn Unit := command env .kill .stopped

/-- `DockerDriver`. -/
def driver : ContainerDriver where
  create := create env
  delete := delete env
  start := start env
  stop := stop env
  reboot := reboot env
  pause := pause env
  unpause := unpause env
  kill := kill env
  checkContainerExist := checkContainerExist env
  pullsOwnImages := false

/-! ## The driver is lawful -/

end Docker

section Neutron

variable {R : World → World → Prop} [Outer R] {env : Env}

theorem within_createOrUpdatePort (u : Uuid) (net : RequestedNetwork) :
    Within R (Neutron.createOrUpdatePort env u net) :=
  Neutron.within_createOrUpdatePort_of (fun _ => (within_beside (.of fun _ => ⟨rfl, rfl, rfl, rfl, rfl, rfl⟩))) (fun _ => (within_beside (.of fun _ => ⟨rfl, rfl, rfl, rfl, rfl, rfl⟩))) net

theorem within_unbindPort (p : PortId) : Within R (Neutron.unbindPort env p) := by
  refine Within.bind ?_ fun there => ?_
  · exact Within.tryExcept (Within.bind (within_beside (.of fun _ => ⟨rfl, rfl, rfl, rfl, rfl, rfl⟩)) fun _ => within_pure _) fun _ => within_pure _
  · exact Within.onlyIf (Within.swallow (within_beside (.of fun _ => ⟨rfl, rfl, rfl, rfl, rfl, rfl⟩)))

theorem within_deleteOrUnbindPorts (ports toDelete : List PortId) :
    Within R (Neutron.deleteOrUnbindPorts env ports toDelete) := by
  refine within_forEach fun p _ => Within.tryExcept (within_ite ?_ (within_unbindPort p)) ?_
  · exact within_beside (.of fun _ => ⟨rfl, rfl, rfl, rfl, rfl, rfl⟩)
  · exact fun e => within_ite (within_pure _) (within_raise _)

end Neutron

namespace Docker

section Network

variable {R : World → World → Prop} [Outer R] {env : Env}

theorem within_connectContainerToNetwork (u : Uuid) (net : RequestedNetwork) :
    Within R (connectContainerToNetwork env u net) :=
  (within_createOrUpdatePort u net).bind fun _ => (within_plain _ rfl).bind fun _ => within_pure _

theorem meek_putAddresses (net : NetId) (addrs : List Addr) : Meek (Obj.putAddresses net addrs) :=
  meek_of_eq (fun _ => rfl) (fun _ => rfl) (fun _ => rfl) (fun _ => rfl) (fun _ => rfl)

theorem within_setupNetworkForContainer [Tame R] (u : Uuid) (nets : List RequestedNetwork) :
    Within R (setupNetworkForContainer env u nets) := by
  induction nets with
  | nil => exact within_pure _
  | cons net nets ih =>
      refine (within_read _).bind fun addresses => within_ite ih ?_
      refine (within_connectContainerToNetwork u net).bind fun addrs => ?_
      exact (within_meek (meek_putAddresses _ _)).bind fun _ => ih

theorem within_disconnectContainerFromNetwork (u : Uuid) (addrs : List Addr) :
    Within R (disconnectContainerFromNetwork env u addrs) :=
  (within_read _).bind fun _ =>
    ((within_plain _ rfl).onlyIf).tryFinally (within_deleteOrUnbindPorts _ _)

theorem within_removeContainer (u : Uuid) : Within R (removeContainer env u) := by
  refine (within_read _).bind fun r => Within.bind ?_ fun _ => ?_
  · exact within_forEach fun entry _ => within_disconnectContainerFromNetwork u entry.2
  · exact Within.onlyIf (within_aside rfl (.of fun _ => ⟨rfl, rfl, rfl, rfl, rfl, rfl, rfl, rfl, Nat.le_refl _⟩))

theorem within_delete (u : Uuid) (force : Bool) : Within R (delete env u force) := by
  refine Within.bind ?_ fun release => (within_plain _ rfl).onlyIf
  refine ((within_removeContainer u).bind fun _ => within_pure _).tryExcept fun e => ?_
  exact within_ite (within_pure _) (within_ite (within_pure _) (within_raise e))

end Network

section Lawful

variable {R : World → World → Prop} [Outer R] [Tame R] {env : Env}

theorem meek_populateCreated : Meek populateCreated := by
  have hsplit : ∀ o, populateCreated o = o.setExitCode (some 0) ∨ populateCreated o =
      ((o.setExitCode (some 0)).setStatus .created).setStatusDetail (some (.text "Created")) := by
    intro o
    unfold populateCreated
    dsimp only
    split
    · exact .inr rfl
    · exact .inl rfl
  refine ⟨⟨fun o => ?_, fun o => ?_, fun o => ?_, fun o => ?_⟩, fun o hlive => ?_⟩
  · obtain h | h := hsplit o <;> rw [h] <;> rfl
  · obtain h | h := hsplit o <;> rw [h] <;> rfl
  · obtain h | h := hsplit o <;> rw [h] <;> rfl
  · obtain h | h := hsplit o <;> rw [h] <;> exact .inl rfl
  · obtain h | h := hsplit o
    · rw [h]
      rfl
    · rw [h] at hlive
      cases hlive

theorem within_create (u : Uuid) (nets : List RequestedNetwork) (vols : RequestedVolumes) :
    Within R (create env u nets vols) := by
  refine (within_forEach fun _ _ => within_plain _ rfl).bind fun _ => (within_plain _ rfl).bind fun _ => ?_
  cases nets.getLast? with
  | none => exact within_raise _
  | some net =>
      refine (within_plain _ rfl).bind fun _ => (within_createOrUpdatePort u net).bind fun addrs => ?_
      refine (within_meek (meek_setAddresses _)).bind fun _ => Within.bind ?_ fun _ => ?_
      · exact within_aside rfl (.of fun _ => ⟨rfl, rfl, rfl, rfl, rfl, rfl, rfl, rfl, Nat.le_succ _⟩)
      refine (within_read _).bind fun id => (within_meek (meek_setContainerId _)).bind fun _ => ?_
      refine (within_plain _ rfl).bind fun _ => ?_
      refine (within_setupNetworkForContainer u _).bind fun _ => (within_read _).bind fun addresses => ?_
      refine (within_meek (meek_setAddresses _)).bind fun _ => (within_plain _ rfl).bind fun _ => ?_
      exact (within_meek meek_populateCreated).bind fun _ => within_save u

end Lawful

section Life

theorem within_guarded {R : World → World → Prop} [IsPreorder World R] {env : Env} {u : Uuid}
    {body : Prog World Exn Unit} (hmissing : Within R (handleNotFound env u))
    (hbody : Within R body) : Within R (guarded env u body) := by
  refine (within_read _).bind fun id => Within.bind (within_raise _).onlyIf fun _ => ?_
  refine hbody.tryExcept fun e => Within.bind hmissing.onlyIf fun _ => ?_
  exact Within.bind (within_raise _).onlyIf fun _ => within_raise e

theorem within_setState {R : World → World → Prop} [IsPreorder World R] [Lenient R] (u : Uuid)
    (status : Status) : Within R (setState u status) :=
  (within_inward (inward_setStatus _)).bind fun _ => within_inward (inward_setStatusReason _)

variable {R : World → World → Prop} {env : Env} [Bystander env R] [Lenient R]

theorem within_handleNotFound (u : Uuid) : Within R (handleNotFound env u) := by
  refine (within_read _).bind fun r => Within.onlyIf (Within.bind ?_ fun _ => ?_)
  · refine within_ite (within_inward (inward_setStatus _)) ?_
    exact (within_inward (inward_setStatus _)).bind fun _ => within_inward (inward_setStatusReason _)
  · exact (within_saveInward u).bind fun _ => (within_read _).bind fun _ => within_raise _

theorem within_command (verb : DockerVerb) (status : Status) (u : Uuid) :
    Within R (command env verb status u) :=
  within_guarded (within_handleNotFound u)
    ((within_plain _ rfl).bind fun _ => within_setState u status)

theorem within_start (u : Uuid) : Within R (start env u) := by
  refine within_guarded (within_handleNotFound u) ?_
  refine (within_plain _ rfl).bind fun _ => (within_setState u _).bind fun _ => ?_
  refine (within_plain _ rfl).tryExcept fun e => ((within_plain _ rfl).swallow).bind fun _ => ?_
  exact (within_inward (inward_setStatus _)).bind fun _ => within_inward (inward_setStatusReason _)

end Life

/-- The docker driver leaves to the manager what is the manager's. -/
theorem driver_lawful (env : Env) : (driver env).Lawful where
  create u nets vols _ _ _ := within_create u nets vols
  delete u force _ _ _ := within_delete u force
  start u _ _ _ := within_start u
  stop u _ _ _ := within_command _ _ u
  reboot u _ _ _ := within_command _ _ u
  pause u _ _ _ := within_command _ _ u
  unpause u _ _ _ := within_command _ _ u
  kill u _ _ _ := within_command _ _ u
  checkContainerExist _ _ _ _ :=
    (within_plain _ rfl).bind fun _ => (within_read _).bind fun _ => within_read _

end Docker

end Zun
