import Zun.Effect.Traced
import Zun.Network.SecurityGroups
import Zun.Objects.Container

/-!
# The security groups of a new port

Every path on which a port is made for a container or a capsule: the networks of a create, one that is attached
later, the sandbox of a capsule and its rebuild.  Each resolves the groups of the record and hands the ids to
`create_or_update_port` of `zun/network/neutron.py`.

A request for a port that names no groups is not one for no groups: Neutron gives such a port the default group
of its project.
-/

namespace Zun

open Effect Prog

namespace PortGroups

/-! ## The model -/

/-- The request for a port. -/
structure PortBody where
  networkId : NetId
  tenantId : Option String
  deviceId : Uuid
  description : Option String
  deviceOwner : Option String
  bindingHostId : Option Host
  fixedIp : Option String
  /-- Nothing is what a request without the key has. -/
  securityGroups : Option (List String)
deriving DecidableEq

/-- An entry of `requested_networks`. -/
structure RequestedNetwork where
  network : NetId
  port : Option PortId := none
  fixedIp : Option String := none
  preserveOnDelete : Bool := false
  pciRequestId : Option String := none
deriving DecidableEq

/-- What the paths read of a container or a capsule. -/
structure Container where
  uuid : Uuid
  host : Host
  status : Status
  projectId : Option String := none
  runtime : Option String := none
  securityGroups : Option (List String)
  /-- The labels that a pod's capsule carries. -/
  podNamespace : String := ""
  podName : String := ""
deriving DecidableEq

inductive Call where
  | listSecurityGroups
  | provisionNetwork (net : NetId)
  | createPort (body : PortBody)
  | updatePort (p : PortId)
  | deletePort (p : PortId)
  | populatePci (p : PortId)
  | showNetwork
  | showSubnets
  /-- The binds, the command of the image and the resolvers. -/
  | prepare
  | dockerCreate
  | connect (net : NetId)
  | inspect
  | save
  /-- What a sandbox needs besides its port. -/
  | runSandbox
  | deleteSandbox
  | startMembers
deriving DecidableEq

inductive Failure where
  | resolution (e : SecurityGroups.Error)
  | popFromEmptyList
  | alreadyConnected (net : NetId)
  | cannotHotplug
  | missingAddresses
  | noNetwork
  | indexError
  | portNotFound
  | docker (code : Nat)
  | other (code : Nat)
deriving DecidableEq

/-- What is kept of a record while it is worked on: its addresses. -/
abbrev Addresses := List (NetId × List Addr)

inductive NetworkDriver where
  | kuryr | cni
deriving DecidableEq

structure MadePort where
  id : PortId
  fixedIps : List String
deriving DecidableEq

structure Env where
  refuse : Nat → Call → Option Failure := fun _ _ => none
  /-- The groups of the container's project that the caller is shown. -/
  project : SecurityGroups.Project
  driver : NetworkDriver := .kuryr
  /-- The port that Neutron answers with. -/
  port : Nat → MadePort := fun n => { id := n, fixedIps := ["10.0.0.2"] }
  /-- The project of the caller. -/
  projectId : Option String := none
  /-- A runtime can be asked for. -/
  runtimeSupported : Bool := true
  /-- `CONF.container_runtime`. -/
  containerRuntime : String := "runc"

abbrev Run (α : Type) := Prog (Log Addresses Call Failure) Failure α

variable (env : Env) (c : Container)

def ask (call : Call) : Run Unit := consult env.refuse call id

/-- `get_security_group_ids`, which lists the groups only if some are named. -/
def getSecurityGroupIds : Option (List String) → Run (Option (List String))
  | none => pure none
  | some [] => pure (some [])
  | some securityGroups => do
      ask env .listSecurityGroups
      match SecurityGroups.getSecurityGroupIds env.project (some securityGroups) with
      | .ok ids => pure ids
      | .error e => raise (.resolution e)

/-- `_managed_by`. -/
def managedBy : Option String :=
  if c.podNamespace = "" ∨ c.podName = "" then none
  else some ("managed-by:kubezun " ++ c.podNamespace ++ "/" ++ c.podName)

/-- The body of `create_port`. -/
def portBody (net : RequestedNetwork) (owner : String) (securityGroups : Option (List String))
    (setBindingHost : Bool) : PortBody where
  networkId := net.network
  tenantId := env.projectId
  deviceId := c.uuid
  description := managedBy c
  deviceOwner := if setBindingHost then some owner else none
  bindingHostId := if setBindingHost then some c.host else none
  fixedIp := net.fixedIp
  securityGroups := securityGroups

/-- `create_or_update_port`. -/
def createOrUpdatePort (net : RequestedNetwork) (owner : String) (securityGroups : Option (List String))
    (setBindingHost : Bool) : Run (List Addr) := do
  match net.port with
  | some p => do
      ask env (.updatePort p)
      onlyIf (net.pciRequestId.isSome = true) do
        ask env (.populatePci p)
        ask env (.updatePort p)
  | none => ask env (.createPort (portBody env c net owner securityGroups setBindingHost))
  let port ← told env.port
  pure (port.fixedIps.map fun addr => { addr, port := port.id, preserveOnDelete := net.preserveOnDelete })

/-! ## Docker -/

/-- `process_networking_config`, of either driver. -/
def processNetworkingConfig (net : RequestedNetwork) (securityGroupIds : Option (List String)) : Run Unit :=
  match env.driver with
  | .kuryr => do
      let addresses ← createOrUpdatePort env c net "compute:kuryr" securityGroupIds true
      change fun _ => [(net.network, addresses)]
  | .cni => do
      let addresses ← createOrUpdatePort env c net "compute:zun" securityGroupIds true
      change fun _ => [(net.network, addresses)]
      ask env .showNetwork
      ask env .showSubnets
      ask env .save

/-- `do_port_cleanup`. -/
def doPortCleanup : List Addr → Run Unit
  | [] => raise .indexError
  | addr :: _ =>
      if addr.preserveOnDelete then swallow (ask env (.updatePort addr.port))
      else tryExcept (ask env (.deletePort addr.port)) fun e =>
        match e with
        | .portNotFound => pure ()
        | e => raise e

/-- `connect_container_to_network`, which the CNI driver does not have. -/
def connectContainerToNetwork (net : RequestedNetwork) (securityGroups : Option (List String)) :
    Run (Option (List Addr)) :=
  match env.driver with
  | .kuryr => do
      let addresses ← createOrUpdatePort env c net "compute:kuryr" securityGroups false
      reraising (ask env (.connect net.network)) fun e =>
        match e with
        | .docker _ => doPortCleanup env addresses
        | _ => pure ()
      pure (some addresses)
  | .cni => pure none

/-- The loop of `_setup_network_for_container`. -/
def connectAll (securityGroupIds : Option (List String)) : List RequestedNetwork → Run Unit
  | [] => pure ()
  | net :: nets => do
      let addresses ← look id
      onlyIf (addresses.any (·.1 = net.network) = false) do
        let addrs ← connectContainerToNetwork env c net securityGroupIds
        change fun addresses => addresses ++ [(net.network, addrs.getD [])]
      connectAll securityGroupIds nets

/-- `_setup_network_for_container`. -/
def setupNetworkForContainer (nets : List RequestedNetwork) : Run Unit := do
  let securityGroupIds ← getSecurityGroupIds env c.securityGroups
  connectAll env c securityGroupIds nets

/-- `DockerDriver.create`.  The first network is the one that `pop` gives, the last of the list. -/
def create (nets : List RequestedNetwork) : Run Unit := do
  forEach nets fun net => ask env (.provisionNetwork net.network)
  ask env .prepare
  match nets.getLast? with
  | none => raise .popFromEmptyList
  | some net => do
      let securityGroupIds ← getSecurityGroupIds env c.securityGroups
      processNetworkingConfig env c net securityGroupIds
      ask env .dockerCreate
      setupNetworkForContainer env c nets.dropLast
      ask env .inspect
      ask env .save

/-- `_runtime_of`. -/
def runtimeOf : String :=
  if env.runtimeSupported then c.runtime.getD env.containerRuntime else "runc"

/-- `container.security_groups` is true. -/
def truthy : Option (List String) → Bool
  | none | some [] => false
  | some (_ :: _) => true

/-- `DockerDriver.network_attach`. -/
def networkAttach (net : RequestedNetwork) : Run Unit := do
  onlyIf (c.status = .running ∧ runtimeOf env c ≠ "runc") (raise .cannotHotplug)
  let securityGroupIds ← if truthy c.securityGroups then getSecurityGroupIds env c.securityGroups else pure none
  let addresses ← look id
  onlyIf (addresses.any (·.1 = net.network) = true) (raise (.alreadyConnected net.network))
  onlyIf (env.driver = .kuryr) (ask env (.provisionNetwork net.network))
  match ← connectContainerToNetwork env c net securityGroupIds with
  | none => raise .missingAddresses
  | some addrs => do
      change fun addresses => addresses ++ [(net.network, addrs)]
      ask env .save

/-! ## CRI -/

/-- `_write_cni_metadata`. -/
def writeCniMetadata (nets : List RequestedNetwork) : Run Unit := do
  let securityGroupIds ← getSecurityGroupIds env c.securityGroups
  match nets with
  | [] => raise .popFromEmptyList
  | net :: _ => do
      let addresses ← createOrUpdatePort env c net "compute:zun" securityGroupIds true
      change fun _ => [(net.network, addresses)]
      ask env .showNetwork
      ask env .showSubnets
      ask env .save

/-- `_create_pod_sandbox`. -/
def createPodSandbox (nets : List RequestedNetwork) : Run Unit := do
  writeCniMetadata env c nets
  ask env .runSandbox

/-- The networks that a sandbox is made on again: each with the port that its addresses are on. -/
def recordedNetworks (addresses : Addresses) : List RequestedNetwork :=
  addresses.map fun entry =>
    { network := entry.1
      port := entry.2.head?.map (·.port)
      preserveOnDelete := entry.2.head?.any (·.preserveOnDelete) }

/-- `_rebuild_capsule`, which acts for the owner of the capsule. -/
def rebuildCapsule : Run Unit := do
  ask env .deleteSandbox
  let addresses ← look id
  match recordedNetworks addresses with
  | [] => raise .noNetwork
  | nets => do
      createPodSandbox { env with projectId := c.projectId } c nets
      ask env .save
      ask env .startMembers

/-! ## Paths -/

/-- A way in which a port is made. -/
inductive Path where
  | create (nets : List RequestedNetwork)
  | networkAttach (net : RequestedNetwork)
  | createPodSandbox (nets : List RequestedNetwork)
  | rebuildCapsule
deriving DecidableEq

def Path.run : Path → Run Unit
  | .create nets => PortGroups.create env c nets
  | .networkAttach net => PortGroups.networkAttach env c net
  | .createPodSandbox nets => PortGroups.createPodSandbox env c nets
  | .rebuildCapsule => PortGroups.rebuildCapsule env c

/-! ## What is asked of a port -/

/-- A port that is made is made with the ids that a list resolves to. -/
def Made (securityGroups : List String) (e : Entry Addresses Call Failure) : Prop :=
  ∀ body, e.call = .createPort body →
    ∃ ids, SecurityGroups.getSecurityGroupIds env.project (some securityGroups) = .ok (some ids) ∧
      body.securityGroups = some ids

/-- The record with a list of groups. -/
def Container.asking (securityGroups : List String) : Container := { c with securityGroups := some securityGroups }

/-- Every port that a path makes for a record with a list of groups has these and no others. -/
def Faithful (securityGroups : List String) (path : Path) (addresses : Addresses) : Prop :=
  ∀ e ∈ (path.run env (c.asking securityGroups) ⟨addresses, []⟩).2.log, Made env securityGroups e

/-- The attach of a network comes to make a port. -/
structure Comes (net : RequestedNetwork) (addresses : Addresses) : Prop where
  port : net.port = none
  driver : env.driver = .kuryr
  cold : ¬ (c.status = .running ∧ runtimeOf env c ≠ "runc")
  apart : addresses.any (·.1 = net.network) = false
  provisioned : env.refuse 0 (.provisionNetwork net.network) = none

variable {env c} {securityGroups : List String}

/-- A run that begins with nothing written down. -/
theorem made_of_adds {p : Run Unit} {addresses : Addresses} (h : Within (Adds (Made env securityGroups)) p) :
    ∀ e ∈ (p ⟨addresses, []⟩).2.log, Made env securityGroups e := by
  intro e he
  rcases h ⟨addresses, []⟩ e he with hnil | hmade
  · exact absurd hnil List.not_mem_nil
  · exact hmade

/-- Calls other than for a new port. -/
theorem adds_ask {call : Call} (h : ∀ body, call ≠ .createPort body) :
    Within (Adds (Made env securityGroups)) (ask env call) :=
  adds_consult fun _ _ body hcall => absurd hcall (h body)

theorem adds_resolved {α : Type} {f : Option (List String) → Run α}
    (hf : ∀ ids, SecurityGroups.getSecurityGroupIds env.project (some securityGroups) = .ok (some ids) →
      Within (Adds (Made env securityGroups)) (f (some ids))) :
    Within (Adds (Made env securityGroups)) (getSecurityGroupIds env (some securityGroups) >>= f) := by
  cases securityGroups with
  | nil => exact hf [] rfl
  | cons group groups =>
      unfold getSecurityGroupIds
      rw [bind_bind]
      refine Within.bind (adds_ask fun _ h => by cases h) fun _ => ?_
      cases hresolved : SecurityGroups.getSecurityGroupIds env.project (some (group :: groups)) with
      | error e => exact within_raise _
      | ok resolved =>
          obtain ⟨ids, rfl⟩ := SecurityGroups.exists_ids hresolved
          exact hf ids hresolved

/-- A port that is named is not made. -/
theorem adds_createOrUpdatePort {net : RequestedNetwork} {owner : String} {groups : Option (List String)}
    {setBindingHost : Bool}
    (h : net.port = none → ∃ ids, SecurityGroups.getSecurityGroupIds env.project (some securityGroups) =
      .ok (some ids) ∧ groups = some ids) :
    Within (Adds (Made env securityGroups)) (createOrUpdatePort env c net owner groups setBindingHost) := by
  unfold createOrUpdatePort
  cases hport : net.port with
  | some p =>
      refine Within.bind (adds_ask fun _ h => by cases h) fun _ => ?_
      refine Within.bind (Within.onlyIf ?_) fun _ => (adds_told _).bind fun _ => within_pure _
      exact Within.bind (adds_ask fun _ h => by cases h) fun _ => adds_ask fun _ h => by cases h
  | none =>
      refine Within.bind (adds_consult fun _ _ body hcall => ?_) fun _ => (adds_told _).bind fun _ => within_pure _
      obtain ⟨ids, hids, hgroups⟩ := h hport
      cases hcall
      exact ⟨ids, hids, hgroups⟩

section Cleanup

variable {R : Log Addresses Call Failure → Log Addresses Call Failure → Prop} [IsPreorder _ R]
  (hask : ∀ call, (∀ body, call ≠ .createPort body) → Within R (ask env call))

include hask

theorem within_doPortCleanup (addresses : List Addr) : Within R (doPortCleanup env addresses) := by
  cases addresses with
  | nil => exact within_raise _
  | cons addr addrs =>
      refine within_ite (Within.swallow (hask _ fun _ h => by cases h)) ?_
      refine Within.tryExcept (hask _ fun _ h => by cases h) fun e => ?_
      cases e with
      | portNotFound => exact within_pure _
      | resolution | popFromEmptyList | alreadyConnected | cannotHotplug | missingAddresses | noNetwork | indexError
      | docker | other => exact within_raise _

/-- A container is connected, or its port is given up. -/
theorem within_connect (net : NetId) (addresses : List Addr) :
    Within R (reraising (ask env (.connect net)) fun e =>
      match e with
      | .docker _ => doPortCleanup env addresses
      | _ => pure ()) := by
  refine Within.reraising (hask _ fun _ h => by cases h) fun e => ?_
  cases e with
  | docker => exact within_doPortCleanup hask addresses
  | resolution | popFromEmptyList | alreadyConnected | cannotHotplug | missingAddresses | noNetwork | indexError
  | portNotFound | other => exact within_pure _

end Cleanup

/-- Nothing is made for a port that is named, nor where containers cannot be connected. -/
theorem adds_connectContainerToNetwork {net : RequestedNetwork} {groups : Option (List String)}
    (h : net.port = none → env.driver = .kuryr →
      ∃ ids, SecurityGroups.getSecurityGroupIds env.project (some securityGroups) = .ok (some ids) ∧
        groups = some ids) :
    Within (Adds (Made env securityGroups)) (connectContainerToNetwork env c net groups) := by
  unfold connectContainerToNetwork
  cases hdriver : env.driver with
  | kuryr =>
      refine (adds_createOrUpdatePort fun hport => h hport hdriver).bind fun addresses => ?_
      exact (within_connect (fun _ => adds_ask) net.network addresses).bind fun _ => within_pure _
  | cni => exact within_pure _

/-! ## The paths that resolve the groups -/

variable {ids : List String}
  (hids : SecurityGroups.getSecurityGroupIds env.project (some securityGroups) = .ok (some ids))
include hids

theorem adds_processNetworkingConfig (net : RequestedNetwork) :
    Within (Adds (Made env securityGroups)) (processNetworkingConfig env c net (some ids)) := by
  unfold processNetworkingConfig
  cases env.driver with
  | kuryr => exact (adds_createOrUpdatePort fun _ => ⟨ids, hids, rfl⟩).bind fun _ => adds_change _
  | cni =>
      refine (adds_createOrUpdatePort fun _ => ⟨ids, hids, rfl⟩).bind fun _ => (adds_change _).bind fun _ => ?_
      refine Within.bind (adds_ask fun _ h => by cases h) fun _ => ?_
      exact Within.bind (adds_ask fun _ h => by cases h) fun _ => adds_ask fun _ h => by cases h

theorem adds_connectAll (nets : List RequestedNetwork) :
    Within (Adds (Made env securityGroups)) (connectAll env c (some ids) nets) := by
  induction nets with
  | nil => exact within_pure _
  | cons net nets ih =>
      refine (adds_look _).bind fun addresses => Within.bind (Within.onlyIf ?_) fun _ => ih
      exact (adds_connectContainerToNetwork fun _ _ => ⟨ids, hids, rfl⟩).bind fun _ => adds_change _

omit hids

theorem adds_setupNetworkForContainer (nets : List RequestedNetwork) :
    Within (Adds (Made env securityGroups)) (setupNetworkForContainer env (c.asking securityGroups) nets) :=
  adds_resolved fun _ hids => adds_connectAll hids nets

theorem adds_create (nets : List RequestedNetwork) :
    Within (Adds (Made env securityGroups)) (create env (c.asking securityGroups) nets) := by
  refine Within.bind (within_forEach fun net _ => adds_ask fun _ h => by cases h) fun _ => ?_
  refine Within.bind (adds_ask fun _ h => by cases h) fun _ => ?_
  cases nets.getLast? with
  | none => exact within_raise _
  | some net =>
      refine adds_resolved fun ids hids => (adds_processNetworkingConfig hids net).bind fun _ => ?_
      refine Within.bind (adds_ask fun _ h => by cases h) fun _ => ?_
      refine (adds_setupNetworkForContainer _).bind fun _ => ?_
      exact Within.bind (adds_ask fun _ h => by cases h) fun _ => adds_ask fun _ h => by cases h

theorem adds_createPodSandbox (nets : List RequestedNetwork) :
    Within (Adds (Made env securityGroups)) (createPodSandbox env (c.asking securityGroups) nets) := by
  refine Within.bind (adds_resolved fun ids hids => ?_) fun _ => adds_ask fun _ h => by cases h
  cases nets with
  | nil => exact within_raise _
  | cons net nets =>
      refine (adds_createOrUpdatePort fun _ => ⟨ids, hids, rfl⟩).bind fun _ => (adds_change _).bind fun _ => ?_
      refine Within.bind (adds_ask fun _ h => by cases h) fun _ => ?_
      exact Within.bind (adds_ask fun _ h => by cases h) fun _ => adds_ask fun _ h => by cases h

theorem adds_rebuildCapsule :
    Within (Adds (Made env securityGroups)) (rebuildCapsule env (c.asking securityGroups)) := by
  refine Within.bind (adds_ask fun _ h => by cases h) fun _ => (adds_look _).bind fun addresses => ?_
  cases recordedNetworks addresses with
  | nil => exact within_raise _
  | cons net nets =>
      refine (adds_createPodSandbox _).bind fun _ => ?_
      exact Within.bind (adds_ask fun _ h => by cases h) fun _ => adds_ask fun _ h => by cases h

/-! ## The attach of a network -/

/-- What an attach does with the ids that it has. -/
def attachWith (env : Env) (c : Container) (net : RequestedNetwork) (securityGroupIds : Option (List String)) :
    Run Unit := do
  let addresses ← look id
  onlyIf (addresses.any (·.1 = net.network) = true) (raise (.alreadyConnected net.network))
  onlyIf (env.driver = .kuryr) (ask env (.provisionNetwork net.network))
  match ← connectContainerToNetwork env c net securityGroupIds with
  | none => raise .missingAddresses
  | some addrs => do
      change fun addresses => addresses ++ [(net.network, addrs)]
      ask env .save

theorem networkAttach_eq (net : RequestedNetwork) : networkAttach env c net = (do
    onlyIf (c.status = .running ∧ runtimeOf env c ≠ "runc") (raise .cannotHotplug)
    let securityGroupIds ← if truthy c.securityGroups then getSecurityGroupIds env c.securityGroups else pure none
    attachWith env c net securityGroupIds) := rfl

theorem adds_attachWith {net : RequestedNetwork} {groups : Option (List String)}
    (h : net.port = none → env.driver = .kuryr →
      ∃ ids, SecurityGroups.getSecurityGroupIds env.project (some securityGroups) = .ok (some ids) ∧
        groups = some ids) :
    Within (Adds (Made env securityGroups)) (attachWith env c net groups) := by
  refine (adds_look _).bind fun addresses => ?_
  refine Within.bind (Within.onlyIf (within_raise _)) fun _ => ?_
  refine Within.bind (Within.onlyIf (adds_ask fun _ h => by cases h)) fun _ => ?_
  refine (adds_connectContainerToNetwork h).bind fun addrs => ?_
  cases addrs with
  | none => exact within_raise _
  | some addrs => exact (adds_change _).bind fun _ => adds_ask fun _ h => by cases h

theorem adds_networkAttach (net : RequestedNetwork) (h : securityGroups ≠ []) :
    Within (Adds (Made env securityGroups)) (networkAttach env (c.asking securityGroups) net) := by
  rw [networkAttach_eq]
  refine Within.bind (Within.onlyIf (within_raise _)) fun _ => ?_
  cases securityGroups with
  | nil => exact absurd rfl h
  | cons group groups => exact adds_resolved fun ids hids => adds_attachWith fun _ _ => ⟨ids, hids, rfl⟩

section NoGroups

variable {net : RequestedNetwork} {addresses : Addresses}

/-- With an empty list an attach goes on as if there were none. -/
theorem networkAttach_empty (hcold : ¬ (c.status = .running ∧ runtimeOf env c ≠ "runc")) :
    networkAttach env (c.asking []) net = attachWith env (c.asking []) net none := by
  rw [networkAttach_eq]
  have hidle : onlyIf ((c.asking []).status = .running ∧ runtimeOf env (c.asking []) ≠ "runc")
      (raise .cannotHotplug) = (ret () : Run Unit) := if_neg hcold
  rw [hidle]
  rfl

/-- A network that the container is not on yet. -/
theorem attachWith_apart {groups : Option (List String)} (hkuryr : env.driver = .kuryr)
    (hapart : addresses.any (·.1 = net.network) = false) :
    attachWith env c net groups ⟨addresses, []⟩ = (ask env (.provisionNetwork net.network) >>= fun _ => do
      match ← connectContainerToNetwork env c net groups with
      | none => raise .missingAddresses
      | some addrs => do
          change fun addresses => addresses ++ [(net.network, addrs)]
          ask env .save) ⟨addresses, []⟩ := by
  have hstay : onlyIf (addresses.any (·.1 = net.network) = true) (raise (.alreadyConnected net.network)) =
      (ret () : Run Unit) := if_neg (by rw [hapart]; exact Bool.false_ne_true)
  have hask : onlyIf (env.driver = .kuryr) (ask env (.provisionNetwork net.network)) =
      ask env (.provisionNetwork net.network) := if_pos hkuryr
  change (onlyIf (addresses.any (·.1 = net.network) = true) (raise (.alreadyConnected net.network)) >>= fun _ =>
    onlyIf (env.driver = .kuryr) (ask env (.provisionNetwork net.network)) >>= fun _ => _) ⟨addresses, []⟩ = _
  rw [hstay, hask]
  rfl

theorem grows_ask (call : Call) : Within Grows (ask env call) := grows_consult _ _ _

/-- The port of an attach that comes to make one is asked for without groups. -/
theorem mem_networkAttach (h : Comes env c net addresses) :
    ∃ e ∈ (networkAttach env (c.asking []) net ⟨addresses, []⟩).2.log,
      e.call = .createPort (portBody env (c.asking []) net "compute:kuryr" none false) := by
  rw [networkAttach_empty h.cold, attachWith_apart h.driver h.apart]
  have hport : createOrUpdatePort env (c.asking []) net "compute:kuryr" none false = (do
      ask env (.createPort (portBody env (c.asking []) net "compute:kuryr" none false))
      let port ← told env.port
      pure (port.fixedIps.map fun addr =>
        { addr, port := port.id, preserveOnDelete := net.preserveOnDelete })) := by
    unfold createOrUpdatePort
    rw [h.port]
  have hconnect : connectContainerToNetwork env (c.asking []) net none = (do
      let addresses ← createOrUpdatePort env (c.asking []) net "compute:kuryr" none false
      reraising (ask env (.connect net.network)) fun e =>
        match e with
        | .docker _ => doPortCleanup env addresses
        | _ => pure ()
      pure (some addresses)) := by
    unfold connectContainerToNetwork
    rw [h.driver]
  show wp _ (fun _ (w : Log Addresses Call Failure) => ∃ e ∈ w.log, e.call = _) _
  rw [wp_bind]
  refine wp_of_run (consult_none h.provisioned) ?_
  rw [seqPost_ok, hconnect, hport, bind_bind, bind_bind]
  refine mem_consult_then ?_ _
  refine Within.bind (Within.bind (within_read _) fun _ => within_pure _) fun addrs => ?_
  refine Within.bind (Within.bind ?_ fun _ => within_pure _) fun result => ?_
  · exact within_connect (fun call _ => grows_ask call) net.network addrs
  cases result with
  | none => exact within_raise _
  | some addrs => exact (grows_change _).bind fun _ => grows_ask _

/-- An attach that does not come to make a port makes none. -/
theorem made_networkAttach (h : ¬ Comes env c net addresses) :
    ∀ e ∈ (networkAttach env (c.asking []) net ⟨addresses, []⟩).2.log, Made env [] e := by
  by_cases hhot : c.status = .running ∧ runtimeOf env c ≠ "runc"
  · have hstop : networkAttach env (c.asking []) net ⟨addresses, []⟩ =
        (.raise .cannotHotplug, ⟨addresses, []⟩) := by
      rw [networkAttach_eq]
      have hraise : onlyIf ((c.asking []).status = .running ∧ runtimeOf env (c.asking []) ≠ "runc")
          (raise .cannotHotplug) = (raise .cannotHotplug : Run Unit) := if_pos hhot
      rw [hraise]
      rfl
    rw [hstop]
    exact fun e he => absurd he List.not_mem_nil
  by_cases hport : net.port = none ∧ env.driver = .kuryr
  · rw [networkAttach_empty hhot]
    by_cases hon : addresses.any (·.1 = net.network) = false
    · rw [attachWith_apart hport.2 hon]
      cases hrefuse : env.refuse 0 (.provisionNetwork net.network) with
      | none => exact absurd ⟨hport.1, hport.2, hhot, hon, hrefuse⟩ h
      | some e =>
          show wp _ (fun _ (w : Log Addresses Call Failure) => ∀ e ∈ w.log, Made env [] e) _
          rw [wp_bind]
          refine wp_of_run (consult_some hrefuse) fun e he body hbody => ?_
          rw [List.mem_singleton.mp he] at hbody
          cases hbody
    · have hraise : onlyIf (addresses.any (·.1 = net.network) = true) (raise (.alreadyConnected net.network)) =
          (raise (.alreadyConnected net.network) : Run Unit) := if_pos ((Bool.eq_false_or_eq_true _).resolve_right hon)
      have hstop : attachWith env (c.asking []) net none ⟨addresses, []⟩ =
          (.raise (.alreadyConnected net.network), ⟨addresses, []⟩) := by
        change ((onlyIf (addresses.any (·.1 = net.network) = true)
          (raise (.alreadyConnected net.network)) : Run Unit) >>= fun _ => _) ⟨addresses, []⟩ = _
        rw [hraise]
        rfl
      rw [hstop]
      exact fun e he => absurd he List.not_mem_nil
  · rw [networkAttach_empty hhot]
    refine made_of_adds (adds_attachWith fun hnone hkuryr => absurd ⟨hnone, hkuryr⟩ hport)

end NoGroups

/-- A port is made with the groups that were asked for, unless a network is attached to a container that is to
have none. -/
theorem groups_faithful_iff (env : Env) (c : Container) (securityGroups : List String) (path : Path)
    (addresses : Addresses) : Faithful env c securityGroups path addresses ↔
      ¬ ∃ net, path = .networkAttach net ∧ securityGroups = [] ∧ Comes env c net addresses := by
  constructor
  · rintro h ⟨net, rfl, rfl, hcomes⟩
    obtain ⟨e, he, hcall⟩ := mem_networkAttach hcomes
    obtain ⟨ids, -, hids⟩ := h e he _ hcall
    cases hids
  · intro h
    cases path with
    | create nets => exact made_of_adds (adds_create nets)
    | createPodSandbox nets => exact made_of_adds (adds_createPodSandbox nets)
    | rebuildCapsule => exact made_of_adds adds_rebuildCapsule
    | networkAttach net =>
        by_cases hempty : securityGroups = []
        · subst hempty
          exact made_networkAttach fun hcomes => h ⟨net, rfl, rfl, hcomes⟩
        · exact made_of_adds (adds_networkAttach net hempty)

/-! ## A stopped container that is to have no groups -/

namespace Attached

/-- A project with its default group. -/
def world : Env := { project := ⟨[⟨"g-default", "default"⟩], by decide⟩ }

def record : Container := { uuid := 1, host := "compute-1", status := .stopped, securityGroups := some [] }

end Attached

/-- The port is made without a word on its groups, and Neutron gives it the default one. -/
theorem groups_not_faithful : ¬ Faithful Attached.world Attached.record [] (.networkAttach { network := 7 }) [] := by
  intro h
  have hcomes : Comes Attached.world Attached.record { network := 7 } [] :=
    { port := rfl, driver := rfl, cold := by decide, apart := rfl, provisioned := rfl }
  obtain ⟨e, he, hcall⟩ := mem_networkAttach hcomes
  obtain ⟨ids, -, hids⟩ := h e he _ hcall
  cases hids

end PortGroups

end Zun
