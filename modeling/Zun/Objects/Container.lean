import Mathlib.Data.List.Basic

/-!
# Container records

A container, a capsule and a capsule's members are rows of one table.  The service works
on objects in memory.  An object remembers which of its fields were assigned since it was
read or saved, and `save` writes those columns and no others.  So two objects of one row can
undo each other only on the columns that both have assigned.

`Record` holds the columns that the modelled functions read or write.  Its `Changed` is
`obj_what_changed()`, and `Changed.merge` is what `save` does to the row.
-/

namespace Zun

/-! ## States -/

/-- `consts.CONTAINER_STATUSES`. -/
inductive Status where
  | error | running | stopped | paused | unknown | creating | created
  | deleted | deleting | rebuilding | dead | restarting
deriving DecidableEq

/-- The statuses of a container that has its process. -/
def Status.live : Status → Bool
  | .running | .paused => true
  | _ => false

/-- The text of a status. -/
def Status.label : Status → String
  | .error => "Error"
  | .running => "Running"
  | .stopped => "Stopped"
  | .paused => "Paused"
  | .unknown => "Unknown"
  | .creating => "Creating"
  | .created => "Created"
  | .deleted => "Deleted"
  | .deleting => "Deleting"
  | .rebuilding => "Rebuilding"
  | .dead => "Dead"
  | .restarting => "Restarting"

/-- `consts.TASK_STATES`. -/
inductive TaskState where
  | imagePulling | containerCreating | containerStarting | containerDeleting
  | containerStopping | containerRebooting | containerPausing | containerUnpausing
  | containerKilling | sgAdding | sgRemoving | networkAttaching | networkDetaching
  | containerRebuilding
deriving DecidableEq

/-- The actions of `utils.VALID_STATES` that act on a container's life. -/
inductive Action where
  | delete | deleteForce | deleteAfterStop | start | stop | reboot | rebuild
  | pause | unpause | kill
deriving DecidableEq

/-- `utils.VALID_STATES`. -/
def validStates : Action → List Status
  | .delete => [.created, .error, .stopped, .deleted, .dead]
  | .deleteForce => [.created, .creating, .error, .running, .stopped, .unknown, .deleted,
      .dead, .restarting, .rebuilding, .deleting]
  | .deleteAfterStop => [.running, .created, .creating, .error, .stopped, .deleted, .dead]
  | .start => [.created, .stopped, .error]
  | .stop => [.running]
  | .reboot => [.created, .running, .stopped, .error]
  | .rebuild => [.created, .running, .stopped, .error]
  | .pause => [.running]
  | .unpause => [.paused]
  | .kill => [.running]

/-- What `status_detail` says.  The CRI driver writes `exit:<code>` for a run that is
over and `stopped` for one its owner stopped. -/
inductive Detail where
  | exit (code : Int)
  /-- `CriDriver.STOPPED_BY_OWNER`. -/
  | stopped
  /-- Any other text, such as docker's `Up 3 mins`. -/
  | text (words : String)
deriving DecidableEq

/-- `(status_detail or '').startswith('exit:')`. -/
def Detail.isExit : Option Detail → Bool
  | some (.exit _) => true
  | _ => false

/-! ## What a record holds -/

abbrev Uuid := Nat
abbrev Host := String
/-- The id the runtime gives a container or a sandbox. -/
abbrev RuntimeId := Nat
abbrev NetId := Nat
abbrev PortId := Nat

/-- `restart_policy['Name']`. -/
inductive PolicyName where
  | no | always | unlessStopped | onFailure
deriving DecidableEq

/-- `CriDriver.RESTARTING_POLICIES`. -/
def PolicyName.restarts : PolicyName → Bool
  | .no => false
  | _ => true

/-- `restart_policy`.  A `MaximumRetryCount` of 0 is no limit. -/
structure RestartPolicy where
  name : PolicyName
  maximumRetryCount : Nat := 0
deriving DecidableEq

/-- One entry of `addresses[network]`. -/
structure Addr where
  /-- The address. -/
  addr : String
  /-- The Neutron port it is on. -/
  port : PortId
  /-- The port is the tenant's, and is never deleted. -/
  preserveOnDelete : Bool
deriving DecidableEq

/-- A probe of `healthcheck['k8s_probes']`.  An absent number is 0, as `or` reads it. -/
structure Probe where
  initialDelaySeconds : Nat := 0
  periodSeconds : Nat := 0
  successThreshold : Nat := 0
  failureThreshold : Nat := 0
deriving DecidableEq

/-- `healthcheck['k8s_probes']`. -/
structure Probes where
  startup : Option Probe := none
  readiness : Option Probe := none
  liveness : Option Probe := none
deriving DecidableEq

/-- The `<kind>_next`, `<kind>_failures` and `<kind>_successes` of one kind of probe. -/
structure ProbeCount where
  next : Option Nat := none
  failures : Option Nat := none
  successes : Option Nat := none
deriving DecidableEq

/-- `healthcheck['k8s_probe_state']`.  An absent key is `none` or `false`. -/
structure ProbeState where
  restarts : Option Nat := none
  lastRestart : Option Nat := none
  startupPassed : Bool := false
  ready : Option Bool := none
  startup : ProbeCount := {}
  readiness : ProbeCount := {}
  liveness : ProbeCount := {}
deriving DecidableEq

/-- `healthcheck`. -/
structure Healthcheck where
  probes : Probes := {}
  state : ProbeState := {}
deriving DecidableEq

/-- The columns of a container row. -/
structure Record where
  status : Status
  statusReason : Option String := none
  statusDetail : Option Detail := none
  taskState : Option TaskState := none
  host : Option Host := none
  containerId : Option RuntimeId := none
  /-- A dictionary from networks; `None` and `{}` are both `[]`. -/
  addresses : List (NetId × List Addr) := []
  healthcheck : Healthcheck := {}
  exitCode : Option Int := none
  startedAt : Option Nat := none
  createdAt : Option Nat := none
  /-- 0 when not set, as the source tests it. -/
  disk : Nat := 0
  cpu : Nat := 0
  memory : Nat := 0
  autoRemove : Bool := false
  restartPolicy : Option RestartPolicy := none
deriving DecidableEq

/-- `_restart_count`. -/
def Record.restartCount (r : Record) : Nat := r.healthcheck.state.restarts.getD 0

/-- `restart_policy['Name'] in RESTARTING_POLICIES`. -/
def Record.restarts (r : Record) : Bool := (r.restartPolicy.map (·.name.restarts)).getD false

/-- `_is_sidecar`, of an init container. -/
def Record.isSidecar (r : Record) : Bool := r.restartPolicy.map (·.name) = some .always

/-! ## Objects and saving -/

/-- Which columns were assigned.  A column the service never assigns has no flag. -/
structure Changed where
  status : Bool := false
  statusReason : Bool := false
  statusDetail : Bool := false
  taskState : Bool := false
  host : Bool := false
  containerId : Bool := false
  addresses : Bool := false
  healthcheck : Bool := false
  exitCode : Bool := false
  startedAt : Bool := false
  disk : Bool := false
deriving DecidableEq

/-- The row after `save`: the assigned columns of the object, the others of the row. -/
def Changed.merge (c : Changed) (new old : Record) : Record :=
  { old with
    status := if c.status then new.status else old.status
    statusReason := if c.statusReason then new.statusReason else old.statusReason
    statusDetail := if c.statusDetail then new.statusDetail else old.statusDetail
    taskState := if c.taskState then new.taskState else old.taskState
    host := if c.host then new.host else old.host
    containerId := if c.containerId then new.containerId else old.containerId
    addresses := if c.addresses then new.addresses else old.addresses
    healthcheck := if c.healthcheck then new.healthcheck else old.healthcheck
    exitCode := if c.exitCode then new.exitCode else old.exitCode
    startedAt := if c.startedAt then new.startedAt else old.startedAt
    disk := if c.disk then new.disk else old.disk }

/-- An object in memory. -/
structure Obj where
  val : Record
  changed : Changed := {}
deriving DecidableEq

/-- The object as it is right after the row was read. -/
def Obj.of (r : Record) : Obj := ⟨r, {}⟩

namespace Obj

def setStatus (v : Status) (o : Obj) : Obj :=
  ⟨{ o.val with status := v }, { o.changed with status := true }⟩

def setStatusReason (v : Option String) (o : Obj) : Obj :=
  ⟨{ o.val with statusReason := v }, { o.changed with statusReason := true }⟩

def setStatusDetail (v : Option Detail) (o : Obj) : Obj :=
  ⟨{ o.val with statusDetail := v }, { o.changed with statusDetail := true }⟩

def setTaskState (v : Option TaskState) (o : Obj) : Obj :=
  ⟨{ o.val with taskState := v }, { o.changed with taskState := true }⟩

def setHost (v : Option Host) (o : Obj) : Obj :=
  ⟨{ o.val with host := v }, { o.changed with host := true }⟩

def setContainerId (v : Option RuntimeId) (o : Obj) : Obj :=
  ⟨{ o.val with containerId := v }, { o.changed with containerId := true }⟩

def setAddresses (v : List (NetId × List Addr)) (o : Obj) : Obj :=
  ⟨{ o.val with addresses := v }, { o.changed with addresses := true }⟩

/-- `addresses[network] = addrs`.  The dictionary is changed in place, so the field does not count as
assigned. -/
def putAddresses (net : NetId) (addrs : List Addr) (o : Obj) : Obj :=
  { o with val := { o.val with addresses := o.val.addresses ++ [(net, addrs)] } }

def setHealthcheck (v : Healthcheck) (o : Obj) : Obj :=
  ⟨{ o.val with healthcheck := v }, { o.changed with healthcheck := true }⟩

def setExitCode (v : Option Int) (o : Obj) : Obj :=
  ⟨{ o.val with exitCode := v }, { o.changed with exitCode := true }⟩

def setStartedAt (v : Option Nat) (o : Obj) : Obj :=
  ⟨{ o.val with startedAt := v }, { o.changed with startedAt := true }⟩

def setDisk (v : Nat) (o : Obj) : Obj :=
  ⟨{ o.val with disk := v }, { o.changed with disk := true }⟩

/-- `healthcheck['k8s_probe_state'] = v` on a copy of the dictionary. -/
def setProbeState (v : ProbeState) (o : Obj) : Obj :=
  o.setHealthcheck { o.val.healthcheck with state := v }

end Obj

end Zun
