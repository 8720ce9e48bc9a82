import Mathlib.Algebra.Field.Rat
import Zun.Data.Ledger
import Zun.Effect.Prog
import Zun.Objects.Container

/-!
# The resource tracker

`ComputeNodeTracker` of `zun/compute/compute_node_tracker.py` with the claims of
`zun/compute/claims.py`.  The tracker keeps the compute node's counters and the containers they
count in memory.  Every entry point but the two aborts first reads the node again from the
database, and every one ends in `_update`, which writes the node, tells placement and saves the
PCI devices.

A write may be refused, and a refused write has no effect.  The log keeps every write with what
it was answered, newest first.

A container with the dedicated CPU policy gets no further than its claim: the source makes a
set of a NUMA node's number, which is a `TypeError`.  So is the `int` of a set that
`_get_usage_dict` asks for when a container has pinned CPUs, and the part of `_update_usage`
that pins CPUs on a NUMA node is never reached.
-/

namespace Zun

open Effect Prog

namespace Tracker

/-! ## What the tracker sees -/

/-- A container, as far as a claim looks at it.  What is not set is 0. -/
structure Container where
  uuid : Uuid
  memory : Nat := 0
  cpu : ℚ≥0 := 0
  disk : Nat := 0
  /-- `cpu_policy == 'dedicated'`. -/
  dedicated : Bool := false
  /-- `cpuset.cpuset_cpus` is not empty. -/
  pinned : Bool := false
deriving DecidableEq

/-- `ComputeNode`. -/
structure Node where
  memTotal : Int
  memFree : Int
  memUsed : Int
  cpus : Nat
  cpuUsed : ℚ
  diskTotal : Int
  diskUsed : Int
  running : Int
  /-- How many NUMA nodes there are. -/
  numaNodes : Nat := 1
  /-- The columns that the tracker only copies from the driver. -/
  info : Nat := 0
deriving DecidableEq

/-- `PciDeviceStatus`, with the container of a device that is taken. -/
inductive PciStatus where
  | available
  | claimed (u : Uuid)
  | allocated (u : Uuid)
deriving DecidableEq

/-- A `PciDevice`. -/
structure PciDev where
  id : Nat
  status : PciStatus := .available
  /-- `obj_what_changed()` is not empty. -/
  changed : Bool := false
deriving DecidableEq

/-- A write that can be refused. -/
inductive Write where
  | saveContainer (u : Uuid)
  | createNode
  | saveNode
  | updatePlacement
  | savePci (dev : Nat)
deriving DecidableEq

/-- Why a write was refused.  A conflict is a `ResourceProviderUpdateConflict`. -/
inductive Fault where
  | conflict | other
deriving DecidableEq

/-- What a claim can be short of. -/
inductive Resource where
  | memory | vcpu | disk | cpusetCpu | cpusetMem
deriving DecidableEq

/-- A reason of a `ResourcesUnavailable`. -/
inductive Reason where
  | short (r : Resource) (free requested : ℚ)
  | pci
deriving DecidableEq

/-- What the tracker raises. -/
inductive Failure where
  | resourcesUnavailable (reasons : List Reason)
  | typeError
  | attributeError
  | indexError
  | refused (w : Write) (f : Fault)
deriving DecidableEq

/-- `limits['cpuset']`. -/
structure CpusetLimit where
  node : Nat
  cpus : Nat
  pinned : Nat
  mem : ℚ
deriving DecidableEq

/-- `limits`.  A limit that is `none` is no limit. -/
structure Limits where
  memory : Option ℚ := none
  cpu : Option ℚ := none
  disk : Option ℚ := none
  cpuset : Option CpusetLimit := none
deriving DecidableEq

/-- `get_available_resources`, as `_copy_resources` takes it over. -/
structure Resources where
  memTotal : Int
  memFree : Int
  memUsed : Int
  cpus : Nat
  cpuUsed : ℚ := 0
  diskTotal : Int
  /-- Only the docker driver says how many containers run. -/
  running : Option Int := none
  numaNodes : Nat := 1
  info : Nat := 0
deriving DecidableEq

/-- How the writes are answered, numbered from the first one, and what the PCI code picks. -/
structure Env where
  refuse : Nat → Write → Option Fault := fun _ _ => none
  /-- `consume_requests`: the devices for some requests, or `none` when there are too few. -/
  pick : List Nat → List PciDev → Option (List Nat) := fun _ _ => some []
  /-- The devices a new `PciDevTracker` finds. -/
  devices : List PciDev := []

/-- The tracker, and what the database holds of the node. -/
structure State where
  /-- `compute_node`. -/
  node : Option Node := none
  /-- `tracked_containers`. -/
  tracked : AList fun _ : Uuid => Container := ∅
  /-- `old_resources` of this host. -/
  old : Option Node := none
  /-- The devices of `pci_tracker`, once there is one. -/
  pci : Option (List PciDev) := none
  /-- The row of the node. -/
  saved : Option Node := none
  log : List (Write × Option Fault) := []

/-- Make a write. -/
def write (env : Env) (w : Write) (effect : State → State := id) : Prog State Failure Unit :=
  fun s =>
    match env.refuse s.log.length w with
    | none => (.ok (), effect { s with log := (w, none) :: s.log })
    | some f => (.raise (.refused w f), { s with log := (w, some f) :: s.log })

/-- The compute node the tracker holds. -/
def computeNode : Prog State Failure Node := do
  let node ← read (·.node)
  match node with
  | some n => pure n
  | none => raise .attributeError

/-! ## Claims -/

/-- What a claim asks for. -/
structure Asked where
  memory : ℚ
  cpu : ℚ
  disk : ℚ
deriving DecidableEq

/-- The properties of a `Claim`. -/
def Container.asked (c : Container) : Asked where
  memory := c.memory
  cpu := c.cpu
  disk := c.disk

/-- The properties of an `UpdateClaim`.  The disk is not overridden there. -/
def updateAsked (new old : Container) : Asked where
  memory := new.memory - old.memory
  cpu := new.cpu - old.cpu
  disk := new.disk

/-- `_test`. -/
def test (r : Resource) (used requested : ℚ) : Option ℚ → Option Reason
  | none => none
  | some limit => if limit - used < requested then some (.short r (limit - used) requested) else none

/-- `_test_pci`. -/
def testPci (env : Env) (pci : Option (List Nat)) : Prog State Failure (Option Reason) :=
  match pci with
  | none | some [] => pure none
  | some requests => do
      let devs ← read (·.pci)
      match devs with
      | none => raise .attributeError
      | some devs => pure (if (env.pick requests devs).isSome then none else some .pci)

/-- `_test_cpuset_cpu`. -/
def testCpusetCpu (a : Asked) : Option CpusetLimit → Option Reason
  | none => none
  | some l => test .cpusetCpu l.pinned a.cpu (some l.cpus)

/-- `_test_cpuset_mem`. -/
def testCpusetMem (node : Node) (a : Asked) :
    Option CpusetLimit → Prog State Failure (Option Reason)
  | none => pure none
  | some l =>
      if l.node < node.numaNodes then pure (test .cpusetMem 0 a.memory (some l.mem))
      else raise .indexError

/-- `_claim_test`. -/
def claimTest (env : Env) (a : Asked) (pci : Option (List Nat)) (limits : Limits) :
    Prog State Failure Unit := do
  let node ← computeNode
  let memory := test .memory node.memUsed a.memory limits.memory
  let cpu := test .vcpu node.cpuUsed a.cpu limits.cpu
  let disk := test .disk node.diskUsed a.disk limits.disk
  let pciReason ← testPci env pci
  let cpusetMem ← testCpusetMem node a limits.cpuset
  let reasons :=
    [memory, cpu, disk, pciReason, testCpusetCpu a limits.cpuset, cpusetMem].filterMap id
  onlyIf (reasons ≠ []) (raise (.resourcesUnavailable reasons))

/-- `Claim.__init__`. -/
def makeClaim (env : Env) (c : Container) (a : Asked) (pci : Option (List Nat))
    (limits : Option Limits) : Prog State Failure Unit := do
  claimTest env a pci (limits.getD {})
  onlyIf c.dedicated (raise .typeError)

/-! ## PCI devices -/

/-- A device with a new status. -/
def PciDev.turn (status : PciStatus) (d : PciDev) : PciDev :=
  { d with status := status, changed := true }

/-- Every device, changed by `f`. -/
def onDevices (f : PciDev → PciDev) : Prog State Failure Unit :=
  modify fun s => { s with pci := s.pci.map (·.map f) }

/-- `claim_container`. -/
def claimContainer (env : Env) (u : Uuid) (pci : Option (List Nat)) : Prog State Failure Unit := do
  let devs ← read (·.pci)
  let picked := ((pci.bind fun requests => devs.bind (env.pick requests)).getD [])
  onDevices fun d => if d.id ∈ picked then d.turn (.claimed u) else d

/-- `update_pci_for_container`. -/
def updatePciForContainer (u : Uuid) (removed : Bool) : Prog State Failure Unit :=
  onDevices fun d =>
    if removed then (if d.status = .claimed u ∨ d.status = .allocated u then d.turn .available else d)
    else if d.status = .claimed u then d.turn (.allocated u) else d

/-! ## Usage -/

/-- `_update_usage` for one container, with its sign. -/
def Node.charge (n : Node) (sign : Int) (c : Container) : Node :=
  { n with
    memUsed := n.memUsed + sign * c.memory
    cpuUsed := n.cpuUsed + sign * c.cpu
    diskUsed := n.diskUsed + sign * c.disk
    memFree := n.memTotal - (n.memUsed + sign * c.memory)
    running := n.running + sign }

/-- `_update_usage(_get_usage_dict(container), sign)`. -/
def updateUsage (sign : Int) (c : Container) : Prog State Failure Unit := do
  onlyIf c.pinned (raise .typeError)
  let node ← computeNode
  modify fun s => { s with node := some (node.charge sign c) }

/-- `_update_usage_from_container`. -/
def updateUsageFromContainer (c : Container) (removed : Bool) : Prog State Failure Unit := do
  let known ← read fun s => (s.tracked.lookup c.uuid).isSome
  if removed then
    onlyIf (known = true) do
      modify fun s => { s with tracked := s.tracked.erase c.uuid }
      updatePciForContainer c.uuid true
      updateUsage (-1) c
  else
    onlyIf (known = false) do
      modify fun s => { s with tracked := s.tracked.insert c.uuid c }
      updatePciForContainer c.uuid false
      updateUsage 1 c

/-- `_update_usage_from_container_update`. -/
def updateUsageFromContainerUpdate (new old : Container) : Prog State Failure Unit := do
  modify fun s => { s with tracked := s.tracked.insert new.uuid new }
  updateUsage (-1) old
  updateUsage 1 new

/-- The counters of a node that nothing runs on. -/
def Node.zero (n : Node) : Node :=
  { n with cpuUsed := 0, memFree := n.memTotal, memUsed := 0, running := 0, diskUsed := 0 }

/-- `_update_usage_from_containers`. -/
def updateUsageFromContainers (cs : List Container) : Prog State Failure Unit := do
  modify fun s => { s with tracked := ∅ }
  let node ← computeNode
  modify fun s => { s with node := some node.zero }
  forEach cs fun c => updateUsageFromContainer c false
  let node ← computeNode
  modify fun s => { s with node := some { node with memFree := max 0 node.memFree } }

/-! ## Writing it down -/

/-- `_update_to_placement`, with the tries that are left after a conflict. -/
def updateToPlacement (env : Env) : Nat → Prog State Failure Unit
  | 0 => write env .updatePlacement
  | n + 1 => tryExcept (write env .updatePlacement) fun e =>
      if e = .refused .updatePlacement .conflict then updateToPlacement env n else raise e

/-- The devices with one of them saved. -/
def markSaved (dev : Nat) (s : State) : State :=
  { s with pci := s.pci.map (·.map fun d => if d.id = dev then { d with changed := false } else d) }

/-- A device has changes that were not saved. -/
def flagged (dev : Nat) (s : State) : Bool :=
  (s.pci.getD []).any fun d => d.id = dev && d.changed

/-- One turn of `PciDevTracker.save`. -/
def saveDev (env : Env) (d : PciDev) : Prog State Failure Unit := do
  let changed ← read (flagged d.id)
  onlyIf (changed = true) (write env (.savePci d.id) (markSaved d.id))

/-- `PciDevTracker.save`. -/
def savePci (env : Env) : Prog State Failure Unit := do
  let devs ← read fun s => s.pci.getD []
  forEach devs (saveDev env)

/-- `_update`.  A node that was read from its row and saved leaves the row as it is itself. -/
def update (env : Env) : Prog State Failure Unit := do
  let node ← computeNode
  let old ← read (·.old)
  onlyIf (old ≠ some node) do
    modify fun s => { s with old := some node }
    write env .saveNode fun s => { s with saved := some node }
    updateToPlacement env 3
    savePci env

/-! ## The entry points -/

/-- The node is read again. -/
def reread : Prog State Failure Unit := modify fun s => { s with node := s.saved }

/-- What `container_claim` does before `_update`.  Whether there is something to claim. -/
def claimUsage (env : Env) (c : Container) (pci : Option (List Nat)) (limits : Option Limits) :
    Prog State Failure Bool :=
  if c.memory = 0 ∧ c.cpu = 0 ∧ pci = none ∧ c.disk = 0 then pure false
  else do
    reread
    makeClaim env c c.asked pci limits
    claimContainer env c.uuid pci
    -- `_set_container_host`
    write env (.saveContainer c.uuid)
    updateUsageFromContainer c false
    pure true

/-- What `container_update_claim` does before `_update`. -/
def updateClaimUsage (env : Env) (new old : Container) (limits : Option Limits) :
    Prog State Failure Bool :=
  if new.cpu = old.cpu ∧ new.memory = old.memory then pure false
  else do
    reread
    makeClaim env new (updateAsked new old) (some []) limits
    updateUsageFromContainerUpdate new old
    pure true

/-- The node as the driver describes it. -/
def Node.copy (r : Resources) (n : Node) : Node :=
  { n with
    memTotal := r.memTotal, memFree := r.memFree, memUsed := r.memUsed, cpus := r.cpus
    cpuUsed := r.cpuUsed, diskTotal := r.diskTotal, running := r.running.getD n.running
    numaNodes := r.numaNodes, info := r.info }

/-- A node that is new. -/
def Resources.toNode (r : Resources) : Node :=
  Node.copy r ⟨0, 0, 0, 0, 0, 0, 0, 0, 0, 0⟩

/-- What `update_available_resources` does before `_update`: the node of the driver is adopted,
and the containers of the host are counted anew. -/
def audit (env : Env) (r : Resources) (available : Bool) (cs : List Container) :
    Prog State Failure Bool := do
  let saved ← read (·.saved)
  onlyIf (saved = none) (write env .createNode fun s => { s with saved := some r.toNode })
  let node := (saved.map (Node.copy r)).getD r.toNode
  modify fun s => { s with pci := some (s.pci.getD env.devices), node := some node }
  if available then do
    updateUsageFromContainers cs
    pure true
  else pure false

/-- The entry points of the tracker. -/
inductive Op where
  | claim (c : Container) (pci : Option (List Nat)) (limits : Option Limits)
  /-- `Claim.abort`. -/
  | abort (c : Container)
  | updateClaim (new old : Container) (limits : Option Limits)
  /-- `UpdateClaim.abort`. -/
  | abortUpdate (new old : Container)
  | remove (c : Container)
  | audit (r : Resources) (available : Bool) (cs : List Container)

/-- An entry point up to its `_update`.  Whether it gets there. -/
def Op.prepare (env : Env) : Op → Prog State Failure Bool
  | .claim c pci limits => claimUsage env c pci limits
  | .abort c => do
      updateUsageFromContainer c true
      pure true
  | .updateClaim new old limits => updateClaimUsage env new old limits
  | .abortUpdate new old => do
      updateUsageFromContainerUpdate old new
      pure true
  | .remove c => do
      reread
      updateUsageFromContainer c true
      pure true
  | .audit r available cs => Tracker.audit env r available cs

/-- An entry point.  A claim that there was nothing to claim for is a `NopClaim`, and returns
`false`. -/
def Op.run (env : Env) (op : Op) : Prog State Failure Bool := do
  let go ← op.prepare env
  onlyIf (go = true) (update env)
  pure go

/-- A step of the tracker: an entry point, and how its writes are answered. -/
structure Event where
  env : Env
  op : Op

def Event.step (e : Event) (s : State) : State := (e.op.run e.env s).2

/-- A tracker that was just made. -/
def Started (s : State) : Prop := ∃ saved, s = { saved }

end Tracker

end Zun
