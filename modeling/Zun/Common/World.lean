import Mathlib.Logic.Function.Basic
import Zun.Common.Exception
import Zun.Effect.Prog
import Zun.Objects.Container

/-!
# The world of a compute node

Everything a thread of the service can see or change: the database, the objects the
thread holds, placement, the volume mappings, docker, the CRI runtime and Neutron.

Whatever leaves the process is a `Call`.  The environment answers each call with success,
with an exception, or not at all, when the process dies at that point.  A failed call has no
effect.  The answer depends on how many calls were made before, so a claim about every
failure point is a claim about every `Env`.  Between two calls the world moves on: containers
exit, and deletes arrive that abandon a create.  The log keeps every call with its answer,
newest first.
-/

namespace Zun

open Effect

/-! ## What is outside the process -/

/-- A volume mapping. -/
structure VolMap where
  id : Nat
  containerUuid : Uuid
  volumeId : Nat
  /-- Set for a Cinder volume only. -/
  cinderVolumeId : Option Nat := none
  autoRemove : Bool := false
deriving DecidableEq

/-- `CONTAINER_*` of the CRI. -/
inductive ContainerState where
  | created | running | exited | unknown
deriving DecidableEq

/-- A container as the CRI runtime holds it.  It is named by the record's name and by the
attempt number. -/
structure CriContainer where
  id : RuntimeId
  sandbox : RuntimeId
  name : Uuid
  attempt : Nat
  state : ContainerState
  exitCode : Int := 0
  startedAt : Option Nat := none
deriving DecidableEq

/-- A pod sandbox, with the uuid on its owner label. -/
structure Sandbox where
  id : RuntimeId
  owner : Uuid
  ready : Bool := true
deriving DecidableEq

/-- A Neutron port. -/
structure Port where
  id : PortId
  network : NetId
  fixedIps : List String
  /-- Created by this service, and not brought by the tenant. -/
  zunMade : Bool
  /-- `device_id`. -/
  device : Option Uuid := none
deriving DecidableEq

/-- The calls of the docker driver. -/
inductive DockerVerb where
  | provisionNetwork | prepare | create | connect | inspect | start | wire | stop | restart
  | pause | unpause | kill | disconnect | remove | releaseNetworks | list
deriving DecidableEq

/-- A call that leaves the process. -/
inductive Call where
  -- the database
  | save (u : Uuid) (row : Record)
  | destroy (u : Uuid)
  | readRow (u : Uuid)
  | listVolmaps (u : Uuid)
  | createVolmap (v : Nat)
  | destroyVolmap (v : Nat)
  -- volumes
  | isVolumeAvailable (v : Nat)
  | attachVolume (v : Nat)
  | detachVolume (v : Nat)
  | deleteVolume (v : Nat)
  | isVolumeDeleted (v : Nat)
  -- what the node offers
  | getHostDefaultBaseSize
  | unenforceableLimits
  | nodeSupportDiskQuota
  -- images
  | parseImageName (u : Uuid)
  | imagePullPolicy (u : Uuid)
  | pullImage (u : Uuid)
  | loadImage (u : Uuid)
  | readTarImage (u : Uuid)
  -- the resource tracker and placement
  | getComputeNode
  | claimTest (u : Uuid)
  | claimPci (u : Uuid)
  | updateNode
  | deleteAllocation (u : Uuid)
  | removeUsage (u : Uuid)
  -- docker
  | docker (verb : DockerVerb) (u : Uuid)
  -- Neutron
  | securityGroups (u : Uuid)
  | createPort (u : Uuid) (net : NetId)
  | updatePort (p : PortId)
  | deletePort (p : PortId)
  | unbindPort (p : PortId)
  | showNetwork (net : NetId)
  | showPort (p : PortId)
  | showSubnet (p : PortId)
  | osVif (u : Uuid)
  -- the CRI runtime
  | refuseOptions (u : Uuid)
  | applyPodCeiling (u : Uuid)
  | runPodSandbox (u : Uuid)
  | applyHostIoLimits (sandbox : RuntimeId)
  | stopPodSandbox (sandbox : RuntimeId)
  | removePodSandbox (sandbox : RuntimeId)
  | podSandboxStatus (sandbox : RuntimeId)
  | listPodSandbox (u : Uuid)
  | criPullImage (u : Uuid)
  | containerConfig (u : Uuid)
  | createContainer (sandbox : RuntimeId) (name : Uuid) (attempt : Nat)
  | startContainer (id : RuntimeId)
  | stopContainer (id : RuntimeId)
  | removeContainer (id : RuntimeId)
  | listContainers (id : RuntimeId)
  | containerStatus (id : RuntimeId)
  | writableLayer (id : RuntimeId)
  | copyLayer (dead replacement : RuntimeId)
  | runProbe (id : RuntimeId)
  | task (id : RuntimeId)
deriving DecidableEq

/-- The calls that take a port or a sandbox away. -/
def Call.releases : Call → Bool
  | .deletePort _ | .unbindPort _ | .showPort _ | .stopPodSandbox _ | .removePodSandbox _ => true
  | _ => false

/-- How a call is answered. -/
inductive Answer where
  | ok
  | raise (e : Exn)
  /-- The process dies here. -/
  | halt
deriving DecidableEq

/-- What a volume driver says of a volume it is asked about. -/
inductive VolumeState where
  | ready | notYet | error
deriving DecidableEq

/-- The environment: how the calls are answered, numbered from the first one, and
what the node is. -/
structure Env where
  answer : Nat → Call → Answer := fun _ _ => .ok
  /-- `time.time()`. -/
  now : Nat → Nat := fun n => n
  /-- `is_volume_available` and `is_volume_deleted`. -/
  volume : Nat → VolumeState := fun _ => .ready
  /-- The fixed addresses Neutron gives a new port. -/
  fixedIps : Nat → List String := fun _ => ["10.0.0.2"]
  /-- The containers that exit just before a call, with their codes. -/
  exits : Nat → List (RuntimeId × Int) := fun _ => []
  /-- The capsules whose delete arrives just before a call. -/
  abandons : Nat → List Uuid := fun _ => []
  /-- What a probe says. -/
  probe : Nat → Bool := fun _ => true
  /-- `_task_status` says that the container is frozen. -/
  frozen : Nat → Bool := fun _ => false
  /-- Both writable layers are there, and one fits in the other. -/
  layersFit : Bool := true
  /-- How many rounds a loop without a limit is followed. -/
  patience : Nat := 8
  /-- `CONF.host`. -/
  host : Host := "node"
  /-- `get_host_default_base_size()`, 0 when there is none. -/
  baseSize : Nat := 0
  /-- `unenforceable_limits`: the options this node would drop. -/
  unenforceable : Record → List String := fun _ => []
  /-- `node_support_disk_quota()`. -/
  diskQuota : Bool := true
  /-- `CONF.default_disk`. -/
  defaultDisk : Nat := 10
  /-- How many polls fit in the time a wait for volumes is given. -/
  polls : Nat := 2
  /-- `timeout_wait_volume_available`. -/
  timeoutAvailable : Nat := 60
  /-- `timeout_wait_volume_deleted`. -/
  timeoutDeleted : Nat := 60
  /-- The image comes from Glance, as a file. -/
  glance : Bool := false
  /-- The image driver says the image is already loaded. -/
  imageLoaded : Bool := true
  /-- `_runtime_of` says `runc`. -/
  runc : Bool := true

/-! ## The world -/

/-- The world of a thread on a compute node. -/
structure World where
  /-- The rows of the database. -/
  db : Uuid → Option Record
  /-- The objects the thread holds. -/
  mem : Uuid → Obj
  /-- The consumers that hold an allocation in placement. -/
  allocations : Uuid → Bool := fun _ => false
  volmaps : List VolMap := []
  /-- The volumes connected to this host. -/
  connected : List Nat := []
  /-- The containers docker holds. -/
  dockerContainers : List RuntimeId := []
  sandboxes : List Sandbox := []
  containers : List CriContainer := []
  ports : List Port := []
  /-- The next id the runtime, docker or Neutron gives out. -/
  nextId : Nat := 1
  /-- `CriDriver._abandoned`. -/
  abandoned : List Uuid := []
  /-- The capsules a rebuild was spawned for, newest first. -/
  rebuilds : List Uuid := []
  /-- Every call with its answer, newest first. -/
  log : List (Call × Answer) := []

/-- A running container that is told to exit has exited, with its code. -/
def CriContainer.exit (exits : List (RuntimeId × Int)) (c : CriContainer) : CriContainer :=
  match exits.find? (·.1 = c.id) with
  | some (_, code) => if c.state = .running then { c with state := .exited, exitCode := code } else c
  | none => c

namespace World

/-- How many calls were made. -/
def tick (s : World) : Nat := s.log.length

/-- The world when call `c` is made: what happened since the last one, and `c` logged. -/
def turn (env : Env) (c : Call) (s : World) : World :=
  { s with
    containers := s.containers.map (CriContainer.exit (env.exits s.tick))
    abandoned := env.abandons s.tick ++ s.abandoned
    log := (c, env.answer s.tick c) :: s.log }

@[simp] theorem turn_db (env : Env) (c : Call) (s : World) : (s.turn env c).db = s.db := rfl
@[simp] theorem turn_mem (env : Env) (c : Call) (s : World) : (s.turn env c).mem = s.mem := rfl
@[simp] theorem turn_allocations (env : Env) (c : Call) (s : World) :
    (s.turn env c).allocations = s.allocations := rfl
@[simp] theorem turn_volmaps (env : Env) (c : Call) (s : World) :
    (s.turn env c).volmaps = s.volmaps := rfl
@[simp] theorem turn_sandboxes (env : Env) (c : Call) (s : World) :
    (s.turn env c).sandboxes = s.sandboxes := rfl
@[simp] theorem turn_ports (env : Env) (c : Call) (s : World) :
    (s.turn env c).ports = s.ports := rfl

@[simp] theorem turn_nextId (env : Env) (c : Call) (s : World) :
    (s.turn env c).nextId = s.nextId := rfl

/-- The object of `u`, changed by `f`. -/
def setMem (u : Uuid) (f : Obj → Obj) (s : World) : World :=
  { s with mem := Function.update s.mem u (f (s.mem u)) }

/-- The row of `u`, set to `r`. -/
def setRow (u : Uuid) (r : Option Record) (s : World) : World :=
  { s with db := Function.update s.db u r }

/-- The rows of `us`, dropped. -/
def dropRows (us : List Uuid) (s : World) : World :=
  { s with db := fun v => if v ∈ us then none else s.db v }

/-- A volume mapping refers to one of the rows of `us`. -/
def referred (us : List Uuid) (s : World) : Bool := s.volmaps.any fun v => v.containerUuid ∈ us

/-- The row that a `save` of the object of `u` writes over `row`. -/
def merged (u : Uuid) (row : Record) (s : World) : Record :=
  (s.mem u).changed.merge (s.mem u).val row

/-- The world after a `save` of the object of `u` over `row`. -/
def saved (u : Uuid) (row : Record) (s : World) : World :=
  (s.setRow u (some (s.merged u row))).setMem u fun o => Obj.of o.val

/-- A world with these rows and no other, whose objects were all read just now. -/
def ofRows (rows : List (Uuid × Record)) : World where
  db u := rows.lookup u
  mem u := Obj.of ((rows.lookup u).getD { status := .unknown })

variable {u : Uuid} {s : World}

@[simp] theorem setMem_mem_self (f : Obj → Obj) : (s.setMem u f).mem u = f (s.mem u) :=
  Function.update_self ..

theorem setMem_mem_of_ne {v : Uuid} (h : v ≠ u) (f : Obj → Obj) :
    (s.setMem u f).mem v = s.mem v := Function.update_of_ne h ..

@[simp] theorem setMem_db (f : Obj → Obj) : (s.setMem u f).db = s.db := rfl

@[simp] theorem saved_db_self (row : Record) : (s.saved u row).db u = some (s.merged u row) :=
  Function.update_self ..

theorem saved_db_of_ne {v : Uuid} (h : v ≠ u) (row : Record) : (s.saved u row).db v = s.db v :=
  Function.update_of_ne h ..

@[simp] theorem saved_mem_self (row : Record) :
    (s.saved u row).mem u = Obj.of (s.mem u).val := Function.update_self ..

theorem saved_mem_of_ne {v : Uuid} (h : v ≠ u) (row : Record) :
    (s.saved u row).mem v = s.mem v := Function.update_of_ne h ..

theorem saved_val (v : Uuid) (row : Record) : ((s.saved u row).mem v).val = (s.mem v).val := by
  by_cases h : v = u
  · subst h
    rw [saved_mem_self]
    rfl
  · rw [saved_mem_of_ne h]

/-- A `save` writes a column of the object or leaves that of the row. -/
theorem merged_status (row : Record) :
    (s.merged u row).status = (s.mem u).val.status ∨ (s.merged u row).status = row.status := by
  unfold World.merged Changed.merge
  cases (s.mem u).changed.status
  · exact .inr rfl
  · exact .inl rfl

theorem merged_host (row : Record) :
    (s.merged u row).host = (s.mem u).val.host ∨ (s.merged u row).host = row.host := by
  unfold World.merged Changed.merge
  cases (s.mem u).changed.host
  · exact .inr rfl
  · exact .inl rfl

@[simp] theorem setRow_db_self (r : Option Record) : (s.setRow u r).db u = r :=
  Function.update_self ..

theorem dropRows_db_of_mem {us : List Uuid} (h : u ∈ us) : (s.dropRows us).db u = none := if_pos h

theorem dropRows_db_of_not_mem {us : List Uuid} (h : u ∉ us) : (s.dropRows us).db u = s.db u :=
  if_neg h

/-- A row that is left was there. -/
theorem db_of_dropRows {us : List Uuid} {r : Record} (h : (s.dropRows us).db u = some r) :
    u ∉ us ∧ s.db u = some r := by
  by_cases hu : u ∈ us
  · rw [dropRows_db_of_mem hu] at h
    cases h
  · rw [dropRows_db_of_not_mem hu] at h
    exact ⟨hu, h⟩

theorem referred_iff {us : List Uuid} :
    s.referred us = true ↔ ∃ v ∈ s.volmaps, v.containerUuid ∈ us := by
  simp [World.referred]

@[simp] theorem setMem_log (f : Obj → Obj) : (s.setMem u f).log = s.log := rfl

@[simp] theorem saved_log (row : Record) : (s.saved u row).log = s.log := rfl

end World

/-! ## Calls -/

open Prog

/-- Make a call.  Only a call that succeeds has its effect. -/
def call (env : Env) (c : Call) (effect : World → World := id) : Prog World Exn Unit :=
  fun s =>
    match env.answer s.tick c with
    | .ok => (.ok (), effect (s.turn env c))
    | .raise e => (.raise e, s.turn env c)
    | .halt => (.halt, s.turn env c)

/-- A call, whatever its answer, ends in one of three ways. -/
theorem wp_call {env : Env} {c : Call} {effect : World → World} {s : World}
    {Q : Result Exn Unit → World → Prop}
    (hok : env.answer s.tick c = .ok → Q (.ok ()) (effect (s.turn env c)))
    (hraise : ∀ e, env.answer s.tick c = .raise e → Q (.raise e) (s.turn env c))
    (hhalt : env.answer s.tick c = .halt → Q .halt (s.turn env c)) :
    wp (call env c effect) Q s := by
  unfold wp call
  cases h : env.answer s.tick c with
  | ok => exact hok h
  | raise e => exact hraise e h
  | halt => exact hhalt h

theorem call_ok {env : Env} {c : Call} {effect : World → World} {s s' : World} {a : Unit}
    (h : call env c effect s = (.ok a, s')) : s' = effect (s.turn env c) := by
  unfold call at h
  split at h
  · exact (Prod.ext_iff.mp h).2.symm
  · cases (Prod.ext_iff.mp h).1
  · cases (Prod.ext_iff.mp h).1

theorem within_call {R : World → World → Prop} {env : Env} {c : Call} {effect : World → World}
    (hturn : ∀ s, R s (s.turn env c)) (heffect : ∀ s, R s (effect (s.turn env c))) :
    Within R (call env c effect) :=
  within_of_wp fun s => wp_call (fun _ => heffect s) (fun _ _ => hturn s) (fun _ => hturn s)

/-- Every call succeeds. -/
structure Answered (env : Env) : Prop where
  answers : ∀ n c, env.answer n c = .ok

theorem wp_answered {env : Env} (h : Answered env) {c : Call} {effect : World → World} {s : World}
    {Q : Result Exn Unit → World → Prop} (hok : Q (.ok ()) (effect (s.turn env c))) :
    wp (call env c effect) Q s := by
  refine wp_call (fun _ => hok) (fun e he => ?_) (fun hhalt => ?_)
  · rw [h.answers] at he
    cases he
  · rw [h.answers] at hhalt
    cases hhalt

/-- Make a call and read its answer off the world. -/
def ask {α : Type} (env : Env) (c : Call) (f : World → α) : Prog World Exn α :=
  call env c >>= fun _ => read f

/-! ## Objects -/

/-- Read the object of `u`. -/
def obj {α : Type} (u : Uuid) (f : Record → α) : Prog World Exn α :=
  read fun s => f (s.mem u).val

/-- Assign fields of the object of `u`. -/
def assign (u : Uuid) (f : Obj → Obj) : Prog World Exn Unit := modify (World.setMem u f)

@[simp] theorem wp_obj {α : Type} {u : Uuid} {f : Record → α} {s : World}
    (Q : Result Exn α → World → Prop) : wp (obj u f) Q s = Q (.ok (f (s.mem u).val)) s := rfl

@[simp] theorem wp_assign {u : Uuid} {f : Obj → Obj} {s : World}
    (Q : Result Exn Unit → World → Prop) :
    wp (assign u f) Q s = Q (.ok ()) (s.setMem u f) := rfl

/-- `save`: write the assigned columns to the row, which has to exist. -/
def save (env : Env) (u : Uuid) : Prog World Exn Unit := fun s =>
  match s.db u with
  | none => (.raise { cls := .containerNotFound }, s)
  | some row => call env (.save u (s.merged u row)) (World.saved u row) s

theorem wp_save {env : Env} {u : Uuid} {s : World} {Q : Result Exn Unit → World → Prop}
    (hgone : s.db u = none → Q (.raise { cls := .containerNotFound }) s)
    (hok : ∀ row, s.db u = some row → env.answer s.tick (.save u (s.merged u row)) = .ok →
      Q (.ok ()) ((s.turn env (.save u (s.merged u row))).saved u row))
    (hraise : ∀ row e, s.db u = some row →
      env.answer s.tick (.save u (s.merged u row)) = .raise e →
      Q (.raise e) (s.turn env (.save u (s.merged u row))))
    (hhalt : ∀ row, s.db u = some row → env.answer s.tick (.save u (s.merged u row)) = .halt →
      Q .halt (s.turn env (.save u (s.merged u row)))) :
    wp (save env u) Q s := by
  unfold save
  cases hrow : s.db u with
  | none => simpa only [wp, hrow] using hgone hrow
  | some row =>
      simp only [wp, hrow]
      exact wp_call (hok row hrow) (fun e => hraise row e hrow) (hhalt row hrow)

/-- `DBReferenceError`: a row of another table refers to the row, or to none. -/
def referenceError : Exn where
  cls := .other
  text := "a foreign key constraint fails"

/-- `destroy`: drop the row, which has to exist, and with it the rows of its members.  The
database keeps a row that a volume mapping refers to. -/
def destroy (env : Env) (u : Uuid) (members : List Uuid := []) : Prog World Exn Unit := fun s =>
  match s.db u with
  | none => (.raise { cls := .containerNotFound }, s)
  | some _ =>
      if s.referred (u :: members) then (.raise referenceError, s)
      else call env (.destroy u) (World.dropRows (u :: members)) s

theorem wp_destroy {env : Env} {u : Uuid} {members : List Uuid} {s : World}
    {Q : Result Exn Unit → World → Prop} (hrefused : ∀ e, Q (.raise e) s)
    (hok : Q (.ok ()) ((s.turn env (.destroy u)).dropRows (u :: members)))
    (hraise : ∀ e, Q (.raise e) (s.turn env (.destroy u)))
    (hhalt : Q .halt (s.turn env (.destroy u))) : wp (destroy env u members) Q s := by
  unfold destroy
  cases hrow : s.db u with
  | none => simpa only [wp, hrow] using hrefused _
  | some row =>
      cases href : s.referred (u :: members) with
      | true => simpa only [wp, hrow, href, if_true] using hrefused _
      | false =>
          simp only [wp, hrow, href, Bool.false_eq_true, if_false]
          exact wp_call (fun _ => hok) (fun e _ => hraise e) (fun _ => hhalt)

/-- Read the row of `u` afresh; `none` when it is gone. -/
def freshRecord (env : Env) (u : Uuid) : Prog World Exn (Option Record) :=
  ask env (.readRow u) fun s => s.db u

end Zun
