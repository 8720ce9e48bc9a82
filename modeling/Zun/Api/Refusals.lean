import Zun.Db.Api
import Zun.Effect.Prog

/-!
# Refused creates

`_do_post` of `zun/api/controllers/v1/containers.py` and of `capsules.py`, with
`_build_requested_volumes` of each and `container_create` of `zun/compute/api.py`, from where the
record is written to where the request is answered.  The container's handler takes the record back
and nothing else.  The capsule's is inside `_build_requested_volumes`: it takes back the Cinder
volumes and the records, and covers no other step.

Every step that can fail is a `Call`, and no request makes a call twice, so an environment says of
each call whether it fails and with what.  A failed call has no effect.  `VolumeMapping` objects are
made in memory only, here: the rows are the node's.
-/

namespace Zun

open Effect Prog

namespace Refusals

/-! ## What a request makes -/

/-- Which of the request's records: its uuid. -/
inductive Key where
  | container
  | capsule
  | member (i : Nat)
deriving DecidableEq

inductive Status where
  | creating | error
deriving DecidableEq

structure Row where
  key : Key
  containerType : Db.ContainerType
  /-- `capsule_id`. -/
  capsule : Option Key := none
  status : Status := .creating
  statusReason : Option String := none
deriving DecidableEq

/-- What there is because of the request.  A volume bears the number of the mount it is for. -/
structure World where
  records : List Row := []
  volumes : List Nat := []
  /-- The `volume_id` of each mapping. -/
  mappings : List Nat := []
  /-- The volumes made at Cinder and not deleted. -/
  cinder : List Nat := []
  allocations : List Key := []
  /-- `volume_created`, of the capsule's `_build_requested_volumes`. -/
  created : List Nat := []
deriving DecidableEq

inductive Error where
  | noValidHost
  | operationNotSupported
  | referenceInvalidFormat
  | imageNotFound
  | computeNodeNotFound
  | containerNotFound
  | volumeNotFound
  | conflict (text : String)
  | invalid (text : String)
  | invalidValue (text : String)
  | invalidCapsuleTemplate (text : String)
  | requestedHostNotFound (host : String)
  | other
deriving DecidableEq

inductive Call where
  | createRecord (k : Key)
  /-- By the handler of `_do_post`, or before. -/
  | destroyRecord (k : Key) (handler : Bool)
  | searchVolume (i : Nat)
  | ensureVolumeUsable (i : Nat)
  | createCinder (i : Nat)
  | deleteCinder (i : Nat)
  | createVolume (i : Nat)
  | countMappings (i : Nat)
  | destroyVolume (i : Nat)
  | getComputeNode
  | selectDestinations
  | saveStatus
  | imageSearch
  | actionStart
  | rpcCreate
  -- a capsule's
  | securityGroup (name : String)
  | requestedNetworks
  | saveCapsule
  | loadMembers
  | saveResources
deriving DecidableEq

structure Env where
  fails : Call → Option Error
  /-- `new_container.image`. -/
  image : String := ""
  /-- How many images the node finds. -/
  images : Nat := 1
  enableImageValidation : Bool := true
  maxContentsSize : Nat := 1048576
  /-- The length that `decode_file_data` comes to, if it decodes. -/
  decodedSize : String → Option Nat := fun _ => none
  allowedCapabilities : List String := ["NET_BIND_SERVICE"]

variable (env : Env)

/-- A call, and what it does if it succeeds. -/
def call (c : Call) (effect : World → World) : Prog World Error Unit := fun s =>
  match env.fails c with
  | some e => (.raise e, s)
  | none => (.ok (), effect s)

def World.has (s : World) (k : Key) : Bool := s.records.any (·.key = k)

/-- The row goes, and with a capsule's those of its members. -/
def World.drop (k : Key) (s : World) : World :=
  { s with records := s.records.filter fun r => r.key ≠ k ∧ r.capsule ≠ some k }

def createRecord (r : Row) : Prog World Error Unit :=
  call env (.createRecord r.key) fun s => { s with records := r :: s.records }

/-- `destroy_container`. -/
def destroyRecord (k : Key) (handler : Bool) : Prog World Error Unit := do
  call env (.destroyRecord k handler) id
  if (← read (·.has k)) = true then modify (World.drop k) else raise .containerNotFound

/-- `new_container.status = consts.ERROR`, saved. -/
def saveStatus (k : Key) (reason : String) : Prog World Error Unit :=
  call env .saveStatus fun s =>
    { s with
      records := s.records.map fun r =>
        if r.key = k then { r with status := .error, statusReason := some reason } else r }

def createCinder (i : Nat) : Prog World Error Unit :=
  call env (.createCinder i) fun s => { s with cinder := i :: s.cinder }

def createVolume (i : Nat) : Prog World Error Unit :=
  call env (.createVolume i) fun s => { s with volumes := i :: s.volumes }

/-- `VolumeMapping._destroy_volume`. -/
def destroyVolume (i : Nat) : Prog World Error Unit := do
  call env (.countMappings i) id
  if (← read (·.mappings.contains i)) = true then ret ()
  else do
    call env (.destroyVolume i) id
    if (← read (·.volumes.contains i)) = true then
      modify fun s => { s with volumes := s.volumes.filter (· ≠ i) }
    else raise .volumeNotFound

/-! ## `container_create` of the compute API -/

/-- One round of the loop of `_validate_host`. -/
def discardVolume (i : Nat) : Prog World Error Unit :=
  tryExcept (destroyVolume env i) fun e => if e = .volumeNotFound then ret () else raise e

/-- `_validate_host`. -/
def validateHost (k : Key) (host : String) (volumes : List Nat) : Prog World Error Unit :=
  tryExcept (call env .getComputeNode id) fun e =>
    if e = .computeNodeNotFound then do
      destroyRecord env k false
      forEach volumes (discardVolume env)
      raise (.requestedHostNotFound host)
    else raise e

/-- `_schedule_container`, and what becomes of the record when it fails: whether there is a host. -/
def schedule (k : Key) : Prog World Error Bool :=
  tryExcept
    (do
      call env .selectDestinations fun s => { s with allocations := k :: s.allocations }
      ret true)
    fun e =>
      if e = .noValidHost then do
        saveStatus env k "There are not enough hosts available."
        ret false
      else do
        saveStatus env k "Unexpected exception occurred."
        raise e

/-- The check of the image. -/
def validateImage : Prog World Error Unit :=
  onlyIf (env.enableImageValidation = true)
    (tryExcept
      (do
        call env .imageSearch id
        if env.images = 0 then raise .imageNotFound
        else if env.images > 1 then
          raise (.conflict ("Multiple images exist with same name. " ++
            "Please use the container uuid instead."))
        else ret ())
      fun e =>
        if e = .referenceInvalidFormat then
          raise (.invalidValue s!"The format of image name '{env.image}' is invalid.")
        else ret ())

def containerCreate (k : Key) (requestedHost : String) (volumes : List Nat) :
    Prog World Error Unit := do
  onlyIf (requestedHost ≠ "") (validateHost env k requestedHost volumes)
  if (← schedule env k) = true then do
    validateImage env
    call env .actionStart id
    call env .rpcCreate id
  else ret ()

/-! ## A container -/

inductive Size where
  | text (s : String)
  | number (n : Int)
deriving DecidableEq

def Size.truthy : Size → Bool
  | .text s => s ≠ ""
  | .number n => n ≠ 0

structure Mount where
  /-- `mount.get('type', 'volume')`. -/
  type : String := "volume"
  source : Option String := none
  size : Option Size := none
  destination : String
  mode : Option Nat := none
  uid : Option Nat := none
  gid : Option Nat := none
deriving DecidableEq

def Mount.owned (m : Mount) : Bool := m.mode.isSome || m.uid.isSome || m.gid.isSome

/-- `mount.get('source')`, as a condition. -/
def Mount.sourced (m : Mount) : Bool := m.source.any (· ≠ "")

/-- `mount.get('size')`, as a condition. -/
def Mount.sized (m : Mount) : Bool := m.size.any Size.truthy

/-- The size of the contents, if it is one that `_check_contents_size` refuses. -/
def tooLarge (contents : String) : Option Nat :=
  if contents.length ≤ env.maxContentsSize then none
  else some ((env.decodedSize contents).getD contents.length) |>.filter (· > env.maxContentsSize)

def checkContentsSize (contents destination : String) : Prog World Error Unit :=
  match tooLarge env contents with
  | none => ret ()
  | some size =>
      raise (.invalidValue (s!"The file for {destination} is {size} bytes; " ++
        s!"the largest a container may be handed is {env.maxContentsSize}"))

/-- What sets `volume_provider`, and whether it was set. -/
def provide (i : Nat) (m : Mount) : Prog World Error Bool :=
  if m.type = "volume" then
    if m.sourced = true then do
      call env (.searchVolume i) id
      call env (.ensureVolumeUsable i) id
      ret true
    else if m.sized = true then do
      createCinder env i
      call env (.ensureVolumeUsable i) id
      ret true
    else ret false
  else if m.type = "bind" then do
    checkContentsSize env (m.source.getD "") m.destination
    ret true
  else ret false

/-- One round of `_build_requested_volumes`.  The column `volume_provider` takes no null. -/
def buildVolume (i : Nat) (m : Mount) : Prog World Error Unit := do
  let provided ← provide env i m
  if m.type ≠ "bind" ∧ m.owned = true then
    raise (.invalidValue
      "mode, uid and gid apply to a file handed in as contents (type bind) only")
  else if provided = true then createVolume env i
  else raise .other

/-- `_build_requested_volumes`: the volumes, each with its mapping. -/
def buildRequestedVolumes : Nat → List Mount → Prog World Error (List Nat)
  | _, [] => ret []
  | i, m :: ms => do
      buildVolume env i m
      let volumes ← buildRequestedVolumes (i + 1) ms
      ret (i :: volumes)

/-- `_do_post` of a container, from where its record is created. -/
def postContainer (mounts : List Mount) (requestedHost : String) : Prog World Error Unit := do
  createRecord env { key := .container, containerType := .container }
  reraising
    (do
      let volumes ← buildRequestedVolumes env 0 mounts
      containerCreate env .container requestedHost volumes)
    fun _ => swallow (destroyRecord env .container true)

/-! ## A capsule -/

/-- The one source a volume has: the schema sees to that. -/
inductive Source where
  | file | nfs | emptyDir
  /-- Cinder, by a `volumeID` or by a size. -/
  | volumeId
  | size
deriving DecidableEq

structure Volume where
  name : String
  source : Source
deriving DecidableEq

structure SecurityContext where
  /-- `capabilities.add`. -/
  add : List String := []
  seccompProfile : Option String := none
deriving DecidableEq

structure Member where
  init : Bool := false
  securityContext : Option SecurityContext := none
  /-- The `name` and the `mountPath` of each. -/
  volumeMounts : List (String × String) := []
deriving DecidableEq

structure Capsule where
  /-- The set of the names given; none are given if there is no list. -/
  securityGroups : List String := []
  architecture : String := ""
  /-- The init containers, and then the containers. -/
  members : List Member
  volumes : List Volume := []
deriving DecidableEq

/-- `ARCH_ALIASES`. -/
def archAliases (arch : String) : String :=
  match arch with
  | "amd64" => "x86_64"
  | "x86-64" => "x86_64"
  | "arm64" => "aarch64"
  | arch => arch

/-- `ARCH_TRAITS`. -/
def archTraits (arch : String) : Option String :=
  match arch with
  | "x86_64" => some "COMPUTE_ARCH_X86_64"
  | "aarch64" => some "COMPUTE_ARCH_AARCH64"
  | "ppc64le" => some "COMPUTE_ARCH_PPC64LE"
  | "s390x" => some "COMPUTE_ARCH_S390X"
  | "riscv64" => some "COMPUTE_ARCH_RISCV64"
  | _ => none

/-- The trait of the architecture, if it is supported. -/
def archTrait (arch : String) : Option String := archTraits (archAliases arch.toLower)

def checkArchitecture (arch : String) : Prog World Error Unit :=
  if arch = "" ∨ (archTrait arch).isSome = true then ret ()
  else raise (.invalidCapsuleTemplate ("unsupported architecture " ++ archAliases arch.toLower))

/-- The capabilities that may not be added, sorted. -/
def SecurityContext.forbidden (sc : SecurityContext) : List String :=
  let allowed := env.allowedCapabilities.map String.toUpper
  ((sc.add.map String.toUpper).dedup.filter (· ∉ allowed)).mergeSort (· ≤ ·)

/-- What `_validate_security_context` raises. -/
def SecurityContext.refusal (sc : SecurityContext) : Option Error :=
  if sc.forbidden env ≠ [] then
    let allowed := (env.allowedCapabilities.map String.toUpper).dedup.mergeSort (· ≤ ·)
    some (.invalid ("securityContext.capabilities.add may not include "
      ++ ", ".intercalate (sc.forbidden env) ++ "; this host allows adding only "
      ++ if allowed = [] then "(none)" else ", ".intercalate allowed))
  else if sc.seccompProfile = some "Localhost" then
    some (.invalid ("securityContext.seccompProfile type Localhost is not supported: "
      ++ "it names a profile file on the compute host, which a tenant "
      ++ "cannot install; use RuntimeDefault"))
  else none

/-- One round of the loop over the members.  The check of the restart policy passes: it is always
one of the loop's own. -/
def createMember (i : Nat) (m : Member) : Prog World Error Unit :=
  match m.securityContext.bind (·.refusal env) with
  | some e => raise e
  | none =>
      createRecord env
        { key := .member i
          containerType := if m.init = true then .capsuleInitContainer else .capsuleContainer
          capsule := some .capsule }

def createMembers : Nat → List Member → Prog World Error Unit
  | _, [] => ret ()
  | i, m :: ms => do
      createMember env i m
      createMembers (i + 1) ms

/-- Some mount has the volume's name, and the last of them has a path. -/
def mounted (mounts : List (String × String)) (v : Volume) : Bool :=
  ((mounts.filter (·.1 = v.name)).getLast?).any (·.2 ≠ "")

/-- Where a capsule's volume comes from. -/
def findVolume (i : Nat) : Source → Prog World Error Unit
  | .volumeId => do
      call env (.searchVolume i) id
      call env (.ensureVolumeUsable i) id
  | .size => do
      createCinder env i
      modify fun s => { s with created := i :: s.created }
  | .file | .nfs | .emptyDir => ret ()

/-- The loop of the capsule's `_build_requested_volumes`. -/
def buildVolumes (mounts : List (String × String)) : Nat → List Volume → Prog World Error Unit
  | _, [] => ret ()
  | i, v :: vs => do
      findVolume env i v.source
      createVolume env i
      if mounted mounts v = true then buildVolumes mounts (i + 1) vs
      else raise (.invalid "volume mount parameters is invalid.")

def deleteCinder (i : Nat) : Prog World Error Unit :=
  call env (.deleteCinder i) fun s => { s with cinder := s.cinder.filter (· ≠ i) }

/-- `capsule.containers`: the members that are not init containers. -/
def World.containers (s : World) : List Key :=
  (s.records.filter (·.containerType = .capsuleContainer)).map (·.key)

/-- The handler of the capsule's `_build_requested_volumes`. -/
def dropCapsule : Prog World Error Unit := do
  let created ← read (·.created)
  forEach created fun i => swallow (deleteCinder env i)
  call env .loadMembers id
  let containers ← read World.containers
  forEach containers fun k => swallow (destroyRecord env k true)
  destroyRecord env .capsule true

/-- `_do_post` of a capsule, from where its record is created. -/
def postCapsule (c : Capsule) : Prog World Error Unit := do
  createRecord env { key := .capsule, containerType := .capsule }
  forEach c.securityGroups fun name => call env (.securityGroup name) id
  call env .requestedNetworks id
  call env .saveCapsule id
  checkArchitecture c.architecture
  createMembers env 0 c.members
  reraising (buildVolumes env (c.members.flatMap (·.volumeMounts)) 0 c.volumes)
    fun _ => dropCapsule env
  call env .saveResources id
  containerCreate env .capsule "" []

/-! ## Requests -/

inductive Request where
  | container (mounts : List Mount) (requestedHost : String)
  | capsule (c : Capsule)

def post : Request → Prog World Error Unit
  | .container mounts requestedHost => postContainer env mounts requestedHost
  | .capsule c => postCapsule env c

/-- Nothing is there because of the request. -/
structure Nothing (s : World) : Prop where
  records : s.records = []
  volumes : s.volumes = []
  mappings : s.mappings = []
  cinder : s.cinder = []
  allocations : s.allocations = []

/-! ## What is made, as far as the answers go -/

/-- The call succeeds. -/
def Env.passes (c : Call) : Bool := (env.fails c).isNone

/-- `provide` sets a provider. -/
def Mount.provided (i : Nat) (m : Mount) : Bool :=
  if m.type = "volume" then
    if m.sourced = true then
      env.passes (.searchVolume i) && env.passes (.ensureVolumeUsable i)
    else m.sized && env.passes (.createCinder i) && env.passes (.ensureVolumeUsable i)
  else m.type = "bind" && (tooLarge env (m.source.getD "")).isNone

/-- A volume is made at Cinder for the mount. -/
def Mount.makesCinder (i : Nat) (m : Mount) : Bool :=
  m.type = "volume" && !m.sourced && m.sized && env.passes (.createCinder i)

/-- A row is made for the mount. -/
def Mount.built (i : Nat) (m : Mount) : Bool :=
  m.provided env i && !(m.type ≠ "bind" && m.owned) && env.passes (.createVolume i)

/-- All mounts from the `i`th on have their rows, and none a volume made for it. -/
def allFound : Nat → List Mount → Bool
  | _, [] => true
  | i, m :: ms => m.built env i && !m.makesCinder env i && allFound (i + 1) ms

/-- The host that was asked for is not known. -/
def hostUnknown (requestedHost : String) : Bool :=
  requestedHost ≠ "" && env.fails .getComputeNode = some .computeNodeNotFound

/-- No allocation is made: the host is refused, or the scheduler fails. -/
def unscheduled (requestedHost : String) : Bool :=
  requestedHost ≠ "" && !env.passes .getComputeNode || !env.passes .selectDestinations

/-- The row of the volume can be taken back. -/
def discards (i : Nat) : Bool := env.passes (.countMappings i) && env.passes (.destroyVolume i)

/-- A refused container leaves nothing but its record: it is refused at the first mount and before
anything is made for it; or it has no mounts and is refused before it is scheduled; or all that it
mounts are contents and volumes of the tenant's own, the host asked for is not known, and the rows
of the volumes go. -/
def bareRefusal (mounts : List Mount) (requestedHost : String) : Prop :=
  match mounts with
  | [] => unscheduled env requestedHost = true
  | m :: ms =>
      m.built env 0 = false ∧ m.makesCinder env 0 = false ∨
      allFound env 0 (m :: ms) = true ∧ hostUnknown env requestedHost = true ∧
        env.passes (.destroyRecord .container false) = true ∧
        ∀ i < (m :: ms).length, discards env i = true

/-- The record is taken back before the handler comes to it. -/
def turnedAway (mounts : List Mount) (requestedHost : String) : Prop :=
  (mounts = [] ∨ allFound env 0 mounts = true) ∧ hostUnknown env requestedHost = true ∧
    env.passes (.destroyRecord .container false) = true

/-- A container's refusal leaves nothing. -/
def containerClean (mounts : List Mount) (requestedHost : String) : Prop :=
  env.passes (.createRecord .container) = false ∨
  bareRefusal env mounts requestedHost ∧
    (turnedAway env mounts requestedHost ∨ env.passes (.destroyRecord .container true) = true)

/-- The volume is there: its row can be made. -/
def Source.found (i : Nat) : Source → Bool
  | .volumeId => env.passes (.searchVolume i) && env.passes (.ensureVolumeUsable i)
  | .size => env.passes (.createCinder i)
  | .file | .nfs | .emptyDir => true

/-- A member is let through, and its row is made. -/
def Member.made (i : Nat) (m : Member) : Bool :=
  (m.securityContext.bind (·.refusal env)).isNone && env.passes (.createRecord (.member i))

def allMade : Nat → List Member → Bool
  | _, [] => true
  | i, m :: ms => m.made env i && allMade (i + 1) ms

/-- The capsule comes as far as its volumes. -/
def Capsule.reachesVolumes (c : Capsule) : Bool :=
  c.securityGroups.all (fun name => env.passes (.securityGroup name)) &&
  env.passes .requestedNetworks && env.passes .saveCapsule &&
  (c.architecture = "" || (archTrait c.architecture).isSome) && allMade env 0 c.members

/-- The first volume is refused before its row is made, and what takes back the volume and the
records succeeds. -/
def firstRefused : List Volume → Prop
  | [] => False
  | v :: _ =>
      (v.source.found env 0 && env.passes (.createVolume 0)) = false ∧
      (v.source = .size → env.passes (.createCinder 0) = true →
        env.passes (.deleteCinder 0) = true) ∧
      env.passes .loadMembers = true ∧ env.passes (.destroyRecord .capsule true) = true

/-- A capsule's refusal leaves nothing. -/
def capsuleClean (c : Capsule) : Prop :=
  env.passes (.createRecord .capsule) = false ∨
  c.reachesVolumes env = true ∧ firstRefused env c.volumes

def Clean : Request → Prop
  | .container mounts requestedHost => containerClean env mounts requestedHost
  | .capsule c => capsuleClean env c

/-! ## The calls -/

variable {env} {s : World} {c : Call} {f : World → World}

theorem call_of_passes (h : env.passes c = true) : call env c f s = (.ok (), f s) := by
  unfold Env.passes at h
  unfold call
  cases hc : env.fails c with
  | none => rfl
  | some e =>
    rw [hc] at h
    cases h

theorem call_of_fails (h : env.passes c = false) : ∃ e, call env c f s = (.raise e, s) := by
  unfold Env.passes at h
  unfold call
  cases hc : env.fails c with
  | none =>
    rw [hc] at h
    cases h
  | some e => exact ⟨e, rfl⟩

theorem wp_call {Q : Result Error Unit → World → Prop}
    (hok : env.passes c = true → Q (.ok ()) (f s))
    (hraise : env.passes c = false → ∀ e, Q (.raise e) s) : wp (call env c f) Q s := by
  cases h : env.passes c with
  | true => exact wp_of_run (call_of_passes h) (hok h)
  | false =>
    obtain ⟨e, he⟩ := call_of_fails (f := f) (s := s) h
    exact wp_of_run he (hraise h e)

theorem wp_call_bind {α : Type} {g : Unit → Prog World Error α} {Q : Result Error α → World → Prop}
    (hok : env.passes c = true → wp (g ()) Q (f s))
    (hraise : env.passes c = false → ∀ e, Q (.raise e) s) : wp (call env c f >>= g) Q s := by
  rw [wp_bind]
  exact wp_call hok hraise

end Refusals

end Zun
