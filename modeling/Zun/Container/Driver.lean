import Mathlib.Data.List.Infix
import Zun.Network.Neutron

/-!
# Drivers

What the manager hands to a driver, and the methods of `zun/container/driver.py` that it
calls.

A driver works on the record through the same object as the manager does.  The manager
relies on a little of what it does there: it leaves `task_state` to the manager and placement
alone, it drops no row, and whatever it changes in the database it changes with `save`.
`Gentle` says this once, for every relation on worlds that such steps respect.

What a relation respects is said by classes, in two directions.  `Steady`, `Calm`, `Outer` and
`Loose` are about what happens outside the records: the containers, then volumes and placement
too, or ports and sandboxes too, or all of it.  `Bystander`, `Mobile`, `Freeing` and `Mapping` are
the single steps of this that the manager itself takes.  `Easy`, `Tame`, `Tolerant` and `Lenient` are about the records:
assignments that leave alone what the record names, those that bring no container to life, all that
a driver makes, and those that leave alone where the container is as well.
-/

namespace Zun

open Effect Prog

/-! ## What a driver is given -/

/-- A capsule with the uuids of its members.  They are rows of one table, and so no uuid is
there twice. -/
structure Capsule where
  uuid : Uuid
  containers : List Uuid := []
  initContainers : List Uuid := []
  distinct : (uuid :: (initContainers ++ containers)).Nodup := by decide
deriving DecidableEq

/-- The classes of records the manager is handed. -/
inductive Subject where
  | container (u : Uuid)
  | capsule (c : Capsule)
  /-- A `CapsuleContainer` or `CapsuleInitContainer`. -/
  | member (u : Uuid)
deriving DecidableEq

def Subject.uuid : Subject → Uuid
  | .container u => u
  | .capsule c => c.uuid
  | .member u => u

/-- `requested_volumes`: mappings by the uuid they are for. -/
abbrev RequestedVolumes := List (Uuid × List VolMap)

/-- `requested_volumes.get(uuid, [])`. -/
def RequestedVolumes.of (vols : RequestedVolumes) (u : Uuid) : List VolMap :=
  match vols.find? (·.1 = u) with
  | some (_, volmaps) => volmaps
  | none => []

/-! ## The methods -/

/-- The methods of a container driver that the manager calls. -/
structure ContainerDriver where
  create : Uuid → List RequestedNetwork → RequestedVolumes → Prog World Exn Unit
  delete : Uuid → Bool → Prog World Exn Unit
  start : Uuid → Prog World Exn Unit
  stop : Uuid → Prog World Exn Unit
  reboot : Uuid → Prog World Exn Unit
  pause : Uuid → Prog World Exn Unit
  unpause : Uuid → Prog World Exn Unit
  kill : Uuid → Prog World Exn Unit
  checkContainerExist : Uuid → Prog World Exn Bool
  pullsOwnImages : Bool

/-- The methods of a capsule driver that the manager calls. -/
structure CapsuleDriver where
  createCapsule : Capsule → List RequestedNetwork → RequestedVolumes → Prog World Exn Unit
  deleteCapsule : Capsule → Bool → Prog World Exn Unit
  pullsOwnImages : Bool

/-- The two drivers a manager holds. -/
structure Drivers where
  driver : ContainerDriver
  capsuleDriver : CapsuleDriver

/-! ## What the manager relies on -/

/-- An assignment that leaves the fields alone that no driver assigns.  A host is only ever
taken away. -/
structure Mild (f : Obj → Obj) : Prop where
  taskState : ∀ o, (f o).val.taskState = o.val.taskState
  autoRemove : ∀ o, (f o).val.autoRemove = o.val.autoRemove
  restartPolicy : ∀ o, (f o).val.restartPolicy = o.val.restartPolicy
  host : ∀ o, (f o).val.host = o.val.host ∨ (f o).val.host = none

/-- A mild assignment that does not bring a container to life. -/
structure Meek (f : Obj → Obj) : Prop extends Mild f where
  status : ∀ o, (f o).val.status.live = true → (f o).val.status = o.val.status

/-- A meek assignment that leaves alone what the record names. -/
structure Slight (f : Obj → Obj) : Prop extends Meek f where
  containerId : ∀ o, (f o).val.containerId = o.val.containerId
  addresses : ∀ o, (f o).val.addresses = o.val.addresses

/-- A mild assignment that leaves alone where the container is, what the record names and asks for,
and whether these were assigned. -/
structure Inward (f : Obj → Obj) : Prop extends Mild f where
  sameHost : ∀ o, (f o).val.host = o.val.host
  containerId : ∀ o, (f o).val.containerId = o.val.containerId
  addresses : ∀ o, (f o).val.addresses = o.val.addresses
  hostChanged : ∀ o, (f o).changed.host = o.changed.host
  addressesChanged : ∀ o, (f o).changed.addresses = o.changed.addresses
  memory : ∀ o, (f o).val.memory = o.val.memory

/-- Nothing happened but outside the records. -/
structure Same (s s' : World) : Prop where
  db : s'.db = s.db
  mem : s'.mem = s.mem
  log : s.log <:+ s'.log

/-- Nothing happened but to volumes, to placement, to docker and to the containers of the
runtime, no volume mapping was made, and no call was made that takes a port or a sandbox away. -/
structure Hushed (s s' : World) : Prop where
  db : s'.db = s.db
  mem : s'.mem = s.mem
  ports : s'.ports = s.ports
  sandboxes : s'.sandboxes = s.sandboxes
  ids : s.nextId ≤ s'.nextId
  maps : s'.volmaps.Sublist s.volmaps
  calls : ∃ new, s'.log = new ++ s.log ∧ ∀ x ∈ new, x.1.releases = false

/-- Nothing happened but to docker and to the containers of the runtime, and no call was made
that takes a port or a sandbox away. -/
structure Still (s s' : World) : Prop extends Hushed s s' where
  allocations : s'.allocations = s.allocations
  volmaps : s'.volmaps = s.volmaps
  connected : s'.connected = s.connected

theorem Hushed.same {s s' : World} (h : Hushed s s') : Same s s' := by
  obtain ⟨new, hlog, -⟩ := h.calls
  exact ⟨h.db, h.mem, new, hlog.symm⟩

/-- A relation that respects what happens to docker and to containers. -/
class Steady (R : World → World → Prop) : Prop extends IsPreorder World R where
  still {s s' : World} : Still s s' → R s s'

/-- A relation that respects what happens to volumes and to placement too, but for new
mappings. -/
class Calm (R : World → World → Prop) : Prop extends Steady R where
  hushed {s s' : World} : Hushed s s' → R s s'

/-- A relation that respects what happens while a call is made. -/
class Bystander (env : Env) (R : World → World → Prop) : Prop extends IsPreorder World R where
  turned (c : Call) (s : World) : c.releases = false → R s (s.turn env c)

/-- A relation that respects that volumes are connected or not, and that mappings go. -/
class Mobile (R : World → World → Prop) : Prop where
  moved {s : World} (maps : List VolMap) (conn : List Nat) : maps.Sublist s.volmaps →
    R s { s with volmaps := maps, connected := conn }

/-- A relation that respects that an allocation is given back. -/
class Freeing (R : World → World → Prop) : Prop where
  freed {s : World} (u : Uuid) : R s { s with allocations := Function.update s.allocations u false }

/-- A relation that respects a new mapping. -/
class Mapping (R : World → World → Prop) : Prop where
  mapped {s : World} (v : VolMap) : R s { s with volmaps := v :: s.volmaps }

/-- Nothing happened but outside the records, placement and volumes. -/
structure Around (s s' : World) : Prop extends Same s s' where
  allocations : s'.allocations = s.allocations
  volmaps : s'.volmaps = s.volmaps
  connected : s'.connected = s.connected

/-- A relation that respects what happens outside the records, placement and volumes. -/
class Outer (R : World → World → Prop) : Prop extends Steady R where
  outer {s s' : World} : Around s s' → R s s'

theorem Calm.of {R : World → World → Prop} [IsPreorder World R]
    (h : ∀ s s', Hushed s s' → R s s') : Calm R where
  still hs := h _ _ hs.toHushed
  hushed hs := h _ _ hs

instance {R : World → World → Prop} [Calm R] : Mobile R where
  moved _ _ hmaps := Calm.hushed ⟨rfl, rfl, rfl, rfl, Nat.le_refl _, hmaps, [], rfl,
    fun _ hx => absurd hx List.not_mem_nil⟩

instance {R : World → World → Prop} [Calm R] : Freeing R where
  freed _ := Calm.hushed ⟨rfl, rfl, rfl, rfl, Nat.le_refl _, List.Sublist.refl _, [], rfl,
    fun _ hx => absurd hx List.not_mem_nil⟩

/-- A relation that respects what happens outside the records. -/
class Loose (R : World → World → Prop) : Prop extends Outer R, Calm R where
  loose {s s' : World} : Same s s' → R s s'

theorem Loose.of {R : World → World → Prop} [IsPreorder World R]
    (h : ∀ s s', Same s s' → R s s') : Loose R where
  still hs := h _ _ hs.same
  hushed hs := h _ _ hs.same
  outer hs := h _ _ hs.toSame
  loose hs := h _ _ hs

instance {R : World → World → Prop} [Loose R] : Mapping R where
  mapped _ := Loose.loose ⟨rfl, rfl, List.suffix_refl _⟩

/-- A relation that respects the assignments that leave alone what the record names, and a
`save`. -/
class Easy (R : World → World → Prop) : Prop where
  assign {s : World} {u : Uuid} {f : Obj → Obj} : Slight f → R s (s.setMem u f)
  save {s : World} {u : Uuid} {row : Record} : s.db u = some row → R s (s.saved u row)

/-- A relation that respects the assignments that bring no container to life, and a `save`. -/
class Tame (R : World → World → Prop) : Prop where
  assign {s : World} {u : Uuid} {f : Obj → Obj} : Meek f → R s (s.setMem u f)
  save {s : World} {u : Uuid} {row : Record} : s.db u = some row → R s (s.saved u row)

/-- A relation that respects every mild assignment and a `save`. -/
class Tolerant (R : World → World → Prop) : Prop where
  assign {s : World} {u : Uuid} {f : Obj → Obj} : Mild f → R s (s.setMem u f)
  save {s : World} {u : Uuid} {row : Record} : s.db u = some row → R s (s.saved u row)

/-- A relation that respects the inward assignments and a `save`. -/
class Lenient (R : World → World → Prop) : Prop where
  assign {s : World} {u : Uuid} {f : Obj → Obj} : Inward f → R s (s.setMem u f)
  save {s : World} {u : Uuid} {row : Record} : s.db u = some row → R s (s.saved u row)

instance {R : World → World → Prop} [Tolerant R] : Lenient R where
  assign h := Tolerant.assign h.toMild
  save h := Tolerant.save h

instance {R : World → World → Prop} [Tolerant R] : Tame R where
  assign h := Tolerant.assign h.toMild
  save h := Tolerant.save h

instance {R : World → World → Prop} [Tame R] : Easy R where
  assign h := Tame.assign h.toMeek
  save h := Tame.save h

/-- A program that moves the world only as a driver may. -/
def Gentle {α : Type} (p : Prog World Exn α) : Prop :=
  ∀ (R : World → World → Prop) [Outer R] [Tolerant R], Within R p

/-- A gentle program that brings no container to life. -/
def Placid {α : Type} (p : Prog World Exn α) : Prop :=
  ∀ (R : World → World → Prop) [Outer R] [Tame R], Within R p

/-- What the manager relies on in a container driver. -/
structure ContainerDriver.Lawful (d : ContainerDriver) : Prop where
  create : ∀ u nets vols, Placid (d.create u nets vols)
  delete : ∀ u force, Placid (d.delete u force)
  start : ∀ u, Gentle (d.start u)
  stop : ∀ u, Gentle (d.stop u)
  reboot : ∀ u, Gentle (d.reboot u)
  pause : ∀ u, Gentle (d.pause u)
  unpause : ∀ u, Gentle (d.unpause u)
  kill : ∀ u, Gentle (d.kill u)
  checkContainerExist : ∀ u, Placid (d.checkContainerExist u)

/-- What the manager relies on in a capsule driver. -/
structure CapsuleDriver.Lawful (d : CapsuleDriver) : Prop where
  createCapsule : ∀ c nets vols, Gentle (d.createCapsule c nets vols)
  deleteCapsule : ∀ c force, Gentle (d.deleteCapsule c force)

/-- What the manager relies on in its two drivers. -/
structure Drivers.Lawful (d : Drivers) : Prop where
  driver : d.driver.Lawful
  capsuleDriver : d.capsuleDriver.Lawful

/-! ## The steps of a gentle program -/

/-- An effect outside the records. -/
structure Outside (effect : World → World) : Prop where
  db : ∀ s, (effect s).db = s.db
  mem : ∀ s, (effect s).mem = s.mem
  log : ∀ s, (effect s).log = s.log

/-- An effect outside the records, placement and volumes. -/
structure Beside (effect : World → World) : Prop extends Outside effect where
  allocations : ∀ s, (effect s).allocations = s.allocations
  volmaps : ∀ s, (effect s).volmaps = s.volmaps
  connected : ∀ s, (effect s).connected = s.connected

/-- An effect on docker or containers. -/
structure Aside (effect : World → World) : Prop extends Beside effect where
  ports : ∀ s, (effect s).ports = s.ports
  sandboxes : ∀ s, (effect s).sandboxes = s.sandboxes
  ids : ∀ s, s.nextId ≤ (effect s).nextId

theorem Outside.same {effect : World → World} (h : Outside effect) (s : World) :
    Same s (effect s) where
  db := h.db s
  mem := h.mem s
  log := by rw [h.log]

theorem Aside.still {effect : World → World} (h : Aside effect) (s : World) :
    Still s (effect s) where
  db := h.db s
  mem := h.mem s
  allocations := h.allocations s
  volmaps := h.volmaps s
  connected := h.connected s
  ports := h.ports s
  sandboxes := h.sandboxes s
  ids := h.ids s
  maps := by rw [h.volmaps]
  calls := ⟨[], h.log s, fun _ hx => absurd hx List.not_mem_nil⟩

theorem Beside.around {effect : World → World} (h : Beside effect) (s : World) :
    Around s (effect s) where
  toSame := h.same s
  allocations := h.allocations s
  volmaps := h.volmaps s
  connected := h.connected s

theorem Beside.of {effect : World → World} (h : ∀ s, (effect s).db = s.db ∧
    (effect s).mem = s.mem ∧ (effect s).log = s.log ∧ (effect s).allocations = s.allocations ∧
    (effect s).volmaps = s.volmaps ∧ (effect s).connected = s.connected) :
    Beside effect where
  db s := (h s).1
  mem s := (h s).2.1
  log s := (h s).2.2.1
  allocations s := (h s).2.2.2.1
  volmaps s := (h s).2.2.2.2.1
  connected s := (h s).2.2.2.2.2

theorem Aside.of {effect : World → World} (h : ∀ s, (effect s).db = s.db ∧
    (effect s).mem = s.mem ∧ (effect s).log = s.log ∧ (effect s).allocations = s.allocations ∧
    (effect s).volmaps = s.volmaps ∧ (effect s).connected = s.connected ∧
    (effect s).ports = s.ports ∧ (effect s).sandboxes = s.sandboxes ∧
    s.nextId ≤ (effect s).nextId) : Aside effect where
  db s := (h s).1
  mem s := (h s).2.1
  log s := (h s).2.2.1
  allocations s := (h s).2.2.2.1
  volmaps s := (h s).2.2.2.2.1
  connected s := (h s).2.2.2.2.2.1
  ports s := (h s).2.2.2.2.2.2.1
  sandboxes s := (h s).2.2.2.2.2.2.2.1
  ids s := (h s).2.2.2.2.2.2.2.2

theorem same_turn (env : Env) (c : Call) (s : World) : Same s (s.turn env c) :=
  ⟨rfl, rfl, List.suffix_cons ..⟩

theorem still_turn (env : Env) {c : Call} (hc : c.releases = false) (s : World) :
    Still s (s.turn env c) where
  db := rfl
  mem := rfl
  allocations := rfl
  volmaps := rfl
  connected := rfl
  ports := rfl
  sandboxes := rfl
  ids := Nat.le_refl _
  maps := List.Sublist.refl _
  calls := by
    refine ⟨[(c, env.answer s.tick c)], rfl, fun x hx => ?_⟩
    rw [List.mem_singleton.mp hx]
    exact hc

instance : IsPreorder World Same where
  refl s := ⟨rfl, rfl, List.suffix_refl s.log⟩
  trans _ _ _ h h' := ⟨h'.db.trans h.db, h'.mem.trans h.mem, h.log.trans h'.log⟩

instance : Loose Same := Loose.of fun _ _ h => h

instance : Steady Still where
  refl s := ⟨⟨rfl, rfl, rfl, rfl, Nat.le_refl _, List.Sublist.refl _, [], rfl,
    fun _ hx => absurd hx List.not_mem_nil⟩, rfl, rfl, rfl⟩
  trans _ _ _ h h' :=
    { volmaps := h'.volmaps.trans h.volmaps
      connected := h'.connected.trans h.connected
      maps := h'.maps.trans h.maps
      db := h'.db.trans h.db
      mem := h'.mem.trans h.mem
      allocations := h'.allocations.trans h.allocations
      ports := h'.ports.trans h.ports
      sandboxes := h'.sandboxes.trans h.sandboxes
      ids := h.ids.trans h'.ids
      calls := by
        obtain ⟨new, hnew, hall⟩ := h.calls
        obtain ⟨new', hnew', hall'⟩ := h'.calls
        refine ⟨new' ++ new, by rw [hnew', hnew, List.append_assoc], fun x hx => ?_⟩
        obtain hx | hx := List.mem_append.mp hx
        · exact hall' x hx
        · exact hall x hx }
  still h := h

theorem Same.turn {s s' : World} (h : Same s s') (env : Env) (c : Call) :
    Same s (s'.turn env c) := trans_of Same h (same_turn env c s')

section Steps

variable {R : World → World → Prop} {env : Env}

section Steady

variable [Steady R]

theorem steady_turn (c : Call) (s : World) (hc : c.releases = false) :
    R s (s.turn env c) := Steady.still (still_turn env hc s)

instance : Bystander env R where
  turned c s hc := steady_turn c s hc

theorem within_aside {c : Call} {effect : World → World} (hc : c.releases = false)
    (h : Aside effect) : Within R (call env c effect) :=
  within_call (fun s => steady_turn c s hc) fun s =>
    trans_of R (steady_turn c s hc) (Steady.still (h.still _))

theorem within_change {f : World → World} (h : Aside f) :
    Within R (modify f : Prog World Exn Unit) :=
  within_modify fun s => Steady.still (h.still s)

end Steady

section Bystander

variable [Bystander env R]

/-- A call with an effect that the relation respects. -/
theorem within_effect {c : Call} {effect : World → World} (hc : c.releases = false)
    (h : ∀ s, R s (effect s)) : Within R (call env c effect) :=
  within_call (fun s => Bystander.turned c s hc) fun s =>
    trans_of R (Bystander.turned c s hc) (h _)

theorem within_plain (c : Call) (hc : c.releases = false) : Within R (call env c) :=
  within_effect hc fun s => refl_of R s

theorem within_ask {α : Type} (c : Call) (f : World → α) (hc : c.releases = false) :
    Within R (ask env c f) := (within_plain c hc).bind fun _ => within_read f

/-- A `save` that the relation respects once its row is found. -/
theorem within_save_of {u : Uuid}
    (h : ∀ s row, s.db u = some row → R s (s.saved u row)) : Within R (save env u) := by
  intro s
  refine wp_save (Q := fun _ s' => R s s') (fun _ => refl_of R s) (fun row hrow _ => ?_)
    (fun _ _ _ _ => Bystander.turned _ s rfl) (fun _ _ _ => Bystander.turned _ s rfl)
  exact trans_of R (Bystander.turned (.save u (s.merged u row)) s rfl) (h _ row hrow)

theorem within_save [Easy R] (u : Uuid) : Within R (save env u) :=
  within_save_of fun _ _ hrow => Easy.save hrow

theorem within_saveInward [Lenient R] (u : Uuid) : Within R (save env u) :=
  within_save_of fun _ _ hrow => Lenient.save hrow

end Bystander

theorem outer_turn [Outer R] (c : Call) (s : World) : R s (s.turn env c) :=
  Outer.outer ⟨same_turn env c s, rfl, rfl, rfl⟩

theorem within_beside [Outer R] {c : Call} {effect : World → World} (h : Beside effect) :
    Within R (call env c effect) :=
  within_call (fun s => outer_turn c s) fun s =>
    trans_of R (outer_turn c s) (Outer.outer (h.around _))

theorem within_meek [Tame R] {u : Uuid} {f : Obj → Obj} (h : Meek f) : Within R (assign u f) :=
  within_modify fun _ => Tame.assign h

theorem within_slight [Easy R] {u : Uuid} {f : Obj → Obj} (h : Slight f) : Within R (assign u f) :=
  within_modify fun _ => Easy.assign h

theorem within_inward [Lenient R] {u : Uuid} {f : Obj → Obj} (h : Inward f) :
    Within R (assign u f) := within_modify fun _ => Lenient.assign h

theorem within_assign [Tolerant R] {u : Uuid} {f : Obj → Obj} (h : Mild f) :
    Within R (assign u f) := within_modify fun _ => Tolerant.assign h

end Steps

/-! ## Mild assignments -/

theorem mild_setStatus (v : Status) : Mild (Obj.setStatus v) :=
  ⟨fun _ => rfl, fun _ => rfl, fun _ => rfl, fun _ => .inl rfl⟩

theorem meek_setStatus {v : Status} (h : v.live = false) : Meek (Obj.setStatus v) :=
  ⟨mild_setStatus v, fun _ hv => nomatch h.symm.trans hv⟩

/-- An assignment that leaves the fields alone that a relation may ask about. -/
theorem meek_of_eq {f : Obj → Obj} (htask : ∀ o, (f o).val.taskState = o.val.taskState)
    (hauto : ∀ o, (f o).val.autoRemove = o.val.autoRemove)
    (hpolicy : ∀ o, (f o).val.restartPolicy = o.val.restartPolicy)
    (hhost : ∀ o, (f o).val.host = o.val.host) (hstatus : ∀ o, (f o).val.status = o.val.status) :
    Meek f :=
  ⟨⟨htask, hauto, hpolicy, fun o => .inl (hhost o)⟩, fun o _ => hstatus o⟩

theorem slight_setStatus {v : Status} (h : v.live = false) : Slight (Obj.setStatus v) :=
  ⟨meek_setStatus h, fun _ => rfl, fun _ => rfl⟩

theorem meek_setStatusReason (v : Option String) : Meek (Obj.setStatusReason v) :=
  meek_of_eq (fun _ => rfl) (fun _ => rfl) (fun _ => rfl) (fun _ => rfl) (fun _ => rfl)
theorem meek_setStatusDetail (v : Option Detail) : Meek (Obj.setStatusDetail v) :=
  meek_of_eq (fun _ => rfl) (fun _ => rfl) (fun _ => rfl) (fun _ => rfl) (fun _ => rfl)
theorem meek_setContainerId (v : Option RuntimeId) : Meek (Obj.setContainerId v) :=
  meek_of_eq (fun _ => rfl) (fun _ => rfl) (fun _ => rfl) (fun _ => rfl) (fun _ => rfl)
theorem meek_setAddresses (v : List (NetId × List Addr)) : Meek (Obj.setAddresses v) :=
  meek_of_eq (fun _ => rfl) (fun _ => rfl) (fun _ => rfl) (fun _ => rfl) (fun _ => rfl)
theorem meek_setProbeState (f : Obj → ProbeState) : Meek fun o => o.setProbeState (f o) :=
  meek_of_eq (fun _ => rfl) (fun _ => rfl) (fun _ => rfl) (fun _ => rfl) (fun _ => rfl)
theorem meek_setExitCode (v : Option Int) : Meek (Obj.setExitCode v) :=
  meek_of_eq (fun _ => rfl) (fun _ => rfl) (fun _ => rfl) (fun _ => rfl) (fun _ => rfl)
theorem meek_setStartedAt (v : Option Nat) : Meek (Obj.setStartedAt v) :=
  meek_of_eq (fun _ => rfl) (fun _ => rfl) (fun _ => rfl) (fun _ => rfl) (fun _ => rfl)
theorem inward_setStatus (v : Status) : Inward (Obj.setStatus v) :=
  ⟨mild_setStatus v, fun _ => rfl, fun _ => rfl, fun _ => rfl, fun _ => rfl, fun _ => rfl, fun _ => rfl⟩
theorem inward_setStatusReason (v : Option String) : Inward (Obj.setStatusReason v) :=
  ⟨(meek_setStatusReason v).toMild, fun _ => rfl, fun _ => rfl, fun _ => rfl, fun _ => rfl,
    fun _ => rfl, fun _ => rfl⟩
theorem inward_setStartedAt (v : Option Nat) : Inward (Obj.setStartedAt v) :=
  ⟨(meek_setStartedAt v).toMild, fun _ => rfl, fun _ => rfl, fun _ => rfl, fun _ => rfl,
    fun _ => rfl, fun _ => rfl⟩
theorem slight_setStatusReason (v : Option String) : Slight (Obj.setStatusReason v) :=
  ⟨meek_setStatusReason v, fun _ => rfl, fun _ => rfl⟩
theorem slight_unsetHost : Slight (Obj.setHost none) :=
  ⟨⟨⟨fun _ => rfl, fun _ => rfl, fun _ => rfl, fun _ => .inr rfl⟩, fun _ _ => rfl⟩, fun _ => rfl,
    fun _ => rfl⟩
theorem slight_setDisk (v : Nat) : Slight (Obj.setDisk v) :=
  ⟨meek_of_eq (fun _ => rfl) (fun _ => rfl) (fun _ => rfl) (fun _ => rfl) (fun _ => rfl),
    fun _ => rfl, fun _ => rfl⟩

end Zun
