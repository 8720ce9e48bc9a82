import Mathlib.Logic.Function.Basic
import Zun.Effect.Prog

/-!
# PCI devices

`zun/objects/pci_device.py`.  A device is named by its address, and the devices of a node refer to
each other: a physical function to its virtual functions, and each of these to the physical function.
To claim, allocate or free one changes the statuses of its relatives as well.

The id of a device is that of its row.  A device that was found since the service started has none
yet, and to read it raises.
-/

namespace Zun.Pci

open Effect Effect.Prog

abbrev Address := String

abbrev Uuid := Nat

/-- `PciDeviceType`. -/
inductive DevType where
  | standard | pf | vf
deriving DecidableEq

/-- `PciDeviceStatus`. -/
inductive Status where
  | available | claimed | allocated | removed | deleted | unclaimable | unavailable
deriving DecidableEq

/-- The statuses of a device that is in use. -/
def Status.held : Status → Bool
  | .claimed | .allocated => true
  | _ => false

structure Device where
  id : Option Nat := none
  devType : DevType := .standard
  parentAddr : Option Address := none
  status : Status := .available
  containerUuid : Option Uuid := none
  requestId : Option Uuid := none
  parentDevice : Option Address := none
  childDevices : List Address := []
deriving DecidableEq

/-- The devices by their addresses, and the `pci_devices` of each container. -/
structure Node where
  dev : Address → Device
  pciDevices : Uuid → List Device

inductive Error where
  /-- `PciDeviceInvalidStatus`. -/
  | invalidStatus (address : Address) (status : Status) (hopestatus : List Status)
  /-- `PciDeviceVFInvalidStatus`. -/
  | vfInvalidStatus (address : Address)
  /-- `PciDevicePFInvalidStatus`. -/
  | pfInvalidStatus (address : Option Address) (status : Status) (vfAddress : Address)
      (hopestatus : List Status)
  /-- `PciDeviceInvalidOwner`. -/
  | invalidOwner (address : Address) (owner : Option Uuid) (hopeowner : Uuid)
  /-- `NotImplementedError`: a field that is not set is read. -/
  | notSet
  /-- `TypeError`: the object has no `__getitem__`. -/
  | notSubscriptable
  | stopIteration
  /-- `AttributeError`. -/
  | noAttribute (name : String)
deriving DecidableEq

/-- What is passed as `container`.  `container['uuid']` works for a mapping, and not for a record of
the service's own. -/
structure Caller where
  uuid : Uuid
  subscriptable : Bool := false
deriving DecidableEq

variable (a : Address)

def change (f : Device → Device) (n : Node) : Node :=
  { n with dev := Function.update n.dev a (f (n.dev a)) }

def setStatus (status : Status) : Node → Node := change a ({ · with status })

def isAvailable (n : Node) : Bool := (n.dev a).status = .available

/-- `_bulk_update_status`. -/
def bulkUpdateStatus (devs : List Address) (status : Status) (n : Node) : Node :=
  { n with dev := fun b => if b ∈ devs then { n.dev b with status } else n.dev b }

def parentOkStatuses : List Status := [.available, .unclaimable, .unavailable]

def dependantsOkStatuses : List Status := [.available, .unclaimable]

/-- The check of a physical function's dependants, and the status that they get. -/
def takeDependants (ok : List Status) (status : Status) (self : Device) :
    Prog Node Error Unit := do
  let vfs ← read fun n => self.childDevices.map fun vf => (n.dev vf).status
  onlyIf (¬ ∀ vf ∈ vfs, vf ∈ ok) (raise (.vfInvalidStatus a))
  modify (bulkUpdateStatus self.childDevices status)

/-- The check of a virtual function's parent, and the status that `mark` gives it. -/
def takeParent (mark : Status → Status) (self : Device) : Prog Node Error Unit :=
  match self.parentDevice with
  | some parent => do
      let status ← read fun n => (n.dev parent).status
      onlyIf (status ∉ parentOkStatuses)
        (raise (.pfInvalidStatus self.parentAddr self.status a parentOkStatuses))
      modify (setStatus parent (mark status))
  | none => ret ()

/-- What `claim` and `allocate` make of a device's relatives. -/
def takeRelatives (ok : List Status) (dependants : Status) (mark : Status → Status)
    (self : Device) : Prog Node Error Unit :=
  match self.devType with
  | .pf => takeDependants a ok dependants self
  | .vf => takeParent a mark self
  | .standard => ret ()

/-- The device is the container's. -/
def hold (status : Status) (container : Uuid) : Node → Node :=
  change a ({ · with status, containerUuid := some container })

/-- A claimed function's parent is `UNCLAIMABLE`, if it was not worse. -/
def markClaimed (status : Status) : Status := if status = .available then .unclaimable else status

def claim (container : Uuid) : Prog Node Error Unit := do
  let self ← read (·.dev a)
  onlyIf (self.status ≠ .available) (raise (.invalidStatus a self.status [.available]))
  takeRelatives a [.available] .unclaimable markClaimed self
  modify (hold a .claimed container)

def allocate (container : Uuid) : Prog Node Error Unit := do
  let self ← read (·.dev a)
  onlyIf (self.status ∉ [Status.available, .claimed])
    (raise (.invalidStatus a self.status [.available, .claimed]))
  onlyIf (self.status = .claimed ∧ self.containerUuid ≠ some container)
    (raise (.invalidOwner a self.containerUuid container))
  takeRelatives a dependantsOkStatuses .unavailable (fun _ => .unavailable) self
  modify (hold a .allocated container)
  modify fun n =>
    { n with
      pciDevices := Function.update n.pciDevices container (n.pciDevices container ++ [n.dev a]) }

def remove : Prog Node Error Unit := do
  let self ← read (·.dev a)
  onlyIf (self.status ≠ .available) (raise (.invalidStatus a self.status [.available]))
  modify (change a ({ · with status := .removed, containerUuid := none, requestId := none }))

/-- `x.id != y.id`. -/
def differs (x y : Device) : Prog Node Error Bool :=
  match x.id, y.id with
  | some i, some j => ret (i ≠ j)
  | _, _ => raise .notSet

/-- `all([vf.is_available() for vf in vfs_list if vf.id != self.id])`. -/
def othersAvailable (self : Device) : List Address → Prog Node Error Bool
  | [] => ret true
  | vf :: vfs => do
      let other ← read (·.dev vf)
      let counts ← differs other self
      let rest ← othersAvailable self vfs
      ret ((!counts || other.status = .available) && rest)

/-- The parent of a virtual function that is freed is freed with the last of its functions. -/
def freeParent (self : Device) : Prog Node Error (List Address) :=
  match self.parentDevice with
  | some parent => do
      let vfs ← read fun n => (n.dev parent).childDevices
      let free ← othersAvailable self vfs
      onlyIf free (modify (setStatus parent .available))
      ret (if free then [parent] else [])
  | none => ret []

/-- `next((dev for dev in container.pci_devices if dev.id == self.id))`. -/
def findExisted (self : Device) : List Device → Prog Node Error Unit
  | [] => raise .stopIteration
  | d :: ds => do
      let other ← differs d self
      if other then findExisted self ds else ret ()

/-- The device is taken from the `pci_devices` of its container, which is a plain list. -/
def forget (self : Device) (container : Uuid) : Prog Node Error Unit := do
  let devices ← read (·.pciDevices container)
  findExisted self devices
  raise (.noAttribute "objects")

/-- The check that the caller is the owner. -/
def checkOwner (self : Device) : Option Caller → Prog Node Error Unit
  | some container => do
      onlyIf (container.subscriptable = false) (raise .notSubscriptable)
      onlyIf (self.containerUuid ≠ some container.uuid)
        (raise (.invalidOwner a self.containerUuid container.uuid))
  | none => ret ()

/-- The relatives that a device frees. -/
def freeRelatives (self : Device) : Prog Node Error (List Address) :=
  match self.devType with
  | .pf => do
      modify (bulkUpdateStatus self.childDevices .available)
      ret self.childDevices
  | .vf => freeParent self
  | .standard => ret []

def free (container : Option Caller) : Prog Node Error (List Address) := do
  let self ← read (·.dev a)
  onlyIf (self.status.held = false)
    (raise (.invalidStatus a self.status [.allocated, .claimed]))
  checkOwner a self container
  let relatives ← freeRelatives self
  modify (change a ({ · with status := .available, containerUuid := none, requestId := none }))
  match container with
  | some container => onlyIf (self.status = .allocated) (forget self container.uuid)
  | none => ret ()
  ret (relatives ++ [a])

/-! ## What they do -/

section

variable {a : Address} {n : Node}

/-- The relatives of a device let it be taken. -/
structure MayTake (a : Address) (ok : List Status) (n : Node) : Prop where
  dependants : (n.dev a).devType = .pf → ∀ vf ∈ (n.dev a).childDevices, (n.dev vf).status ∈ ok
  parent : (n.dev a).devType = .vf → ∀ p, (n.dev a).parentDevice = some p →
    (n.dev p).status ∈ parentOkStatuses

/-- The node once the relatives of a device have their new statuses. -/
def withRelatives (a : Address) (dependants : Status) (mark : Status → Status) (n : Node) : Node :=
  match (n.dev a).devType, (n.dev a).parentDevice with
  | .pf, _ => bulkUpdateStatus (n.dev a).childDevices dependants n
  | .vf, some p => setStatus p (mark (n.dev p).status) n
  | _, _ => n

theorem withRelatives_pf {dependants : Status} {mark : Status → Status}
    (htype : (n.dev a).devType = .pf) :
    withRelatives a dependants mark n = bulkUpdateStatus (n.dev a).childDevices dependants n := by
  simp [withRelatives, htype]

theorem withRelatives_vf {dependants : Status} {mark : Status → Status} {p : Address}
    (htype : (n.dev a).devType = .vf) (hp : (n.dev a).parentDevice = some p) :
    withRelatives a dependants mark n = setStatus p (mark (n.dev p).status) n := by
  simp [withRelatives, htype, hp]

theorem withRelatives_alone {dependants : Status} {mark : Status → Status}
    (hpf : (n.dev a).devType ≠ .pf)
    (hvf : (n.dev a).devType = .vf → (n.dev a).parentDevice = none) :
    withRelatives a dependants mark n = n := by
  cases htype : (n.dev a).devType with
  | standard => simp [withRelatives, htype]
  | pf => exact absurd htype hpf
  | vf => simp [withRelatives, htype, hvf htype]

/-- It has been done, or an error was raised and nothing has changed. -/
def DoneOr (done : Prop) (n : Node) (r : Result Error Unit) (n' : Node) : Prop :=
  r = .ok () ∧ done ∨ (∃ e, r = .raise e) ∧ n' = n

theorem wp_takeRelatives {ok : List Status} {dependants : Status} {mark : Status → Status} :
    wp (takeRelatives a ok dependants mark (n.dev a)) (fun r n' =>
      DoneOr (MayTake a ok n ∧ n' = withRelatives a dependants mark n) n r n') n := by
  unfold takeRelatives
  split
  next htype =>
    simp only [takeDependants, wp_bind, wp_read, seqPost_ok]
    apply wp_onlyIf
    · exact fun _ => .inr ⟨⟨_, rfl⟩, rfl⟩
    · intro hok
      rw [not_not] at hok
      refine .inl ⟨rfl, ⟨?_, by simp [htype]⟩, (withRelatives_pf htype).symm⟩
      exact fun _ vf hvf => hok _ (List.mem_map.mpr ⟨vf, hvf, rfl⟩)
  next htype =>
    unfold takeParent
    split
    next p hp =>
      simp only [wp_bind, wp_read, seqPost_ok]
      apply wp_onlyIf
      · exact fun _ => .inr ⟨⟨_, rfl⟩, rfl⟩
      · intro hok
        rw [not_not] at hok
        refine .inl ⟨rfl, ⟨by simp [htype], ?_⟩, (withRelatives_vf htype hp).symm⟩
        intro _ p' hp'
        cases hp.symm.trans hp'
        exact hok
    next hp =>
      refine .inl ⟨rfl, ⟨by simp [htype], by simp [hp]⟩, ?_⟩
      exact (withRelatives_alone (by simp [htype]) fun _ => hp).symm
  next htype =>
    have hpf : (n.dev a).devType ≠ .pf := by simp [htype]
    have hvf : (n.dev a).devType ≠ .vf := by simp [htype]
    refine .inl ⟨rfl, ⟨(absurd · hpf), (absurd · hvf)⟩, ?_⟩
    exact (withRelatives_alone hpf (absurd · hvf)).symm

theorem claim_spec (container : Uuid) :
    wp (claim a container) (fun r n' =>
      DoneOr ((n.dev a).status = .available ∧ MayTake a [.available] n ∧
        n' = hold a .claimed container (withRelatives a .unclaimable markClaimed n)) n r n') n := by
  simp only [claim, wp_bind, wp_read, seqPost_ok]
  apply wp_onlyIf
  · exact fun _ => .inr ⟨⟨_, rfl⟩, rfl⟩
  · intro hstatus
    rw [not_not] at hstatus
    rw [seqPost_ok, wp_bind]
    refine wp_mono wp_takeRelatives ?_
    rintro _ n' (⟨rfl, hmay, rfl⟩ | ⟨⟨e, rfl⟩, rfl⟩)
    · exact .inl ⟨rfl, hstatus, hmay, rfl⟩
    · exact .inr ⟨⟨e, rfl⟩, rfl⟩

theorem allocate_spec (container : Uuid) :
    wp (allocate a container) (fun r n' =>
      DoneOr (((n.dev a).status = .available ∨
          (n.dev a).status = .claimed ∧ (n.dev a).containerUuid = some container) ∧
        MayTake a dependantsOkStatuses n ∧
        n'.dev = (hold a .allocated container
          (withRelatives a .unavailable (fun _ => .unavailable) n)).dev) n r n') n := by
  simp only [allocate, wp_bind, wp_read, seqPost_ok]
  apply wp_onlyIf
  · exact fun _ => .inr ⟨⟨_, rfl⟩, rfl⟩
  · intro hstatus
    rw [seqPost_ok, wp_bind]
    apply wp_onlyIf
    · exact fun _ => .inr ⟨⟨_, rfl⟩, rfl⟩
    · intro howner
      rw [seqPost_ok, wp_bind]
      refine wp_mono wp_takeRelatives ?_
      rintro _ n' (⟨rfl, hmay, rfl⟩ | ⟨⟨e, rfl⟩, rfl⟩)
      · refine .inl ⟨rfl, ?_, hmay, rfl⟩
        simp only [List.mem_cons, List.not_mem_nil, or_false, not_not] at hstatus
        obtain havailable | hclaimed := hstatus
        · exact .inl havailable
        · exact .inr ⟨hclaimed, by simpa [hclaimed] using howner⟩
      · exact .inr ⟨⟨e, rfl⟩, rfl⟩

theorem remove_spec :
    wp (remove a) (fun r n' => DoneOr ((n.dev a).status = .available ∧
      n' = change a ({ · with status := .removed, containerUuid := none, requestId := none }) n)
      n r n') n := by
  simp only [remove, wp_bind, wp_read, seqPost_ok]
  apply wp_onlyIf
  · exact fun _ => .inr ⟨⟨_, rfl⟩, rfl⟩
  · intro hstatus
    exact .inl ⟨rfl, not_not.mp hstatus, rfl⟩

/-! ### Freeing -/

theorem differs_some {x y : Device} {i j : Nat} (hx : x.id = some i) (hy : y.id = some j) :
    differs x y = ret (decide (i ≠ j)) := by
  unfold differs
  rw [hx, hy]

theorem differs_none {x y : Device} (h : x.id = none ∨ y.id = none) :
    differs x y = raise .notSet := by
  unfold differs
  split
  next hx hy => simp [hx, hy] at h
  · rfl

/-- With every id set, the sweep looks at the other functions. -/
theorem wp_othersAvailable {self : Device} (hself : self.id.isSome) :
    ∀ {vfs : List Address}, (∀ vf ∈ vfs, (n.dev vf).id.isSome) →
      wp (othersAvailable self vfs) (fun r n' => n' = n ∧ r = .ok (decide (∀ vf ∈ vfs,
        (n.dev vf).id ≠ self.id → (n.dev vf).status = .available))) n
  | [], _ => by
      rw [othersAvailable, wp_ret]
      simp
  | vf :: vfs, hvfs => by
      obtain ⟨j, hj⟩ := Option.isSome_iff_exists.mp hself
      obtain ⟨i, hi⟩ := Option.isSome_iff_exists.mp (hvfs vf (List.mem_cons_self ..))
      simp only [othersAvailable, wp_bind, wp_read, seqPost_ok, differs_some hi hj, wp_ret]
      refine wp_mono (wp_othersAvailable hself fun w hw => hvfs w (List.mem_cons_of_mem _ hw)) ?_
      rintro _ _ ⟨rfl, rfl⟩
      refine ⟨rfl, ?_⟩
      simp only [ret, Result.ok.injEq]
      by_cases hij : i = j <;> simp [hi, hj, hij]

/-- With an id missing it raises. -/
theorem wp_othersAvailable_raise {self : Device} :
    ∀ {vfs : List Address}, (∃ vf ∈ vfs, (n.dev vf).id = none) →
      wp (othersAvailable self vfs) (fun r n' => n' = n ∧ ∃ e, r = .raise e) n
  | [], h => by simp at h
  | vf :: vfs, h => by
      simp only [othersAvailable, wp_bind, wp_read, seqPost_ok]
      cases hi : (n.dev vf).id with
      | none =>
        rw [differs_none (.inl hi)]
        exact ⟨rfl, _, rfl⟩
      | some i =>
        have hrest : ∃ w ∈ vfs, (n.dev w).id = none := by simpa [hi] using h
        cases hj : self.id with
        | none =>
          rw [differs_none (.inr hj)]
          exact ⟨rfl, _, rfl⟩
        | some j =>
          simp only [differs_some hi hj, wp_ret, seqPost_ok, wp_bind]
          refine wp_mono (wp_othersAvailable_raise hrest) ?_
          rintro _ _ ⟨rfl, e, rfl⟩
          exact ⟨rfl, e, rfl⟩

/-- The caller of a free is refused. -/
def Refused (a : Address) (container : Option Caller) (n : Node) : Prop :=
  ∃ caller, container = some caller ∧
    (caller.subscriptable = false ∨ (n.dev a).containerUuid ≠ some caller.uuid)

/-- The ids that `free` compares are set. -/
def IdsSet (a : Address) (n : Node) : Prop :=
  (n.dev a).devType = .vf → ∀ p, (n.dev a).parentDevice = some p →
    ∀ vf ∈ (n.dev p).childDevices, (n.dev vf).id.isSome

/-- The status that a freed function's parent has. -/
def parentFreed (a p : Address) (n : Node) : Status :=
  if ∀ vf ∈ (n.dev p).childDevices, (n.dev vf).id ≠ (n.dev a).id → (n.dev vf).status = .available
  then .available else (n.dev p).status

/-- The node once a device's relatives are freed. -/
def relativesFreed (a : Address) (n : Node) : Node :=
  match (n.dev a).devType, (n.dev a).parentDevice with
  | .pf, _ => bulkUpdateStatus (n.dev a).childDevices .available n
  | .vf, some p => setStatus p (parentFreed a p n) n
  | _, _ => n

/-- The node once a device and its relatives are freed. -/
def freed (a : Address) (n : Node) : Node :=
  change a ({ · with status := .available, containerUuid := none, requestId := none })
    (relativesFreed a n)

theorem setStatus_self {p : Address} : setStatus p (n.dev p).status n = n := by
  simp [setStatus, change]

theorem wp_findExisted {self : Device} :
    ∀ {devices : List Device},
      wp (findExisted self devices) (fun r n' => n' = n ∧ (r = .ok () ∨ ∃ e, r = .raise e)) n
  | [] => ⟨rfl, .inr ⟨_, rfl⟩⟩
  | d :: ds => by
      simp only [findExisted, wp_bind]
      unfold differs
      split
      · simp only [wp_ret, seqPost_ok, wp_ite]
        split
        · exact wp_findExisted
        · simp
      · exact ⟨rfl, .inr ⟨_, rfl⟩⟩

theorem wp_forget {self : Device} {container : Uuid} :
    wp (forget self container) (fun r n' => n' = n ∧ ∃ e, r = .raise e) n := by
  simp only [forget, wp_bind, wp_read, seqPost_ok]
  refine wp_mono wp_findExisted ?_
  rintro _ _ ⟨rfl, rfl | ⟨e, rfl⟩⟩
  · exact ⟨rfl, _, rfl⟩
  · exact ⟨rfl, e, rfl⟩

theorem wp_checkOwner {container : Option Caller} :
    wp (checkOwner a (n.dev a) container) (fun r n' => n' = n ∧
      (r = .ok () ∧ ¬ Refused a container n ∨ (∃ e, r = .raise e) ∧ Refused a container n)) n := by
  cases container with
  | none => exact ⟨rfl, .inl ⟨rfl, by simp [Refused]⟩⟩
  | some caller =>
    simp only [checkOwner, wp_bind]
    apply wp_onlyIf
    · intro hsub
      exact ⟨rfl, .inr ⟨⟨_, rfl⟩, caller, rfl, .inl hsub⟩⟩
    · intro hsub
      rw [seqPost_ok]
      apply wp_onlyIf
      · intro howner
        exact ⟨rfl, .inr ⟨⟨_, rfl⟩, caller, rfl, .inr howner⟩⟩
      · intro howner
        refine ⟨rfl, .inl ⟨rfl, ?_⟩⟩
        rintro ⟨_, ⟨⟩, h | h⟩
        · exact hsub h
        · exact howner h

theorem relativesFreed_vf {p : Address} (htype : (n.dev a).devType = .vf)
    (hp : (n.dev a).parentDevice = some p) :
    relativesFreed a n = setStatus p (parentFreed a p n) n := by
  simp [relativesFreed, htype, hp]

theorem wp_freeRelatives
    (hmem : (n.dev a).devType = .vf → ∀ p, (n.dev a).parentDevice = some p →
      a ∈ (n.dev p).childDevices) :
    wp (freeRelatives (n.dev a)) (fun r n' =>
      (∃ l, r = .ok l) ∧ IdsSet a n ∧ n' = relativesFreed a n ∨
      (∃ e, r = .raise e) ∧ ¬ IdsSet a n ∧ n' = n) n := by
  unfold freeRelatives
  split
  next htype =>
    refine .inl ⟨⟨_, rfl⟩, ?_, ?_⟩
    · intro hvf
      simp [htype] at hvf
    · simp only [relativesFreed, htype]
      rfl
  next htype =>
    unfold freeParent
    split
    next p hp =>
      simp only [wp_bind, wp_read, seqPost_ok]
      by_cases hids : ∀ vf ∈ (n.dev p).childDevices, (n.dev vf).id.isSome
      · refine wp_mono (wp_othersAvailable (hids a (hmem htype p hp)) hids) ?_
        intro r n' h
        rw [h.1, h.2]
        have hset : IdsSet a n := by
          intro _ p' hp'
          cases hp.symm.trans hp'
          exact hids
        rw [seqPost_ok, wp_bind, relativesFreed_vf htype hp]
        apply wp_onlyIf
        · intro hfree
          refine .inl ⟨⟨_, rfl⟩, hset, ?_⟩
          have hfreed : parentFreed a p n = .available := if_pos (by simpa using hfree)
          rw [hfreed]
          rfl
        · intro hfree
          refine .inl ⟨⟨_, rfl⟩, hset, ?_⟩
          have hfreed : parentFreed a p n = (n.dev p).status := if_neg (by simpa using hfree)
          rw [hfreed, setStatus_self]
          rfl
      · have hmissing : ∃ vf ∈ (n.dev p).childDevices, (n.dev vf).id = none := by
          simpa using hids
        refine wp_mono (wp_othersAvailable_raise hmissing) ?_
        rintro _ _ ⟨rfl, e, rfl⟩
        exact .inr ⟨⟨e, rfl⟩, fun h => hids (h htype p hp), rfl⟩
    next hp =>
      refine .inl ⟨⟨_, rfl⟩, ?_, ?_⟩
      · intro _ p hp'
        simp [hp] at hp'
      · simp only [relativesFreed, htype, hp]
        rfl
  next htype =>
    refine .inl ⟨⟨_, rfl⟩, ?_, ?_⟩
    · intro hvf
      simp [htype] at hvf
    · simp only [relativesFreed, htype]
      rfl

/-- A free that goes ahead. -/
def Goes (a : Address) (container : Option Caller) (n : Node) : Prop :=
  (n.dev a).status.held = true ∧ ¬ Refused a container n ∧ IdsSet a n

theorem free_spec (container : Option Caller)
    (hmem : (n.dev a).devType = .vf → ∀ p, (n.dev a).parentDevice = some p →
      a ∈ (n.dev p).childDevices) :
    wp (free a container) (fun r n' =>
      ¬ Goes a container n ∧ n' = n ∧ (∃ e, r = .raise e) ∨
      Goes a container n ∧ n' = freed a n ∧
        ((∃ l, r = .ok l) ∧ (container = none ∨ (n.dev a).status = .claimed) ∨
          (∃ e, r = .raise e) ∧ container ≠ none ∧ (n.dev a).status = .allocated)) n := by
  simp only [free, wp_bind, wp_read, seqPost_ok]
  apply wp_onlyIf
  · intro hfree
    exact .inl ⟨fun h => by simp [h.1] at hfree, rfl, _, rfl⟩
  · intro hheld
    rw [seqPost_ok, wp_bind]
    refine wp_mono wp_checkOwner ?_
    intro r n' h
    obtain ⟨rfl, hasked⟩ | ⟨⟨e, rfl⟩, hrefused⟩ := h.2
    · rw [h.1, seqPost_ok, wp_bind]
      refine wp_mono (wp_freeRelatives hmem) ?_
      rintro _ _ (⟨⟨l, rfl⟩, hids, rfl⟩ | ⟨⟨e, rfl⟩, hids, rfl⟩)
      · have hgoes : Goes a container n := ⟨by simpa using hheld, hasked, hids⟩
        simp only [seqPost_ok, wp_bind, wp_modify]
        cases container with
        | none => exact .inr ⟨hgoes, rfl, .inl ⟨⟨_, rfl⟩, .inl rfl⟩⟩
        | some caller =>
          rw [wp_bind]
          apply wp_onlyIf
          · intro hallocated
            refine wp_mono wp_forget ?_
            rintro _ _ ⟨rfl, e, rfl⟩
            exact .inr ⟨hgoes, rfl, .inr ⟨⟨e, rfl⟩, nofun, hallocated⟩⟩
          · intro hallocated
            refine .inr ⟨hgoes, rfl, .inl ⟨⟨_, rfl⟩, .inr ?_⟩⟩
            have hheld := hgoes.1
            unfold Status.held at hheld
            split at hheld <;> simp_all
      · exact .inl ⟨fun h => hids h.2.2, rfl, e, rfl⟩
    · exact .inl ⟨fun hgoes => hgoes.2.1 hrefused, h.1, e, rfl⟩

end

end Zun.Pci
