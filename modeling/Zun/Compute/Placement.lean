import Mathlib.Data.NNRat.Floor
import Zun.Data.Table
import Zun.Effect.Run
import Zun.Objects.Container

/-!
# Placement and the records

What a container holds of its node is written down twice: in its record, as cpu, memory and disk, and
in placement, as the amounts that `resources_from_request_spec` made of them when the container was
scheduled.  `claim_resources` of `zun/scheduler/client/report.py` is the only one to write the
amounts.  `_do_container_update` of `zun/compute/manager.py` changes the cpu and the memory of the
record, under the node's own claim, and `_check_support_disk_quota` fills in the disk; neither goes
to placement.  So placement follows the record as long as these leave the amounts as they are.
-/

namespace Zun

open Effect

namespace Placement

/-! ## The amounts -/

/-- The columns of a record that are turned into amounts. -/
structure Record where
  cpu : Option ℚ≥0
  memory : Option Nat
  disk : Option Nat
deriving DecidableEq

/-- The resources of an allocation: `VCPU`, `MEMORY_MB`, and `DISK_GB` if it has any. -/
structure Amounts where
  vcpu : Nat
  memoryMb : Nat
  diskGb : Option Nat
deriving DecidableEq

structure Conf where
  defaultCpu : ℚ≥0
  defaultMemory : Nat
  defaultDisk : Nat

variable (conf : Conf)

/-- `resources_from_request_spec`, for extra specs that name no resources, as those of the API do. -/
def resourcesFromRequestSpec (r : Record) : Amounts where
  vcpu := max 1 ⌈if r.cpu.getD 0 = 0 then conf.defaultCpu else r.cpu.getD 0⌉₊
  memoryMb := max 1 (r.memory.getD conf.defaultMemory)
  diskGb := r.disk.filter (· ≠ 0)

/-! ## Operations -/

/-- What an update writes: the fields of the patch that differ from those of the object. -/
structure Changes where
  cpu : Option ℚ≥0 := none
  memory : Option Nat := none
deriving DecidableEq

/-- The `setattr` loop of `_do_container_update`. -/
def Changes.of (patch : Changes) (object : Record) : Changes where
  cpu := patch.cpu.filter (some · ≠ object.cpu)
  memory := patch.memory.filter (some · ≠ object.memory)

/-- What `save` makes of the row. -/
def Changes.apply (c : Changes) (r : Record) : Record :=
  { r with cpu := c.cpu.or r.cpu, memory := c.memory.or r.memory }

/-- Where an operation is. -/
inductive Job where
  /-- A create, in the scheduler. -/
  | scheduling (u : Uuid) (object : Record)
  /-- On the node, at `_check_support_disk_quota`. -/
  | placed (u : Uuid) (object : Record)
  /-- At `container_claim`, where the object is saved. -/
  | claiming (u : Uuid) (object : Record)
  | building (u : Uuid)
  /-- The create has failed, at `delete_allocation_for_container`. -/
  | undoing (u : Uuid)
  /-- An update, at `container_update_claim`. -/
  | updating (u : Uuid) (changes : Changes)
  /-- At `driver.update`. -/
  | resizing (u : Uuid) (changes : Changes)
  /-- At `container.save`. -/
  | saving (u : Uuid) (changes : Changes)
  /-- A delete, at `_release_allocation`. -/
  | releasing (u : Uuid)
  /-- At `container.destroy`. -/
  | destroying (u : Uuid)

def Job.uuid : Job → Uuid
  | .scheduling u _ | .placed u _ | .claiming u _ | .building u | .undoing u | .updating u _
  | .resizing u _ | .saving u _ | .releasing u | .destroying u => u

structure State where
  records : Table Uuid Record := .empty
  placement : Table Uuid Amounts := .empty
  jobs : Nat → Option Job := fun _ => none

inductive Event where
  | create (j : Nat) (u : Uuid) (r : Record)
  /-- `claim_resources` succeeds, or no host is left. -/
  | claimResources (j : Nat) (ok : Bool)
  /-- The node's driver has a base size for disks, or does not support them, or does. -/
  | checkDisk (j : Nat) (base : Option Nat) (supported : Bool)
  | containerClaim (j : Nat) (ok : Bool)
  | build (j : Nat) (ok : Bool)
  /-- `delete_allocation_for_container` succeeds, or raises. -/
  | release (j : Nat) (ok : Bool)
  /-- `container_update` or `resize_container`. -/
  | update (j : Nat) (u : Uuid) (patch : Changes)
  | updateClaim (j : Nat) (ok : Bool)
  | driverUpdate (j : Nat) (ok : Bool)
  | save (j : Nat)
  | delete (j : Nat) (u : Uuid)
  | destroy (j : Nat)

def State.setJob (s : State) (j : Nat) (job : Option Job) : State :=
  { s with jobs := Function.update s.jobs j job }

/-- The end of `_check_support_disk_quota`, where the driver names no base size that matters. -/
def checkDiskSupport (supported : Bool) (object : Record) : Option Record :=
  match supported, object.disk.getD 0 with
  | false, 0 => some object
  | false, _ => none
  | true, 0 => some { object with disk := some conf.defaultDisk }
  | true, _ => some object

/-- `_check_support_disk_quota`: the object with its disk, unless the create is refused. -/
def checkSupportDiskQuota (base : Option Nat) (supported : Bool) (object : Record) :
    Option Record :=
  match base with
  | none => checkDiskSupport conf supported object
  | some b =>
      if object.disk.getD 0 = 0 then some { object with disk := some (max b conf.defaultDisk) }
      else if object.disk.getD 0 < b then none
      else checkDiskSupport conf supported object

/-- What the job does, if it is there. -/
def State.withJob (s : State) (j : Nat) (f : Job → State) : State :=
  match s.jobs j with
  | none => s
  | some job => f job

section

variable (s : State) (j : Nat)

def stepClaimResources (ok : Bool) : Job → State
  | .scheduling u object =>
      if ok = true then
        { s with placement := s.placement.insert u (resourcesFromRequestSpec conf object) }.setJob j
          (some (.placed u object))
      else s.setJob j none
  | _ => s

def stepCheckDisk (base : Option Nat) (supported : Bool) : Job → State
  | .placed u object =>
      s.setJob j (some (match checkSupportDiskQuota conf base supported object with
        | some object => .claiming u object
        | none => .undoing u))
  | _ => s

def stepContainerClaim (ok : Bool) : Job → State
  | .claiming u object =>
      if ok = true then
        { s with records := s.records.modify u fun r => { r with disk := object.disk } }.setJob j
          (some (.building u))
      else s.setJob j (some (.undoing u))
  | _ => s

def stepBuild (ok : Bool) : Job → State
  | .building u => s.setJob j (if ok = true then none else some (.undoing u))
  | _ => s

def stepRelease (ok : Bool) : Job → State
  | .undoing u =>
      { s with placement := if ok = true then s.placement.erase u else s.placement }.setJob j none
  | .releasing u =>
      { s with placement := if ok = true then s.placement.erase u else s.placement }.setJob j
        (some (.destroying u))
  | _ => s

def stepUpdateClaim (ok : Bool) : Job → State
  | .updating u changes => s.setJob j (if ok = true then some (.resizing u changes) else none)
  | _ => s

def stepDriverUpdate (ok : Bool) : Job → State
  | .resizing u changes => s.setJob j (if ok = true then some (.saving u changes) else none)
  | _ => s

def stepSave : Job → State
  | .saving u changes => { s with records := s.records.modify u changes.apply }.setJob j none
  | _ => s

def stepDestroy : Job → State
  | .destroying u => { s with records := s.records.erase u }.setJob j none
  | _ => s

end

def step : Event → State → State
  | .create j u r, s => { s with records := s.records.insert u r }.setJob j (some (.scheduling u r))
  | .claimResources j ok, s => s.withJob j (stepClaimResources conf s j ok)
  | .checkDisk j base supported, s => s.withJob j (stepCheckDisk conf s j base supported)
  | .containerClaim j ok, s => s.withJob j (stepContainerClaim s j ok)
  | .build j ok, s => s.withJob j (stepBuild s j ok)
  | .release j ok, s => s.withJob j (stepRelease s j ok)
  | .update j u patch, s =>
      s.setJob j ((s.records.row u).map fun r => .updating u (.of patch r))
  | .updateClaim j ok, s => s.withJob j (stepUpdateClaim s j ok)
  | .driverUpdate j ok, s => s.withJob j (stepDriverUpdate s j ok)
  | .save j, s => s.withJob j (stepSave s j)
  | .delete j u, s => s.setJob j (some (.releasing u))
  | .destroy j, s => s.withJob j (stepDestroy s j)

/-! ## What can happen -/

def Possible : Event → State → Prop
  -- A uuid is made up for one create.
  | .create j u _, s => s.jobs j = none ∧ s.records.given u = false
  | .update j _ _, s | .delete j _, s => s.jobs j = none
  | _, _ => True

/-- Nothing is under way, and placement has what the records say. -/
structure Begun (s : State) : Prop where
  jobs : ∀ j, s.jobs j = none
  given : ∀ u, s.placement.given u = true → s.records.given u = true
  follows : ∀ u r a, s.records.row u = some r → s.placement.row u = some a →
    a = resourcesFromRequestSpec conf r

/-- A record is not written other amounts than it had. -/
def Steady : Event → State → Prop
  | .containerClaim j true, s => ∀ u object, s.jobs j = some (.claiming u object) →
      ∀ r, s.records.row u = some r →
        resourcesFromRequestSpec conf { r with disk := object.disk } = resourcesFromRequestSpec conf r
  | .save j, s => ∀ u changes, s.jobs j = some (.saving u changes) →
      ∀ r, s.records.row u = some r →
        resourcesFromRequestSpec conf (changes.apply r) = resourcesFromRequestSpec conf r
  | _, _ => True

/-- Where no operation is in progress, an allocation holds what the record of its container says. -/
def Follows (s : State) : Prop :=
  ∀ u, (∀ j job, s.jobs j = some job → job.uuid ≠ u) →
    ∀ r a, s.records.row u = some r → s.placement.row u = some a →
      a = resourcesFromRequestSpec conf r

/-! ## A steady run -/

variable {conf : Conf} {s : State} {j : Nat} {u : Uuid} {job : Job}

structure Inv (conf : Conf) (s : State) : Prop where
  follows : ∀ u r a, s.records.row u = some r → s.placement.row u = some a →
    a = resourcesFromRequestSpec conf r
  given : ∀ u, s.placement.given u = true → s.records.given u = true
  /-- What is being scheduled is what is on record. -/
  scheduling : ∀ j u object, s.jobs j = some (.scheduling u object) →
    s.records.Settled
      (fun r => resourcesFromRequestSpec conf r = resourcesFromRequestSpec conf object) u

theorem of_setJob {o : Option Job} {j' : Nat} (h : (s.setJob j o).jobs j' = some job) :
    j' = j ∧ o = some job ∨ j' ≠ j ∧ s.jobs j' = some job := by
  by_cases hj : j' = j
  · subst hj
    exact .inl ⟨rfl, by simpa [State.setJob] using h⟩
  · exact .inr ⟨hj, by simpa [State.setJob, Function.update_of_ne hj] using h⟩

/-- A job goes on, and not as one that is being scheduled. -/
theorem Inv.goes {o : Option Job} (h : Inv conf s)
    (ho : ∀ u object, o ≠ some (.scheduling u object)) : Inv conf (s.setJob j o) where
  follows := h.follows
  given := h.given
  scheduling j' u object hj := by
    rcases of_setJob hj with ⟨-, heq⟩ | ⟨-, hj⟩
    · exact absurd heq (ho u object)
    · exact h.scheduling j' u object hj

theorem Inv.withJob {f : Job → State} (h : Inv conf s)
    (hf : ∀ job, s.jobs j = some job → Inv conf (f job)) : Inv conf (s.withJob j f) := by
  unfold State.withJob
  split
  · exact h
  · rename_i job hj
    exact hf job hj

/-- A record is written, with the amounts that it had. -/
theorem inv_modify {f : Record → Record} (h : Inv conf s)
    (hf : ∀ r, s.records.row u = some r →
      resourcesFromRequestSpec conf (f r) = resourcesFromRequestSpec conf r) :
    Inv conf { s with records := s.records.modify u f } where
  follows v r a hr ha := by
    rcases Table.row_of_modify hr with ⟨rfl, r', hr', rfl⟩ | ⟨-, hr⟩
    · rw [hf r' hr']
      exact h.follows _ r' a hr' ha
    · exact h.follows v r a hr ha
  given := h.given
  scheduling j v object hj := by
    apply (h.scheduling j v object hj).modify
    intro r hr heq
    rw [hf r hr]
    exact heq

/-- An allocation is given back. -/
theorem inv_release {ok : Bool} (h : Inv conf s) :
    Inv conf { s with placement := if ok = true then s.placement.erase u else s.placement } := by
  cases ok with
  | false => exact h
  | true =>
    constructor
    · exact fun v r a hr ha => h.follows v r a hr (Table.row_of_erase ha)
    · exact h.given
    · exact h.scheduling

/-- An allocation is made of what is being scheduled. -/
theorem inv_claim {object : Record} (h : Inv conf s)
    (hset : s.records.Settled
      (fun r => resourcesFromRequestSpec conf r = resourcesFromRequestSpec conf object) u) :
    Inv conf { s with placement := s.placement.insert u (resourcesFromRequestSpec conf object) } where
  follows v r a hr ha := by
    by_cases hv : v = u
    · subst hv
      rw [Table.row_insert_self] at ha
      cases ha
      exact (hset.2 r hr).symm
    · rw [Table.row_insert_of_ne hv] at ha
      exact h.follows v r a hr ha
  given v hv := by
    by_cases hvu : v = u
    · subst hvu
      exact hset.1
    · apply h.given v
      simpa [Table.insert, Function.update_of_ne hvu] using hv
  scheduling := h.scheduling

theorem inv_create {r : Record} (h : Inv conf s) (hu : s.records.given u = false) :
    Inv conf (step conf (.create j u r) s) where
  follows v r' a hr' ha := by
    by_cases hv : v = u
    · subst hv
      rw [h.given _ (s.placement.given_of_row _ a ha)] at hu
      cases hu
    · exact h.follows v r' a ((Table.row_insert_of_ne hv).symm.trans hr') ha
  given v hv := Table.given_insert (h.given v hv)
  scheduling j' v object hj := by
    rcases of_setJob hj with ⟨-, heq⟩ | ⟨-, hj⟩
    · cases heq
      constructor
      · exact Table.given_insert_self
      · intro r' hr'
        cases Table.row_insert_self.symm.trans hr'
        rfl
    · exact (h.scheduling j' v object hj).insert hu

theorem inv_stepClaimResources {ok : Bool} (h : Inv conf s) (hj : s.jobs j = some job) :
    Inv conf (stepClaimResources conf s j ok job) := by
  unfold stepClaimResources
  split
  · rename_i u object
    split
    · exact (inv_claim h (h.scheduling j u object hj)).goes (by rintro _ _ ⟨⟩)
    · exact h.goes (by rintro _ _ ⟨⟩)
  · exact h

theorem inv_stepCheckDisk {base : Option Nat} {supported : Bool} (h : Inv conf s) :
    Inv conf (stepCheckDisk conf s j base supported job) := by
  unfold stepCheckDisk
  split
  · apply h.goes
    split <;> rintro _ _ ⟨⟩
  · exact h

theorem inv_stepContainerClaim {ok : Bool} (h : Inv conf s) (hj : s.jobs j = some job)
    (hs : Steady conf (.containerClaim j ok) s) : Inv conf (stepContainerClaim s j ok job) := by
  unfold stepContainerClaim
  split
  · rename_i u object
    cases ok with
    | false => exact h.goes (by rintro _ _ ⟨⟩)
    | true => exact (inv_modify h (hs u object hj)).goes (by rintro _ _ ⟨⟩)
  · exact h

theorem inv_stepBuild {ok : Bool} (h : Inv conf s) : Inv conf (stepBuild s j ok job) := by
  unfold stepBuild
  split
  · apply h.goes
    split <;> rintro _ _ ⟨⟩
  · exact h

theorem inv_stepRelease {ok : Bool} (h : Inv conf s) : Inv conf (stepRelease s j ok job) := by
  unfold stepRelease
  split
  · exact (inv_release h).goes (by rintro _ _ ⟨⟩)
  · exact (inv_release h).goes (by rintro _ _ ⟨⟩)
  · exact h

theorem inv_stepUpdateClaim {ok : Bool} (h : Inv conf s) :
    Inv conf (stepUpdateClaim s j ok job) := by
  unfold stepUpdateClaim
  split
  · apply h.goes
    split <;> rintro _ _ ⟨⟩
  · exact h

theorem inv_stepDriverUpdate {ok : Bool} (h : Inv conf s) :
    Inv conf (stepDriverUpdate s j ok job) := by
  unfold stepDriverUpdate
  split
  · apply h.goes
    split <;> rintro _ _ ⟨⟩
  · exact h

theorem inv_stepSave (h : Inv conf s) (hj : s.jobs j = some job) (hs : Steady conf (.save j) s) :
    Inv conf (stepSave s j job) := by
  unfold stepSave
  split
  · rename_i u changes
    exact (inv_modify h (hs u changes hj)).goes (by rintro _ _ ⟨⟩)
  · exact h

theorem inv_stepDestroy (h : Inv conf s) : Inv conf (stepDestroy s j job) := by
  unfold stepDestroy
  split
  · rename_i u
    apply Inv.goes
    · constructor
      · exact fun v r a hr ha => h.follows v r a (Table.row_of_erase hr) ha
      · exact h.given
      · exact fun j v object hj => (h.scheduling j v object hj).erase
    · rintro _ _ ⟨⟩
  · exact h

theorem inv_step (e : Event) (h : Inv conf s) (hp : Possible e s) (hs : Steady conf e s) :
    Inv conf (step conf e s) := by
  cases e with
  | create j u r => exact inv_create h hp.2
  | claimResources j ok => exact h.withJob fun _ hj => inv_stepClaimResources h hj
  | checkDisk j base supported => exact h.withJob fun _ _ => inv_stepCheckDisk h
  | containerClaim j ok => exact h.withJob fun _ hj => inv_stepContainerClaim h hj hs
  | build j ok => exact h.withJob fun _ _ => inv_stepBuild h
  | release j ok => exact h.withJob fun _ _ => inv_stepRelease h
  | update j u patch =>
    apply h.goes
    intro v object heq
    obtain ⟨r, -, hr⟩ := Option.map_eq_some_iff.mp heq
    cases hr
  | updateClaim j ok => exact h.withJob fun _ _ => inv_stepUpdateClaim h
  | driverUpdate j ok => exact h.withJob fun _ _ => inv_stepDriverUpdate h
  | save j => exact h.withJob fun _ hj => inv_stepSave h hj hs
  | delete j u => exact h.goes (by rintro _ _ ⟨⟩)
  | destroy j => exact h.withJob fun _ _ => inv_stepDestroy h

def webConf : Conf := { defaultCpu := 1, defaultMemory := 512, defaultDisk := 10 }

def webRecord : Record := { cpu := some (1 / 2), memory := some 512, disk := some 10 }

def running : State where
  records := Table.empty.insert 7 webRecord
  placement := Table.empty.insert 7 (resourcesFromRequestSpec webConf webRecord)

theorem begun_running : Begun webConf running where
  jobs _ := rfl
  given u hu := by
    by_cases h : u = 7
    · subst h
      rfl
    · simp [running, Table.insert, Table.empty, h] at hu
  follows u r a hr ha := by
    by_cases h : u = 7
    · subst h
      cases Table.row_insert_self.symm.trans hr
      cases Table.row_insert_self.symm.trans ha
      rfl
    · cases (Table.row_insert_of_ne h).symm.trans hr

/-- An update that goes through. -/
def update (cpu : ℚ≥0) : List Event :=
  [.update 1 7 { cpu := some cpu }, .updateClaim 1 true, .driverUpdate 1 true, .save 1]

theorem wholeCore_steady : Allowed (step webConf) (fun e s => Possible e s ∧ Steady webConf e s)
    (update 1) running := by
  refine ⟨⟨rfl, trivial⟩, ⟨trivial, trivial⟩, ⟨trivial, trivial⟩, ⟨trivial, ?_⟩, trivial⟩
  rintro u changes ⟨⟩ r ⟨⟩
  decide +kernel

theorem fourCores_idle (j : Nat) (job : Job)
    (hj : (steps (step webConf) (update 4) running).jobs j = some job) : job.uuid ≠ 7 := by
  rcases of_setJob hj with ⟨-, ⟨⟩⟩ | ⟨hne, hj⟩
  rcases of_setJob hj with ⟨heq, -⟩ | ⟨-, hj⟩
  · exact absurd heq hne
  rcases of_setJob hj with ⟨heq, -⟩ | ⟨-, hj⟩
  · exact absurd heq hne
  rcases of_setJob hj with ⟨heq, -⟩ | ⟨-, ⟨⟩⟩
  exact absurd heq hne

end Placement

end Zun
