import Zun.Data.Mounts
import Zun.Effect.Run

/-!
# The sweep for orphan mounts

`reclaim_orphan_node_resources` and `_reclaim_orphan_mounts` of `zun/compute/manager.py`.  The sweep
asks the database for the volume mappings, then reads the mount table, and unmounts what is mounted in
the volume directory for a volume that no mapping named.  Meanwhile threads of the same service
attach volumes (`_attach_volumes`, `_attach_volume`: the mapping first, then the mount) and detach
them (`_detach_volume`: the mount of the last mapping first, then the mapping).

An attach that comes between the two reads is in the second and not in the first.  What is unmounted
then is a volume in use.
-/

namespace Zun

open Effect

namespace MountSweep

abbrev NodePath := Mounts.Path String

structure Mapping where
  id : Nat
  /-- The uuid of the volume. -/
  volume : String
deriving DecidableEq

/-- Where a thread is. -/
inductive Phase where
  /-- An attach, at `volmap.create`. -/
  | recording
  /-- At `driver.attach_volume`. -/
  | mounting
  /-- At `volmap.destroy`, after the mount has failed. -/
  | dropping
  /-- A detach, at `VolumeMapping.count`. -/
  | counting
  /-- At `driver.detach_volume`. -/
  | unmounting
  /-- At `volmap.destroy`. -/
  | destroying
deriving DecidableEq

structure Job where
  mapping : Mapping
  /-- The volume is one of a capsule's member and has its `connection_info`. -/
  attached : Bool := false
  phase : Phase
deriving DecidableEq

/-- Where the sweep is, with what it knows there. -/
inductive Pass where
  | idle
  /-- At `VolumeMapping.list`. -/
  | listing
  /-- At `/proc/mounts`. -/
  | reading (live : String → Bool)
  /-- At the head of the loop. -/
  | looking (live : String → Bool) (rest : List NodePath)
  /-- At `umount`. -/
  | unmounting (live : String → Bool) (p : NodePath) (rest : List NodePath)

structure State where
  mappings : List Mapping := []
  /-- The mount table. -/
  mounted : List NodePath := []
  jobs : Nat → Option Job := fun _ => none
  pass : Pass := .idle

inductive Event where
  | beginAttach (j : Nat) (m : Mapping) (attached : Bool)
  | record (j : Nat)
  | mount (j : Nat) (ok : Bool)
  | drop (j : Nat)
  | beginDetach (j : Nat) (m : Mapping)
  | count (j : Nat)
  /-- A failed unmount is raised, or the mapping goes all the same. -/
  | unmount (j : Nat) (ok reraise : Bool)
  | destroy (j : Nat)
  | beginSweep
  | list (ok : Bool)
  | read (ok : Bool)
  | look
  | umount (ok : Bool)
deriving DecidableEq

variable (volumeDir : NodePath)

/-- `get_mountpoint`. -/
def getMountpoint (volume : String) : NodePath := volumeDir ++ [volume]

/-- One of the `continue`s of the loop is taken. -/
def skips (live : String → Bool) (p : NodePath) : Bool :=
  p.dropLast != volumeDir || live (p.getLastD "")

/-- One turn of the loop, as far as `umount`. -/
def look (live : String → Bool) : List NodePath → Pass
  | [] => .idle
  | p :: rest => if skips volumeDir live p = true then .looking live rest else .unmounting live p rest

def State.setJob (s : State) (j : Nat) (job : Option Job) : State :=
  { s with jobs := Function.update s.jobs j job }

section

variable (s : State) (j : Nat) (job : Job)

def stepRecord : State :=
  match job.phase with
  | .recording =>
      { s with mappings := job.mapping :: s.mappings }.setJob j
        (if job.attached = true then none else some { job with phase := .mounting })
  | _ => s

def stepMount (ok : Bool) : State :=
  match job.phase, ok with
  | .mounting, true =>
      { s with mounted := getMountpoint volumeDir job.mapping.volume :: s.mounted }.setJob j none
  | .mounting, false => s.setJob j (some { job with phase := .dropping })
  | _, _ => s

def State.dropMapping (m : Mapping) : State :=
  { s with mappings := s.mappings.filter (· ≠ m) }

def stepDrop : State :=
  match job.phase with
  | .dropping => (s.dropMapping job.mapping).setJob j none
  | _ => s

/-- The mappings of a volume. -/
def State.countOf (volume : String) : Nat := (s.mappings.filter (·.volume = volume)).length

def stepCount : State :=
  match job.phase with
  | .counting =>
      s.setJob j (some { job with
        phase := if s.countOf job.mapping.volume = 1 then .unmounting else .destroying })
  | _ => s

def stepUnmount (ok reraise : Bool) : State :=
  match job.phase with
  | .unmounting =>
      { s with
        mounted := if ok = true then s.mounted.erase (getMountpoint volumeDir job.mapping.volume)
          else s.mounted }.setJob j
        (if ok = false ∧ reraise = true then none else some { job with phase := .destroying })
  | _ => s

def stepDestroy : State :=
  match job.phase with
  | .destroying => (s.dropMapping job.mapping).setJob j none
  | _ => s

/-- `{m.volume.uuid for m in mappings}`. -/
def State.live (volume : String) : Bool := s.mappings.any (·.volume = volume)

def stepList (ok : Bool) : State :=
  match s.pass with
  | .listing => { s with pass := if ok = true then .reading s.live else .idle }
  | _ => s

def stepRead (ok : Bool) : State :=
  match s.pass with
  | .reading live => { s with pass := if ok = true then .looking live s.mounted else .idle }
  | _ => s

def stepLook : State :=
  match s.pass with
  | .looking live rest => { s with pass := look volumeDir live rest }
  | _ => s

def stepUmount (ok : Bool) : State :=
  match s.pass with
  | .unmounting live p rest =>
      { s with
        mounted := if ok = true then s.mounted.erase p else s.mounted
        pass := .looking live rest }
  | _ => s

end

/-- What the job does. -/
def State.withJob (s : State) (j : Nat) (f : Job → State) : State :=
  match s.jobs j with
  | none => s
  | some job => f job

def step : Event → State → State
  | .beginAttach j m attached, s => s.setJob j (some { mapping := m, attached, phase := .recording })
  | .record j, s => s.withJob j (stepRecord s j)
  | .mount j ok, s => s.withJob j fun job => stepMount volumeDir s j job ok
  | .drop j, s => s.withJob j (stepDrop s j)
  | .beginDetach j m, s => s.setJob j (some { mapping := m, phase := .counting })
  | .count j, s => s.withJob j (stepCount s j)
  | .unmount j ok reraise, s => s.withJob j fun job => stepUnmount volumeDir s j job ok reraise
  | .destroy j, s => s.withJob j (stepDestroy s j)
  | .beginSweep, s => { s with pass := .listing }
  | .list ok, s => stepList s ok
  | .read ok, s => stepRead s ok
  | .look, s => stepLook volumeDir s
  | .umount ok, s => stepUmount s ok

/-! ## What can happen -/

def Possible : Event → State → Prop
  -- A mapping is given an id of its own.
  | .beginAttach j m _, s => s.jobs j = none ∧ (∀ m' ∈ s.mappings, m'.id ≠ m.id) ∧
      ∀ j' job, s.jobs j' = some job → job.mapping.id ≠ m.id
  | .beginDetach j m, s => s.jobs j = none ∧ m ∈ s.mappings
  | .beginSweep, s => match s.pass with
    | .idle => True
    | _ => False
  | _, _ => True

/-- Mappings and mounts may be there, and nothing is under way. -/
structure Begun (s : State) : Prop where
  jobs : ∀ j, s.jobs j = none
  pass : s.pass = .idle

/-- The volume directory's paths that the sweep still has before it, and what it takes for live. -/
def Pass.ahead : Pass → List NodePath
  | .looking _ rest => rest
  | .unmounting _ p rest => p :: rest
  | _ => []

def Pass.live : Pass → String → Bool
  | .reading live | .looking live _ | .unmounting live _ _ => live
  | _ => fun _ => false

/-- A mapping made since the listing is of a volume that the sweep does not come to: it was not
mounted when the table was read, or the sweep is past it. -/
def Timely : Event → State → Prop
  | .record j, s => ∀ job, s.jobs j = some job → job.phase = .recording →
      getMountpoint volumeDir job.mapping.volume ∈ s.pass.ahead → s.pass.live job.mapping.volume = true
  | .read _, s => ∀ live, s.pass = .reading live →
      ∀ m ∈ s.mappings, getMountpoint volumeDir m.volume ∈ s.mounted → live m.volume = true
  | _, _ => True

/-! ## A timely run -/

variable {volumeDir} {s : State}

/-- No mapping but a live one is of a volume that the sweep comes to. -/
def Clear (volumeDir : NodePath) (pass : Pass) (mappings : List Mapping) : Prop :=
  ∀ m ∈ mappings, getMountpoint volumeDir m.volume ∈ pass.ahead → pass.live m.volume = true

structure Inv (volumeDir : NodePath) (s : State) : Prop where
  clear : Clear volumeDir s.pass s.mappings
  orphan : ∀ live p rest, s.pass = .unmounting live p rest → skips volumeDir live p = false

/-- A step that leaves the sweep alone and makes no mapping. -/
theorem Inv.less {s' : State} (h : Inv volumeDir s) (hpass : s'.pass = s.pass)
    (hm : ∀ m ∈ s'.mappings, m ∈ s.mappings) : Inv volumeDir s' := by
  constructor
  · intro m hm'
    rw [hpass]
    exact h.clear m (hm m hm')
  · rw [hpass]
    exact h.orphan

theorem Inv.withJob {j : Nat} {f : Job → State} (h : Inv volumeDir s)
    (hf : ∀ job, s.jobs j = some job → Inv volumeDir (f job)) : Inv volumeDir (s.withJob j f) := by
  unfold State.withJob
  split
  · exact h
  · rename_i job hj
    exact hf job hj

theorem dropMapping_sub {m : Mapping} : ∀ m' ∈ (s.dropMapping m).mappings, m' ∈ s.mappings :=
  fun _ hm => (List.mem_filter.mp hm).1

theorem inv_stepRecord {j : Nat} {job : Job} (h : Inv volumeDir s)
    (ht : job.phase = .recording → getMountpoint volumeDir job.mapping.volume ∈ s.pass.ahead →
      s.pass.live job.mapping.volume = true) : Inv volumeDir (stepRecord s j job) := by
  unfold stepRecord
  split
  · rename_i hphase
    constructor
    · intro m hm
      rcases List.mem_cons.mp hm with rfl | hm
      · exact ht hphase
      · exact h.clear m hm
    · exact h.orphan
  · exact h

theorem inv_stepMount {j : Nat} {job : Job} {ok : Bool} (h : Inv volumeDir s) :
    Inv volumeDir (stepMount volumeDir s j job ok) := by
  unfold stepMount
  split <;> exact h.less rfl fun _ hm => hm

theorem inv_stepDrop {j : Nat} {job : Job} (h : Inv volumeDir s) :
    Inv volumeDir (stepDrop s j job) := by
  unfold stepDrop
  split
  · exact h.less rfl dropMapping_sub
  · exact h

theorem inv_stepCount {j : Nat} {job : Job} (h : Inv volumeDir s) :
    Inv volumeDir (stepCount s j job) := by
  unfold stepCount
  split
  · exact h.less rfl fun _ hm => hm
  · exact h

theorem inv_stepUnmount {j : Nat} {job : Job} {ok reraise : Bool} (h : Inv volumeDir s) :
    Inv volumeDir (stepUnmount volumeDir s j job ok reraise) := by
  unfold stepUnmount
  split
  · exact h.less rfl fun _ hm => hm
  · exact h

theorem inv_stepDestroy {j : Nat} {job : Job} (h : Inv volumeDir s) :
    Inv volumeDir (stepDestroy s j job) := by
  unfold stepDestroy
  split
  · exact h.less rfl dropMapping_sub
  · exact h

/-- The sweep is at a place where it has nothing before it. -/
theorem inv_resting {pass : Pass} (hahead : pass.ahead = []) :
    Inv volumeDir { s with pass } := by
  constructor
  · intro m _ hm
    rw [hahead] at hm
    cases hm
  · rintro live p rest rfl
    cases hahead

theorem inv_stepList {ok : Bool} (h : Inv volumeDir s) : Inv volumeDir (stepList s ok) := by
  unfold stepList
  split
  · apply inv_resting
    cases ok <;> rfl
  · exact h

theorem inv_stepRead {ok : Bool} (h : Inv volumeDir s)
    (ht : ∀ live, s.pass = .reading live →
      ∀ m ∈ s.mappings, getMountpoint volumeDir m.volume ∈ s.mounted → live m.volume = true) :
    Inv volumeDir (stepRead s ok) := by
  unfold stepRead
  split
  · rename_i live hs
    cases ok with
    | false => exact inv_resting rfl
    | true =>
      constructor
      · exact ht live hs
      · rintro _ _ _ ⟨⟩
  · exact h

theorem inv_stepLook (h : Inv volumeDir s) : Inv volumeDir (stepLook volumeDir s) := by
  unfold stepLook
  split
  · rename_i live rest hs
    have hclear := h.clear
    rw [hs] at hclear
    cases rest with
    | nil => exact inv_resting rfl
    | cons p rest =>
      rw [look]
      split
      · constructor
        · exact fun m hm hp => hclear m hm (List.mem_cons_of_mem _ hp)
        · rintro _ _ _ ⟨⟩
      · rename_i hskip
        constructor
        · exact hclear
        · rintro _ _ _ ⟨⟩
          exact Bool.eq_false_iff.mpr hskip
  · exact h

theorem inv_stepUmount {ok : Bool} (h : Inv volumeDir s) : Inv volumeDir (stepUmount s ok) := by
  unfold stepUmount
  split
  · rename_i live p rest hs
    have hclear := h.clear
    rw [hs] at hclear
    constructor
    · exact fun m hm hp => hclear m hm (List.mem_cons_of_mem _ hp)
    · rintro _ _ _ ⟨⟩
  · exact h

theorem inv_step (e : Event) (h : Inv volumeDir s) (ht : Timely volumeDir e s) :
    Inv volumeDir (step volumeDir e s) := by
  cases e with
  | beginAttach j m attached => exact h.less rfl fun _ hm => hm
  | record j => exact h.withJob fun job hj => inv_stepRecord h (ht job hj)
  | mount j ok => exact h.withJob fun _ _ => inv_stepMount h
  | drop j => exact h.withJob fun _ _ => inv_stepDrop h
  | beginDetach j m => exact h.less rfl fun _ hm => hm
  | count j => exact h.withJob fun _ _ => inv_stepCount h
  | unmount j ok reraise => exact h.withJob fun _ _ => inv_stepUnmount h
  | destroy j => exact h.withJob fun _ _ => inv_stepDestroy h
  | beginSweep => exact inv_resting rfl
  | list ok => exact inv_stepList h
  | read ok => exact inv_stepRead h ht
  | look => exact inv_stepLook h
  | umount ok => exact inv_stepUmount h

theorem inv_run
    (h : Reached Begun (step volumeDir) (fun e s => Possible e s ∧ Timely volumeDir e s) s) :
    Inv volumeDir s := by
  apply h.invariant
  · intro s hs
    constructor
    · intro m _ hm
      rw [hs.pass] at hm
      cases hm
    · intro live p rest hp
      rw [hs.pass] at hp
      cases hp
  · exact fun e s he hs => inv_step e hs he.2

/-- What the sweep is about to unmount is of a volume that has no mapping. -/
def Safe (volumeDir : NodePath) (s : State) : Prop :=
  ∀ live p rest, s.pass = .unmounting live p rest →
    ∀ m ∈ s.mappings, getMountpoint volumeDir m.volume ≠ p

/-- Where no mapping is made too late for a volume that the sweep comes to, it unmounts none that has
a mapping. -/
theorem unmounts_orphans_only
    (h : Reached Begun (step volumeDir) (fun e s => Possible e s ∧ Timely volumeDir e s) s) :
    Safe volumeDir s := by
  rintro live p rest hs m hm rfl
  have hinv := inv_run h
  have hclear := hinv.clear
  have hskip := hinv.orphan live _ rest hs
  rw [hs] at hclear
  have hlive : live m.volume = true := hclear m hm List.mem_cons_self
  simp [skips, getMountpoint, hlive] at hskip

/-! ### A volume is attached while the sweep unmounts another -/

def webVolume : Mapping := { id := 1, volume := "web" }

/-- The mapping of `old` is gone and its mount is not. -/
def leftBehind : State := { mounted := [["mnt", "old"]] }

theorem begun_leftBehind : Begun leftBehind := ⟨fun _ => rfl, rfl⟩

def sweepPast : List Event :=
  [.beginSweep, .list true, .read true, .beginAttach 1 webVolume false, .record 1, .mount 1 true,
    .look]

theorem sweepPast_timely : Allowed (step ["mnt"]) (fun e s => Possible e s ∧ Timely ["mnt"] e s)
    sweepPast leftBehind := by
  have hrecord : ∀ job, some (Job.mk webVolume false .recording) = some job →
      job.phase = .recording → getMountpoint ["mnt"] job.mapping.volume ∈ [["mnt", "old"]] →
        leftBehind.live job.mapping.volume = true := by
    rintro job ⟨⟩ - hp
    revert hp
    decide
  have hnone : ∀ m ∈ ([] : List Mapping), m.id ≠ webVolume.id := by simp
  refine ⟨⟨trivial, trivial⟩, ⟨trivial, trivial⟩, ⟨trivial, ?_⟩, ⟨⟨rfl, hnone, ?_⟩, trivial⟩,
    ⟨trivial, hrecord⟩, ⟨trivial, trivial⟩, ⟨trivial, trivial⟩, trivial⟩
  · rintro _ _ m ⟨⟩
  · rintro _ _ ⟨⟩

theorem safe_sweepPast : Safe ["mnt"] (steps (step ["mnt"]) sweepPast leftBehind) := by
  have hbegun : Reached Begun (step ["mnt"]) (fun e s => Possible e s ∧ Timely ["mnt"] e s)
      leftBehind := .init begun_leftBehind
  exact unmounts_orphans_only (hbegun.steps sweepPast_timely)

/-! ### A volume is attached between the two reads -/

/-- The sweep lists the mappings, a thread attaches a volume, and the sweep goes on. -/
def lateAttach : List Event :=
  [.beginSweep, .list true, .beginAttach 1 webVolume false, .record 1, .mount 1 true, .read true,
    .look]

theorem lateAttach_possible : Allowed (step ["mnt"]) Possible lateAttach {} := by
  have hnone : ∀ m ∈ ([] : List Mapping), m.id ≠ webVolume.id := by simp
  refine ⟨trivial, trivial, ⟨rfl, hnone, ?_⟩, trivial, trivial, trivial, trivial, trivial⟩
  rintro _ _ ⟨⟩

theorem lateAttach_pass : (steps (step ["mnt"]) lateAttach {}).pass =
    .unmounting (fun _ => false) ["mnt", "web"] [] := rfl

theorem lateAttach_mapped : webVolume ∈ (steps (step ["mnt"]) lateAttach {}).mappings := by decide

theorem mounts_not_safe : ¬ ∀ (volumeDir : NodePath) (s : State),
    Reached Begun (step volumeDir) Possible s → Safe volumeDir s := by
  intro h
  have hbegun : Reached Begun (step ["mnt"]) Possible {} := .init ⟨fun _ => rfl, rfl⟩
  have hsafe := h ["mnt"] _ (hbegun.steps lateAttach_possible)
  exact hsafe _ _ _ lateAttach_pass webVolume lateAttach_mapped rfl

end MountSweep

end Zun
