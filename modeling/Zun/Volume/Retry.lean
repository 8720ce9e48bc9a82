import Zun.Effect.Completes
import Zun.Volume.Cinder
import Zun.Volume.Nfs

/-!
# Detaching a volume again

`detach` of the four volume drivers and `_detach_volume` of the manager.  A detach takes several
steps, and one that raises leaves the mapping on record, so the next delete detaches again from
where the first one stopped.  The directory of a volume goes before Cinder is told.
-/

namespace Zun

open Effect Prog

namespace Volume

open Mounts

/-! ## A node with its volumes -/

/-- A volume mapping, with what each driver reads of it. -/
structure VolMap where
  volume : Mapping
  /-- `medium` of an emptyDir. -/
  medium : String := ""
  /-- What is read of it when the volume is Cinder's. -/
  block : CinderVolume.Mapping

/-- The node, the block devices, and the mappings of one volume. -/
structure Machine where
  node : Node
  blocks : CinderVolume.Node
  /-- How many other mappings the volume has. -/
  others : Nat := 0
  /-- The mapping is on record. -/
  onRecord : Bool := true

inductive DetachFailure where
  | node (e : Failure)
  | block (e : CinderVolume.Failure)
  /-- `FileNotFoundError` of `shutil.rmtree`. -/
  | fileNotFound
  /-- `FileNotFound`, when the mount table cannot be read. -/
  | mountsNotRead
  | unmountException
  /-- `jsonutils.loads` of no `connection_info`. -/
  | typeError
deriving DecidableEq

abbrev Detach := Prog Machine DetachFailure

def onNode {α : Type} (p : Prog Node Failure α) : Detach α :=
  embed (·.node) (fun t s => { t with node := s }) .node p

def onBlocks {α : Type} (p : Prog CinderVolume.Node CinderVolume.Failure α) : Detach α :=
  embed (·.blocks) (fun t s => { t with blocks := s }) .block p

section

variable (env : Env) (cinder : CinderVolume.Env)

/-- `shutil.rmtree`.  What is not there is not found, and what cannot be emptied stays. -/
def removeTree (p : NodePath) : Detach Unit := do
  onNode (call env (.lstat p))
  let there ← read fun t => t.node.has p
  onlyIf (there = false) (raise .fileNotFound)
  modify fun t => { t with node := rmtree env p t.node }
  let left ← read fun t => t.node.has p
  onlyIf (left = true) (raise (.node .osError))

/-- `_remove_local_file`. -/
def removeLocalFile (v : VolMap) : Detach Unit :=
  tryExcept (removeTree env (getMountpoint env v.volume.volume)) fun e =>
    if e = .fileNotFound then pure () else raise e

def unmountPath (p : NodePath) : Prog Node Failure Unit :=
  call env (.umount p) fun s => { s with mounts := unmount s.mounts p }

/-- `EmptyDir._detach`. -/
def emptyDirDetach (v : VolMap) : Detach Unit := do
  let p := getMountpoint env v.volume.volume
  onlyIf (v.medium = "Memory") (swallow (onNode (unmountPath env p)))
  let there ← onNode (pathExists env p)
  onlyIf (there = true) (modify fun t => { t with node := rmtree env p t.node })

/-- `check_already_mounted`. -/
def checkAlreadyMounted (p : NodePath) : Detach Bool := do
  tryExcept (onNode (call env .readMounts)) fun e =>
    if e = .node .commandError then raise .mountsNotRead else raise e
  read fun t => t.node.mounts.any (·.path = p)

/-- `do_unmount`. -/
def doUnmount (p : NodePath) : Detach Unit := do
  let mounted ← checkAlreadyMounted env p
  onlyIf (mounted = true) (tryExcept (onNode (unmountPath env p)) fun e =>
    if e = .node .commandError then raise .unmountException else raise e)

/-- `_unmount_device`. -/
def unmountDevice (v : VolMap) : Detach Unit := do
  let p := getMountpoint env v.volume.volume
  doUnmount env p
  removeTree env p

/-- `CinderWorkflow.detach_volume`, which needs the `connection_info` after its first call. -/
def workflowDetach (v : VolMap) : Detach Unit :=
  if v.block.connected then onBlocks (CinderVolume.detachVolume cinder v.block)
  else do
    onBlocks (tryExcept (CinderVolume.call cinder .beginDetaching) fun e =>
      if e = .refused .badRequest then raise .invalid else raise e)
    raise .typeError

/-- `Cinder.detach`. -/
def cinderDetach (v : VolMap) : Detach Unit := do
  unmountDevice env v
  workflowDetach cinder v

/-- `detach_volume` of the container driver: the detach of the volume's provider. -/
def driverDetach (v : VolMap) : Detach Unit :=
  match v.volume.provider with
  | .local => removeLocalFile env v
  | .emptydir => emptyDirDetach env v
  | .nfs => onNode (nfsDetach env v.volume)
  | .cinder => cinderDetach env cinder v

/-- `_detach_volume` of the manager.  Only the last mapping of a volume detaches it. -/
def managerDetach (v : VolMap) (reraise : Bool) : Detach Unit := do
  let count ← read fun t => t.others + 1
  onlyIf (count = 1) (swallowIf (!reraise) (driverDetach env cinder v))
  modify fun t => { t with onRecord := false }

end

/-! ## Calls that succeed -/

section

variable {env : Env} {cinder : CinderVolume.Env}

theorem completes_call (h : ∀ n c, env.refuse n c = none) (c : Call) (effect : Node → Node) :
    Completes (call env c effect) := by
  intro s
  refine ⟨(), ?_⟩
  unfold call
  rw [h]

theorem completes_ask {α : Type} (h : ∀ n c, env.refuse n c = none) (c : Call) (f : Node → α) :
    Completes (ask env c f) := (completes_call h c id).bind fun _ => completes_read f

theorem completes_block (h : ∀ c, cinder.refuse c = none) (c : CinderVolume.Call)
    (effect : CinderVolume.Node → CinderVolume.Node) :
    Completes (CinderVolume.call cinder c effect) := by
  intro s
  refine ⟨(), ?_⟩
  unfold CinderVolume.call
  rw [h]
  rfl

theorem completes_pathExists (h : ∀ n c, env.refuse n c = none) (p : NodePath) :
    Completes (pathExists env p) := (completes_ask h _ _).tryExcept _

theorem completes_withdraw (h : ∀ n c, env.refuse n c = none) (o : Options) :
    Completes (withdraw env o) := by
  unfold withdraw
  split
  · refine ((completes_ask h _ _).tryExcept _).bind fun still => Completes.onlyIf ?_ _
    refine (completes_ask h _ _).bind fun ip => (completes_ask h _ _).bind fun rules => ?_
    exact completes_forEach (fun r => (completes_call h _ _).tryExcept _) _
  · exact completes_pure ()

theorem completes_nfsDetach (h : ∀ n c, env.refuse n c = none) {v : Mapping}
    (hv : v.provider = .nfs) : Completes (nfsDetach env v) := by
  unfold nfsDetach validateVolumeProvider
  rw [if_pos (by simp [hv])]
  refine Completes.bind ?_ fun _ => completes_withdraw h v.options
  refine ((completes_ask h _ _).tryExcept _).bind fun mounted => Completes.bind ?_ fun _ => ?_
  · exact (completes_call h _ _).swallow.onlyIf _
  · exact (completes_pathExists h _).bind fun there => (completes_modify _).onlyIf _

theorem completes_emptyDirDetach (h : ∀ n c, env.refuse n c = none) (v : VolMap) :
    Completes (emptyDirDetach env v) := by
  refine Completes.bind ?_ fun _ => Completes.bind ?_ fun there => (completes_modify _).onlyIf _
  · exact ((completes_call h _ _).embed _ _ _).swallow.onlyIf _
  · exact (completes_pathExists h _).embed _ _ _

theorem completes_detachVolume (h : ∀ c, cinder.refuse c = none) (v : CinderVolume.Mapping) :
    Completes (CinderVolume.detachVolume cinder v) := by
  refine ((completes_block h _ _).tryExcept _).bind fun _ => Completes.bind ?_ fun _ =>
    completes_block h _ _
  exact (((completes_block h _ _).reraising _).bind fun _ => completes_block h _ _).onlyIf _

end

/-! ## When a detach can be finished -/

section

variable {env : Env} {cinder : CinderVolume.Env} {v : VolMap} {t : Machine}

/-- Every call of a detach succeeds: none is refused, and the kernel lets the directory go. -/
structure Succeeds (env : Env) (cinder : CinderVolume.Env) (v : VolMap) (t : Machine) : Prop where
  node : ∀ n c, env.refuse n c = none
  blocks : ∀ c, cinder.refuse c = none
  removes : ∀ f, env.removes f = true
  /-- A directory that something is mounted on does not go. -/
  unmounted : (v.volume.provider = .local →
      isMountpoint t.node.mounts (getMountpoint env v.volume.volume) = false) ∧
    (v.volume.provider = .cinder →
      isMountpoint (unmount t.node.mounts (getMountpoint env v.volume.volume))
        (getMountpoint env v.volume.volume) = false)

theorem wp_onNode_call (h : ∀ n c, env.refuse n c = none) {c : Call} {effect : Node → Node}
    {Q : Result DetachFailure Unit → Machine → Prop}
    (hQ : Q (.ok ()) { t with node := effect (t.node.turn env c) }) :
    wp (onNode (call env c effect)) Q t := by
  unfold wp onNode embed call
  rw [h]
  exact hQ

/-- A removal when every call succeeds. -/
theorem wp_removeTree (h : ∀ n c, env.refuse n c = none) (hremoves : ∀ f, env.removes f = true)
    {p : NodePath} (hmount : isMountpoint t.node.mounts p = false)
    {Q : Result DetachFailure Unit → Machine → Prop}
    (hthere : p ∈ t.node.dirs → ∀ t', Q (.ok ()) t')
    (hgone : p ∉ t.node.dirs → ∀ t', Q (.raise .fileNotFound) t') :
    wp (removeTree env p) Q t := by
  unfold removeTree
  rw [wp_bind]
  refine wp_onNode_call h ?_
  rw [seqPost_ok, wp_bind, wp_read, seqPost_ok, wp_bind]
  have hhas : (Node.turn env (.lstat p) t.node).has p = t.node.dirs.contains p := by
    simp [Node.has, Node.turn, hmount]
  refine wp_onlyIf (fun hnone => ?_) fun hsome => ?_
  · refine hgone ?_ _
    simpa [hhas] using hnone
  · have hp : p ∈ t.node.dirs := by simpa [hhas] using hsome
    have hafter : (rmtree env p (Node.turn env (.lstat p) t.node)).has p = false := by
      simp [Node.has, rmtree, Node.turn, hmount, hremoves]
    rw [seqPost_ok, wp_bind, wp_modify, seqPost_ok, wp_bind, wp_read, seqPost_ok]
    refine wp_onlyIf (fun hleft => ?_) fun _ => hthere hp _
    exact absurd hleft (by simp [hafter])

theorem wp_of_completes {p : Detach Unit} (hp : Completes p) {Q : Result DetachFailure Unit → Machine → Prop}
    (hQ : ∀ t', Q (.ok ()) t') : wp p Q t := by
  obtain ⟨a, ha⟩ := hp t
  unfold wp
  rw [ha]
  exact hQ _

/-- An unmount when every call succeeds. -/
theorem wp_doUnmount (h : ∀ n c, env.refuse n c = none) {p : NodePath}
    (hmount : isMountpoint (unmount t.node.mounts p) p = false)
    {Q : Result DetachFailure Unit → Machine → Prop}
    (hQ : ∀ t', t'.node.dirs = t.node.dirs → isMountpoint t'.node.mounts p = false → Q (.ok ()) t') :
    wp (doUnmount env p) Q t := by
  unfold doUnmount checkAlreadyMounted
  rw [wp_bind, wp_bind, wp_tryExcept]
  refine wp_onNode_call h ?_
  rw [exceptPost_ok, seqPost_ok, wp_read, seqPost_ok]
  refine wp_onlyIf (fun hmounted => ?_) fun hnot => ?_
  · rw [wp_tryExcept]
    refine wp_onNode_call h ?_
    exact hQ _ rfl hmount
  · refine hQ _ rfl ?_
    rw [← Bool.not_eq_true, isMountpoint_iff]
    rintro ⟨m, hm, hpath⟩
    exact hnot (List.any_eq_true.mpr ⟨m, (covering_path hm).1, by simpa using hpath⟩)

/-- What a detach of a volume raises when every call succeeds. -/
theorem driverDetach_ok_iff (hs : Succeeds env cinder v t) :
    (driverDetach env cinder v t).1 = .ok () ↔ v.volume.provider ≠ .cinder ∨
      getMountpoint env v.volume.volume ∈ t.node.dirs ∧ v.block.connected = true := by
  obtain ⟨hnode, hblocks, hremoves, hlocal, hcinder⟩ := hs
  cases hprovider : v.volume.provider with
  | «local» =>
      have hok : wp (removeLocalFile env v) (fun r _ => r = .ok ()) t := by
        rw [removeLocalFile, wp_tryExcept]
        exact wp_removeTree hnode hremoves (hlocal hprovider) (fun _ _ => rfl) fun _ _ => rfl
      refine iff_of_true ?_ (.inl (by decide))
      simp only [driverDetach, hprovider]
      exact hok
  | emptydir =>
      have hok := wp_of_completes (t := t) (completes_emptyDirDetach hnode v)
        (Q := fun r _ => r = .ok ()) fun _ => rfl
      refine iff_of_true ?_ (.inl (by decide))
      simp only [driverDetach, hprovider]
      exact hok
  | nfs =>
      have hok := wp_of_completes (t := t)
        ((completes_nfsDetach hnode hprovider).embed (·.node) (fun t s => { t with node := s }) .node)
        (Q := fun r _ => r = .ok ()) fun _ => rfl
      refine iff_of_true ?_ (.inl (by decide))
      simp only [driverDetach, hprovider]
      exact hok
  | cinder =>
      simp only [driverDetach, hprovider, ne_eq, not_true, false_or]
      have hgoes : wp (cinderDetach env cinder v)
          (fun r _ => r = .ok () ↔ getMountpoint env v.volume.volume ∈ t.node.dirs ∧
            v.block.connected = true) t := by
        rw [cinderDetach, wp_bind, unmountDevice, wp_bind]
        refine wp_doUnmount hnode (hcinder hprovider) fun t' hdirs hmounts => ?_
        rw [seqPost_ok]
        refine wp_removeTree hnode hremoves hmounts (fun hthere t'' => ?_) fun hgone t'' => ?_
        · rw [hdirs] at hthere
          rw [seqPost_ok, workflowDetach]
          cases hconnected : v.block.connected with
          | true =>
              rw [if_pos rfl]
              refine wp_of_completes ((completes_detachVolume hblocks v.block).embed _ _ _) fun _ => ?_
              simp [hthere]
          | false =>
              rw [if_neg (by decide), wp_bind]
              refine wp_of_completes
                (((completes_block hblocks _ _).tryExcept _).embed _ _ _) fun _ => ?_
              simp
        · rw [hdirs] at hgone
          simp [hgone]
      exact hgoes

/-- A detach of a volume on record is finished exactly when the volume has another mapping, is none
of Cinder's, or still has its directory and its connection. -/
theorem managerDetach_ok_iff (env : Env) (cinder : CinderVolume.Env) (v : VolMap) (t : Machine)
    (hs : Succeeds env cinder v t) :
    ((managerDetach env cinder v true t).1 = .ok () ∧
        (managerDetach env cinder v true t).2.onRecord = false) ↔
      t.others ≠ 0 ∨ v.volume.provider ≠ .cinder ∨
        getMountpoint env v.volume.volume ∈ t.node.dirs ∧ v.block.connected = true := by
  have hdriver := driverDetach_ok_iff hs
  have hrun : wp (managerDetach env cinder v true)
      (fun r t' => (r = .ok () ∧ t'.onRecord = false) ↔
        t.others ≠ 0 ∨ (driverDetach env cinder v t).1 = .ok ()) t := by
    rw [managerDetach, wp_bind, wp_read, seqPost_ok, wp_bind]
    refine wp_onlyIf (fun hlast => ?_) fun hothers => ?_
    · have hzero : t.others = 0 := by omega
      show seqPost _ _ (driverDetach env cinder v t).1 (driverDetach env cinder v t).2
      cases hresult : (driverDetach env cinder v t).1 with
      | ok a => simp
      | raise e => simp [hzero]
      | halt => simp [hzero]
    · have hne : t.others ≠ 0 := by omega
      simp [hne]
  rw [← hdriver]
  exact hrun

/-- A volume of Cinder that is mounted on a node. -/
def mountedVolume : VolMap :=
  { volume := { volume := "vol", provider := .cinder },
    block := { mountpoint := "/var/lib/zun/mnt/vol", connected := true } }

def mountedMachine : Machine :=
  { node :=
      { mounts := [⟨"/dev/sdb", ⟨8, []⟩, ["var", "lib", "zun", "mnt", "vol"]⟩],
        dirs := [["var", "lib", "zun", "mnt", "vol"]] },
    blocks := { held := fun _ => some "ext4" } }

/-- Cinder does not answer the first call of a detach. -/
def cinderAway : CinderVolume.Env :=
  { refuse := fun c => if c = .beginDetaching then some .other else none }

theorem succeeds_mounted : Succeeds {} {} mountedVolume mountedMachine where
  node _ _ := rfl
  blocks _ := rfl
  removes _ := rfl
  unmounted := ⟨nofun, fun _ => by decide +kernel⟩

theorem managerDetach_mounted :
    ((managerDetach {} {} mountedVolume true mountedMachine).1 = .ok () ∧
        (managerDetach {} {} mountedVolume true mountedMachine).2.onRecord = false) ↔
      mountedMachine.others ≠ 0 ∨ mountedVolume.volume.provider ≠ .cinder ∨
        getMountpoint {} mountedVolume.volume.volume ∈ mountedMachine.node.dirs ∧
          mountedVolume.block.connected = true :=
  managerDetach_ok_iff {} {} mountedVolume mountedMachine succeeds_mounted

/-- A detach that Cinder did not answer has removed the directory, and the next one does not find
it, though every call of it succeeds. -/
theorem detach_again_fails :
    ∃ t, managerDetach {} cinderAway mountedVolume true mountedMachine =
        (.raise (.block (.refused .other)), t) ∧ t.onRecord = true ∧ Succeeds {} {} mountedVolume t ∧
      (managerDetach {} {} mountedVolume true t).1 = .raise .fileNotFound := by
  refine ⟨_, Prod.ext (by decide +kernel) rfl, by decide +kernel, ⟨fun _ _ => rfl, fun _ => rfl,
    fun _ => rfl, nofun, fun _ => by decide +kernel⟩, by decide +kernel⟩

end

end Volume

end Zun
