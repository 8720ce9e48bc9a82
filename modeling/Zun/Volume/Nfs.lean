import Zun.Volume.Manila

/-!
# Shared filesystems

The `NFS` driver of `zun/volume/driver.py`.  An attach grants the node access to the share and
mounts the export on the volume's own path.  A detach unmounts that path, removes it with whatever
is below it, and withdraws the access when no mount of the export is left on the node.

The removal follows the unmount whatever came of it.  The files of the share are safe exactly when
nothing is mounted on the path by then, and no share can be seen through it.
-/

namespace Zun

open Effect Prog

namespace Volume

open Mounts

/-! ## Volume mappings -/

/-- `volume_provider`. -/
inductive Provider where
  | local | emptydir | nfs | cinder
deriving DecidableEq

/-- `_options`: the fields of the volume's contents.  What is empty counts as missing. -/
structure Options where
  «export» : Option String := none
  /-- `shareID`. -/
  shareId : Option String := none
  /-- What `int` makes of `fsGroup`, and 0 when it makes nothing of it. -/
  fsGroup : Int := 0
deriving DecidableEq

/-- A volume mapping, with what the driver reads of its volume. -/
structure Mapping where
  /-- The uuid of the volume. -/
  volume : String
  provider : Provider := .nfs
  options : Options := {}
  autoRemove : Bool := true
deriving DecidableEq

variable (env : Env)

/-- `get_mountpoint`. -/
def getMountpoint (volume : String) : NodePath := env.volumeDir ++ [volume]

/-- The name of the lock that an attach and a detach hold. -/
def Options.lockName (o : Options) : String :=
  "knaas-share-" ++ (o.shareId.getD (o.export.getD "None"))

/-- `validate_volume_provider`. -/
def validateVolumeProvider (supported : List Provider) (v : Mapping)
    (body : Prog Node Failure Unit) : Prog Node Failure Unit :=
  if v.provider ∈ supported then body
  else raise (.volumeNotPrepared "The volume provider is not supported")

/-! ## Looking at the node -/

/-- `os.path.ismount`.  What cannot be looked at is no mount. -/
def ismount (p : NodePath) : Prog Node Failure Bool :=
  tryExcept (ask env (.lstat p) fun s => differs s.mounts p) fun _ => pure false

/-- A directory is there, or something is mounted on it. -/
def Node.has (s : Node) (p : NodePath) : Bool := s.dirs.contains p || isMountpoint s.mounts p

/-- `os.path.exists`. -/
def pathExists (p : NodePath) : Prog Node Failure Bool :=
  tryExcept (ask env (.stat p) fun s => s.has p) fun _ => pure false

/-- The host of an export. -/
def serverOf («export» : String) : String := («export».splitOn ":").headD ""

/-- `_local_ip_for`. -/
def localIpFor («export» : String) : Prog Node Failure String :=
  ask env (.localIp (serverOf «export»)) fun _ => env.localIp (serverOf «export»)

/-! ## Attach -/

def notDedicated : String :=
  "This node does not declare itself dedicated to capsules, so it will not mount a shared " ++
    "filesystem: the file server authorises the node, and anything else running here with the " ++
    "node's identity would be able to read these files. Set [volume] host_dedicated_to_capsules " ++
    "on a node that carries no other tenant workload."

/-- `_refuse_unless_node_is_ours`. -/
def refuseUnlessNodeIsOurs : Prog Node Failure Unit :=
  onlyIf (env.dedicated = false) (raise (.volumeNotPrepared notDedicated))

/-- `str.strip`. -/
def strip (s : String) : String :=
  String.ofList
    ((s.toList.dropWhile Char.isWhitespace).reverse.dropWhile Char.isWhitespace).reverse

/-- A rule that lets in more than one host. -/
def Rule.wide (r : Rule) : Bool :=
  r.accessType != "ip" ||
    ((strip r.accessTo).toList.contains '/' && !(strip r.accessTo).endsWith "/32")

/-- How a wide rule is named to the tenant. -/
def Rule.described (r : Rule) : String :=
  if r.accessType ≠ "ip" then r.accessType ++ ":" ++ strip r.accessTo else strip r.accessTo

/-- `_refuse_if_grants_are_wider_than_hosts`. -/
def refuseIfGrantsAreWiderThanHosts (share : String) : Prog Node Failure Unit := do
  let rules ← accessRules env share
  let wide := rules.filter (·.wide)
  onlyIf (wide ≠ []) (raise (.volumeNotPrepared ("Share " ++ share ++
    " is reachable from more than single hosts (" ++
    ", ".intercalate ((wide.map (·.described)).mergeSort (· ≤ ·)) ++
    "), which is wider than the access this platform grants and withdraws per node. Refusing " ++
    "to mount it rather than treat it as isolated.")))

/-- `_validate_mounted`: the oldest mount on the path is that of the export. -/
def validateMounted (p : NodePath) («export» : String) : Prog Node Failure Unit :=
  tryExcept
    (do let mounts ← ask env .readMounts (·.mounts)
        match mounts.reverse.find? (·.path = p) with
        | none => pure ()
        | some m => onlyIf (m.source ≠ «export») (raise (.zunException
            (toString p ++ " already carries a mount of " ++ m.source ++ ", not " ++ «export»))))
    fun e => if e = .osError then pure () else raise e

/-- `_apply_fs_group`. -/
def applyFsGroup (o : Options) (p : NodePath) : Prog Node Failure Unit :=
  onlyIf (0 < o.fsGroup) (swallow do
    call env (.chown p)
    call env (.chmod p))

/-- The mount of an attach.  What `mount` says stays in the log. -/
def mountExport («export» : String) (p : NodePath) : Prog Node Failure Unit :=
  tryExcept
    (call env (.mount «export» p) fun s =>
      { s with mounts := ⟨«export», env.exported «export», p⟩ :: s.mounts })
    fun e =>
      if e = .commandError then raise (.volumeNotPrepared "The NFS export could not be mounted")
      else raise e

/-- `ensure_tree`. -/
def ensureTree (p : NodePath) : Prog Node Failure Unit :=
  call env (.ensureTree p) fun s => { s with dirs := p :: s.dirs }

/-- The export is mounted on the path, unless something already is. -/
def mountOrValidate («export» : String) (p : NodePath) : Prog Node Failure Unit := do
  let mounted ← ismount env p
  if mounted then validateMounted env p «export» else mountExport env «export» p

/-- What `attach` does once the node is let in. -/
def attachPath (v : Mapping) («export» : String) : Prog Node Failure Unit := do
  ensureTree env (getMountpoint env v.volume)
  mountOrValidate env «export» (getMountpoint env v.volume)
  applyFsGroup env v.options (getMountpoint env v.volume)

/-- What `attach` does to be let in. -/
def grantAccess (v : Mapping) («export» : String) : Prog Node Failure Unit :=
  match v.options.shareId with
  | none => pure ()
  | some share => do
      refuseIfGrantsAreWiderThanHosts env share
      let ip ← localIpFor env «export»
      grant env share ip

/-- `NFS.attach`. -/
def nfsAttach (v : Mapping) : Prog Node Failure Unit :=
  validateVolumeProvider [.nfs] v <|
    match v.options.export with
    | none => raise (.volumeNotPrepared "an nfs volume names no export to mount")
    | some «export» => do
        refuseUnlessNodeIsOurs env
        grantAccess env v «export»
        attachPath env v «export»

/-! ## Detach -/

/-- `shutil.rmtree` with `ignore_errors`.  It follows the tree that the path shows, through every
mount on the way.  A directory that cannot be emptied stays, and so does a mountpoint. -/
def rmtree (p : NodePath) (s : Node) : Node :=
  { s with
    files := s.files.filter fun f => !(shown s.mounts p f && env.removes f)
    dirs :=
      if isMountpoint s.mounts p || s.files.any fun f => shown s.mounts p f && !env.removes f then
        s.dirs
      else s.dirs.filter (· ≠ p)
    removals := (p, s.mounts) :: s.removals }

/-- The unmount of a detach. -/
def detachPath (p : NodePath) : Prog Node Failure Unit := do
  let mounted ← ismount env p
  onlyIf mounted (swallow (call env (.umount p) fun s => { s with mounts := unmount s.mounts p }))
  let there ← pathExists env p
  onlyIf there (modify (rmtree env p))

/-- `_export_still_mounted`. -/
def exportStillMounted («export» : String) : Prog Node Failure Bool :=
  tryExcept (ask env .readMounts fun s => s.mounts.any (·.source = «export»)) fun e =>
    if e = .osError then pure true else raise e

/-- What `_detach_locked` does with the grant. -/
def withdraw (o : Options) : Prog Node Failure Unit :=
  match o.shareId, o.export with
  | some share, some «export» => do
      let still ← exportStillMounted env «export»
      onlyIf (still = false) do
        let ip ← localIpFor env «export»
        revoke env share ip
  | _, _ => pure ()

/-- `_detach_locked`. -/
def detachLocked (v : Mapping) : Prog Node Failure Unit := do
  detachPath env (getMountpoint env v.volume)
  withdraw env v.options

/-- `NFS.detach`. -/
def nfsDetach (v : Mapping) : Prog Node Failure Unit :=
  validateVolumeProvider [.nfs] v (detachLocked env v)

/-- `NFS.delete`. -/
def nfsDelete (v : Mapping) : Prog Node Failure Unit :=
  validateVolumeProvider [.nfs] v (detachLocked env v)

/-! ## What a detach leaves of the shares -/

variable {env} {s : Node} {v : Mapping} {p : NodePath}

theorem wp_ismount {Q : Result Failure Bool → Node → Prop}
    (h : Q (.ok ((env.refuse s.tick (.lstat p)).isNone && differs s.mounts p))
      (s.turn env (.lstat p))) : wp (ismount env p) Q s := by
  unfold ismount ask
  rw [wp_tryExcept, wp_bind]
  refine wp_call (fun hok => ?_) fun e hraise => ?_
  · rw [hok] at h
    exact h
  · rw [hraise] at h
    exact h

theorem wp_pathExists {Q : Result Failure Bool → Node → Prop}
    (h : Q (.ok ((env.refuse s.tick (.stat p)).isNone && s.has p)) (s.turn env (.stat p))) :
    wp (pathExists env p) Q s := by
  unfold pathExists ask
  rw [wp_tryExcept, wp_bind]
  refine wp_call (fun hok => ?_) fun e hraise => ?_
  · rw [hok] at h
    exact h
  · rw [hraise] at h
    exact h

variable (env)

/-- The node sees that something is mounted on the path. -/
def seesMount (p : NodePath) (s : Node) : Bool :=
  (env.refuse s.tick (.lstat p)).isNone && differs s.mounts p

/-- The mounts that are left when the unmount of a detach was answered. -/
def leftMounts (p : NodePath) (s : Node) : MountTable :=
  if seesMount env p s && (env.refuse (s.tick + 1) (.umount p)).isNone then unmount s.mounts p
  else s.mounts

/-- The node sees that the path is there after that. -/
def seesPath (p : NodePath) (s : Node) : Bool :=
  (env.refuse (s.tick + (if seesMount env p s then 2 else 1)) (.stat p)).isNone &&
    (s.dirs.contains p || isMountpoint (leftMounts env p s) p)

/-- A file of a share. -/
def OfShare (f : File) : Prop :=
  ∃ «export», (env.exported «export»).dev = f.dev ∧ (env.exported «export»).path <+: f.path

/-- No removal through the path can reach a share. -/
def Harmless (p : NodePath) (t : MountTable) : Prop :=
  isMountpoint t p = false ∧
    ∀ f, OfShare env f → shown t p f = true → env.removes f = false

/-- Whatever files there are, those of the shares stay, and no path is removed that something is
mounted on. -/
def KeepsShares (op : Prog Node Failure Unit) (s : Node) : Prop :=
  ∀ files, wp op (fun _ s' => (∀ f ∈ files, OfShare env f → f ∈ s'.files) ∧
    ∃ new, s'.removals = new ++ s.removals ∧ ∀ r ∈ new, isMountpoint r.2 r.1 = false)
    { s with files }

variable {env}

/-- The steps that leave the files alone and remove nothing. -/
def NoRemoval (s s' : Node) : Prop := s'.files = s.files ∧ s'.removals = s.removals

instance : IsPreorder Node NoRemoval where
  refl _ := ⟨rfl, rfl⟩
  trans _ _ _ h h' := ⟨h'.1.trans h.1, h'.2.trans h.2⟩

theorem within_call {R : Node → Node → Prop} {c : Call} {effect : Node → Node}
    (hturn : ∀ s, R s (s.turn env c)) (heffect : ∀ s, R s (effect (s.turn env c))) :
    Within R (call env c effect) :=
  within_of_wp fun s => wp_call (fun _ => heffect s) fun _ _ => hturn s

theorem noRemoval_ask {α : Type} (c : Call) (f : Node → α) : Within NoRemoval (ask env c f) :=
  (within_call (fun _ => ⟨rfl, rfl⟩) fun _ => ⟨rfl, rfl⟩).bind fun _ => within_read _

theorem noRemoval_revoke (share ip : String) : Within NoRemoval (revoke env share ip) := by
  refine (noRemoval_ask _ _).bind fun rules => within_forEach fun r _ => ?_
  refine Within.tryExcept (within_call (fun _ => ⟨rfl, rfl⟩) fun _ => ⟨rfl, rfl⟩) fun e => ?_
  exact within_ite (within_pure _) (within_raise _)

theorem noRemoval_withdraw (o : Options) : Within NoRemoval (withdraw env o) := by
  unfold withdraw
  split
  · refine Within.bind ?_ fun still => Within.onlyIf ?_
    · refine (noRemoval_ask _ _).tryExcept fun e => ?_
      exact within_ite (within_pure _) (within_raise _)
    · exact (noRemoval_ask _ _).bind fun ip => noRemoval_revoke _ _
  · exact within_pure _

/-- What the first half of a detach leaves. -/
theorem wp_detachPath {Q : Result Failure Unit → Node → Prop}
    (hremoved : seesPath env p s = true → ∀ log,
      Q (.ok ()) (rmtree env p { s with mounts := leftMounts env p s, log := log }))
    (hgone : seesPath env p s = false → ∀ log,
      Q (.ok ()) { s with mounts := leftMounts env p s, log := log }) :
    wp (detachPath env p) Q s := by
  have hlast (n : Nat) (s₁ : Node) (hs₁ : s₁ = { s with
        mounts := leftMounts env p s, log := s₁.log }) (htick : s₁.tick = s.tick + n)
      (hn : n = if seesMount env p s then 2 else 1) : wp (do
        let there ← pathExists env p
        onlyIf there (modify (rmtree env p))) Q s₁ := by
    rw [wp_bind]
    refine wp_pathExists ?_
    have hsees : ((env.refuse s₁.tick (.stat p)).isNone && s₁.has p) = seesPath env p s := by
      unfold seesPath Node.has
      rw [htick, hn, hs₁]
    rw [seqPost_ok, hsees]
    have hturn : s₁.turn env (.stat p) = { s with
        mounts := leftMounts env p s, log := (s₁.turn env (.stat p)).log } := by
      rw [hs₁]
      rfl
    rw [hturn]
    exact wp_onlyIf (fun h => hremoved h _) fun h => hgone (by simpa using h) _
  unfold detachPath
  rw [wp_bind]
  refine wp_ismount ?_
  rw [seqPost_ok, wp_bind]
  change wp (onlyIf (seesMount env p s = true) _) _ _
  refine wp_onlyIf (fun hsees => ?_) fun hsees => ?_
  · rw [wp_swallow]
    refine wp_call (fun hok => ?_) fun e hraise => ?_
    · rw [exceptPost_ok, seqPost_ok]
      refine hlast 2 _ ?_ rfl (by rw [if_pos hsees])
      have hnone : env.refuse (s.tick + 1) (.umount p) = none := hok
      simp [leftMounts, hsees, hnone, Node.turn]
    · rw [exceptPost_raise, wp_ret, seqPost_ok]
      refine hlast 2 _ ?_ rfl (by rw [if_pos hsees])
      have hsome : env.refuse (s.tick + 1) (.umount p) = some e := hraise
      simp [leftMounts, hsome, Node.turn]
  · rw [seqPost_ok]
    refine hlast 1 _ ?_ rfl (by rw [if_neg hsees])
    simp [leftMounts, hsees, Node.turn]

/-- The files and the removals after a detach are those of its first half. -/
theorem wp_detachLocked {Q : List File → List (NodePath × MountTable) → Prop}
    (hremoved : seesPath env (getMountpoint env v.volume) s = true → ∀ log,
      Q (rmtree env (getMountpoint env v.volume) { s with
          mounts := leftMounts env (getMountpoint env v.volume) s, log := log }).files
        ((getMountpoint env v.volume, leftMounts env (getMountpoint env v.volume) s) ::
          s.removals))
    (hgone : seesPath env (getMountpoint env v.volume) s = false → Q s.files s.removals) :
    wp (detachLocked env v) (fun _ s' => Q s'.files s'.removals) s := by
  have hrest (s₁ : Node) (h : Q s₁.files s₁.removals) :
      wp (withdraw env v.options) (fun _ s' => Q s'.files s'.removals) s₁ := by
    refine wp_mono ((noRemoval_withdraw v.options).wp s₁) ?_
    rintro r s' ⟨hfiles, hremovals⟩
    rw [hfiles, hremovals]
    exact h
  unfold detachLocked
  rw [wp_bind]
  refine wp_detachPath (fun h log => ?_) fun h log => ?_
  · exact hrest _ (hremoved h log)
  · exact hrest _ (hgone h)

theorem mem_rmtree {f : File} :
    f ∈ (rmtree env p s).files ↔ f ∈ s.files ∧ (shown s.mounts p f = true → env.removes f = false) := by
  cases h : shown s.mounts p f <;> simp [rmtree, h]

theorem keepsShares_detachLocked :
    KeepsShares env (detachLocked env v) s ↔
      (seesPath env (getMountpoint env v.volume) s = true →
        Harmless env (getMountpoint env v.volume)
          (leftMounts env (getMountpoint env v.volume) s)) := by
  constructor
  · intro h hsees
    have hran (files : List File) : wp (detachLocked env v) (fun _ s' =>
        s'.removals = (getMountpoint env v.volume,
          leftMounts env (getMountpoint env v.volume) s) :: s.removals ∧
        ∀ f ∈ s'.files, shown (leftMounts env (getMountpoint env v.volume) s)
          (getMountpoint env v.volume) f = true → env.removes f = false) { s with files } := by
      refine wp_detachLocked (Q := fun files' removals => removals = (getMountpoint env v.volume,
          leftMounts env (getMountpoint env v.volume) s) :: s.removals ∧
        ∀ f ∈ files', shown (leftMounts env (getMountpoint env v.volume) s)
          (getMountpoint env v.volume) f = true → env.removes f = false) (fun _ log => ?_) fun hgone => ?_
      · exact ⟨rfl, fun f hf => (mem_rmtree.mp hf).2⟩
      · exact absurd (hgone.symm.trans hsees) (by simp)
    constructor
    · obtain ⟨-, new, hnew, hmounts⟩ := h []
      have hone : new = [(getMountpoint env v.volume,
          leftMounts env (getMountpoint env v.volume) s)] := by
        rw [(hran []).1] at hnew
        exact (List.append_cancel_right hnew).symm
      exact hmounts _ (hone ▸ List.mem_singleton_self _)
    · -- The share may hold just the file that can be seen.
      intro f hshare
      exact (hran [f]).2 f ((h [f]).1 f (List.mem_singleton_self f) hshare)
  · intro h files
    refine wp_detachLocked (Q := fun files' removals => (∀ f ∈ files, OfShare env f → f ∈ files') ∧
      ∃ new, removals = new ++ s.removals ∧ ∀ r ∈ new, isMountpoint r.2 r.1 = false)
      (fun hsees log => ?_) fun _ => ?_
    · obtain ⟨hmount, hshown⟩ := h hsees
      refine ⟨fun f hf hshare => ?_, [(_, _)], rfl, ?_⟩
      · exact mem_rmtree.mpr ⟨hf, hshown f hshare⟩
      · intro r hr
        rw [List.mem_singleton.mp hr]
        exact hmount
    · exact ⟨fun f hf _ => hf, [], rfl, by simp⟩

/-- A detach and a delete of a shared filesystem keep the files of every share, and remove no path
that something is mounted on, exactly when the path is not seen any more after the unmount, or
nothing is mounted on it and no share is seen through it. -/
theorem keepsShares_iff (env : Env) (v : Mapping) (s : Node) :
    (KeepsShares env (nfsDetach env v) s ∧ KeepsShares env (nfsDelete env v) s) ↔
      (v.provider = .nfs → seesPath env (getMountpoint env v.volume) s = true →
        Harmless env (getMountpoint env v.volume)
          (leftMounts env (getMountpoint env v.volume) s)) := by
  by_cases hv : v.provider = .nfs
  · have hbody : nfsDetach env v = detachLocked env v := by
      simp [nfsDetach, validateVolumeProvider, hv]
    have hsame : nfsDelete env v = nfsDetach env v := rfl
    rw [hsame, and_self, hbody, keepsShares_detachLocked]
    exact ⟨fun h _ => h, fun h => h hv⟩
  · have hraise : KeepsShares env (nfsDetach env v) s := by
      intro files
      have hbody : nfsDetach env v = raise (.volumeNotPrepared "The volume provider is not supported") := by
        simp [nfsDetach, validateVolumeProvider, hv]
      rw [hbody]
      exact ⟨fun f hf _ => hf, [], rfl, by simp⟩
    exact ⟨fun _ h => absurd h hv, fun _ => ⟨hraise, hraise⟩⟩

/-- A node that has an export mounted on the path of a volume. -/
def sharedNode : Node where
  mounts := [⟨"10.0.0.9:/share", ⟨1, []⟩, ["var", "lib", "zun", "mnt", "vol"]⟩, ⟨"/dev/sda", ⟨0, []⟩, []⟩]
  dirs := [["var", "lib", "zun", "mnt", "vol"]]
  files := [⟨1, ["data"]⟩]

def sharedVolume : Mapping where
  volume := "vol"
  options := { «export» := some "10.0.0.9:/share", shareId := some "s1" }

/-- An unmount that finds the mount busy. -/
def busyUmount : Env where
  refuse _ c := if c = .umount ["var", "lib", "zun", "mnt", "vol"] then some .commandError else none

/-- The unmount fails, and the tenant's file is gone with the path. -/
theorem busyUmount_loses_share :
    ⟨1, ["data"]⟩ ∈ sharedNode.files ∧ OfShare busyUmount ⟨1, ["data"]⟩ ∧
    (nfsDetach busyUmount sharedVolume sharedNode).2.files = [] ∧
    ¬ KeepsShares busyUmount (nfsDetach busyUmount sharedVolume) sharedNode := by
  have hfiles : (nfsDetach busyUmount sharedVolume sharedNode).2.files = [] := by decide +kernel
  have hshare : OfShare busyUmount ⟨1, ["data"]⟩ := ⟨"", rfl, List.nil_prefix⟩
  refine ⟨by decide, hshare, hfiles, fun h => ?_⟩
  have hkept := (h sharedNode.files).1 ⟨1, ["data"]⟩ (by decide) hshare
  rw [show (nfsDetach busyUmount sharedVolume { sharedNode with files := sharedNode.files }).2.files
    = [] from hfiles] at hkept
  cases hkept

end Volume

end Zun
