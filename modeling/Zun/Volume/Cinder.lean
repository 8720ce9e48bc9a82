import Mathlib.Logic.Function.Basic
import Zun.Effect.Prog

/-!
# Attaching a Cinder volume

`Cinder.attach` of `zun/volume/driver.py` with the parts of `zun/volume/cinder_workflow.py` and
`zun/common/mount.py` that it runs.  The device of a volume is connected to the node and mounted.
A mount that fails is taken for that of a blank device: a filesystem is made on it, and it is
mounted again.

Each call of one attach is made once, so the environment answers by call.  The two mounts are told
apart.
-/

namespace Zun

open Effect Prog

namespace CinderVolume

/-- How a call fails. -/
inductive Refusal where
  | commandError
  /-- `VolumeDeviceNotFound` of the connector. -/
  | deviceNotFound
  /-- `BadRequest` of Cinder. -/
  | badRequest
  | other
deriving DecidableEq

/-- What an attach raises. -/
inductive Failure where
  | refused (r : Refusal)
  | mountException
  | makeFileSystemException
  | fileNotFound
  | invalid
deriving DecidableEq

/-- A call that leaves the process. -/
inductive Call where
  | reserve | unreserve | initializeConnection | connect | disconnect | terminateConnection
  | saveMapping | attach | beginDetaching | rollDetaching | detach
  | ensureTree | readMounts
  /-- `mount`, the first time or again. -/
  | mount (again : Bool)
  | mkfs
  | chownTree | chmodTree | chmod
deriving DecidableEq

/-- The environment of one attach. -/
structure Env where
  refuse : Call → Option Refusal := fun _ => none
  /-- The path of the device that the connector gives. -/
  devicePath : String := "/dev/sdb"
  /-- `CONF.volume.fstype`. -/
  fstype : String := "ext4"

/-- A mapping of a Cinder volume. -/
structure Mapping where
  /-- Where the volume is mounted. -/
  mountpoint : String
  /-- `connection_info` is there: the volume was attached before. -/
  connected : Bool := false
  /-- The `fsGroup` of the volume's contents, and 0 when there is none. -/
  fsGroup : Int := 0
  /-- How many mappings of the volume there are on this host. -/
  onThisHost : Nat := 1
deriving DecidableEq

/-- The node. -/
structure Node where
  /-- The devices that are mounted, with their mountpoints. -/
  mounts : List (String × String) := []
  /-- The filesystem on a device; `none` when it is blank. -/
  held : String → Option String
  /-- Every `mkfs` with the device and what it held, newest first. -/
  formats : List (String × Option String) := []

variable (env : Env)

/-- Make a call. -/
def call (c : Call) (effect : Node → Node := id) : Prog Node Failure Unit :=
  match env.refuse c with
  | none => modify effect
  | some e => raise (.refused e)

/-! ## `mount.py` -/

/-- `Mounter.read_mounts`. -/
def readMounts : Prog Node Failure (List (String × String)) := do
  tryExcept (call env .readMounts) fun e =>
    if e = .refused .commandError then raise .fileNotFound else raise e
  read (·.mounts)

/-- `check_already_mounted`. -/
def checkAlreadyMounted (mountpoint : String) : Prog Node Failure Bool := do
  let mounts ← readMounts env
  pure (mounts.any (·.2 = mountpoint))

/-- `Mounter.mount`.  Only a filesystem of the type that is asked for is mounted. -/
def mount (devpath mountpoint : String) (again : Bool) : Prog Node Failure Unit :=
  tryExcept
    (do let held ← read (·.held devpath)
        onlyIf (env.refuse (.mount again) = none ∧ held ≠ some env.fstype) (raise (.refused .commandError))
        call env (.mount again) fun s => { s with mounts := (devpath, mountpoint) :: s.mounts })
    fun e => if e = .refused .commandError then raise .mountException else raise e

/-- `Mounter.make_filesystem`. -/
def makeFilesystem (devpath : String) : Prog Node Failure Unit := do
  modify fun s => { s with formats := (devpath, s.held devpath) :: s.formats }
  tryExcept
    (call env .mkfs fun s => { s with held := Function.update s.held devpath (some env.fstype) })
    fun e => if e = .refused .commandError then raise .makeFileSystemException else raise e

/-- `do_mount`. -/
def doMount (devpath mountpoint : String) : Prog Node Failure Unit := do
  let already ← checkAlreadyMounted env mountpoint
  onlyIf (already = false) (tryExcept (mount env devpath mountpoint false) fun e =>
    if e = .mountException then do
      makeFilesystem env devpath
      mount env devpath mountpoint true
    else raise e)

/-! ## `cinder_workflow.py` -/

/-- `_do_attach_volume`. -/
def doAttachVolume : Prog Node Failure Unit := do
  call env .reserve
  call env .initializeConnection
  reraising (call env .connect) fun _ => call env .terminateConnection
  call env .saveMapping
  reraising (call env .attach) fun _ => do
    tryExcept (call env .disconnect) fun e => if e = .refused .deviceNotFound then pure () else raise e
    call env .terminateConnection
    call env .detach

/-- `CinderWorkflow.attach_volume`. -/
def attachVolume : Prog Node Failure Unit :=
  reraising (doAttachVolume env) fun _ => call env .unreserve

/-- `CinderWorkflow.detach_volume`. -/
def detachVolume (v : Mapping) : Prog Node Failure Unit := do
  tryExcept (call env .beginDetaching) fun e =>
    if e = .refused .badRequest then raise .invalid else raise e
  -- `_volume_connection_keep`
  onlyIf (v.onThisHost = 1) do
    reraising (call env .disconnect) fun _ => call env .rollDetaching
    call env .terminateConnection
  call env .detach

/-! ## `Cinder.attach` -/

/-- `_apply_fs_group`. -/
def applyFsGroup (v : Mapping) : Prog Node Failure Unit :=
  onlyIf (0 < v.fsGroup) do
    call env .chownTree
    call env .chmodTree
    call env .chmod

/-- `_mount_device`. -/
def mountDevice (v : Mapping) (devpath : String) : Prog Node Failure Unit := do
  call env .ensureTree
  doMount env devpath v.mountpoint
  applyFsGroup env v

/-- How an attach comes by the device. -/
def connectDevice (v : Mapping) : Prog Node Failure Unit :=
  if v.connected then do
    call env .connect
    call env .saveMapping
  else attachVolume env

/-- `Cinder.attach`. -/
def cinderAttach (v : Mapping) : Prog Node Failure Unit := do
  connectDevice env v
  reraising (mountDevice env v env.devicePath) fun _ => swallow (detachVolume env v)

/-! ## What is formatted -/

variable {env} {s : Node} {v : Mapping}

/-- The programs that format nothing, mount nothing and leave the devices alone. -/
def Untouched (s s' : Node) : Prop := s' = s

instance : IsPreorder Node Untouched where
  refl _ := rfl
  trans _ _ _ h h' := h'.trans h

theorem untouched_call (c : Call) : Within Untouched (call env c) := by
  unfold call
  split
  · exact fun _ => rfl
  · exact within_raise _

theorem untouched_detachVolume (v : Mapping) : Within Untouched (detachVolume env v) := by
  refine Within.bind ?_ fun _ => Within.bind (Within.onlyIf ?_) fun _ => untouched_call _
  · exact (untouched_call _).tryExcept fun e => within_ite (within_raise _) (within_raise _)
  · refine ((untouched_call _).reraising fun _ => untouched_call _).bind fun _ => untouched_call _

theorem untouched_attachVolume : Within Untouched (attachVolume env) := by
  refine Within.reraising ?_ fun _ => untouched_call _
  refine (untouched_call _).bind fun _ => (untouched_call _).bind fun _ => ?_
  refine ((untouched_call _).reraising fun _ => untouched_call _).bind fun _ => ?_
  refine (untouched_call _).bind fun _ => (untouched_call _).reraising fun _ => ?_
  refine Within.bind ?_ fun _ => (untouched_call _).bind fun _ => untouched_call _
  exact (untouched_call _).tolerate

theorem untouched_connectDevice (v : Mapping) : Within Untouched (connectDevice env v) :=
  within_ite ((untouched_call _).bind fun _ => untouched_call _) untouched_attachVolume

theorem untouched_applyFsGroup (v : Mapping) : Within Untouched (applyFsGroup env v) :=
  Within.onlyIf ((untouched_call _).bind fun _ => (untouched_call _).bind fun _ => untouched_call _)

variable (env)

/-- The attach gets the device. -/
def getsDevice (v : Mapping) : Bool :=
  if v.connected then
    (env.refuse .connect).isNone && (env.refuse .saveMapping).isNone
  else
    (env.refuse .reserve).isNone && (env.refuse .initializeConnection).isNone &&
      (env.refuse .connect).isNone && (env.refuse .saveMapping).isNone &&
      (env.refuse .attach).isNone

/-- The attach comes to mount the device. -/
def triesMount (v : Mapping) (s : Node) : Bool :=
  getsDevice env v && (env.refuse .ensureTree).isNone && (env.refuse .readMounts).isNone &&
    !(s.mounts.any (·.2 = v.mountpoint))

/-- The mount of a device fails as a command. -/
def mountFails (dev : String) (again : Bool) (s : Node) : Bool :=
  env.refuse (.mount again) == some .commandError ||
    ((env.refuse (.mount again)).isNone && s.held dev != some env.fstype)

/-- Nothing is formatted that holds a filesystem. -/
def NeverReformats (v : Mapping) (s : Node) : Prop :=
  wp (cinderAttach env v) (fun _ s' => ∃ new, s'.formats = new ++ s.formats ∧
    ∀ x ∈ new, x.2 = none) s

variable {env}

theorem wp_call {c : Call} {effect : Node → Node} {Q : Result Failure Unit → Node → Prop}
    (hok : env.refuse c = none → Q (.ok ()) (effect s))
    (hraise : ∀ e, env.refuse c = some e → Q (.raise (.refused e)) s) :
    wp (call env c effect) Q s := by
  unfold call
  cases h : env.refuse c with
  | none => exact hok h
  | some e => exact hraise e h

/-- The program returns in every state, or in none. -/
def Goes (p : Prog Node Failure Unit) (b : Bool) : Prop := ∀ s, (p s).1 = .ok () ↔ b = true

theorem goes_call (c : Call) : Goes (call env c) (env.refuse c).isNone := by
  intro s
  have hwp : wp (call env c) (fun r _ => r = .ok () ↔ (env.refuse c).isNone = true) s :=
    wp_call (fun h => by simp [h]) fun e h => by simp [h]
  exact hwp

theorem Goes.bind {p q : Prog Node Failure Unit} {b b' : Bool} (hp : Goes p b) (hq : Goes q b') :
    Goes (p >>= fun _ => q) (b && b') := by
  intro s
  have hs := hp s
  have hwp : wp (p >>= fun _ => q) (fun r _ => r = .ok () ↔ (b && b') = true) s := by
    rw [wp_bind]
    unfold wp
    rcases hrun : p s with ⟨r, s'⟩
    rw [hrun] at hs
    cases r with
    | ok a =>
        have hb : b = true := hs.mp rfl
        simpa [hb, wp] using hq s'
    | raise e =>
        have hb : b = false := by simpa using hs
        simp [hb]
    | halt =>
        have hb : b = false := by simpa using hs
        simp [hb]
  exact hwp

theorem Goes.reraising {p : Prog Node Failure Unit} {h : Failure → Prog Node Failure Unit} {b : Bool}
    (hp : Goes p b) : Goes (reraising p h) b := by
  intro s
  have hs := hp s
  have hwp : wp (Prog.reraising p h) (fun r _ => r = .ok () ↔ b = true) s := by
    rw [wp_reraising]
    unfold wp
    rcases hrun : p s with ⟨r, s'⟩
    rw [hrun] at hs
    cases r with
    | ok a => exact hs
    | halt => exact hs
    | raise e =>
        have hb : b = false := by simpa using hs
        rw [exceptPost_raise, wp_andThen, hb]
        unfold wp
        cases (h e s').1 <;> simp [seqPost, wp, raise]
  exact hwp

theorem goes_connectDevice : Goes (connectDevice env v) (getsDevice env v) := by
  unfold connectDevice getsDevice
  cases v.connected with
  | true => exact (goes_call _).bind (goes_call _)
  | false =>
      have hgoes : Goes (attachVolume env) _ := Goes.reraising
        ((goes_call .reserve).bind ((goes_call .initializeConnection).bind
          ((goes_call .connect).reraising.bind
            ((goes_call .saveMapping).bind (goes_call .attach).reraising))))
      simpa [Bool.and_assoc] using hgoes

/-- A mount formats nothing, and fails as a mount exactly when the command fails. -/
theorem wp_mount (dev mountpoint : String) (again : Bool) :
    wp (mount env dev mountpoint again) (fun r s' => s'.formats = s.formats ∧ s'.held = s.held ∧
      (r = .raise .mountException ↔ mountFails env dev again s = true)) s := by
  unfold mount mountFails
  rw [wp_tryExcept, wp_bind, wp_read, seqPost_ok, wp_bind]
  refine wp_onlyIf (fun hblank => ?_) fun hblank => ?_
  · rw [wp_raise, seqPost_raise, exceptPost_raise, wp_ite, if_pos rfl, wp_raise]
    exact ⟨rfl, rfl, by simp [hblank.1, hblank.2]⟩
  · rw [seqPost_ok]
    refine wp_call (fun hok => ?_) fun e hraise => ?_
    · have hheld : s.held dev = some env.fstype := by
        by_contra hne
        exact hblank ⟨hok, hne⟩
      exact ⟨rfl, rfl, by simp [hok, hheld]⟩
    · rw [exceptPost_raise, wp_ite]
      split
      · rename_i he
        cases he
        rw [wp_raise]
        exact ⟨rfl, rfl, by simp [hraise]⟩
      · rename_i he
        have hne : e ≠ .commandError := fun h => he (h ▸ rfl)
        rw [wp_raise]
        exact ⟨rfl, rfl, by simp [hraise, hne]⟩

/-- Making a filesystem is noted with what the device held. -/
theorem wp_makeFilesystem (dev : String) :
    wp (makeFilesystem env dev) (fun _ s' => s'.formats = (dev, s.held dev) :: s.formats) s := by
  unfold makeFilesystem
  rw [wp_bind, wp_modify, seqPost_ok, wp_tryExcept]
  refine wp_call (fun _ => rfl) fun e _ => ?_
  rw [exceptPost_raise, wp_ite]
  split <;> rfl

/-- What the mount of a device formats. -/
theorem wp_doMount (dev mountpoint : String) :
    wp (doMount env dev mountpoint) (fun _ s' => s'.formats =
      if (env.refuse .readMounts).isNone && !(s.mounts.any (·.2 = mountpoint)) &&
          mountFails env dev false s then
        (dev, s.held dev) :: s.formats
      else s.formats) s := by
  unfold doMount checkAlreadyMounted readMounts
  rw [wp_bind, wp_bind, wp_bind, wp_tryExcept]
  refine wp_call (fun hok => ?_) fun e hraise => ?_
  · rw [exceptPost_ok, seqPost_ok, wp_read, seqPost_ok, wp_pure, seqPost_ok, hok]
    refine wp_onlyIf (fun hfree => ?_) fun hthere => ?_
    · have hany : s.mounts.any (·.2 = mountpoint) = false := hfree
      rw [hany, wp_tryExcept]
      refine wp_mono (wp_mount dev mountpoint false) ?_
      rintro r s₁ ⟨hsame, hheld, hfails⟩
      have hnot (hr : r ≠ .raise .mountException) : mountFails env dev false s = false :=
        Bool.eq_false_iff.mpr fun h => hr (hfails.mpr h)
      cases r with
      | ok a => simpa [hnot (by simp)] using hsame
      | halt => simpa [hnot (by simp)] using hsame
      | raise e =>
          rw [exceptPost_raise, wp_ite]
          split
          · rename_i he
            rw [wp_bind]
            have hformat : mountFails env dev false s = true := hfails.mp (he ▸ rfl)
            refine wp_mono (wp_makeFilesystem dev) fun r s₂ h₂ => ?_
            have hnew : s₂.formats = (dev, s.held dev) :: s.formats := by
              rw [h₂, hsame]
              exact congrArg (fun held => (dev, held dev) :: s.formats) hheld
            cases r with
            | ok a =>
                rw [seqPost_ok]
                refine wp_mono (wp_mount dev mountpoint true) fun r s₃ h₃ => ?_
                simpa [hformat, h₃.1] using hnew
            | raise e => simpa [hformat] using hnew
            | halt => simpa [hformat] using hnew
          · rename_i he
            rw [wp_raise]
            simpa [hnot (by simpa using he)] using hsame
    · have hany : s.mounts.any (·.2 = mountpoint) = true := by simpa using hthere
      simp [hany]
  · rw [exceptPost_raise, wp_ite]
    split <;> simp [hraise, seqPost, wp, raise]

theorem wp_mountDevice (v : Mapping) (dev : String) :
    wp (mountDevice env v dev) (fun _ s' => s'.formats =
      if (env.refuse .ensureTree).isNone && ((env.refuse .readMounts).isNone &&
          !(s.mounts.any (·.2 = v.mountpoint)) && mountFails env dev false s) then
        (dev, s.held dev) :: s.formats
      else s.formats) s := by
  unfold mountDevice
  rw [wp_bind]
  refine wp_call (fun hok => ?_) fun e hraise => by simp [hraise]
  rw [seqPost_ok, wp_bind, hok, Option.isNone_none, Bool.true_and]
  refine wp_mono (wp_doMount dev v.mountpoint) fun r s₁ h₁ => ?_
  cases r with
  | raise e => exact h₁
  | halt => exact h₁
  | ok a =>
      rw [seqPost_ok]
      refine wp_mono ((untouched_applyFsGroup v).wp s₁) fun r s' h' => ?_
      cases h'
      exact h₁

/-- What an attach formats: the device, when it comes to mount it and the mount fails. -/
theorem wp_cinderAttach (v : Mapping) :
    wp (cinderAttach env v) (fun _ s' => s'.formats =
      if triesMount env v s && mountFails env env.devicePath false s then
        (env.devicePath, s.held env.devicePath) :: s.formats
      else s.formats) s := by
  unfold cinderAttach triesMount
  rw [wp_bind]
  have hgoes : wp (connectDevice env v) (fun r _ => r = .ok () ↔ getsDevice env v = true) s :=
    goes_connectDevice s
  refine wp_mono (wp_and ((untouched_connectDevice v).wp s) hgoes) ?_
  rintro r s₀ ⟨hsame, hgets⟩
  cases hsame
  have hno (hr : r ≠ .ok ()) : getsDevice env v = false :=
    Bool.eq_false_iff.mpr fun h => hr (hgets.mpr h)
  cases r with
  | raise e => simp [hno (by simp)]
  | halt => simp [hno (by simp)]
  | ok a =>
      rw [seqPost_ok, wp_reraising, hgets.mp rfl]
      refine wp_mono (wp_mountDevice v env.devicePath) fun r s₁ h₁ => ?_
      have h₁ : s₁.formats = if (true && (env.refuse .ensureTree).isNone &&
          (env.refuse .readMounts).isNone && !(s.mounts.any (·.2 = v.mountpoint))) &&
          mountFails env env.devicePath false s then
            (env.devicePath, s.held env.devicePath) :: s.formats
          else s.formats := by
        simpa only [Bool.and_assoc, Bool.true_and] using h₁
      cases r with
      | ok a => exact h₁
      | halt => exact h₁
      | raise e =>
          rw [exceptPost_raise, wp_andThen, wp_swallow]
          refine wp_mono ((untouched_detachVolume v).wp s₁) fun r s' h' => ?_
          cases h'
          cases r <;> exact h₁

/-- An attach formats no device that holds a filesystem exactly when the device is blank, or it is
not mounted by this attach, or its first mount does not fail as a command. -/
theorem neverReformats_iff (env : Env) (v : Mapping) (s : Node) :
    NeverReformats env v s ↔
      (triesMount env v s = true → mountFails env env.devicePath false s = true →
        s.held env.devicePath = none) := by
  have hrun : (cinderAttach env v s).2.formats = _ := wp_cinderAttach v
  change (∃ new, (cinderAttach env v s).2.formats = new ++ s.formats ∧ ∀ x ∈ new, x.2 = none) ↔ _
  rw [hrun]
  constructor
  · rintro ⟨new, hnew, hblank⟩ htries hfails
    rw [htries, hfails, Bool.and_self, if_pos rfl] at hnew
    have hone : new = [(env.devicePath, s.held env.devicePath)] :=
      (List.append_cancel_right hnew).symm
    exact hblank (env.devicePath, s.held env.devicePath) (by simp [hone])
  · intro h
    split
    · rename_i hformats
      rw [Bool.and_eq_true] at hformats
      exact ⟨[_], rfl, by simpa using h hformats.1 hformats.2⟩
    · exact ⟨[], rfl, by simp⟩

/-- A volume that was attached before, and a device that holds a filesystem. -/
def reattached : Mapping := { mountpoint := "/var/lib/zun/mnt/vol", connected := true }

def fullDevice : Node := { held := fun _ => some "ext4" }

/-- The first mount fails, for a reason that has gone by the second one. -/
def flakyMount : Env where
  refuse c := if c = .mount false then some .commandError else none

/-- The mount of a good filesystem fails once, and the filesystem is made anew. -/
theorem flakyMount_reformats :
    (cinderAttach flakyMount reattached fullDevice).1 = .ok () ∧
    (cinderAttach flakyMount reattached fullDevice).2.formats = [("/dev/sdb", some "ext4")] ∧
    ¬ NeverReformats flakyMount reattached fullDevice := by
  have hformats : (cinderAttach flakyMount reattached fullDevice).2.formats =
      [("/dev/sdb", some "ext4")] := by decide
  refine ⟨by decide, hformats, ?_⟩
  rintro ⟨new, hnew, hblank⟩
  rw [hformats, show fullDevice.formats = [] from rfl, List.append_nil] at hnew
  have hnone := hblank ("/dev/sdb", some "ext4") (by simp [← hnew])
  cases hnone

end CinderVolume

end Zun
