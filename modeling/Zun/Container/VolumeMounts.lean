import Mathlib.Data.List.AList
import Zun.Data.Mounts

/-!
# Mounts of volumes

`_get_binds` of `zun/container/docker/driver.py` and `_get_mounts` of `zun/container/cri/driver.py`, over `bind_mount`
of the drivers in `zun/volume/driver.py`, with what each of the two adds of its own to the mounts of a container.
`_build_requested_volumes` of `zun/api/controllers/v1/capsules.py` is where the mappings of a capsule come from.

One driver keeps the mounts in a list and the other in a dictionary, by what is mounted.
-/

namespace Zun

namespace VolumeMounts

/-! ## A dictionary that is filled in a loop -/

section

variable {ι κ ν : Type} [DecidableEq κ] (key : ι → κ) (value : ι → ν)

/-- A dictionary with one entry set after the other. -/
def setAll (d : AList fun _ : κ => ν) (l : List ι) : AList fun _ : κ => ν :=
  l.foldl (fun d i => d.insert (key i) (value i)) d

variable {key value} {d : AList fun _ : κ => ν} {l : List ι} {k : κ} {x : ν}

/-- What is there was there before, or was set. -/
theorem lookup_setAll (h : (setAll key value d l).lookup k = some x) :
    d.lookup k = some x ∨ ∃ i ∈ l, key i = k ∧ value i = x := by
  induction l generalizing d with
  | nil => exact .inl h
  | cons i l ih =>
      rcases ih h with h | ⟨j, hj, hkey, hvalue⟩
      · by_cases hk : k = key i
        · subst hk
          rw [AList.lookup_insert, Option.some.injEq] at h
          exact .inr ⟨i, List.mem_cons_self, rfl, h⟩
        · rw [AList.lookup_insert_ne hk] at h
          exact .inl h
      · exact .inr ⟨j, List.mem_cons_of_mem i hj, hkey, hvalue⟩

/-- What was there is not taken away. -/
theorem mem_setAll (h : k ∈ d) : k ∈ setAll key value d l := by
  induction l generalizing d with
  | nil => exact h
  | cons i l ih => exact ih ((AList.mem_insert _).mpr (.inr h))

theorem key_mem_setAll {i : ι} (h : i ∈ l) : key i ∈ setAll key value d l := by
  induction l generalizing d with
  | nil => cases h
  | cons j l ih =>
      rcases List.mem_cons.mp h with rfl | h
      · exact mem_setAll (d := d.insert (key i) (value i)) ((AList.mem_insert d).mpr (.inl rfl))
      · exact ih h

/-- Each entry is as it was set if and only if one key was given one value. -/
theorem setAll_keeps_iff : (∀ i ∈ l, (setAll key value ∅ l).lookup (key i) = some (value i)) ↔
    ∀ i ∈ l, ∀ j ∈ l, key i = key j → value i = value j := by
  constructor
  · intro h i hi j hj hkey
    have heq := h i hi
    rw [hkey, h j hj, Option.some.injEq] at heq
    exact heq.symm
  · intro h i hi
    obtain ⟨x, hx⟩ := Option.isSome_iff_exists.mp
      (AList.lookup_isSome.mpr (@key_mem_setAll ι κ ν _ key value ∅ l i hi))
    rcases lookup_setAll hx with hempty | ⟨j, hj, hkey, hvalue⟩
    · simp at hempty
    · rw [hx, ← hvalue, h i hi j hj hkey.symm]

end

/-! ## The model -/

abbrev NodePath := Mounts.Path String

/-- A uuid, which has no slash and no dot. -/
structure Uuid where
  text : String
  dashed : text.toList.all (fun c => c.isAlphanum || c = '-') = true
deriving DecidableEq

inductive Failure where
  | volumeNotPrepared (text : String)
  | invalid (text : String)
  | other (code : Nat)
deriving DecidableEq

inductive VolumeDriver where
  | cinder | «local» | emptydir | nfs
deriving DecidableEq

def VolumeDriver.name : VolumeDriver → String
  | cinder => "cinder"
  | «local» => "local"
  | emptydir => "emptydir"
  | nfs => "nfs"

/-- `supported_providers`. -/
def VolumeDriver.supportedProviders (d : VolumeDriver) : List String := [d.name]

/-- What is read of a volume mapping. -/
structure VolumeMapping where
  /-- The uuid of the volume. -/
  volume : Uuid
  volumeProvider : String
  containerPath : String
  readOnly : Option Bool := none
deriving DecidableEq

structure Conf where
  volumeDir : NodePath := ["var", "lib", "zun", "mnt"]
  statePath : NodePath := ["var", "lib", "zun"]
  /-- `CONF.volume.driver_list`. -/
  driverList : List VolumeDriver := [.cinder, .local, .emptydir, .nfs]
  probeHelperPath : Option NodePath := none
  probeHelperMount : String := "/.zun"

variable (conf : Conf)

/-- `get_mountpoint`. -/
def getMountpoint (volume : Uuid) : NodePath := conf.volumeDir ++ [volume.text]

def notSupported (provider : String) : Failure :=
  .volumeNotPrepared ("The volume provider '" ++ provider ++ "' is not supported")

/-- `_get_volume_driver`. -/
def getVolumeDriver (v : VolumeMapping) : Except Failure VolumeDriver :=
  match conf.driverList.find? (·.name = v.volumeProvider) with
  | some d => .ok d
  | none => .error (notSupported v.volumeProvider)

/-- `bind_mount`: where the files of a volume are, and where they are to be seen. -/
def bindMount (d : VolumeDriver) (v : VolumeMapping) : Except Failure (NodePath × String) :=
  if v.volumeProvider ∈ d.supportedProviders then
    match d with
    | .local => .ok (getMountpoint conf v.volume ++ [v.volume.text], v.containerPath)
    | _ => .ok (getMountpoint conf v.volume, v.containerPath)
  else .error (notSupported v.volumeProvider)

/-- `_read_only`. -/
def readOnlyOf (v : VolumeMapping) : Bool := v.readOnly = some true

/-! ### Docker -/

inductive Mode where
  | ro | rw
deriving DecidableEq

/-- A value of `binds`.  Its access is a mode, or said by `ro`. -/
structure Bind where
  bind : String
  access : Mode ⊕ Bool
deriving DecidableEq

/-- What docker makes of it. -/
def Bind.readOnly (b : Bind) : Bool :=
  match b.access with
  | .inl mode => mode = .ro
  | .inr ro => ro

abbrev Binds := AList fun _ : NodePath => Bind

/-- The loop of `_get_binds`. -/
def addBinds (binds : Binds) : List VolumeMapping → Except Failure Binds
  | [] => .ok binds
  | v :: vs => do
      let d ← getVolumeDriver conf v
      let (source, destination) ← bindMount conf d v
      addBinds (binds.insert source
        { bind := destination, access := .inl (if readOnlyOf v = true then .ro else .rw) }) vs

/-- `_get_binds`. -/
def getBinds (requestedVolumes : List VolumeMapping) : Except Failure Binds := addBinds conf ∅ requestedVolumes

/-- What `create` reads of a container for its resolver. -/
structure Resolver where
  container : Uuid
  dns : List String := []
  subnetResolvers : List String := []

/-- `_write_resolv_conf`: the file, if there is a server to name. -/
def writeResolvConf (r : Resolver) : Option NodePath :=
  let servers := if r.dns = [] then r.subnetResolvers else r.dns
  if servers = [] then none else some (conf.statePath ++ ["resolv", r.container.text, "resolv.conf"])

/-- The binds that `create` passes to docker.  A container of a capsule gets no resolver. -/
def dockerBinds (resolver : Option Resolver) (volmaps : List VolumeMapping) : Except Failure Binds := do
  let binds ← getBinds conf volmaps
  match resolver.bind (writeResolvConf conf) with
  | none => .ok binds
  | some resolvConf => .ok (binds.insert resolvConf { bind := "/etc/resolv.conf", access := .inr true })

/-! ### CRI -/

structure Mount where
  containerPath : String
  hostPath : NodePath
  readonly : Bool
deriving DecidableEq

/-- `_get_mounts`. -/
def getMounts : List VolumeMapping → Except Failure (List Mount)
  | [] => .ok []
  | v :: vs => do
      let d ← getVolumeDriver conf v
      let (source, destination) ← bindMount conf d v
      let mounts ← getMounts vs
      .ok ({ containerPath := destination, hostPath := source, readonly := readOnlyOf v } :: mounts)

/-- What `_get_container_config` reads for the mounts that are its own. -/
structure Config where
  /-- The container has probes, and the helper is on the node. -/
  probed : Bool := false
  /-- `hostsfile.write`. -/
  hostsFile : Except Failure NodePath
  readonlyRootfs : Bool := false

/-- `_probe_helper_mount`. -/
def probeHelperMount (c : Config) : List Mount :=
  match conf.probeHelperPath, c.probed with
  | some path, true => [{ containerPath := conf.probeHelperMount, hostPath := path, readonly := true }]
  | _, _ => []

/-- The mount that `_add_hosts_mount` adds, if there is none at its path. -/
def hostsMount (c : Config) (mounts : List Mount) : Except Failure (List Mount) :=
  if mounts.any (·.containerPath = "/etc/hosts") then .ok []
  else do
    let path ← c.hostsFile
    .ok [{ containerPath := "/etc/hosts", hostPath := path, readonly := c.readonlyRootfs }]

/-- `_add_hosts_mount`. -/
def addHostsMount (c : Config) (mounts : List Mount) : Except Failure (List Mount) := do
  let added ← hostsMount c mounts
  .ok (mounts ++ added)

/-- The mounts that `_get_container_config` passes to the runtime. -/
def criMounts (c : Config) (volmaps : List VolumeMapping) : Except Failure (List Mount) := do
  let mounts ← getMounts conf volmaps
  addHostsMount c (mounts ++ probeHelperMount conf c)

/-! ### Capsules -/

/-- An entry of the `volumes` of a template, with the volume that was made for it. -/
structure CapsuleVolume where
  name : String
  volume : Uuid
  volumeProvider : String
deriving DecidableEq

/-- An entry of the `volumeMounts` of a container. -/
structure VolumeMount where
  name : String
  mountPath : String
  containerUuid : Uuid
deriving DecidableEq

/-- The mappings of one volume, with their containers. -/
def mapped (volumeMounts : List VolumeMount) (v : CapsuleVolume) : List (Uuid × VolumeMapping) :=
  (volumeMounts.filter (·.name = v.name)).map fun item =>
    (item.containerUuid,
      { volume := v.volume, volumeProvider := v.volumeProvider, containerPath := item.mountPath })

/-- `_build_requested_volumes`. -/
def buildRequestedVolumes (volumeMounts : List VolumeMount) :
    List CapsuleVolume → Except Failure (List (Uuid × VolumeMapping))
  | [] => .ok []
  | v :: vs => do
      if mapped volumeMounts v = [] then .error (.invalid "volume mount parameters is invalid.") else pure ()
      let requested ← buildRequestedVolumes volumeMounts vs
      .ok (mapped volumeMounts v ++ requested)

/-- `requested_volumes[container.uuid]`. -/
def requestedOf (container : Uuid) (requested : List (Uuid × VolumeMapping)) : List VolumeMapping :=
  (requested.filter (·.1 = container)).map (·.2)

/-! ## What is claimed -/

/-- The files of a volume. -/
def sourceOf (v : VolumeMapping) : NodePath :=
  if v.volumeProvider = "local" then getMountpoint conf v.volume ++ [v.volume.text] else getMountpoint conf v.volume

/-- The mount that a mapping asks for. -/
def VolumeMapping.mount (v : VolumeMapping) : Mount where
  containerPath := v.containerPath
  hostPath := sourceOf conf v
  readonly := readOnlyOf v

/-- A mount is among those that docker is given. -/
def Binds.Has (binds : Binds) (m : Mount) : Prop :=
  ∃ b, binds.lookup m.hostPath = some b ∧ b.bind = m.containerPath ∧ b.readOnly = m.readonly

/-- The mount that the docker driver adds. -/
def dockerOwn (resolver : Option Resolver) : List Mount :=
  match resolver.bind (writeResolvConf conf) with
  | none => []
  | some resolvConf => [{ containerPath := "/etc/resolv.conf", hostPath := resolvConf, readonly := true }]

/-- The mounts that the CRI driver adds. -/
def criOwn (c : Config) (volmaps : List VolumeMapping) : List Mount :=
  probeHelperMount conf c ++
    match hostsMount c (volmaps.map (VolumeMapping.mount conf) ++ probeHelperMount conf c) with
    | .ok added => added
    | .error _ => []

/-- Each driver makes the mounts that the mappings of a container ask for, and its own. -/
structure EachMade (volmaps : List VolumeMapping) : Prop where
  docker : ∀ resolver binds, dockerBinds conf resolver volmaps = .ok binds →
    ∀ m, binds.Has m ↔ (∃ v ∈ volmaps, v.mount conf = m) ∨ m ∈ dockerOwn conf resolver
  cri : ∀ c mounts, criMounts conf c volmaps = .ok mounts →
    ∀ m, m ∈ mounts ↔ (∃ v ∈ volmaps, v.mount conf = m) ∨ m ∈ criOwn conf c volmaps

/-- A mapping is of a volume that the node has a driver for. -/
def Supported (v : VolumeMapping) : Prop := ∃ d ∈ conf.driverList, d.name = v.volumeProvider

/-- Two mappings are of one volume, as a file or as a directory. -/
def SameSource (v w : VolumeMapping) : Prop :=
  v.volume = w.volume ∧ (v.volumeProvider = "local" ↔ w.volumeProvider = "local")

/-- No volume is mapped in two ways. -/
def Unshadowed (volmaps : List VolumeMapping) : Prop :=
  ∀ v ∈ volmaps, ∀ w ∈ volmaps, SameSource v w → v.containerPath = w.containerPath ∧ readOnlyOf v = readOnlyOf w

/-! ## Sources -/

section

variable {conf} {v w : VolumeMapping} {volmaps : List VolumeMapping} {binds : Binds} {m : Mount}

theorem sourceOf_inj_iff : sourceOf conf v = sourceOf conf w ↔ SameSource v w := by
  have htext : v.volume.text = w.volume.text ↔ v.volume = w.volume := by
    constructor
    · intro h
      cases hv : v.volume
      cases hw : w.volume
      simpa [hv, hw] using h
    · exact fun h => congrArg Uuid.text h
  unfold sourceOf getMountpoint SameSource
  by_cases hv : v.volumeProvider = "local" <;> by_cases hw : w.volumeProvider = "local" <;>
    simp [hv, hw, htext]

/-- A file of the service is in no volume. -/
theorem sourceOf_ne_resolvConf {r : Resolver} {path : NodePath} (h : writeResolvConf conf r = some path) :
    sourceOf conf v ≠ path := by
  intro heq
  have hlast : path.getLast? = some "resolv.conf" := by
    simp only [writeResolvConf, Option.ite_none_left_eq_some, Option.some.injEq] at h
    simp [← h.2]
  have hsource : (sourceOf conf v).getLast? = some v.volume.text := by
    unfold sourceOf getMountpoint
    split <;> simp
  rw [← heq, hsource, Option.some.injEq] at hlast
  have hdashed := v.volume.dashed
  rw [hlast] at hdashed
  exact absurd hdashed (by decide)

theorem bindMount_eq {d : VolumeDriver} (h : getVolumeDriver conf v = .ok d) :
    bindMount conf d v = .ok (sourceOf conf v, v.containerPath) := by
  unfold getVolumeDriver at h
  split at h
  · next d' hfind =>
    cases h
    have hname : d.name = v.volumeProvider := by simpa using List.find?_some hfind
    unfold bindMount sourceOf
    rw [if_pos (by simp [VolumeDriver.supportedProviders, hname]), ← hname]
    cases d <;> rfl
  · cases h

theorem supported_iff : (∃ d, getVolumeDriver conf v = .ok d) ↔ Supported conf v := by
  unfold getVolumeDriver Supported
  cases hfind : conf.driverList.find? (·.name = v.volumeProvider) with
  | some d =>
      refine iff_of_true ⟨d, rfl⟩ ⟨d, List.mem_of_find?_eq_some hfind, ?_⟩
      simpa using List.find?_some hfind
  | none =>
      refine iff_of_false (fun ⟨d, hd⟩ => by cases hd) fun ⟨d, hd, hname⟩ => ?_
      simpa [hname] using List.find?_eq_none.mp hfind d hd

/-! ## What the two drivers make of a list -/

/-- The entry that a mapping is given. -/
def bindOf (v : VolumeMapping) : Bind where
  bind := v.containerPath
  access := .inl (if readOnlyOf v = true then .ro else .rw)

theorem readOnly_bindOf (v : VolumeMapping) : (bindOf v).readOnly = readOnlyOf v := by
  unfold bindOf Bind.readOnly
  cases readOnlyOf v <;> rfl

/-- A list comes through if and only if each of its mappings is of a volume that there is a driver for. -/
theorem addBinds_ok_iff {binds' : Binds} : addBinds conf binds volmaps = .ok binds' ↔
    (∀ v ∈ volmaps, Supported conf v) ∧ binds' = setAll (sourceOf conf) bindOf binds volmaps := by
  induction volmaps generalizing binds with
  | nil => simp [addBinds, setAll, eq_comm]
  | cons v vs ih =>
      rw [List.forall_mem_cons, ← supported_iff]
      cases hd : getVolumeDriver conf v with
      | error e => simp [addBinds, hd, bind, Except.bind]
      | ok d =>
          simp only [addBinds, hd, bindMount_eq hd, bind, Except.bind, Except.ok.injEq, exists_eq', true_and]
          exact ih

theorem getMounts_ok_iff {mounts : List Mount} : getMounts conf volmaps = .ok mounts ↔
    (∀ v ∈ volmaps, Supported conf v) ∧ mounts = volmaps.map (VolumeMapping.mount conf) := by
  induction volmaps generalizing mounts with
  | nil => simp [getMounts, eq_comm]
  | cons v vs ih =>
      rw [List.forall_mem_cons, ← supported_iff]
      cases hd : getVolumeDriver conf v with
      | error e => simp [getMounts, hd, bind, Except.bind]
      | ok d =>
          simp only [getMounts, hd, bindMount_eq hd, bind, Except.bind, Except.ok.injEq, exists_eq', true_and]
          cases hvs : getMounts conf vs with
          | error e =>
              have hno : ¬ ∀ v ∈ vs, Supported conf v := fun hall => by
                have := ih.mpr ⟨hall, rfl⟩
                rw [hvs] at this
                cases this
              simp [hno]
          | ok mounts' =>
              obtain ⟨hall, hmounts⟩ := ih.mp hvs
              simp only [Except.ok.injEq, List.map_cons, ← hmounts, eq_comm (b := mounts)]
              exact (and_iff_right hall).symm

/-! ## What is passed -/

/-- The mounts of the dictionary, where one volume is mapped in one way. -/
theorem has_setAll_iff (h : Unshadowed volmaps) :
    Binds.Has (setAll (sourceOf conf) bindOf ∅ volmaps) m ↔ ∃ v ∈ volmaps, v.mount conf = m := by
  have hkeeps := (@setAll_keeps_iff _ _ _ _ (sourceOf conf) bindOf volmaps).mpr fun v hv w hw hsource => by
    obtain ⟨hpath, hread⟩ := h v hv w hw (sourceOf_inj_iff.mp hsource)
    simp only [bindOf, hpath, hread]
  constructor
  · rintro ⟨b, hb, hpath, hread⟩
    rcases lookup_setAll hb with hempty | ⟨v, hv, hsource, rfl⟩
    · simp at hempty
    · refine ⟨v, hv, ?_⟩
      rw [readOnly_bindOf] at hread
      cases m
      cases hsource
      cases hpath
      cases hread
      rfl
  · rintro ⟨v, hv, rfl⟩
    exact ⟨bindOf v, hkeeps v hv, rfl, readOnly_bindOf v⟩

theorem dockerBinds_ok {resolver : Option Resolver} {binds' : Binds}
    (h : dockerBinds conf resolver volmaps = .ok binds') :
    binds' = match resolver.bind (writeResolvConf conf) with
      | none => setAll (sourceOf conf) bindOf ∅ volmaps
      | some resolvConf => (setAll (sourceOf conf) bindOf ∅ volmaps).insert resolvConf
          { bind := "/etc/resolv.conf", access := .inr true } := by
  cases hbinds : getBinds conf volmaps with
  | error e => simp [dockerBinds, hbinds, bind, Except.bind] at h
  | ok binds =>
      rw [← (addBinds_ok_iff.mp hbinds).2]
      simp only [dockerBinds, hbinds, bind, Except.bind] at h
      cases hresolv : resolver.bind (writeResolvConf conf) with
      | none => simpa [hresolv] using h.symm
      | some path => simpa [hresolv] using h.symm

theorem docker_of_unshadowed (h : Unshadowed volmaps) {resolver : Option Resolver}
    (hok : dockerBinds conf resolver volmaps = .ok binds) :
    binds.Has m ↔ (∃ v ∈ volmaps, v.mount conf = m) ∨ m ∈ dockerOwn conf resolver := by
  rw [dockerBinds_ok hok]
  unfold dockerOwn
  cases hresolv : resolver.bind (writeResolvConf conf) with
  | none => simp [has_setAll_iff h]
  | some path =>
      obtain ⟨r, -, hr⟩ := Option.bind_eq_some_iff.mp hresolv
      by_cases hpath : m.hostPath = path
      · have hnone : ¬ ∃ v ∈ volmaps, v.mount conf = m := by
          rintro ⟨v, -, rfl⟩
          exact sourceOf_ne_resolvConf hr hpath
        rw [Binds.Has, hpath, AList.lookup_insert, or_iff_right hnone, List.mem_singleton]
        constructor
        · rintro ⟨b, hb, hbind, hread⟩
          cases hb
          cases m
          cases hpath
          cases hbind
          cases hread
          rfl
        · rintro rfl
          exact ⟨_, rfl, rfl, rfl⟩
      · have hown : m ∉ [({ containerPath := "/etc/resolv.conf", hostPath := path, readonly := true } : Mount)] := by
          intro hmem
          exact hpath (congrArg Mount.hostPath (List.mem_singleton.mp hmem))
        rw [Binds.Has, AList.lookup_insert_ne hpath, or_iff_left hown]
        exact has_setAll_iff h

theorem criMounts_ok {c : Config} {mounts : List Mount} (h : criMounts conf c volmaps = .ok mounts) :
    mounts = volmaps.map (VolumeMapping.mount conf) ++ criOwn conf c volmaps := by
  cases hget : getMounts conf volmaps with
  | error e => simp [criMounts, hget, bind, Except.bind] at h
  | ok mounts' =>
      simp only [criMounts, hget, addHostsMount, bind, Except.bind, (getMounts_ok_iff.mp hget).2] at h
      unfold criOwn
      cases hhosts : hostsMount c (volmaps.map (VolumeMapping.mount conf) ++ probeHelperMount conf c) with
      | error e => simp [hhosts] at h
      | ok added =>
          simp only [hhosts, Except.ok.injEq] at h
          rw [← h, List.append_assoc]

/-- The entry of a volume that two mappings are of is that of both. -/
theorem unshadowed_of_has (h : ∀ v ∈ volmaps, binds.Has (v.mount conf)) : Unshadowed volmaps := by
  intro v hv w hw hsame
  obtain ⟨b, hb, hpath, hread⟩ := h v hv
  obtain ⟨b', hb', hpath', hread'⟩ := h w hw
  change binds.lookup (sourceOf conf v) = some b at hb
  rw [sourceOf_inj_iff.mpr hsame] at hb
  obtain rfl : b = b' := Option.some.inj (hb.symm.trans hb')
  exact ⟨hpath.symm.trans hpath', hread.symm.trans hread'⟩

end

/-- Each driver makes every mount if and only if no volume is mapped in two ways by the container, or one of the
mappings is refused. -/
theorem eachMade_iff (conf : Conf) (volmaps : List VolumeMapping) :
    EachMade conf volmaps ↔ Unshadowed volmaps ∨ ∃ v ∈ volmaps, ¬ Supported conf v := by
  constructor
  · intro h
    by_cases hall : ∀ v ∈ volmaps, Supported conf v
    · have hbinds : getBinds conf volmaps = .ok (setAll (sourceOf conf) bindOf ∅ volmaps) :=
        addBinds_ok_iff.mpr ⟨hall, rfl⟩
      have hok : dockerBinds conf none volmaps = .ok (setAll (sourceOf conf) bindOf ∅ volmaps) := by
        simp [dockerBinds, hbinds, bind, Except.bind]
      exact .inl (unshadowed_of_has fun v hv => (h.docker none _ hok _).mpr (.inl ⟨v, hv, rfl⟩))
    · simpa using Or.inr hall
  · rintro (h | ⟨v, hv, hno⟩)
    · refine ⟨fun resolver binds hok m => docker_of_unshadowed h hok, fun c mounts hok m => ?_⟩
      rw [criMounts_ok hok, List.mem_append, List.mem_map]
    · refine ⟨fun resolver binds hok => ?_, fun c mounts hok => ?_⟩
      · cases hbinds : getBinds conf volmaps with
        | error e => simp [dockerBinds, hbinds, bind, Except.bind] at hok
        | ok binds' => exact absurd ((addBinds_ok_iff.mp hbinds).1 v hv) hno
      · cases hget : getMounts conf volmaps with
        | error e => simp [criMounts, hget, bind, Except.bind] at hok
        | ok mounts' => exact absurd ((getMounts_ok_iff.mp hget).1 v hv) hno

/-- One volume at two paths. -/
def twice : List VolumeMapping :=
  let volume : Uuid := ⟨"4e5f", by decide⟩
  [{ volume, volumeProvider := "emptydir", containerPath := "/cache" },
    { volume, volumeProvider := "emptydir", containerPath := "/tmp" }]

/-- The second mount of a volume takes the place of the first in the dictionary. -/
theorem not_eachMade : ¬ ∀ (conf : Conf) (volmaps : List VolumeMapping), EachMade conf volmaps := by
  intro h
  obtain ⟨b, hb, hpath, -⟩ := ((h {} twice).docker none _ rfl _).mpr (.inl ⟨twice.head (by decide), by decide, rfl⟩)
  have hlast : ((setAll (sourceOf {}) bindOf ∅ twice).lookup (sourceOf {} (twice.head (by decide)))).map (·.bind) =
      some "/tmp" := by decide
  change (setAll (sourceOf {}) bindOf ∅ twice).lookup (sourceOf {} (twice.head (by decide))) = some b at hb
  rw [hb, Option.map_some, hpath] at hlast
  exact absurd hlast (by decide)

/-! ## What a capsule asks for -/

section

variable {volumeMounts : List VolumeMount} {volumes : List CapsuleVolume} {requested : List (Uuid × VolumeMapping)}

/-- The mapping of a volume for an entry that names it. -/
def mappingOf (v : CapsuleVolume) (item : VolumeMount) : VolumeMapping where
  volume := v.volume
  volumeProvider := v.volumeProvider
  containerPath := item.mountPath

theorem mem_requested_iff (h : buildRequestedVolumes volumeMounts volumes = .ok requested)
    {entry : Uuid × VolumeMapping} : entry ∈ requested ↔ ∃ v ∈ volumes, ∃ item ∈ volumeMounts,
      item.name = v.name ∧ (item.containerUuid, mappingOf v item) = entry := by
  induction volumes generalizing requested with
  | nil =>
      cases h
      simp
  | cons v vs ih =>
      by_cases hnone : mapped volumeMounts v = []
      · simp [buildRequestedVolumes, hnone, bind, Except.bind] at h
      · cases hvs : buildRequestedVolumes volumeMounts vs with
        | error e => simp [buildRequestedVolumes, hnone, hvs, bind, Except.bind] at h
        | ok requested' =>
            simp only [buildRequestedVolumes, hnone, hvs, bind, Except.bind, if_false, Except.ok.injEq] at h
            rw [← h, List.mem_append, ih hvs]
            simp [mapped, mappingOf, and_assoc]

/-- The mappings of a container are as they have to be if and only if it names no volume at two paths. -/
theorem requestedOf_unshadowed_iff (h : buildRequestedVolumes volumeMounts volumes = .ok requested)
    (hvolumes : (volumes.map (·.volume)).Nodup) (container : Uuid) :
    Unshadowed (requestedOf container requested) ↔ ∀ v ∈ volumes, ∀ item ∈ volumeMounts, ∀ item' ∈ volumeMounts,
      item.name = v.name → item'.name = v.name → item.containerUuid = container →
        item'.containerUuid = container → item.mountPath = item'.mountPath := by
  have hmem (m : VolumeMapping) : m ∈ requestedOf container requested ↔ ∃ v ∈ volumes, ∃ item ∈ volumeMounts,
      item.name = v.name ∧ item.containerUuid = container ∧ mappingOf v item = m := by
    simp only [requestedOf, List.mem_map, List.mem_filter, mem_requested_iff h]
    grind
  constructor
  · intro hun v hv item hitem item' hitem' hname hname' hcontainer hcontainer'
    exact (hun _ ((hmem _).mpr ⟨v, hv, item, hitem, hname, hcontainer, rfl⟩) _
      ((hmem _).mpr ⟨v, hv, item', hitem', hname', hcontainer', rfl⟩) ⟨rfl, Iff.rfl⟩).1
  · intro hone m hm m' hm' hsame
    obtain ⟨v, hv, item, hitem, hname, hcontainer, rfl⟩ := (hmem m).mp hm
    obtain ⟨v', hv', item', hitem', hname', hcontainer', rfl⟩ := (hmem m').mp hm'
    obtain rfl : v = v' := List.inj_on_of_nodup_map hvolumes hv hv' hsame.1
    exact ⟨hone v hv item hitem item' hitem' hname hname' hcontainer hcontainer', rfl⟩

theorem unshadowed_shared :
    Unshadowed [{ volume := ⟨"c", by decide⟩, volumeProvider := "emptydir", containerPath := "/a" }] := by
  have hbuild : buildRequestedVolumes [⟨"v", "/a", ⟨"a", by decide⟩⟩, ⟨"v", "/b", ⟨"b", by decide⟩⟩]
      [⟨"v", ⟨"c", by decide⟩, "emptydir"⟩] = .ok _ := rfl
  exact (requestedOf_unshadowed_iff hbuild (by simp) ⟨"a", by decide⟩).mpr (by decide)

end

end VolumeMounts

end Zun
