import Zun.Data.Base64
import Zun.Effect.Run
import Mathlib.Data.List.Basic

/-!
# The files of a capsule

`capsule_update_file` and `_attach_volumes` of `zun/compute/manager.py`, and `_build_requested_volumes` of
`zun/api/controllers/v1/capsules.py`.

The volumes of a capsule are mapped to its members: that is how the API asks for them and how the compute node
attaches them.  `capsule_extend_volume` goes through the members for that reason.  `capsule_update_file` asks for
the mappings of the capsule itself, and no container has the uuid of one.
-/

namespace Zun

open Effect

namespace UpdateFile

/-! ## Capsules and their volumes -/

/-- Uuids. -/
abbrev Ident := Nat

/-- What a volume of a template is of, with what rides in its contents. -/
inductive Source where
  | file (contents : String)
  | nfs (options : String)
  | emptyDir (options : String)
  | cinder (options : Option String)
deriving DecidableEq

inductive Provider where
  | «local» | nfs | emptydir | cinder
deriving DecidableEq

def Source.provider : Source → Provider
  | file _ => .«local»
  | nfs _ => .nfs
  | emptyDir _ => .emptydir
  | cinder _ => .cinder

def Source.contents : Source → Option String
  | file contents => some contents
  | nfs options => some options
  | emptyDir options => some options
  | cinder options => options

structure VolumeSpec where
  name : String
  source : Source
deriving DecidableEq

structure Mount where
  name : String
  mountPath : String
deriving DecidableEq

structure Template where
  volumes : List VolumeSpec
  /-- The mounts of every init container, and of every container. -/
  inits : List (List Mount)
  containers : List (List Mount)
deriving DecidableEq

/-- A row of the table of volumes. -/
structure Volume where
  id : Nat
  provider : Provider
deriving DecidableEq

structure Volmap where
  containerUuid : Ident
  containerPath : String
  contents : Option String
  volume : Volume
deriving DecidableEq

structure Capsule where
  uuid : Ident
  initContainers : List Ident
  containers : List Ident
deriving DecidableEq

def Capsule.members (c : Capsule) : List Ident := c.initContainers ++ c.containers

inductive Error where
  /-- `Invalid`: a volume is mounted nowhere. -/
  | mountParameters
  /-- A file is no base64, or a volume is not attached. -/
  | attach
  /-- `Invalid`: what is mounted there is no file. -/
  | notFile (path : String)
  | volumeMappingNotFound (path : String)
deriving DecidableEq

/-- The tables of a deployment and the files of its volumes, by the id of a volume. -/
structure State where
  capsules : List Capsule := []
  mappings : List Volmap := []
  nextVolume : Nat := 0
  /-- The uuids that were given to containers and capsules. -/
  given : List Ident := []
  files : Nat → Option (List UInt8) := fun _ => none

/-- `utils.decode_file_data`. -/
def decodeFileData (contents : String) : Option (List UInt8) := Base64.decode contents.toList

/-! ## The create -/

/-- What a mount asks of a volume. -/
def mapped (volume : Volume) (source : Source) (request : Mount × Ident) : Volmap where
  containerUuid := request.2
  containerPath := request.1.mountPath
  contents := source.contents
  volume := volume

/-- `_build_requested_volumes`: `requested_volumes`, each mapping with the member that it is for. -/
def buildRequestedVolumes (requests : List (Mount × Ident)) : Nat → List VolumeSpec → Except Error (List Volmap)
  | _, [] => .ok []
  | next, spec :: specs =>
      let volume : Volume :=
        { id := next
          provider := spec.source.provider }
      let items := requests.filter (·.1.name = spec.name)
      -- the path of the last mount is what is looked at
      match items.getLast? with
      | none => .error .mountParameters
      | some item =>
          if item.1.mountPath = "" then .error .mountParameters
          else (items.map (mapped volume spec.source) ++ ·) <$> buildRequestedVolumes requests (next + 1) specs

/-- `Local.attach`. -/
def writeFile (files : Nat → Option (List UInt8)) (id : Nat) (contents : String) :
    Option (Nat → Option (List UInt8)) :=
  (decodeFileData contents).map fun data => fun i => if i = id then some data else files i

/-- `_attach_volume`, of a mapping that was just created: a volume that is no file is attached or not. -/
def attachVolume (attaches : Volmap → Bool) (s : State) (volmap : Volmap) : Except Error State :=
  let created := { s with mappings := s.mappings ++ [volmap] }
  match volmap.volume.provider, volmap.contents with
  | .«local», some contents =>
      match writeFile s.files volmap.volume.id contents with
      | none => .error .attach
      | some files => .ok { created with files }
  | _, _ => if attaches volmap then .ok created else .error .attach

/-- `_attach_volumes`, of the mappings of one member: how far it comes, and whether to the end.  A mapping whose
volume is not attached is taken away again. -/
def attachVolumes (attaches : Volmap → Bool) : List Volmap → State → State × Bool
  | [], s => (s, true)
  | volmap :: volmaps, s =>
      match attachVolume attaches s volmap with
      | .error _ => (s, false)
      | .ok s => attachVolumes attaches volmaps s

/-- `_attach_volumes_for_capsule`. -/
def attachVolumesForCapsule (attaches : Volmap → Bool) (requested : List Volmap) : List Ident → State → State
  | [], s => s
  | uuid :: uuids, s =>
      match attachVolumes attaches (requested.filter (·.containerUuid = uuid)) s with
      | (s, false) => s
      | (s, true) => attachVolumesForCapsule attaches requested uuids s

/-- Each mount with the member that it is of. -/
def requestsOf (mounts : List (List Mount)) (uuids : List Ident) : List (Mount × Ident) :=
  (mounts.zip uuids).flatMap fun (mounts, uuid) => mounts.map (·, uuid)

/-- `_do_post` and `container_create`: a capsule whose volumes cannot be built is not kept. -/
def create (attaches : Volmap → Bool) (t : Template) (c : Capsule) (s : State) : State :=
  match buildRequestedVolumes (requestsOf (t.inits ++ t.containers) c.members) s.nextVolume t.volumes with
  | .error _ => { s with given := c.uuid :: c.members ++ s.given }
  | .ok requested =>
      attachVolumesForCapsule attaches requested c.members
        { s with
          capsules := c :: s.capsules
          given := c.uuid :: c.members ++ s.given
          nextVolume := s.nextVolume + t.volumes.length }

/-! ## The update -/

/-- The loop of `capsule_update_file`. -/
def updateFirst (s : State) (path contents : String) : List Volmap → State × Except Error Unit
  | [] => (s, .error (.volumeMappingNotFound path))
  | volmap :: volmaps =>
      if volmap.containerPath ≠ path then updateFirst s path contents volmaps
      else if volmap.volume.provider ≠ .«local» then (s, .error (.notFile path))
      else match writeFile s.files volmap.volume.id contents with
        | none => (s, .error .attach)
        | some files =>
            ({ s with
                files
                mappings := s.mappings.map fun m => if m = volmap then { m with contents := some contents } else m },
              .ok ())

/-- `VolumeMapping.list_by_container`. -/
def listByContainer (s : State) (uuid : Ident) : List Volmap := s.mappings.filter (·.containerUuid = uuid)

/-- `capsule_update_file`. -/
def capsuleUpdateFile (s : State) (c : Capsule) (path contents : String) : State × Except Error Unit :=
  updateFirst s path contents (listByContainer s c.uuid)

/-! ## Runs -/

inductive Event where
  | create (t : Template) (c : Capsule) (attaches : Volmap → Bool)
  /-- A container of its own, with its volumes. -/
  | container (uuid : Ident) (volmaps : List Volmap)
  | updateFile (c : Capsule) (path contents : String)
  /-- `_detach_volumes`, of a member or of another container. -/
  | detach (uuid : Ident)

/-- A uuid is given once. -/
def Fresh (s : State) (uuids : List Ident) : Prop := uuids.Nodup ∧ ∀ uuid ∈ uuids, uuid ∉ s.given

def step : Event → State → State
  | .create t c attaches, s => create attaches t c s
  | .container uuid volmaps, s =>
      { s with
        given := uuid :: s.given
        mappings := s.mappings ++ volmaps.map fun m => { m with containerUuid := uuid } }
  | .updateFile c path contents, s => (capsuleUpdateFile s c path contents).1
  | .detach uuid, s => { s with mappings := s.mappings.filter (·.containerUuid ≠ uuid) }

def Possible : Event → State → Prop
  | .create _ c _, s => Fresh s (c.uuid :: c.members)
  | .container uuid _, s => Fresh s [uuid]
  | _, _ => True

def Begun (s : State) : Prop := s.capsules = [] ∧ s.mappings = []

/-! ## What is claimed -/

/-- A mapping of a volume of a member at a path. -/
def Mounted (s : State) (c : Capsule) (path : String) (m : Volmap) : Prop :=
  m ∈ s.mappings ∧ m.containerUuid ∈ c.members ∧ m.containerPath = path

/-- A member has a file there. -/
def HasFile (s : State) (c : Capsule) (path : String) : Prop :=
  ∃ m, Mounted s c path m ∧ m.volume.provider = .«local»

/-- An update reaches what is mounted at the path, and nothing else. -/
structure Reaches (s : State) (c : Capsule) (path contents : String) : Prop where
  succeeds : (capsuleUpdateFile s c path contents).2 = .ok () ↔ HasFile s c path
  seen : (capsuleUpdateFile s c path contents).2 = .ok () → ∀ m, Mounted s c path m → m.volume.provider = .«local» →
    (capsuleUpdateFile s c path contents).1.files m.volume.id = decodeFileData contents
  others : ∀ m, m ∈ s.mappings → m.containerUuid ∈ c.members →
    (∀ m', Mounted s c path m' → m'.volume.id ≠ m.volume.id) →
      (capsuleUpdateFile s c path contents).1.files m.volume.id = s.files m.volume.id
  raises : (¬ ∃ m, Mounted s c path m) → (capsuleUpdateFile s c path contents).1 = s

/-! ## Whom a mapping is of -/

/-- No mapping is of a capsule. -/
structure Inv (s : State) : Prop where
  mapped : ∀ m ∈ s.mappings, m.containerUuid ∈ s.given
  given : ∀ c ∈ s.capsules, c.uuid ∈ s.given
  apart : ∀ c ∈ s.capsules, ∀ m ∈ s.mappings, m.containerUuid ≠ c.uuid

section

variable {attaches : Volmap → Bool} {s s' : State} {c : Capsule} {t : Template} {path contents : String}
  {volmap : Volmap} {volmaps requested : List Volmap} {uuids : List Ident}

/-- What attaching leaves of the tables. -/
structure Attaching (uuids : List Ident) (s s' : State) : Prop where
  capsules : s'.capsules = s.capsules
  given : s'.given = s.given
  mappings : ∀ m ∈ s'.mappings, m ∈ s.mappings ∨ m.containerUuid ∈ uuids

theorem Attaching.trans {s₁ s₂ s₃ : State} (h : Attaching uuids s₁ s₂) (h' : Attaching uuids s₂ s₃) :
    Attaching uuids s₁ s₃ where
  capsules := h'.capsules.trans h.capsules
  given := h'.given.trans h.given
  mappings m hm := (h'.mappings m hm).elim (h.mappings m) .inr

theorem attachVolume_ok (h : attachVolume attaches s volmap = .ok s') :
    s'.capsules = s.capsules ∧ s'.given = s.given ∧ s'.mappings = s.mappings ++ [volmap] := by
  simp only [attachVolume] at h
  split at h
  · split at h
    · cases h
    · cases h
      exact ⟨rfl, rfl, rfl⟩
  · split at h
    · cases h
      exact ⟨rfl, rfl, rfl⟩
    · cases h

theorem attachVolumes_attaching (h : ∀ m ∈ volmaps, m.containerUuid ∈ uuids) :
    Attaching uuids s (attachVolumes attaches volmaps s).1 := by
  induction volmaps generalizing s with
  | nil => exact ⟨rfl, rfl, fun _ hm => .inl hm⟩
  | cons volmap volmaps ih =>
      simp only [attachVolumes]
      cases hattach : attachVolume attaches s volmap with
      | error e => exact ⟨rfl, rfl, fun _ hm => .inl hm⟩
      | ok s₁ =>
          obtain ⟨hcapsules, hgiven, hmappings⟩ := attachVolume_ok hattach
          have hone : Attaching uuids s s₁ := by
            refine ⟨hcapsules, hgiven, fun m hm => ?_⟩
            rw [hmappings, List.mem_append, List.mem_singleton] at hm
            rcases hm with hm | rfl
            · exact .inl hm
            · exact .inr (h m (List.mem_cons_self ..))
          exact hone.trans (ih fun m hm => h m (List.mem_cons_of_mem _ hm))

theorem attachVolumesForCapsule_attaching (members : List Ident) (h : ∀ uuid ∈ members, uuid ∈ uuids) (s : State) :
    Attaching uuids s (attachVolumesForCapsule attaches requested members s) := by
  induction members generalizing s with
  | nil => exact ⟨rfl, rfl, fun _ hm => .inl hm⟩
  | cons uuid members ih =>
      have hone := @attachVolumes_attaching attaches s (requested.filter (·.containerUuid = uuid)) uuids
        fun m hm => by
          rw [of_decide_eq_true (List.mem_filter.mp hm).2]
          exact h uuid (List.mem_cons_self ..)
      simp only [attachVolumesForCapsule]
      cases hattach : attachVolumes attaches (requested.filter (·.containerUuid = uuid)) s with
      | mk s₁ all =>
          rw [hattach] at hone
          cases all with
          | false => exact hone
          | true => exact hone.trans (ih (fun u hu => h u (List.mem_cons_of_mem _ hu)) s₁)

/-- What a create leaves of the tables. -/
theorem create_cases (attaches : Volmap → Bool) (t : Template) (c : Capsule) (s : State) :
    (create attaches t c s).given = c.uuid :: c.members ++ s.given ∧
      (∀ c' ∈ (create attaches t c s).capsules, c' = c ∨ c' ∈ s.capsules) ∧
      ∀ m ∈ (create attaches t c s).mappings, m ∈ s.mappings ∨ m.containerUuid ∈ c.members := by
  unfold create
  split
  · exact ⟨rfl, fun _ hc' => .inr hc', fun _ hm => .inl hm⟩
  · next requested _ =>
    have hattaching := @attachVolumesForCapsule_attaching attaches requested c.members c.members
      (fun _ huuid => huuid)
      { s with
        capsules := c :: s.capsules
        given := c.uuid :: c.members ++ s.given
        nextVolume := s.nextVolume + t.volumes.length }
    refine ⟨hattaching.given, fun c' hc' => ?_, hattaching.mappings⟩
    rw [hattaching.capsules] at hc'
    exact List.mem_cons.mp hc'

theorem Inv.create (h : Inv s) (hfresh : Fresh s (c.uuid :: c.members)) : Inv (create attaches t c s) := by
  obtain ⟨hgiven, hcapsules, hmappings⟩ := create_cases attaches t c s
  obtain ⟨hnodup, hunused⟩ := hfresh
  have hmembers : ∀ uuid ∈ c.members, uuid ∈ c.uuid :: c.members ++ s.given := fun uuid huuid => by
    simp [huuid]
  have hnew : c.uuid ∉ c.members := (List.nodup_cons.mp hnodup).1
  constructor
  case mapped =>
    intro m hm
    rw [hgiven]
    rcases hmappings m hm with hm | hm
    · exact List.mem_append_right _ (h.mapped m hm)
    · exact hmembers _ hm
  case given =>
    intro c' hc'
    rw [hgiven]
    rcases hcapsules c' hc' with rfl | hc'
    · simp
    · exact List.mem_append_right _ (h.given c' hc')
  case apart =>
    intro c' hc' m hm heq
    rcases hmappings m hm with hold | hmember
    · rcases hcapsules c' hc' with rfl | hkept
      · exact hunused c'.uuid (List.mem_cons_self ..) (heq ▸ h.mapped m hold)
      · exact h.apart c' hkept m hold heq
    · rcases hcapsules c' hc' with rfl | hkept
      · exact hnew (heq ▸ hmember)
      · exact hunused m.containerUuid (List.mem_cons_of_mem _ hmember) (heq ▸ h.given c' hkept)

theorem updateFirst_mappings (s : State) (path contents : String) (volmaps : List Volmap) :
    (updateFirst s path contents volmaps).1.capsules = s.capsules ∧
      (updateFirst s path contents volmaps).1.given = s.given ∧
      ∀ m ∈ (updateFirst s path contents volmaps).1.mappings, ∃ m' ∈ s.mappings,
        m.containerUuid = m'.containerUuid := by
  induction volmaps with
  | nil => exact ⟨rfl, rfl, fun m hm => ⟨m, hm, rfl⟩⟩
  | cons volmap volmaps ih =>
      simp only [updateFirst]
      split
      · exact ih
      · split
        · exact ⟨rfl, rfl, fun m hm => ⟨m, hm, rfl⟩⟩
        · split
          · exact ⟨rfl, rfl, fun m hm => ⟨m, hm, rfl⟩⟩
          · refine ⟨rfl, rfl, fun m hm => ?_⟩
            obtain ⟨m', hm', rfl⟩ := List.mem_map.mp hm
            refine ⟨m', hm', ?_⟩
            split <;> rfl

theorem Inv.step {e : Event} (h : Inv s) (hpossible : Possible e s) : Inv (step e s) := by
  cases e with
  | create t c attaches => exact h.create hpossible
  | container uuid volmaps =>
      have hnew : uuid ∉ s.given := hpossible.2 uuid (List.mem_singleton_self _)
      have hcases : ∀ m ∈ (UpdateFile.step (.container uuid volmaps) s).mappings,
          m ∈ s.mappings ∨ m.containerUuid = uuid := by
        intro m hm
        rcases List.mem_append.mp hm with hm | hm
        · exact .inl hm
        · obtain ⟨m', -, rfl⟩ := List.mem_map.mp hm
          exact .inr rfl
      constructor
      case mapped =>
        intro m hm
        rcases hcases m hm with hm | hm
        · exact List.mem_cons_of_mem _ (h.mapped m hm)
        · exact hm ▸ List.mem_cons_self ..
      case given => exact fun c hc => List.mem_cons_of_mem _ (h.given c hc)
      case apart =>
        intro c hc m hm heq
        rcases hcases m hm with hm | hm
        · exact h.apart c hc m hm heq
        · exact hnew (hm ▸ heq ▸ h.given c hc)
  | updateFile c path contents =>
      obtain ⟨hcapsules, hgiven, hmappings⟩ := updateFirst_mappings s path contents (listByContainer s c.uuid)
      constructor
      case mapped =>
        intro m hm
        obtain ⟨m', hm', heq⟩ := hmappings m hm
        exact heq ▸ hgiven ▸ h.mapped m' hm'
      case given => exact fun c' hc' => hgiven ▸ h.given c' (hcapsules ▸ hc')
      case apart =>
        intro c' hc' m hm
        obtain ⟨m', hm', heq⟩ := hmappings m hm
        exact heq ▸ h.apart c' (hcapsules ▸ hc') m' hm'
  | detach uuid =>
      exact ⟨fun m hm => h.mapped m (List.mem_filter.mp hm).1, h.given,
        fun c hc m hm => h.apart c hc m (List.mem_filter.mp hm).1⟩

theorem inv_of_reached (h : Reached Begun step Possible s) : Inv s := by
  refine h.invariant (fun s hs => ?_) fun e s hpossible hinv => hinv.step hpossible
  obtain ⟨hcapsules, hmappings⟩ := hs
  constructor
  · simp [hmappings]
  · simp [hcapsules]
  · simp [hcapsules]

/-! ## Which files a template mounts -/

/-- What is requested: every volume at every mount of its name. -/
theorem mem_buildRequestedVolumes {requests : List (Mount × Ident)} {specs : List VolumeSpec} :
    ∀ {next : Nat} {requested : List Volmap}, buildRequestedVolumes requests next specs = .ok requested →
      ∀ m, m ∈ requested ↔ ∃ i spec, specs[i]? = some spec ∧ ∃ request ∈ requests, request.1.name = spec.name ∧
        m = mapped { id := next + i, provider := spec.source.provider } spec.source request := by
  induction specs with
  | nil =>
      intro next requested h m
      cases h
      simp
  | cons spec specs ih =>
      intro next requested h m
      simp only [buildRequestedVolumes] at h
      split at h
      · cases h
      split at h
      · cases h
      cases hrest : buildRequestedVolumes requests (next + 1) specs with
      | error e => simp [hrest, Functor.map, Except.map] at h
      | ok rest =>
          simp only [hrest, Functor.map, Except.map, Except.ok.injEq] at h
          subst h
          rw [List.mem_append, ih hrest m]
          constructor
          · rintro (hm | ⟨i, spec', hspec, request, hrequest, hname, rfl⟩)
            · obtain ⟨request, hrequest, rfl⟩ := List.mem_map.mp hm
              obtain ⟨hmem, hname⟩ := List.mem_filter.mp hrequest
              exact ⟨0, spec, rfl, request, hmem, of_decide_eq_true hname, rfl⟩
            · exact ⟨i + 1, spec', hspec, request, hrequest, hname, by rw [Nat.add_assoc, Nat.add_comm 1 i]⟩
          · rintro ⟨i, spec', hspec, request, hrequest, hname, rfl⟩
            cases i with
            | zero =>
                obtain rfl := Option.some.inj hspec
                exact .inl (List.mem_map_of_mem (List.mem_filter.mpr ⟨hrequest, decide_eq_true hname⟩))
            | succ i =>
                refine .inr ⟨i, spec', hspec, request, hrequest, hname, ?_⟩
                rw [Nat.add_assoc, Nat.add_comm 1 i]

/-- Nothing stands in the way of attaching it: a file is base64, anything else is attached. -/
def Attachable (attaches : Volmap → Bool) (m : Volmap) : Prop :=
  match m.volume.provider, m.contents with
  | .«local», some contents => (decodeFileData contents).isSome
  | _, _ => attaches m = true

theorem exists_attachVolume (h : Attachable attaches volmap) (s : State) :
    ∃ s', attachVolume attaches s volmap = .ok s' := by
  simp only [attachVolume]
  unfold Attachable at h
  split at h
  · next contents hprovider hcontents =>
    obtain ⟨data, hdata⟩ := Option.isSome_iff_exists.mp h
    simp [writeFile, hdata]
  · simp [h]

theorem attachVolumes_all (h : ∀ m ∈ volmaps, Attachable attaches m) (s : State) :
    (attachVolumes attaches volmaps s).2 = true ∧
      (attachVolumes attaches volmaps s).1.mappings = s.mappings ++ volmaps := by
  induction volmaps generalizing s with
  | nil => simp [attachVolumes]
  | cons volmap volmaps ih =>
      obtain ⟨s₁, hs₁⟩ := exists_attachVolume (h volmap (List.mem_cons_self ..)) s
      obtain ⟨hall, hmappings⟩ := ih (fun m hm => h m (List.mem_cons_of_mem _ hm)) s₁
      simp only [attachVolumes, hs₁]
      refine ⟨hall, ?_⟩
      rw [hmappings, (attachVolume_ok hs₁).2.2, List.append_assoc, List.singleton_append]

theorem attachVolumesForCapsule_all (h : ∀ m ∈ requested, Attachable attaches m) (members : List Ident) (s : State) :
    (attachVolumesForCapsule attaches requested members s).mappings =
      s.mappings ++ members.flatMap fun uuid => requested.filter (·.containerUuid = uuid) := by
  induction members generalizing s with
  | nil => simp [attachVolumesForCapsule]
  | cons uuid members ih =>
      obtain ⟨hall, hmappings⟩ := @attachVolumes_all attaches (requested.filter (·.containerUuid = uuid))
        (fun m hm => h m (List.mem_filter.mp hm).1) s
      simp only [attachVolumesForCapsule]
      cases hattach : attachVolumes attaches (requested.filter (·.containerUuid = uuid)) s with
      | mk s₁ all =>
          rw [hattach] at hall hmappings
          simp only at hall hmappings
          subst hall
          rw [ih, hmappings, List.flatMap_cons, List.append_assoc]

/-- In every run the members of a new capsule whose volumes are attached have a file at a path just where the template mounts one
there. -/
theorem hasFile_create_iff (h : Reached Begun step Possible s) (hfresh : Fresh s (c.uuid :: c.members))
    (hbuild : buildRequestedVolumes (requestsOf (t.inits ++ t.containers) c.members) s.nextVolume t.volumes =
      .ok requested) (hattach : ∀ m ∈ requested, Attachable attaches m) :
    HasFile (create attaches t c s) c path ↔
      ∃ spec ∈ t.volumes, spec.source.provider = .«local» ∧
        ∃ request ∈ requestsOf (t.inits ++ t.containers) c.members,
          request.1.name = spec.name ∧ request.1.mountPath = path := by
  have hmappings : (create attaches t c s).mappings =
      s.mappings ++ c.members.flatMap fun uuid => requested.filter (·.containerUuid = uuid) := by
    simp only [create, hbuild]
    exact attachVolumesForCapsule_all hattach c.members _
  have hmember : ∀ request ∈ requestsOf (t.inits ++ t.containers) c.members, request.2 ∈ c.members := by
    intro request hrequest
    obtain ⟨⟨mounts, uuid⟩, hzip, hmem⟩ := List.mem_flatMap.mp hrequest
    obtain ⟨mount, -, rfl⟩ := List.mem_map.mp hmem
    exact (List.of_mem_zip hzip).2
  constructor
  · rintro ⟨m, ⟨hm, huuid, rfl⟩, hlocal⟩
    rw [hmappings, List.mem_append, List.mem_flatMap] at hm
    rcases hm with hm | ⟨uuid, -, hm⟩
    · exact absurd ((inv_of_reached h).mapped m hm) (hfresh.2 _ (List.mem_cons_of_mem _ huuid))
    · obtain ⟨i, spec, hspec, request, hrequest, hname, rfl⟩ :=
        (mem_buildRequestedVolumes hbuild m).mp (List.mem_filter.mp hm).1
      exact ⟨spec, List.mem_of_getElem? hspec, hlocal, request, hrequest, hname, rfl⟩
  · rintro ⟨spec, hspec, hlocal, request, hrequest, hname, rfl⟩
    obtain ⟨i, hi⟩ := List.mem_iff_getElem?.mp hspec
    have hm := (mem_buildRequestedVolumes hbuild _).mpr ⟨i, spec, hi, request, hrequest, hname, rfl⟩
    refine ⟨mapped { id := s.nextVolume + i, provider := spec.source.provider } spec.source request,
      ⟨?_, hmember request hrequest, rfl⟩, hlocal⟩
    rw [hmappings, List.mem_append, List.mem_flatMap]
    exact .inr ⟨request.2, hmember request hrequest, List.mem_filter.mpr ⟨hm, decide_eq_true rfl⟩⟩

/-! ## The update of a file -/

/-- The update of a file of a capsule finds nothing. -/
theorem capsuleUpdateFile_eq (h : Inv s) (hc : c ∈ s.capsules) :
    capsuleUpdateFile s c path contents = (s, .error (.volumeMappingNotFound path)) := by
  have hnone : listByContainer s c.uuid = [] := by
    refine List.filter_eq_nil_iff.mpr fun m hm heq => ?_
    exact h.apart c hc m hm (of_decide_eq_true heq)
  rw [capsuleUpdateFile, hnone]
  rfl

/-- In every run, the update of a file of a capsule does what it is for if and only if there is no such file. -/
theorem reaches_iff (s : State) (c : Capsule) (path contents : String) (hs : Reached Begun step Possible s)
    (hc : c ∈ s.capsules) : Reaches s c path contents ↔ ¬ HasFile s c path := by
  have heq := @capsuleUpdateFile_eq s c path contents (inv_of_reached hs) hc
  constructor
  · intro h hfile
    have hok := h.succeeds.mpr hfile
    rw [heq] at hok
    cases hok
  · intro hnone
    constructor
    case succeeds => simp [heq, hnone]
    case seen => simp [heq]
    case others => simp [heq]
    case raises => simp [heq]

end

/-! ## A file of a capsule -/

/-- A container that mounts a file. -/
def tokenFile : Template where
  volumes := [{ name := "token", source := .file "b2xk" }]
  inits := []
  containers := [[{ name := "token", mountPath := "/token" }]]

def tokenCapsule : Capsule where
  uuid := 0
  initContainers := []
  containers := [1]

def tokenVolmap : Volmap where
  containerUuid := 1
  containerPath := "/token"
  contents := some "b2xk"
  volume :=
    { id := 0
      provider := .«local» }

def tokenState : State := step (.create tokenFile tokenCapsule fun _ => true) {}

theorem reached_tokenState : Reached Begun step Possible tokenState :=
  .step _ (.init ⟨rfl, rfl⟩) ⟨by decide, by simp⟩

theorem hasFile_tokenState : HasFile tokenState tokenCapsule "/token" ↔
    ∃ spec ∈ tokenFile.volumes, spec.source.provider = .«local» ∧
      ∃ request ∈ requestsOf (tokenFile.inits ++ tokenFile.containers) tokenCapsule.members,
        request.1.name = spec.name ∧ request.1.mountPath = "/token" := by
  have hattach : ∀ m ∈ [tokenVolmap], Attachable (fun _ => true) m := by
    intro m hm
    obtain rfl := List.mem_singleton.mp hm
    exact (by decide : (decodeFileData "b2xk").isSome)
  exact @hasFile_create_iff _ _ _ _ _ _ (.init ⟨rfl, rfl⟩) ⟨by decide, by simp⟩
    (by decide +kernel) hattach

theorem reaches_elsewhere :
    Reaches tokenState tokenCapsule "/other" "bmV3" ↔ ¬ HasFile tokenState tokenCapsule "/other" :=
  reaches_iff tokenState tokenCapsule "/other" "bmV3" reached_tokenState (by decide +kernel)

/-- The file is there, and its update is refused. -/
theorem not_reaches : ¬ ∀ (s : State) (c : Capsule) (path contents : String),
    Reached Begun step Possible s → c ∈ s.capsules → Reaches s c path contents := by
  intro h
  have hfile : HasFile tokenState tokenCapsule "/token" :=
    ⟨tokenVolmap, ⟨by decide +kernel, by decide +kernel, rfl⟩, rfl⟩
  have hok := (h tokenState tokenCapsule "/token" "bmV3" reached_tokenState (by decide +kernel)).succeeds.mpr hfile
  have herror : (capsuleUpdateFile tokenState tokenCapsule "/token" "bmV3").2.isOk = false := by decide +kernel
  rw [hok] at herror
  cases herror

end UpdateFile

end Zun
