import Zun.Container.Cri.Changes
import Zun.Data.ContentStore
import Mathlib.Data.Fintype.EquivFin

/-!
# An image made of a container

`Committer.commit` of `zun/container/cri/commit.py`, with `base_manifest`, `diff_id` and `write_blob`, over a store
of content and the names of images.

The layer that is added is the difference to the snapshot that the container was started on.  The manifest that it
is added to is looked up by the name of the image, and in an index by a platform, when the commit is made.
-/

namespace Zun

open Changes

namespace Committer

/-! ## Images -/

/-- Digests are of the type `D`; the configuration of an image has other keys, of the type `β`. -/
structure Platform where
  architecture : String
  os : String
deriving DecidableEq

structure Descriptor (D : Type) where
  mediaType : String
  digest : D
deriving DecidableEq

/-- An entry of an index. -/
structure Entry (D : Type) extends Descriptor D where
  platform : Option Platform := none
deriving DecidableEq

structure Manifest (D : Type) where
  config : Descriptor D
  layers : List (Descriptor D) := []
deriving DecidableEq

structure HistoryEntry where
  createdBy : String
  comment : String
  author : Option String
deriving DecidableEq

/-- The config blob of an image. -/
structure ImageConfig (D β : Type) where
  /-- `rootfs.diff_ids`. -/
  diffIds : List D := []
  history : List HistoryEntry := []
  author : Option String := none
  config : Option (Changes.Config β) := none

inductive Blob (D β : Type) where
  | index (manifests : List (Entry D))
  | manifest (m : Manifest D)
  | config (c : ImageConfig D β)
  /-- What is no JSON. -/
  | data (bytes : String)

variable {D β : Type}

/-- `index.get('manifests', [])`: another object has none. -/
def Blob.asIndex : Blob D β → Option (List (Entry D))
  | index manifests => some manifests
  | manifest _ => some []
  | config _ => some []
  | data _ => none

/-- `manifest['config']['digest']` raises where the blob is something else. -/
def Blob.asManifest : Blob D β → Option (Manifest D)
  | manifest m => some m
  | _ => none

/-- Another object lacks the keys of a config, and they are set on it. -/
def Blob.asConfig : Blob D β → Option (ImageConfig D β)
  | index _ => some {}
  | manifest _ => some {}
  | config c => some c
  | data _ => none

def manifestTypes : List String :=
  ["application/vnd.oci.image.manifest.v1+json", "application/vnd.docker.distribution.manifest.v2+json"]

def indexTypes : List String :=
  ["application/vnd.oci.image.index.v1+json", "application/vnd.docker.distribution.manifest.list.v2+json"]

/-- The labels of a blob: what keeps the parts of a manifest alive. -/
abbrev Labels (D : Type) := List (String × D)

def gcLabels (m : Manifest D) : Labels D :=
  ("containerd.io/gc.ref.content.config", m.config.digest) ::
    m.layers.mapIdx fun i layer => ("containerd.io/gc.ref.content.l." ++ toString i, layer.digest)

/-- A manifest has the labels that a pull, as much as a commit, gives it. -/
def HasLabels (b : Blob D β) (labels : Labels D) : Prop := ∀ m, b = .manifest m → labels = gcLabels m

/-- An image of the store, with the label of a committed one. -/
structure Image (D : Type) where
  name : String
  target : Descriptor D
  source : Option String := none
deriving DecidableEq

/-- containerd, as a commit finds and leaves it. -/
structure State (digest : Digest D (Blob D β)) where
  content : ContentStore digest (Labels D)
  images : List (Image D)
  labelled : content.Labelled HasLabels

/-! ## The commit -/

structure Container (D : Type) where
  uuid : String
  containerId : String
  /-- The name of its image. -/
  image : String
  /-- The manifest of the image that it was started from, for the platform of the node. -/
  running : Manifest D
deriving DecidableEq

/-- What the diff service answers with.  It records the digest of the uncompressed layer, if it does. -/
structure Layer (uncompressed : D → D) where
  descriptor : Descriptor D
  recorded : Option D
  recorded_eq : ∀ d, recorded = some d → d = uncompressed descriptor.digest

/-- The calls that may raise. -/
inductive Call where
  | stat | view | mounts | diff | remove | readLayer | getImage | read | writeConfig | writeManifest | create
deriving DecidableEq

inductive Error where
  /-- `RpcError`. -/
  | rpc
  /-- `ValueError` or `KeyError`: a blob is not what it is read as. -/
  | malformed
  /-- `ZunException`: the index has no manifest for the platform. -/
  | noPlatform (image : String)
  /-- `ZunException`: the image is neither a manifest nor an index. -/
  | storedAs (image type : String)
  | changes (e : Changes.Error)
deriving DecidableEq

/-- The arguments of a commit, and what containerd is up to. -/
structure Request (uncompressed : D → D) where
  layer : Layer uncompressed
  refuses : Call → Bool := fun _ => false
  name : String
  source : Option String := none
  message : Option String := none
  author : Option String := none
  changes : List String := []

section

variable {digest : Digest D (Blob D β)} {uncompressed : D → D}

/-- `json.loads(self.read_blob(..))`, of what is wanted of it. -/
def readBlob {α : Type} (refuses : Call → Bool) (s : State digest) (d : D) (wanted : Blob D β → Option α) :
    Except Error α :=
  if refuses .read then .error .rpc
  else match s.content.read d with
    | none => .error .rpc
    | some b => match wanted b with
      | none => .error .malformed
      | some a => .ok a

/-- `diff_layer`.  That the view is not removed is logged. -/
def diffLayer (r : Request uncompressed) : Except Error (Layer uncompressed) :=
  if r.refuses .stat || r.refuses .view || r.refuses .mounts || r.refuses .diff then .error .rpc
  else .ok r.layer

/-- `diff_id`. -/
def diffId (refuses : Call → Bool) (layer : Layer uncompressed) : Except Error D :=
  match layer.recorded with
  | some d => .ok d
  | none => if refuses .readLayer then .error .rpc else .ok (uncompressed layer.descriptor.digest)

/-- The entry of an index that a commit builds on. -/
def isAmd64 (entry : Entry D) : Bool :=
  entry.platform.any fun platform => platform.architecture = "amd64" && platform.os = "linux"

/-- `base_manifest`. -/
def baseManifest (refuses : Call → Bool) (s : State digest) (imageName : String) :
    Except Error (String × Manifest D) :=
  if refuses .getImage then .error .rpc
  else match s.images.find? (·.name = imageName) with
    | none => .error .rpc
    | some image =>
        if image.target.mediaType ∈ indexTypes then do
          let manifests ← readBlob refuses s image.target.digest Blob.asIndex
          match manifests.find? isAmd64 with
          | none => .error (.noPlatform imageName)
          | some entry =>
              let manifest ← readBlob refuses s entry.digest Blob.asManifest
              .ok (entry.mediaType, manifest)
        else if image.target.mediaType ∈ manifestTypes then do
          let manifest ← readBlob refuses s image.target.digest Blob.asManifest
          .ok (image.target.mediaType, manifest)
        else .error (.storedAs imageName image.target.mediaType)

/-- `if message`, and the same of an author. -/
def truthy : Option String → Option String
  | some "" => none
  | s => s

/-- The entry that is added to the history. -/
def historyEntry (container : Container D) (r : Request uncompressed) : HistoryEntry where
  createdBy := "zun commit " ++ container.uuid
  comment := (truthy r.message).getD ("committed from container " ++ container.uuid)
  author := truthy r.author

variable [Inhabited β]

/-- The changes, applied to `config.setdefault('config', {})`. -/
def withChanges (changes : List String) (c : ImageConfig D β) : Except Error (ImageConfig D β) :=
  if changes = [] then .ok c
  else match applyChanges (c.config.getD { rest := default }) changes with
    | .error e => .error (.changes e)
    | .ok config => .ok { c with config := some config }

/-- What `commit` puts together before it writes anything: the media type and the manifest that it builds on, and
the config that it will write. -/
def assemble (s : State digest) (container : Container D) (r : Request uncompressed) :
    Except Error (String × Manifest D × ImageConfig D β) := do
  let layer ← diffLayer r
  let diffId ← diffId r.refuses layer
  let (mediaType, manifest) ← baseManifest r.refuses s container.image
  let config ← readBlob r.refuses s manifest.config.digest Blob.asConfig
  let config ← withChanges r.changes
    { config with
      diffIds := config.diffIds ++ [diffId]
      author := (truthy r.author).or config.author
      history := config.history ++ [historyEntry container r] }
  .ok (mediaType, manifest, config)

variable [DecidableEq D]

def State.write (s : State digest) (b : Blob D β) (labels : Labels D) (h : HasLabels b labels) : State digest where
  content := s.content.write b labels
  images := s.images
  labelled := s.labelled.write h

/-- The manifest that is written. -/
def committed (digest : Digest D (Blob D β)) (manifest : Manifest D) (config : ImageConfig D β)
    (layer : Layer uncompressed) : Manifest D where
  config :=
    { mediaType := manifest.config.mediaType
      digest := digest.of (.config config) }
  layers := manifest.layers ++ [layer.descriptor]

/-- `commit`. -/
def commit (s : State digest) (container : Container D) (r : Request uncompressed) :
    State digest × Except Error D :=
  match assemble s container r with
  | .error e => (s, .error e)
  | .ok (mediaType, manifest, config) =>
      if r.refuses .writeConfig then (s, .error .rpc)
      else
        let s₁ := s.write (.config config) [] (fun _ h => nomatch h)
        let manifest := committed digest manifest config r.layer
        if r.refuses .writeManifest then (s₁, .error .rpc)
        else
          let s₂ := s₁.write (.manifest manifest) (gcLabels manifest) (fun _ h => by cases h; rfl)
          if r.refuses .create || s₂.images.any (·.name = r.name) then (s₂, .error .rpc)
          else
            let target : Descriptor D :=
              { mediaType
                digest := digest.of (.manifest manifest) }
            ({ s₂ with images := s₂.images ++ [{ name := r.name, target, source := truthy r.source }] },
              .ok target.digest)

/-! ## What is claimed -/

/-- The image that is recorded is the container's: it has the layers of the image that runs and the one that was
added, and what it is made of is named where it has to be. -/
structure Recorded (s' : State digest) (container : Container D) (r : Request uncompressed) (d : D) : Prop where
  named : ∃ image ∈ s'.images, image.name = r.name ∧ image.target.digest = d
  parts : ∃ m c labels, s'.content.entry d = some (.manifest m, labels) ∧
    s'.content.read m.config.digest = some (.config c) ∧
    m.layers = container.running.layers ++ [r.layer.descriptor] ∧
    c.diffIds = m.layers.map (fun layer => uncompressed layer.digest) ∧
    ∀ part ∈ m.config.digest :: m.layers.map (·.digest), part ∈ labels.map (·.2)

/-- Whatever is asked, no image is recorded or it is the container's. -/
def Commits (uncompressed : D → D) (s : State digest) (container : Container D) : Prop :=
  ∀ r : Request uncompressed, match commit s container r with
    | (s', .error _) => s'.images = s.images
    | (s', .ok d) => Recorded s' container r d

end

section

variable {digest : Digest D (Blob D β)} {uncompressed : D → D}

/-- The manifest that a name leads to, by way of the first entry of an index for a platform. -/
inductive Leads (s : State digest) (platform : Platform) (name : String) (m : Manifest D) : Prop where
  | manifest (image : Image D) : s.images.find? (·.name = name) = some image →
      image.target.mediaType ∈ manifestTypes → s.content.read image.target.digest = some (.manifest m) →
        Leads s platform name m
  | index (image : Image D) (b : Blob D β) (manifests : List (Entry D)) (entry : Entry D) :
      s.images.find? (·.name = name) = some image → image.target.mediaType ∈ indexTypes →
        s.content.read image.target.digest = some b → b.asIndex = some manifests →
          manifests.find? (·.platform = some platform) = some entry →
            s.content.read entry.digest = some (.manifest m) → Leads s platform name m

/-- The manifest that a name leads to and its config. -/
def Resolves (s : State digest) (platform : Platform) (name : String) (m : Manifest D) (c : ImageConfig D β) :
    Prop :=
  Leads s platform name m ∧ ∃ b, s.content.read m.config.digest = some b ∧ b.asConfig = some c

/-- The platform that a commit builds on. -/
def amd64 : Platform where
  architecture := "amd64"
  os := "linux"

theorem isAmd64_eq : (isAmd64 : Entry D → Bool) = fun entry => decide (entry.platform = some amd64) := by
  funext entry
  cases hplatform : entry.platform with
  | none => simp [isAmd64, hplatform]
  | some platform =>
      cases platform
      simp [isAmd64, hplatform, amd64]

/-! ## What is built on -/

theorem readBlob_ok {α : Type} {refuses : Call → Bool} {s : State digest} {d : D} {wanted : Blob D β → Option α}
    {a : α} (h : readBlob refuses s d wanted = .ok a) :
    ∃ b, s.content.read d = some b ∧ wanted b = some a := by
  unfold readBlob at h
  split at h
  · cases h
  · cases hread : s.content.read d with
    | none => simp [hread] at h
    | some b =>
        cases hwanted : wanted b with
        | none => simp [hread, hwanted] at h
        | some a' =>
            simp only [hread, hwanted, Except.ok.injEq] at h
            exact ⟨b, rfl, by rw [hwanted, h]⟩

theorem readBlob_of {α : Type} {refuses : Call → Bool} {s : State digest} {d : D} {wanted : Blob D β → Option α}
    {a : α} {b : Blob D β} (hrefuses : refuses .read = false) (hread : s.content.read d = some b)
    (hwanted : wanted b = some a) : readBlob refuses s d wanted = .ok a := by
  simp [readBlob, hrefuses, hread, hwanted]

theorem asManifest_eq_some {b : Blob D β} {m : Manifest D} (h : b.asManifest = some m) : b = .manifest m := by
  cases b with
  | manifest m' => rw [Option.some_inj.mp h]
  | index manifests => cases h
  | config c => cases h
  | data bytes => cases h

theorem baseManifest_ok {refuses : Call → Bool} {s : State digest} {name mediaType : String} {m : Manifest D}
    (h : baseManifest refuses s name = .ok (mediaType, m)) : Leads s amd64 name m := by
  unfold baseManifest at h
  split at h
  · cases h
  cases himage : s.images.find? (·.name = name) with
  | none => simp [himage] at h
  | some image =>
      simp only [himage] at h
      split at h
      · next hindex =>
        cases hmanifests : readBlob refuses s image.target.digest Blob.asIndex with
        | error e => simp [hmanifests, bind, Except.bind] at h
        | ok manifests =>
            obtain ⟨b, hread, hb⟩ := readBlob_ok hmanifests
            simp only [isAmd64_eq] at h
            cases hentry : manifests.find? (·.platform = some amd64) with
            | none => simp [hmanifests, hentry, bind, Except.bind] at h
            | some entry =>
                cases hm : readBlob refuses s entry.digest Blob.asManifest with
                | error e => simp [hmanifests, hentry, hm, bind, Except.bind] at h
                | ok m' =>
                    simp only [hmanifests, hentry, hm, bind, Except.bind, Except.ok.injEq, Prod.mk.injEq] at h
                    obtain ⟨b', hread', hb'⟩ := readBlob_ok hm
                    rw [asManifest_eq_some hb', h.2] at hread'
                    exact .index image b manifests entry himage hindex hread hb hentry hread'
      · split at h
        · next hmanifest =>
          cases hm : readBlob refuses s image.target.digest Blob.asManifest with
          | error e => simp [hm, bind, Except.bind] at h
          | ok m' =>
              simp only [hm, bind, Except.bind, Except.ok.injEq, Prod.mk.injEq] at h
              obtain ⟨b, hread, hb⟩ := readBlob_ok hm
              rw [asManifest_eq_some hb, h.2] at hread
              exact .manifest image himage hmanifest hread
        · cases h

theorem notMem_indexTypes {type : String} (h : type ∈ manifestTypes) : type ∉ indexTypes := by
  revert type
  decide

theorem exists_baseManifest {s : State digest} {name : String} {m : Manifest D} (h : Leads s amd64 name m) :
    ∃ mediaType, baseManifest (fun _ => false) s name = .ok (mediaType, m) := by
  cases h with
  | manifest image himage hmanifest hread =>
      have hm : readBlob (fun _ => false) s image.target.digest Blob.asManifest = .ok m :=
        readBlob_of rfl hread rfl
      exact ⟨image.target.mediaType, by
        simp [baseManifest, himage, notMem_indexTypes hmanifest, hmanifest, hm, bind, Except.bind]⟩
  | index image b manifests entry himage hindex hread hb hentry hread' =>
      have hmanifests : readBlob (fun _ => false) s image.target.digest Blob.asIndex = .ok manifests :=
        readBlob_of rfl hread hb
      have hm : readBlob (fun _ => false) s entry.digest Blob.asManifest = .ok m := readBlob_of rfl hread' rfl
      exact ⟨entry.mediaType, by
        simp [baseManifest, himage, hindex, hmanifests, isAmd64_eq, hentry, hm, bind, Except.bind]⟩

theorem diffId_ok {refuses : Call → Bool} {layer : Layer uncompressed} {d : D}
    (h : diffId refuses layer = .ok d) : d = uncompressed layer.descriptor.digest := by
  unfold diffId at h
  split at h
  · next d' hd' =>
    cases h
    exact layer.recorded_eq _ hd'
  · split at h
    · cases h
    · cases h
      rfl

theorem part_mem_labels {m : Manifest D} {part : D} (h : part ∈ m.config.digest :: m.layers.map (·.digest)) :
    part ∈ (gcLabels m).map (·.2) := by
  rcases List.mem_cons.mp h with rfl | h
  · simp [gcLabels]
  · obtain ⟨layer, hlayer, rfl⟩ := List.mem_map.mp h
    obtain ⟨i, hi, rfl⟩ := List.getElem_of_mem hlayer
    simp only [gcLabels, List.map_cons, List.mem_cons, List.mem_map]
    right
    exact ⟨("containerd.io/gc.ref.content.l." ++ toString i, m.layers[i].digest),
      List.mem_mapIdx.mpr ⟨i, hi, rfl⟩, rfl⟩

/-- The two blobs are in the store, with the labels of the manifest. -/
theorem written_parts [DecidableEq D] (s : State digest) (m : Manifest D) (c : ImageConfig D β)
    (h : m.config.digest = digest.of (.config c)) (hc : HasLabels (.config c : Blob D β) [])
    (hm : HasLabels (.manifest m : Blob D β) (gcLabels m)) :
    ((s.write (.config c) [] hc).write (.manifest m) (gcLabels m) hm).content.entry (digest.of (.manifest m)) =
        some (.manifest m, gcLabels m) ∧
      ((s.write (.config c) [] hc).write (.manifest m) (gcLabels m) hm).content.read m.config.digest =
        some (.config c) := by
  constructor
  · obtain ⟨labels, hentry⟩ := ContentStore.read_eq_some_iff.mp
      (ContentStore.read_write_self (s.write (.config c) [] hc).content (.manifest m) (gcLabels m))
    have hlabels := ((s.write (.config c) [] hc).write (.manifest m) (gcLabels m) hm).labelled _ _ _ hentry m rfl
    exact hlabels ▸ hentry
  · rw [h]
    exact ContentStore.read_write (ContentStore.read_write_self s.content (.config c) []) _ _

theorem exists_name (images : List (Image D)) : ∃ name, images.any (·.name = name) = false := by
  have hinfinite : Infinite String := by
    refine Infinite.of_injective (fun n => String.ofList (List.replicate n 'a')) fun n k h => ?_
    simpa using congrArg String.length h
  obtain ⟨name, hname⟩ := Infinite.exists_notMem_finset (images.map (·.name)).toFinset
  refine ⟨name, List.any_eq_false.mpr fun image himage heq => hname ?_⟩
  rw [List.mem_toFinset, ← of_decide_eq_true heq]
  exact List.mem_map_of_mem himage

variable [Inhabited β]

theorem withChanges_diffIds {changes : List String} {c c' : ImageConfig D β} (h : withChanges changes c = .ok c') :
    c'.diffIds = c.diffIds := by
  unfold withChanges at h
  split at h
  · cases h
    rfl
  · split at h
    · cases h
    · cases h
      rfl

/-- What is put together is made of what the name leads to. -/
theorem assemble_ok {s : State digest} {container : Container D} {r : Request uncompressed} {mediaType : String}
    {m : Manifest D} {c' : ImageConfig D β} (h : assemble s container r = .ok (mediaType, m, c')) :
    ∃ c, Resolves s amd64 container.image m c ∧ c'.diffIds = c.diffIds ++ [uncompressed r.layer.descriptor.digest] := by
  unfold assemble at h
  cases hlayer : diffLayer r with
  | error e => simp [hlayer, bind, Except.bind] at h
  | ok layer =>
  have hsame : layer = r.layer := by
    unfold diffLayer at hlayer
    split at hlayer
    · cases hlayer
    · cases hlayer
      rfl
  cases hid : diffId r.refuses layer with
  | error e => simp [hlayer, hid, bind, Except.bind] at h
  | ok d =>
  cases hbase : baseManifest r.refuses s container.image with
  | error e => simp [hlayer, hid, hbase, bind, Except.bind] at h
  | ok base =>
  cases hconfig : readBlob r.refuses s base.2.config.digest Blob.asConfig with
  | error e => simp [hlayer, hid, hbase, hconfig, bind, Except.bind] at h
  | ok c =>
  simp only [hlayer, hid, hbase, hconfig, bind, Except.bind] at h
  split at h
  · cases h
  · next c₁ hchanges =>
    cases h
    obtain ⟨b, hread, hb⟩ := readBlob_ok hconfig
    refine ⟨c, ⟨baseManifest_ok hbase, b, hread, hb⟩, ?_⟩
    rw [withChanges_diffIds hchanges, diffId_ok hid, hsame]

/-- A request for which nothing raises and nothing is changed. -/
def plain (uncompressed : D → D) (layer : Descriptor D) (name : String) : Request uncompressed where
  layer :=
    { descriptor := layer
      recorded := none
      recorded_eq := fun _ h => nomatch h }
  name := name

theorem exists_assemble {s : State digest} {container : Container D} {m : Manifest D} {c : ImageConfig D β}
    (h : Resolves s amd64 container.image m c) (layer : Descriptor D) (name : String) :
    ∃ mediaType c', assemble s container (plain uncompressed layer name) = .ok (mediaType, m, c') ∧
      c'.diffIds = c.diffIds ++ [uncompressed layer.digest] := by
  obtain ⟨hleads, b, hread, hb⟩ := h
  obtain ⟨mediaType, hbase⟩ := exists_baseManifest hleads
  have hconfig : readBlob (fun _ => false) s m.config.digest Blob.asConfig = .ok c := readBlob_of rfl hread hb
  exact ⟨mediaType,
    { c with
      diffIds := c.diffIds ++ [uncompressed layer.digest]
      author := c.author
      history := c.history ++ [historyEntry container (plain uncompressed layer name)] },
    by simp [assemble, diffLayer, diffId, plain, hbase, hconfig, withChanges, truthy, bind, Except.bind], rfl⟩

variable [DecidableEq D]

/-! ## What is recorded -/

/-- A commit that ends well, or raises after something was written. -/
theorem commit_cases (s : State digest) (container : Container D) (r : Request uncompressed) :
    (commit s container r).1.images = s.images ∧ (∃ e, (commit s container r).2 = .error e) ∨
      ∃ mediaType m c, assemble s container r = .ok (mediaType, m, c) ∧
        (commit s container r).2 = .ok (digest.of (.manifest (committed digest m c r.layer))) ∧
        (∃ image ∈ (commit s container r).1.images, image.name = r.name ∧
          image.target.digest = digest.of (.manifest (committed digest m c r.layer))) ∧
        (commit s container r).1.content.entry (digest.of (.manifest (committed digest m c r.layer))) =
          some (.manifest (committed digest m c r.layer), gcLabels (committed digest m c r.layer)) ∧
        (commit s container r).1.content.read (committed digest m c r.layer).config.digest = some (.config c) := by
  unfold commit
  cases hassemble : assemble s container r with
  | error e => exact .inl ⟨rfl, e, rfl⟩
  | ok parts =>
      obtain ⟨mediaType, m, c⟩ := parts
      simp only
      split
      · exact .inl ⟨rfl, _, rfl⟩
      split
      · exact .inl ⟨rfl, _, rfl⟩
      split
      · exact .inl ⟨rfl, _, rfl⟩
      · obtain ⟨hmanifest, hconfig⟩ := written_parts s (committed digest m c r.layer) c rfl
          (fun _ h => nomatch h) (fun _ h => by cases h; rfl)
        refine .inr ⟨mediaType, m, c, rfl, rfl, ⟨_, List.mem_append_right _ (List.mem_singleton_self _), rfl, rfl⟩,
          hmanifest, hconfig⟩

/-- Nothing is refused, and the name is free. -/
theorem exists_commit {s : State digest} {container : Container D} {r : Request uncompressed}
    {parts : String × Manifest D × ImageConfig D β} (hassemble : assemble s container r = .ok parts)
    (hrefuses : ∀ call, r.refuses call = false) (hname : s.images.any (·.name = r.name) = false) :
    ∃ d, (commit s container r).2 = .ok d := by
  unfold commit
  rw [hassemble]
  simp only [hrefuses, State.write, hname, Bool.false_eq_true, if_false, Bool.or_self]
  exact ⟨_, rfl⟩

/-- A commit that is right builds on the image that runs: ask for nothing but a new name. -/
theorem Commits.running {s : State digest} {container : Container D} {m : Manifest D} {c : ImageConfig D β}
    (h : Commits uncompressed s container) (hresolves : Resolves s amd64 container.image m c) :
    m.layers = container.running.layers ∧ c.diffIds = m.layers.map fun layer => uncompressed layer.digest := by
  obtain ⟨name, hname⟩ := exists_name s.images
  obtain ⟨mediaType, c', hassemble, hdiffIds⟩ :=
    @exists_assemble _ _ _ uncompressed _ s container m c hresolves m.config name
  have hcommit := h (plain uncompressed m.config name)
  rcases commit_cases s container (plain uncompressed m.config name) with
    ⟨-, e, he⟩ | ⟨mediaType', m', c'', hassemble', hok, -, hentry, hread⟩
  · obtain ⟨d, hd⟩ := exists_commit hassemble (fun _ => rfl) hname
    rw [hd] at he
    cases he
  · rw [hassemble] at hassemble'
    cases hassemble'
    cases hresult : commit s container (plain uncompressed m.config name) with
    | mk s' result =>
        rw [hresult] at hok hentry hread hcommit
        simp only at hok
        subst hok
        obtain ⟨m₂, c₂, labels, hentry₂, hread₂, hlayers, hids, -⟩ := hcommit.parts
        rw [hentry] at hentry₂
        cases hentry₂
        rw [hread] at hread₂
        cases hread₂
        have hrunning : m.layers = container.running.layers := List.append_cancel_right hlayers
        refine ⟨hrunning, ?_⟩
        rw [hdiffIds] at hids
        simp only [committed, List.map_append, List.map_cons, List.map_nil] at hids
        exact List.append_cancel_right hids

theorem commits_of_running {s : State digest} {container : Container D}
    (h : ∀ m c, Resolves s amd64 container.image m c → m.layers = container.running.layers ∧
      c.diffIds = m.layers.map fun layer => uncompressed layer.digest) :
    Commits uncompressed s container := by
  intro r
  cases hresult : commit s container r with
  | mk s' result =>
      rcases commit_cases s container r with
        ⟨himages, e, he⟩ | ⟨mediaType, m, c, hassemble, hok, hnamed, hentry, hread⟩
      · rw [hresult] at himages he
        simp only at himages he
        rw [he]
        exact himages
      · rw [hresult] at hok hnamed hentry hread
        simp only at hok hnamed hentry hread
        rw [hok]
        obtain ⟨base, hresolves, hdiffIds⟩ := assemble_ok hassemble
        obtain ⟨hlayers, hids⟩ := h m base hresolves
        refine ⟨hnamed, committed digest m c r.layer, c, _, hentry, hread, ?_, ?_, ?_⟩
        · rw [committed, hlayers]
        · rw [hdiffIds, hids, committed, List.map_append, List.map_cons, List.map_nil]
        · exact fun part hpart => part_mem_labels hpart

/-- A commit makes an image of the container if and only if what the name of its image leads to now has the
layers of the image that it runs, and a config that lists their digests. -/
theorem commits_iff (uncompressed : D → D) (s : State digest) (container : Container D) :
    Commits uncompressed s container ↔
      ∀ m c, Resolves s amd64 container.image m c → m.layers = container.running.layers ∧
        c.diffIds = m.layers.map fun layer => uncompressed layer.digest :=
  ⟨fun h _ _ hresolves => h.running hresolves, commits_of_running⟩

end

/-! ## From the start of a container to a commit of it -/

/-- What happens to the images: content is stored, and a name is given to a target, by a pull or a tag. -/
inductive Event (D β : Type) where
  | store (b : Blob D β)
  | name (name : String) (target : Descriptor D)

def labelsOf : Blob D β → Labels D
  | .manifest m => gcLabels m
  | _ => []

theorem hasLabels_labelsOf (b : Blob D β) : HasLabels b (labelsOf b) := by
  rintro m rfl
  rfl

section

variable {digest : Digest D (Blob D β)} {uncompressed : D → D} {s s' : State digest} {platform : Platform}
  {name : String} {m m' : Manifest D} {c c' : ImageConfig D β}

/-- What a name leads to is found again where the name has its target and no content was lost. -/
theorem Resolves.mono (h : Resolves s platform name m c)
    (himages : s'.images.find? (·.name = name) = s.images.find? (·.name = name))
    (hread : ∀ d b, s.content.read d = some b → s'.content.read d = some b) : Resolves s' platform name m c := by
  obtain ⟨hleads, b, hb, hc⟩ := h
  refine ⟨?_, b, hread _ b hb, hc⟩
  cases hleads with
  | manifest image himage hmanifest hm =>
      exact .manifest image (himages.trans himage) hmanifest (hread _ _ hm)
  | index image b manifests entry himage hindex hblob hb hentry hm =>
      exact .index image b manifests entry (himages.trans himage) hindex (hread _ _ hblob) hb hentry (hread _ _ hm)

theorem Leads.unique (h : Leads s platform name m) (h' : Leads s platform name m') : m = m' := by
  cases h with
  | manifest image himage hmanifest hm =>
      cases h' with
      | manifest image' himage' hmanifest' hm' =>
          rw [himage] at himage'
          cases himage'
          rw [hm] at hm'
          cases hm'
          rfl
      | index image' b' manifests' entry' himage' hindex' hblob' hb' hentry' hm' =>
          rw [himage] at himage'
          cases himage'
          exact absurd hindex' (notMem_indexTypes hmanifest)
  | index image b manifests entry himage hindex hblob hb hentry hm =>
      cases h' with
      | manifest image' himage' hmanifest' hm' =>
          rw [himage] at himage'
          cases himage'
          exact absurd hindex (notMem_indexTypes hmanifest')
      | index image' b' manifests' entry' himage' hindex' hblob' hb' hentry' hm' =>
          rw [himage] at himage'
          cases himage'
          rw [hblob] at hblob'
          cases hblob'
          rw [hb] at hb'
          cases hb'
          rw [hentry] at hentry'
          cases hentry'
          rw [hm] at hm'
          cases hm'
          rfl

theorem Resolves.unique (h : Resolves s platform name m c) (h' : Resolves s platform name m' c') :
    m = m' ∧ c = c' := by
  obtain ⟨hleads, b, hb, hc⟩ := h
  obtain ⟨hleads', b', hb', hc'⟩ := h'
  obtain rfl := hleads.unique hleads'
  rw [hb] at hb'
  cases hb'
  rw [hc] at hc'
  cases hc'
  exact ⟨rfl, rfl⟩

variable [DecidableEq D]

def Event.apply (s : State digest) : Event D β → State digest
  | .store b => s.write b (labelsOf b) (hasLabels_labelsOf b)
  | .name name target => { s with images := { name, target } :: s.images.filter (·.name ≠ name) }

/-- The event gives the name to no other target. -/
def Event.leaves (name : String) : Event D β → Prop
  | .store _ => True
  | .name other _ => other ≠ name

/-- A container was started on a node: it runs what the name of its image led to for the platform of the node, and
its layers were unpacked, which checks their digests. -/
def Started (uncompressed : D → D) (node : Platform) (s : State digest) (container : Container D) : Prop :=
  ∃ c, Resolves s node container.image container.running c ∧
    c.diffIds = container.running.layers.map fun layer => uncompressed layer.digest

theorem Event.apply_read (e : Event D β) {d : D} {b : Blob D β} (h : s.content.read d = some b) :
    (e.apply s).content.read d = some b := by
  cases e with
  | store b' => exact ContentStore.read_write h b' _
  | name name target => exact h

theorem Event.apply_find? {e : Event D β} (h : e.leaves name) :
    (e.apply s).images.find? (·.name = name) = s.images.find? (·.name = name) := by
  cases e with
  | store b => rfl
  | name other target =>
      have hne : other ≠ name := h
      have hfilter : ∀ images : List (Image D),
          (images.filter (·.name ≠ other)).find? (·.name = name) = images.find? (·.name = name) := by
        intro images
        rw [List.find?_filter]
        refine congrFun (congrArg List.find? ?_) images
        funext image
        by_cases himage : image.name = name
        · simp [himage, hne.symm]
        · simp [himage]
      simp only [Event.apply, List.find?_cons, decide_eq_false hne, hfilter]

theorem Started.apply {node : Platform} {container : Container D} {e : Event D β}
    (h : Started uncompressed node s container) (he : e.leaves container.image) :
    Started uncompressed node (e.apply s) container := by
  obtain ⟨c, hresolves, hids⟩ := h
  exact ⟨c, hresolves.mono (Event.apply_find? he) fun d b hb => e.apply_read hb, hids⟩

theorem Started.run {node : Platform} {container : Container D} (events : List (Event D β))
    (h : Started uncompressed node s container) (hevents : ∀ e ∈ events, e.leaves container.image) :
    Started uncompressed node (events.foldl Event.apply s) container := by
  induction events generalizing s with
  | nil => exact h
  | cons e events ih =>
      exact ih (h.apply (hevents e (List.mem_cons_self ..))) fun e' he' => hevents e' (List.mem_cons_of_mem _ he')

/-- On a node of the platform that a commit builds on, a commit is right as long as the name of the image was not
given to another. -/
theorem commits_of_started [Inhabited β] {container : Container D} (events : List (Event D β))
    (h : Started uncompressed amd64 s container) (hevents : ∀ e ∈ events, e.leaves container.image) :
    Commits uncompressed (events.foldl Event.apply s) container := by
  obtain ⟨c, hresolves, hids⟩ := h.run events hevents
  refine commits_of_running fun m c' hresolves' => ?_
  obtain ⟨rfl, rfl⟩ := hresolves.unique hresolves'
  exact ⟨rfl, hids⟩

end

/-! ## A name that was given to another image -/

/-- Digests that are as good as what they are of. -/
inductive Doc where
  | of (b : Blob Doc Unit)

def docs : Digest Doc (Blob Doc Unit) where
  of := .of
  injective := by
    intro a b h
    cases h
    rfl

/-- An image of one layer of its own, whose digest is that of what is in it. -/
def layerOf (bytes : String) : Descriptor Doc where
  mediaType := "application/vnd.oci.image.layer.v1.tar"
  digest := .of (.data bytes)

def configOf (bytes : String) : ImageConfig Doc Unit where
  diffIds := [(layerOf bytes).digest]

def manifestOf (bytes : String) : Manifest Doc where
  config :=
    { mediaType := "application/vnd.oci.image.config.v1+json"
      digest := .of (.config (configOf bytes)) }
  layers := [layerOf bytes]

/-- A pull of the image. -/
def pull (name bytes : String) : List (Event Doc Unit) :=
  [.store (.config (configOf bytes)), .store (.manifest (manifestOf bytes)),
    .name name
      { mediaType := "application/vnd.oci.image.manifest.v1+json"
        digest := .of (.manifest (manifestOf bytes)) }]

def bare : State docs where
  content := .empty
  images := []
  labelled := ContentStore.labelled_empty

/-- A container of the image as it was pulled first. -/
def app : Container Doc where
  uuid := "c"
  containerId := "c"
  image := "app"
  running := manifestOf "old"

theorem resolves_pull [DecidableEq Doc] (s : State docs) (name bytes : String) (platform : Platform) :
    Resolves ((pull name bytes).foldl Event.apply s) platform name (manifestOf bytes) (configOf bytes) := by
  constructor
  · refine .manifest
      { name
        target :=
          { mediaType := "application/vnd.oci.image.manifest.v1+json"
            digest := .of (.manifest (manifestOf bytes)) } } ?_ (by simp [manifestTypes]) ?_
    · simp [pull, Event.apply]
    · exact ContentStore.read_write_self _ _ _
  · exact ⟨.config (configOf bytes), ContentStore.read_write (ContentStore.read_write_self _ _ _) _ _, rfl⟩

/-- Another image was pulled meanwhile. -/
theorem commits_app : ∃ _ : DecidableEq Doc,
    Commits id ((pull "other" "new").foldl Event.apply ((pull "app" "old").foldl Event.apply bare)) app := by
  classical
  exact ⟨inferInstance, commits_of_started _ ⟨configOf "old", resolves_pull bare "app" "old" amd64, rfl⟩
    (by simp [pull, Event.leaves, app])⟩

/-- The image was pulled again after the container was started, and was another by then. -/
theorem not_commits : ¬ ∀ (D β : Type) [Inhabited β] [DecidableEq D] (digest : Digest D (Blob D β))
    (uncompressed : D → D) (node : Platform) (s : State digest) (container : Container D)
    (events : List (Event D β)), Started uncompressed node s container →
      Commits uncompressed (events.foldl Event.apply s) container := by
  intro h
  classical
  have hstarted : Started id amd64 ((pull "app" "old").foldl Event.apply bare) app :=
    ⟨configOf "old", resolves_pull bare "app" "old" amd64, rfl⟩
  have hcommits := h Doc Unit docs id amd64 _ app (pull "app" "new") hstarted
  have hlayers := (hcommits.running (resolves_pull _ "app" "new" amd64)).1
  simp [manifestOf, layerOf, app] at hlayers

end Committer

end Zun
