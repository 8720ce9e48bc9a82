import Zun.Common.ImageName

/-!
# Names that are stored

What `_do_image_pull` of `zun/compute/manager.py` records of an image, what `read_tar_image` of
`zun/container/docker/utils.py` takes from the manifest of a tar, and what `delete_image_tar` of
`zun/image/glance/driver.py` looks up.  Each takes a reference apart at a colon, and `image_reference` is to put it
together again.

A port comes after a colon as well, and a digest has a colon of its own.
-/

namespace Zun

open Regex Strings DockerImage ImageName

namespace StoredName

/-! ## The model -/

inductive Failure where
  | imageNotFound
  | docker (code : Nat)
  | zun (code : Nat)
  | valueError
  | indexError
  | keyError (key : String)
  | other (code : Nat)
deriving DecidableEq

/-- The record of an image. -/
structure Image where
  repo : String
  tag : String
  imageId : Option String := none
  size : Option Nat := none
deriving DecidableEq

/-- What docker says of an image. -/
structure ImageDict where
  repoTags : List String
  id : String
  size : Nat
deriving DecidableEq

/-- The answer of `pull_image`. -/
structure Pulled where
  path : String
  driver : String
  tags : Option (List String) := none
  repo : Option String := none
  tag : Option String := none
deriving DecidableEq

/-- What is read of the first entry of `manifest.json`. -/
structure Manifest where
  repoTags : List String
  config : String
deriving DecidableEq

/-- `repo, tag = s.split(":")`, and what is raised where there are not two parts. -/
def splitInTwo (s : String) : Except Failure (String × String) :=
  match splitOn ':' s with
  | [repo, tag] => .ok (repo, tag)
  | _ => .error .valueError

/-- `read_tar_image` of the client. -/
def readTarImage (manifest : Manifest) (image : Pulled) : Except Failure Pulled :=
  match manifest.repoTags with
  | repoTag :: _ => do
      let (repo, tag) ← splitInTwo repoTag
      .ok { image with repo := some repo, tag := some tag }
  | [] => .ok { image with repo := (splitOn '.' manifest.config).head?, tag := some "" }

structure Env where
  /-- `CONF.default_image_driver`. -/
  defaultImageDriver : String := "docker"
  isUuidLike : String → Bool
  pullImage : String → String → String → Except Failure (Pulled × Bool)
  loadImage : String → Except Failure Unit
  /-- The manifest of the tar at a path. -/
  manifest : String → Option Manifest
  inspectImage : String → Except Failure ImageDict

variable (env : Env)

/-- `read_tar_image` of the driver, which raises nothing. -/
def readTar (image : Pulled) : Pulled :=
  match env.manifest image.path with
  | none => image
  | some manifest =>
      match readTarImage manifest image with
      | .ok image' => image'
      | .error _ => image

/-- The name that an image is inspected by after it was pulled.  The tags that Glance has of it are looked at for a
warning. -/
def pulledName (repoTag : String) (pulled : Pulled) : Except Failure String :=
  if pulled.driver = "glance" then
    match readTar env pulled with
    | { tag := none, .. } => .error (.keyError "tag")
    | { tags := none, .. } => .error (.keyError "tags")
    | { repo := none, .. } => .error (.keyError "repo")
    | { repo := some repo, tag := some tag, .. } => .ok (imageReference repo tag)
  else .ok repoTag

/-- The image that is asked for, and the driver that it is asked of. -/
def asked (image : Image) : Image × String :=
  if env.isUuidLike image.repo then ({ image with tag := "" }, "glance") else (image, env.defaultImageDriver)

/-- What docker says of an image that was pulled. -/
def inspected (image : Image) : Except Failure ImageDict := do
  let repoTag := imageReference image.repo image.tag
  let (image, driver) := asked env image
  let (pulled, loaded) ← env.pullImage image.repo image.tag driver
  if loaded then pure () else env.loadImage pulled.path
  let name ← pulledName env repoTag pulled
  env.inspectImage name

/-- What is recorded of an image that docker has. -/
def record (image : Image) (imageDict : ImageDict) : Except Failure Image :=
  let image' := { image with imageId := some imageDict.id, size := some imageDict.size }
  match imageDict.repoTags with
  | [] => .ok image'
  | repoTag :: _ =>
      match splitOnce ':' repoTag with
      | repo :: tag :: _ => .ok { image' with repo, tag }
      | _ => .error .indexError

/-- The body of `_do_image_pull`: the image that is saved. -/
def pull (image : Image) : Except Failure Image := do
  let imageDict ← inspected env image
  record (asked env image).1 imageDict

/-- `_do_image_pull`, which returns when the image is not found. -/
def doImagePull (image : Image) : Except Failure (Option Image) :=
  match pull env image with
  | .ok saved => .ok (some saved)
  | .error .imageNotFound => .ok none
  | .error e => .error e

/-- What Glance and the host have of images. -/
structure Host where
  findImage : String → String → Except Failure String
  imagesDirectory : String
  isFile : String → Bool
  unlink : String → Except Nat Unit

/-- `_search_image_on_host`: the path of the tar. -/
def searchImageOnHost (host : Host) (repo tag : String) : Except Failure (Option String) :=
  match host.findImage repo tag with
  | .error .imageNotFound => .ok none
  | .error e => .error e
  | .ok id =>
      let outPath := host.imagesDirectory ++ "/" ++ id ++ ".tar"
      .ok (if host.isFile outPath then some outPath else none)

/-- The repository and the tag that `delete_image_tar` takes of a reference. -/
def lookedUp (image : String) : Except Failure (String × String) :=
  match splitOn ':' image with
  | repo :: tag :: _ => .ok (repo, tag)
  | _ => .error .indexError

/-- `delete_image_tar`. -/
def deleteImageTar (host : Host) (image : String) : Except Failure Unit := do
  let (repo, tag) ← lookedUp image
  match ← searchImageOnHost host repo tag with
  | none => .ok ()
  | some tarfile =>
      match host.unlink tarfile with
      | .ok () => .ok ()
      | .error code => .error (.zun code)

/-! ## What is claimed -/

/-- What is recorded of a reference that docker has first, what is read of one that is first in a tar, and what is
looked up for one stand for it. -/
structure SplitsBack (s : String) : Prop where
  recorded : ∀ env image dict more, inspected env image = .ok dict → dict.repoTags = s :: more →
    ∃ saved, doImagePull env image = .ok (some saved) ∧ imageReference saved.repo saved.tag = s
  read : ∀ more config pulled, ∃ pulled' repo tag, readTarImage ⟨s :: more, config⟩ pulled = .ok pulled' ∧
    pulled'.repo = some repo ∧ pulled'.tag = some tag ∧ imageReference repo tag = s
  found : ∃ repo tag, lookedUp s = .ok (repo, tag) ∧ imageReference repo tag = s

/-- A reference has one colon: that of a port, of a tag or of a digest. -/
def Single (r : Reference) : Prop :=
  ((r.name.getD "").toList.contains ':').toNat + r.tag.isSome.toNat + r.digest.isSome.toNat = 1

/-! ## Where a string is split -/

/-- There is one colon in a string, and something after it. -/
def Once (s : String) : Prop := ∃ k v : String, s = k ++ ":" ++ v ∧ ':' ∉ k.toList ∧ ':' ∉ v.toList ∧ v ≠ ""

section

variable {s k v : String}

theorem imageReference_of_tag (hv : v ≠ "") (hcolon : ':' ∉ v.toList) : imageReference k v = k ++ ":" ++ v := by
  rw [imageReference, if_neg hv]
  simp [hcolon]

theorem imageReference_eq_iff (k v : String) : imageReference k v = k ++ ":" ++ v ↔ v ≠ "" ∧ ':' ∉ v.toList := by
  constructor
  · intro h
    rw [imageReference] at h
    split at h
    · next hv =>
      rw [hv, String.append_empty] at h
      have := congrArg String.length h
      rw [String.length_append] at this
      have hone : (":" : String).length = 1 := rfl
      omega
    · next hv =>
      refine ⟨hv, fun hcolon => ?_⟩
      rw [if_pos (by simpa using hcolon), String.append_assoc, String.append_assoc, String.append_right_inj,
        String.append_left_inj] at h
      exact absurd h (by decide)
  · exact fun h => imageReference_of_tag h.1 h.2

/-- A second colon is not put back. -/
theorem not_back (k k' v' : String) : ¬ imageReference k (k' ++ ":" ++ v') = k ++ ":" ++ (k' ++ ":" ++ v') := by
  rw [imageReference_eq_iff]
  exact fun ⟨_, hcolon⟩ => hcolon (by simp)

theorem length_imageReference_le (repo tag : String) :
    (imageReference repo tag).length ≤ repo.length + 1 + tag.length := by
  have hcolon : (":" : String).length = 1 := rfl
  have hat : ("@" : String).length = 1 := rfl
  rw [imageReference]
  split
  · omega
  · simp only [String.length_append]
    split <;> omega

/-- A string has no colon, or has a first one. -/
theorem colon_cases (s : String) :
    ':' ∉ s.toList ∨ ∃ k v, s = k ++ ":" ++ v ∧ ':' ∉ k.toList := by
  rcases partition_cases ':' s with ⟨-, h⟩ | ⟨k, v, -, hs, hk⟩
  · exact .inl h
  · exact .inr ⟨k, v, hs, hk⟩

theorem not_once_of_notMem (h : ':' ∉ s.toList) : ¬ Once s := by
  rintro ⟨k, v, rfl, -⟩
  exact h (by simp)

/-- Whether there is one is told at the first. -/
theorem once_append_iff (hk : ':' ∉ k.toList) : Once (k ++ ":" ++ v) ↔ v ≠ "" ∧ ':' ∉ v.toList := by
  constructor
  · rintro ⟨k', v', heq, hk', hv', hne⟩
    have hsplit := partition_append v hk
    have hsplit' := partition_append v' hk'
    have : (k, true, v) = (k', true, v') := by
      rw [← hsplit, ← hsplit']
      exact congrArg (partition ':') heq
    cases this
    exact ⟨hne, hv'⟩
  · exact fun ⟨hne, hv⟩ => ⟨k, v, rfl, hk, hv, hne⟩

theorem splitOn_of_notMem (h : ':' ∉ s.toList) : splitOn ':' s = [s] := by
  simp [splitOn, List.splitOn_eq_singleton h]

theorem splitOn_ne_nil (s : String) : splitOn ':' s ≠ [] := by
  simp [splitOn]

theorem splitOn_append (hk : ':' ∉ k.toList) : splitOn ':' (k ++ ":" ++ v) = k :: splitOn ':' v := by
  have hlist : (k ++ ":" ++ v).toList = k.toList ++ ':' :: v.toList := by simp
  rw [splitOn, hlist, List.splitOn_append_cons_self_of_not_mem hk]
  simp [splitOn]

/-! ## The three places -/

theorem record_iff {image : Image} {dict : ImageDict} {more : List String} (h : dict.repoTags = s :: more) :
    (∃ saved, record image dict = .ok saved ∧ imageReference saved.repo saved.tag = s) ↔ Once s := by
  rcases partition_cases ':' s with ⟨hsplit, hnot⟩ | ⟨k, v, hsplit, hs, hk⟩
  · refine iff_of_false ?_ (not_once_of_notMem hnot)
    rintro ⟨saved, hsaved, -⟩
    simp [record, h, splitOnce, hsplit] at hsaved
  · obtain rfl : s = k ++ ":" ++ v := hs
    rw [once_append_iff hk, ← imageReference_eq_iff k v]
    simp [record, h, splitOnce, hsplit]

theorem doImagePull_of_inspected {env : Env} {image saved : Image} {dict : ImageDict}
    (h : inspected env image = .ok dict) :
    doImagePull env image = .ok (some saved) ↔ record (asked env image).1 dict = .ok saved := by
  have hpull : pull env image = record (asked env image).1 dict := by
    rw [pull, h]
    rfl
  rw [doImagePull, hpull]
  cases hrecord : record (asked env image).1 dict with
  | ok saved' => simp
  | error e => cases e <;> simp

theorem readTarImage_iff {more : List String} {config : String} {pulled : Pulled} :
    (∃ pulled' repo tag, readTarImage ⟨s :: more, config⟩ pulled = .ok pulled' ∧ pulled'.repo = some repo ∧
      pulled'.tag = some tag ∧ imageReference repo tag = s) ↔ Once s := by
  rcases colon_cases s with hnot | ⟨k, v, rfl, hk⟩
  · refine iff_of_false ?_ (not_once_of_notMem hnot)
    rintro ⟨pulled', repo, tag, hread, -⟩
    simp [readTarImage, splitInTwo, splitOn_of_notMem hnot, bind, Except.bind] at hread
  · rw [once_append_iff hk, ← imageReference_eq_iff k v]
    rcases colon_cases v with hv | ⟨k', v', rfl, hk'⟩
    · simp [readTarImage, splitInTwo, splitOn_append hk, splitOn_of_notMem hv, bind, Except.bind]
    · -- there are three parts, or more
      refine iff_of_false ?_ (not_back k k' v')
      rintro ⟨pulled', repo, tag, hread, -⟩
      have hsplit : splitInTwo (k ++ ":" ++ (k' ++ ":" ++ v')) = .error .valueError := by
        rw [splitInTwo, splitOn_append hk, splitOn_append hk']
        obtain ⟨w, ws, hw⟩ := List.exists_cons_of_ne_nil (splitOn_ne_nil v')
        rw [hw]
      simp only [readTarImage, hsplit] at hread
      cases hread

theorem lookedUp_iff : (∃ repo tag, lookedUp s = .ok (repo, tag) ∧ imageReference repo tag = s) ↔ Once s := by
  rcases colon_cases s with hnot | ⟨k, v, rfl, hk⟩
  · refine iff_of_false ?_ (not_once_of_notMem hnot)
    rintro ⟨repo, tag, hlooked, -⟩
    simp [lookedUp, splitOn_of_notMem hnot] at hlooked
  · rw [once_append_iff hk, ← imageReference_eq_iff k v]
    rcases colon_cases v with hv | ⟨k', v', rfl, hk'⟩
    · simp [lookedUp, splitOn_append hk, splitOn_of_notMem hv]
    · refine iff_of_false ?_ (not_back k k' v')
      rintro ⟨repo, tag, hlooked, hback⟩
      rw [lookedUp, splitOn_append hk, splitOn_append hk', Except.ok.injEq, Prod.mk.injEq] at hlooked
      obtain ⟨rfl, rfl⟩ := hlooked
      -- what was after the second colon is missing
      have hlength := congrArg String.length hback
      have hle := length_imageReference_le k k'
      simp only [String.length_append] at hlength
      have hone : (":" : String).length = 1 := rfl
      omega

theorem splitsBack_iff : SplitsBack s ↔ Once s := by
  constructor
  · exact fun h => lookedUp_iff.mp h.found
  · intro h
    refine ⟨fun env image dict more hinspected hdict => ?_, fun _ _ _ => readTarImage_iff.mpr h, lookedUp_iff.mpr h⟩
    obtain ⟨saved, hrecord, hback⟩ := (record_iff hdict).mpr h
    exact ⟨saved, (doImagePull_of_inspected hinspected).mpr hrecord, hback⟩

end

/-! ## Where a reference has colons -/

section

variable {u : Unicode} {name : String} {tag digest : Option String} {w : List Char}

/-- The host of a name has a colon before its port, and no other. -/
theorem count_host {g : Captures Char} (h : Matches hostnameRegexp w g) : w.count ':' ≤ 1 := by
  simp only [hostnameRegexp, matches_seq_iff] at h
  obtain ⟨w₁, _, g₁, _, hfirst, ⟨w₃, w₄, g₃, g₄, hmore, hport, rfl, rfl⟩, rfl, rfl⟩ := h
  have h₁ : w₁.count ':' = 0 := List.count_eq_zero.mpr (hfirst.notMem rfl)
  have h₃ : w₃.count ':' = 0 := List.count_eq_zero.mpr (hmore.notMem rfl)
  have h₄ : w₄.count ':' ≤ 1 := by
    rcases matches_opt_iff.mp hport with hport | ⟨rfl, -⟩
    · obtain ⟨w₅, w₆, g₅, g₆, hcolon, hdigits, rfl, rfl⟩ := matches_seq_iff.mp hport
      obtain ⟨rfl, -⟩ := matches_lit_iff.mp hcolon
      have h₆ : w₆.count ':' = 0 := List.count_eq_zero.mpr (hdigits.notMem rfl)
      simp [h₆]
    · simp
  rw [List.count_append, List.count_append, h₁, h₃]
  omega

/-- So has a name, if there is a host. -/
theorem count_name (h : Matches nameRegexp name.toList []) :
    name.toList.count ':' = (name.toList.contains ':').toNat := by
  have hle : name.toList.count ':' ≤ 1 := by
    rcases name_cases h with hpath | ⟨host, path, hhost, hpath, hname⟩
    · rw [List.count_eq_zero.mpr (hpath.notMem rfl)]
      exact Nat.zero_le 1
    · have hslash : (':' : Char) ≠ '/' := by decide
      rw [hname, List.count_append, List.count_cons_of_ne hslash.symm, List.count_eq_zero.mpr (hpath.notMem rfl)]
      exact count_host hhost
  by_cases hmem : ':' ∈ name.toList
  · rw [List.contains_iff_mem.mpr hmem]
    exact Nat.le_antisymm hle (List.count_pos_iff.mpr hmem)
  · rw [List.count_eq_zero.mpr hmem, Bool.eq_false_iff.mpr fun h => hmem (List.contains_iff_mem.mp h)]
    rfl

theorem count_tagPart (h : Syntactic u name tag digest) : (tagPart tag).toList.count ':' = tag.isSome.toNat := by
  cases tag with
  | none => rfl
  | some t =>
      have ht : t.toList.count ':' = 0 := List.count_eq_zero.mpr (colon_notMem_tag (h.tag t rfl))
      simp [tagPart, ht]

theorem count_digestPart (h : Syntactic u name tag digest) :
    (digestPart digest).toList.count ':' = digest.isSome.toNat := by
  cases digest with
  | none => rfl
  | some d =>
      obtain ⟨⟨a, x, hd, -, halg, -, hhex⟩, -⟩ := matches_digest_iff.mp (h.digest d rfl)
      have ha : a.count ':' = 0 := List.count_eq_zero.mpr fun hmem => absurd (halg ':' hmem) (by decide)
      have hx : x.count ':' = 0 := List.count_eq_zero.mpr fun hmem => absurd (hhex ':' hmem) (by decide)
      simp [digestPart, hd, ha, hx]

theorem count_join (h : Syntactic u name tag digest) : (join name tag digest).toList.count ':' =
    (name.toList.contains ':').toNat + tag.isSome.toNat + digest.isSome.toNat := by
  rw [join, String.toList_append, String.toList_append, List.count_append, List.count_append, count_name h.name,
    count_tagPart h, count_digestPart h]

/-- What ends with something that has no colon does not end with one. -/
theorem getLast_ne_colon {l t : List Char} (ht : t ≠ []) (hcolon : ':' ∉ t) : (l ++ t).getLast? ≠ some ':' := by
  intro hlast
  rw [List.getLast?_append_of_ne_nil l ht] at hlast
  exact hcolon (List.mem_of_getLast? hlast)

/-- A reference does not end with a colon. -/
theorem join_getLast_ne (h : Syntactic u name tag digest) : (join name tag digest).toList.getLast? ≠ some ':' := by
  cases digest with
  | some d =>
      obtain ⟨⟨a, x, hd, -, -, hx, hhex⟩, -⟩ := matches_digest_iff.mp (h.digest d rfl)
      have hjoin : (join name tag (some d)).toList = ((name ++ tagPart tag).toList ++ '@' :: (a ++ [':'])) ++ x := by
        simp [join, digestPart, hd]
      rw [hjoin]
      exact getLast_ne_colon hx fun hmem => absurd (hhex ':' hmem) (by decide)
  | none => cases tag with
    | some t =>
        have ht := h.tag t rfl
        obtain ⟨⟨c, cs, hne, -⟩, -⟩ := matches_tag_iff.mp ht
        have hjoin : (join name (some t) none).toList = (name.toList ++ [':']) ++ t.toList := by
          simp [join, tagPart, digestPart]
        rw [hjoin]
        exact getLast_ne_colon (by simp [hne]) (colon_notMem_tag ht)
    | none =>
        intro hlast
        have hjoin : (join name none none).toList = name.toList := by simp [join, tagPart, digestPart]
        rw [hjoin, List.getLast?_eq_some_iff] at hlast
        obtain ⟨ys, hname⟩ := hlast
        exact List.not_mem_nil (slash_of_colon h.name hname)

/-- A reference has one colon inside if and only if one of its parts has one. -/
theorem once_join_iff (h : Syntactic u name tag digest) : Once (join name tag digest) ↔
    (name.toList.contains ':').toNat + tag.isSome.toNat + digest.isSome.toNat = 1 := by
  rw [← count_join h]
  constructor
  · rintro ⟨k, v, heq, hk, hv, -⟩
    rw [heq, String.toList_append, String.toList_append, List.count_append, List.count_append,
      List.count_eq_zero.mpr hk, List.count_eq_zero.mpr hv]
    rfl
  · intro hone
    rcases colon_cases (join name tag digest) with hnot | ⟨k, v, heq, hk⟩
    · rw [List.count_eq_zero.mpr hnot] at hone
      cases hone
    · have hlist : (join name tag digest).toList = k.toList ++ ':' :: v.toList := by simp [heq]
      rw [hlist, List.count_append, List.count_cons_self, List.count_eq_zero.mpr hk] at hone
      refine ⟨k, v, heq, hk, List.count_eq_zero.mp (by omega), ?_⟩
      rintro rfl
      exact join_getLast_ne h (by simp [hlist])

end

/-- The names of a reference that are stored stand for it if and only if it has a port, a tag or a digest, and no two
of these. -/
theorem splitsBack_single_iff (u : Unicode) (s : String) (r : Reference) (h : parse u s = .ok r) :
    SplitsBack r.string ↔ Single r := by
  obtain ⟨name, tag, digest, hparts, -, rfl⟩ := parse_ok h
  rw [splitsBack_iff, Reference.string_of, once_join_iff hparts.syntactic]
  unfold Single
  rw [Reference.name_of, Reference.tag_of, Reference.digest_of, Option.getD_some]

theorem splitsBack_busybox : SplitsBack (Reference.taggedReference "library/busybox" "1.36").string ↔
    Single (.taggedReference "library/busybox" "1.36") :=
  splitsBack_single_iff letters "library/busybox:1.36" (.taggedReference "library/busybox" "1.36") (by decide +kernel)

/-- A reference with a port and a tag is looked up without its tag. -/
theorem not_splitsBack : ¬ ∀ (u : Unicode) (s : String) (r : Reference), parse u s = .ok r → SplitsBack r.string := by
  intro h
  have hback := h letters "localhost:5000/app:1" (.taggedReference "localhost:5000/app" "1") (by decide +kernel)
  obtain ⟨repo, tag, hlooked, heq⟩ := hback.found
  have hparts : lookedUp "localhost:5000/app:1" = .ok ("localhost", "5000/app") := by decide +kernel
  change lookedUp ("localhost:5000/app" ++ ":" ++ "1") = .ok (repo, tag) at hlooked
  rw [show "localhost:5000/app" ++ ":" ++ "1" = "localhost:5000/app:1" by decide, hparts] at hlooked
  cases hlooked
  exact absurd heq (by decide +kernel)

end StoredName

end Zun
