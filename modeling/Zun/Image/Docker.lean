import Mathlib.Data.List.Dedup

/-!
# The images of a docker daemon

What docker answers of its images and its containers, and what a pull, a container's creation and a
removal do to them.  A reference names at most one image, and a pull may take it from one image to
another.
-/

namespace Zun

namespace Image

/-- `image_pull_policy`. -/
inductive PullPolicy where
  | always
  | ifnotpresent
  | never
deriving DecidableEq

/-- `get_image_pull_policy`. -/
def getImagePullPolicy (policy : Option PullPolicy) : PullPolicy := policy.getD .always

/-- `should_pull_image`. -/
def shouldPullImage (policy : PullPolicy) (present : Bool) : Bool :=
  if policy = .never then false
  else policy = .always || (policy = .ifnotpresent && !present)

/-- An image as `list_local_images` has it.  Docker has no notion of a pinned image; the CRI does. -/
structure LocalImage where
  id : String
  tags : List String := []
  pinned : Bool := false
deriving DecidableEq

structure Docker where
  images : List LocalImage := []
  /-- The image of each container, stopped ones among them. -/
  containers : List String := []
deriving DecidableEq

/-- Docker has the image. -/
def Docker.Has (d : Docker) (id : String) : Prop := id ∈ d.images.map (·.id)

instance (d : Docker) (id : String) : Decidable (d.Has id) :=
  inferInstanceAs (Decidable (id ∈ d.images.map (·.id)))

/-- `docker.inspect_image`. -/
def Docker.inspectImage (d : Docker) (ref : String) : Option LocalImage :=
  d.images.find? fun image => ref ∈ image.tags || ref = image.id

/-- `images_in_use`. -/
def Docker.imagesInUse (d : Docker) : List String := d.containers.filter (· ≠ "")

/-- A reference is taken from the image that has it. -/
def Docker.untag (d : Docker) (ref : String) : Docker :=
  { d with images := d.images.map fun image => { image with tags := image.tags.filter (· ≠ ref) } }

/-- `docker.pull`, when what the registry has under a reference is the image `id`. -/
def Docker.pull (d : Docker) (ref id : String) : Docker :=
  let d := d.untag ref
  if d.Has id then
    { d with images := d.images.map fun image =>
        if image.id = id then { image with tags := ref :: image.tags } else image }
  else { d with images := { id, tags := [ref] } :: d.images }

/-- `docker.create_container`, unless docker refuses for a reason of its own. -/
def Docker.createContainer (d : Docker) (ref : String) : Option Docker :=
  (d.inspectImage ref).map fun image => { d with containers := image.id :: d.containers }

/-- `docker.remove_image`.  Docker refuses while a container uses the image. -/
def Docker.removeImage (d : Docker) (id : String) : Option Docker :=
  if d.Has id ∧ id ∉ d.containers then some { d with images := d.images.filter (·.id ≠ id) } else none

variable {d d' : Docker} {ref id id' : String}

theorem Docker.has_of_inspectImage {image : LocalImage} (h : d.inspectImage ref = some image) :
    d.Has image.id := List.mem_map.mpr ⟨image, List.mem_of_find?_eq_some h, rfl⟩

@[simp] theorem Docker.has_untag : (d.untag ref).Has id ↔ d.Has id := by simp [Has, untag]

@[simp] theorem Docker.has_pull : (d.pull ref id).Has id' ↔ id' = id ∨ d.Has id' := by
  have hids (images : List LocalImage) :
      (images.map fun image => if image.id = id then { image with tags := ref :: image.tags } else image).map
        (·.id) = images.map (·.id) := by
    rw [List.map_map]
    refine List.map_congr_left fun image _ => ?_
    simp only [Function.comp_apply]
    split <;> rfl
  simp only [pull]
  split
  case isTrue hhas =>
    rw [has_untag] at hhas
    rw [Has, hids]
    constructor
    · intro h
      exact .inr (has_untag.mp h)
    · rintro (rfl | h)
      · exact has_untag.mpr hhas
      · exact has_untag.mpr h
  case isFalse =>
    have huntag : (d.untag ref).Has id' ↔ d.Has id' := has_untag
    rw [← huntag]
    simp [Has]

theorem Docker.images_of_createContainer (h : d.createContainer ref = some d') :
    d'.images = d.images := by
  obtain ⟨image, -, rfl⟩ := Option.map_eq_some_iff.mp h
  rfl

/-- What is removed is that image, which no container uses. -/
theorem Docker.removeImage_eq_some (h : d.removeImage id = some d') :
    d.Has id ∧ id ∉ d.containers ∧ ∀ id', d'.Has id' ↔ d.Has id' ∧ id' ≠ id := by
  rw [removeImage] at h
  split at h
  case isTrue hcond =>
    injection h with h
    subst h
    refine ⟨hcond.1, hcond.2, fun id' => ?_⟩
    simp only [Has, List.mem_map, List.mem_filter, decide_eq_true_eq]
    constructor
    · rintro ⟨image, ⟨himage, hne⟩, rfl⟩
      exact ⟨⟨image, himage, rfl⟩, hne⟩
    · rintro ⟨⟨image, himage, rfl⟩, hne⟩
      exact ⟨image, ⟨himage, hne⟩, rfl⟩
  case isFalse => cases h

end Image

end Zun
