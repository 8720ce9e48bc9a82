import Mathlib.Logic.Function.Basic
import Zun.Effect.Run
import Zun.Image.Docker

/-!
# Unused images, and creates that are under way

`reclaim_unused_images` of `zun/compute/manager.py` between the two steps of creates.  A sweep lists
the images and then the containers, counts for each image how many sweeps running have found it
unused, and removes those whose count is full, one by one.  A create finds its image or pulls it, and
only later makes a container of it.

The count is of sweeps and not of creates.  An image that no container has used for a while has its
count already when a create finds it.
-/

namespace Zun

open Effect

namespace Image

/-! ## The sweep and the creates -/

/-- Where the sweep is. -/
inductive Sweep where
  | idle
  | listed (images : List LocalImage)
  /-- What the loop over the unused images has yet to come to. -/
  | removing (todo : List String)
deriving DecidableEq

/-- The sweep ends with its loop. -/
def Sweep.loop (todo : List String) : Sweep := if todo = [] then .idle else .removing todo

def Sweep.todo : Sweep → List String
  | .removing todo => todo
  | _ => []

/-- Where a create is. -/
inductive Creating where
  | pulling (ref : String)
  /-- `id` is the image that was found or pulled.  The create goes on with the reference. -/
  | ready (ref id : String)
deriving DecidableEq

structure Node where
  docker : Docker := {}
  /-- `_unused_images`, nought for what it does not have. -/
  unusedImages : String → Nat := fun _ => 0
  sweep : Sweep := .idle
  creates : Nat → Option Creating := fun _ => none

/-- `unused`. -/
def unusedOf (images : List LocalImage) (inUse : List String) : List String :=
  ((images.filter fun image => image.id ∉ inUse && !image.pinned).map (·.id)).dedup

inductive Event where
  /-- A sweep is due. -/
  | listLocalImages (ok : Bool)
  | imagesInUse (ok : Bool)
  /-- The loop comes to an image. -/
  | reclaim (id : String) (ok : Bool)
  | search (c : Nat) (ref : String) (policy : Option PullPolicy)
  /-- The pull fails, or the registry has the image `id` under the reference. -/
  | pull (c : Nat) (id : Option String)
  | create (c : Nat) (ok : Bool)
  /-- A container that is not Zun's. -/
  | foreign (id : String)
  /-- A container is removed. -/
  | gone (id : String)
deriving DecidableEq

def stepImagesInUse (ok : Bool) (s : Node) : Node :=
  match s.sweep with
  | .listed images =>
      if ok then
        let unused := unusedOf images s.docker.imagesInUse
        { s with unusedImages := fun id => if id ∈ unused then s.unusedImages id else 0,
                 sweep := .loop unused }
      else { s with sweep := .idle }
  | _ => s

/-- The body of the loop.  A removal that fails leaves the count. -/
def stepReclaim (needed : Nat) (id : String) (ok : Bool) (s : Node) : Node :=
  if id ∈ s.sweep.todo then
    let seen := s.unusedImages id + 1
    let counted := { s with unusedImages := Function.update s.unusedImages id seen,
                            sweep := .loop (s.sweep.todo.filter (· ≠ id)) }
    if seen < needed then counted
    else
      match if ok then s.docker.removeImage id else none with
      | some docker => { counted with docker, unusedImages := Function.update s.unusedImages id 0 }
      | none => counted
  else s

/-- What `pull_image` finds and need not pull. -/
def found (s : Node) (c : Nat) (ref : String) (policy : Option PullPolicy) : Option LocalImage :=
  let image := s.docker.inspectImage ref
  if s.creates c = none ∧ !shouldPullImage (getImagePullPolicy policy) image.isSome then image
  else none

def stepSearch (c : Nat) (ref : String) (policy : Option PullPolicy) (s : Node) : Node :=
  match s.creates c with
  | some _ => s
  | none =>
      if shouldPullImage (getImagePullPolicy policy) (s.docker.inspectImage ref).isSome then
        { s with creates := Function.update s.creates c (some (.pulling ref)) }
      else
        { s with creates :=
            Function.update s.creates c ((s.docker.inspectImage ref).map fun image => .ready ref image.id) }

def stepPull (c : Nat) (id : Option String) (s : Node) : Node :=
  match s.creates c with
  | some (.pulling ref) =>
      match id with
      | some id =>
          { s with docker := s.docker.pull ref id,
                   creates := Function.update s.creates c (some (.ready ref id)) }
      | none => { s with creates := Function.update s.creates c none }
  | _ => s

def stepCreate (c : Nat) (ok : Bool) (s : Node) : Node :=
  match s.creates c with
  | some (.ready ref _) =>
      { s with docker := (if ok then s.docker.createContainer ref else none).getD s.docker,
               creates := Function.update s.creates c none }
  | _ => s

def step (needed : Nat) : Event → Node → Node
  | .listLocalImages ok, s =>
      if s.sweep = .idle ∧ ok then { s with sweep := .listed s.docker.images } else s
  | .imagesInUse ok, s => stepImagesInUse ok s
  | .reclaim id ok, s => stepReclaim needed id ok s
  | .search c ref policy, s => stepSearch c ref policy s
  | .pull c id, s => stepPull c id s
  | .create c ok, s => stepCreate c ok s
  | .foreign id, s =>
      if s.docker.Has id then { s with docker.containers := id :: s.docker.containers } else s
  | .gone id, s => { s with docker.containers := s.docker.containers.erase id }

/-- A create has found the image, or pulled it, and has yet to make its container. -/
def Node.Holds (s : Node) (c : Nat) (id : String) : Prop := ∃ ref, s.creates c = some (.ready ref id)

/-- The loop has yet to come to the image, whose count is full. -/
def Node.Due (needed : Nat) (s : Node) (id : String) : Prop :=
  id ∈ s.sweep.todo ∧ needed ≤ s.unusedImages id + 1

/-- The image is gone after the step. -/
def Removes (needed : Nat) (e : Event) (s : Node) (id : String) : Prop :=
  s.docker.Has id ∧ ¬(step needed e s).docker.Has id
/-! ## What a step does -/

section

variable {needed : Nat} {s : Node} {e : Event} {c : Nat} {id : String}

@[simp] theorem Sweep.todo_loop (todo : List String) : (Sweep.loop todo).todo = todo := by
  unfold loop
  split
  case isTrue h => rw [h]; rfl
  case isFalse => rfl

theorem mem_unusedOf {images : List LocalImage} {inUse : List String} :
    id ∈ unusedOf images inUse ↔ ∃ image ∈ images, image.id = id ∧ image.pinned = false ∧ id ∉ inUse := by
  simp only [unusedOf, List.mem_dedup, List.mem_map, List.mem_filter, Bool.and_eq_true,
    decide_eq_true_eq, Bool.not_eq_true']
  constructor
  · rintro ⟨image, ⟨himage, hfree, hpinned⟩, rfl⟩
    exact ⟨image, himage, rfl, hpinned, hfree⟩
  · rintro ⟨image, himage, rfl, hpinned, hfree⟩
    exact ⟨image, ⟨himage, hfree, hpinned⟩, rfl⟩

/-- A turn of the loop counts, and removes an image whose count is full if docker lets it. -/
theorem stepReclaim_cases (needed : Nat) (ok : Bool) (h : id ∈ s.sweep.todo) :
    ∃ n docker, stepReclaim needed id ok s =
        { s with docker, unusedImages := Function.update s.unusedImages id n,
                 sweep := .loop (s.sweep.todo.filter (· ≠ id)) } ∧
      (n = s.unusedImages id + 1 ∧ docker = s.docker ∨
        n = 0 ∧ ok = true ∧ needed ≤ s.unusedImages id + 1 ∧ s.docker.removeImage id = some docker) := by
  unfold stepReclaim
  rw [if_pos h]
  by_cases hseen : s.unusedImages id + 1 < needed
  · exact ⟨_, _, by simp only [if_pos hseen], .inl ⟨rfl, rfl⟩⟩
  · simp only [if_neg hseen]
    cases hremove : if ok then s.docker.removeImage id else none with
    | none => exact ⟨_, _, rfl, .inl ⟨rfl, rfl⟩⟩
    | some docker =>
        have hok : ok = true := by
          cases ok with
          | true => rfl
          | false => cases hremove
        rw [hok, if_pos rfl] at hremove
        exact ⟨_, _, rfl, .inr ⟨rfl, hok, Nat.le_of_not_lt hseen, hremove⟩⟩

theorem stepReclaim_eq (needed : Nat) (ok : Bool) (h : id ∉ s.sweep.todo) :
    stepReclaim needed id ok s = s := if_neg h

/-- Only the sweep changes the counts, or what it has yet to come to. -/
theorem step_quiet (needed : Nat) (s : Node) (he : ∀ ok, e ≠ .imagesInUse ok) (he' : ∀ id ok, e ≠ .reclaim id ok) :
    (step needed e s).unusedImages = s.unusedImages ∧ (step needed e s).sweep.todo = s.sweep.todo := by
  cases e with
  | imagesInUse ok => exact absurd rfl (he ok)
  | reclaim id ok => exact absurd rfl (he' id ok)
  | listLocalImages ok =>
      simp only [step]
      split
      case isTrue h => simp [h.1, Sweep.todo]
      case isFalse => exact ⟨rfl, rfl⟩
  | search c ref policy =>
      simp only [step, stepSearch]
      split
      · exact ⟨rfl, rfl⟩
      · split <;> exact ⟨rfl, rfl⟩
  | pull c id =>
      simp only [step, stepPull]
      split
      · split <;> exact ⟨rfl, rfl⟩
      · exact ⟨rfl, rfl⟩
  | create c ok =>
      simp only [step, stepCreate]
      split <;> exact ⟨rfl, rfl⟩
  | foreign id =>
      simp only [step]
      split <;> exact ⟨rfl, rfl⟩
  | gone id => exact ⟨rfl, rfl⟩

/-- Docker loses an image to the loop, and to nothing else. -/
theorem step_has (h : s.docker.Has id) :
    (step needed e s).docker.Has id ∨ e = .reclaim id true ∧ s.Due needed id := by
  cases e with
  | reclaim id' ok =>
      by_cases hmem : id' ∈ s.sweep.todo
      · obtain ⟨n, docker, hstep, ⟨-, rfl⟩ | ⟨-, rfl, hneeded, hremove⟩⟩ :=
          stepReclaim_cases needed ok hmem
        · left
          simp only [step, hstep]
          exact h
        · by_cases hid : id = id'
          · subst hid
            exact .inr ⟨rfl, hmem, hneeded⟩
          · left
            simp only [step, hstep]
            exact ((Docker.removeImage_eq_some hremove).2.2 id).mpr ⟨h, hid⟩
      · left
        simp only [step, stepReclaim_eq needed ok hmem]
        exact h
  | listLocalImages ok =>
      left
      simp only [step]
      split <;> exact h
  | imagesInUse ok =>
      left
      simp only [step, stepImagesInUse]
      split
      · split <;> exact h
      · exact h
  | search c ref policy =>
      left
      simp only [step, stepSearch]
      split
      · exact h
      · split <;> exact h
  | pull c id' =>
      left
      simp only [step, stepPull]
      split
      · split
        · exact Docker.has_pull.mpr (.inr h)
        · exact h
      · exact h
  | create c ok =>
      left
      simp only [step, stepCreate]
      split
      next ref id' hready =>
        cases hcreate : if ok then s.docker.createContainer ref else none with
        | none => exact h
        | some docker =>
            have hok : s.docker.createContainer ref = some docker := by
              cases ok with
              | true => exact hcreate
              | false => cases hcreate
            rw [Option.getD_some, Docker.Has, Docker.images_of_createContainer hok]
            exact h
      · exact h
  | foreign id' =>
      left
      simp only [step]
      split <;> exact h
  | gone id' => exact .inl h

theorem Removes.due (h : Removes needed e s id) : e = .reclaim id true ∧ s.Due needed id :=
  (step_has h.1).resolve_left h.2

/-- What a create holds after a step it held before, has found or has pulled. -/
theorem holds_step (h : (step needed e s).Holds c id) :
    s.Holds c id ∨ (∃ ref policy image, e = .search c ref policy ∧
      found s c ref policy = some image ∧ image.id = id) ∨
      e = .pull c (some id) ∧ ∃ ref, s.creates c = some (.pulling ref) := by
  obtain ⟨ref, h⟩ := h
  have hupdate {c' : Nat} {creating : Option Creating}
      (h : Function.update s.creates c' creating c = some (.ready ref id)) :
      c = c' ∧ creating = some (.ready ref id) ∨ s.creates c = some (.ready ref id) := by
    by_cases hc : c = c'
    · subst hc
      exact .inl ⟨rfl, by simpa using h⟩
    · exact .inr (by simpa [Function.update_of_ne hc] using h)
  cases e with
  | listLocalImages ok =>
      simp only [step] at h
      split at h <;> exact .inl ⟨ref, h⟩
  | imagesInUse ok =>
      simp only [step, stepImagesInUse] at h
      split at h
      · split at h <;> exact .inl ⟨ref, h⟩
      · exact .inl ⟨ref, h⟩
  | reclaim id' ok =>
      by_cases hmem : id' ∈ s.sweep.todo
      · obtain ⟨n, docker, hstep, -⟩ := stepReclaim_cases needed ok hmem
        simp only [step, hstep] at h
        exact .inl ⟨ref, h⟩
      · simp only [step, stepReclaim_eq needed ok hmem] at h
        exact .inl ⟨ref, h⟩
  | search c' ref' policy =>
      simp only [step, stepSearch] at h
      split at h
      · exact .inl ⟨ref, h⟩
      next hfree =>
        split at h
        · rcases hupdate h with ⟨-, hready⟩ | hready
          · cases hready
          · exact .inl ⟨ref, hready⟩
        next hpull =>
          rcases hupdate h with ⟨rfl, hready⟩ | hready
          · obtain ⟨image, himage, hready⟩ := Option.map_eq_some_iff.mp hready
            injection hready with href hid
            refine .inr (.inl ⟨ref', policy, image, rfl, ?_, hid⟩)
            simp only [found, hfree, himage, Option.isSome_some, true_and]
            rw [himage, Option.isSome_some] at hpull
            simp [hpull]
          · exact .inl ⟨ref, hready⟩
  | pull c' id' =>
      simp only [step, stepPull] at h
      split at h
      next ref' hpulling =>
        split at h
        · rcases hupdate h with ⟨rfl, hready⟩ | hready
          · injection hready with hready
            injection hready with href hid
            subst hid
            exact .inr (.inr ⟨rfl, ref', hpulling⟩)
          · exact .inl ⟨ref, hready⟩
        · rcases hupdate h with ⟨-, hready⟩ | hready
          · cases hready
          · exact .inl ⟨ref, hready⟩
      · exact .inl ⟨ref, h⟩
  | create c' ok =>
      simp only [step, stepCreate] at h
      split at h
      · rcases hupdate h with ⟨-, hready⟩ | hready
        · cases hready
        · exact .inl ⟨ref, hready⟩
      · exact .inl ⟨ref, h⟩
  | foreign id' =>
      simp only [step] at h
      split at h <;> exact .inl ⟨ref, h⟩
  | gone id' => exact .inl ⟨ref, h⟩

end

/-! ## What the sweeps have found -/

/-- The node, and what each sweep whose two listings succeeded was told, the last one first. -/
structure Observed where
  node : Node := {}
  sweeps : List (List LocalImage × List String) := []

/-- The listings that end with a step. -/
def told (s : Node) : Event → List (List LocalImage × List String)
  | .imagesInUse true =>
      match s.sweep with
      | .listed images => [(images, s.docker.imagesInUse)]
      | _ => []
  | _ => []

def observe (needed : Nat) (e : Event) (o : Observed) : Observed :=
  { node := step needed e o.node, sweeps := told o.node e ++ o.sweeps }

/-- The service has started, on whatever docker has. -/
def Started (o : Observed) : Prop := ∃ docker, o = { node := { docker } }

/-- A sweep found an image unused and unpinned. -/
def FoundUnused (id : String) (listing : List LocalImage × List String) : Prop :=
  ∃ image ∈ listing.1, image.id = id ∧ image.pinned = false ∧ id ∉ listing.2

/-- The last `n` sweeps have found an image so. -/
def Earned (sweeps : List (List LocalImage × List String)) (id : String) (n : Nat) : Prop :=
  n ≤ sweeps.length ∧ ∀ listing ∈ sweeps.take n, FoundUnused id listing

/-- What a sweep may take: `needed` sweeps running have found it unused, and at the last listing no
container used it. -/
structure Rightly (needed : Nat) (o : Observed) (id : String) : Prop where
  earned : Earned o.sweeps id needed
  unused : ∀ listing ∈ o.sweeps.head?, id ∉ listing.2

/-- The states of every run. -/
def States (needed : Nat) : Observed → Prop := Reached Started (observe needed) fun _ _ => True

section

variable {needed n : Nat} {o : Observed} {s : Node} {e : Event} {id : String}
  {sweeps : List (List LocalImage × List String)} {listing : List LocalImage × List String}

theorem earned_zero : Earned sweeps id 0 := ⟨Nat.zero_le _, by simp⟩

theorem Earned.mono {m : Nat} (h : Earned sweeps id n) (hm : m ≤ n) : Earned sweeps id m :=
  ⟨Nat.le_trans hm h.1, fun listing hlisting => h.2 listing (List.take_subset_take_left _ hm hlisting)⟩

theorem Earned.cons (h : Earned sweeps id n) (hfound : FoundUnused id listing) :
    Earned (listing :: sweeps) id (n + 1) := by
  refine ⟨Nat.succ_le_succ h.1, fun listing' hmem => ?_⟩
  rw [List.take_succ_cons, List.mem_cons] at hmem
  rcases hmem with rfl | hmem
  · exact hfound
  · exact h.2 listing' hmem

/-- A count is of sweeps that found the image unused, and of what the loop has yet to come to the
sweep under way is one more. -/
structure Counted (o : Observed) : Prop where
  counts : ∀ id, Earned o.sweeps id (o.node.unusedImages id)
  todo : ∀ id ∈ o.node.sweep.todo, Earned o.sweeps id (o.node.unusedImages id + 1)

theorem Counted.imagesInUse (h : Counted o) (needed : Nat) (ok : Bool) :
    Counted (observe needed (.imagesInUse ok) o) := by
  cases hsweep : o.node.sweep with
  | listed images =>
      cases ok with
      | false =>
          refine ⟨?_, ?_⟩
          · intro id
            simpa [observe, told, step, stepImagesInUse, hsweep] using h.counts id
          · simp [observe, step, stepImagesInUse, hsweep, Sweep.todo]
      | true =>
          have hcons (id : String) (hid : id ∈ unusedOf images o.node.docker.imagesInUse) :
              Earned ((images, o.node.docker.imagesInUse) :: o.sweeps) id (o.node.unusedImages id + 1) :=
            (h.counts id).cons (mem_unusedOf.mp hid)
          refine ⟨fun id => ?_, fun id hid => ?_⟩
          · simp only [observe, told, step, stepImagesInUse, hsweep, if_true, List.singleton_append]
            split
            case isTrue hid => exact (hcons id hid).mono (Nat.le_succ _)
            case isFalse => exact earned_zero
          · simp only [observe, told, step, stepImagesInUse, hsweep, if_true, Sweep.todo_loop,
              List.singleton_append] at hid ⊢
            rw [if_pos hid]
            exact hcons id hid
  | _ =>
      have hsame : observe needed (.imagesInUse ok) o = o := by
        cases ok <;> simp [observe, told, step, stepImagesInUse, hsweep]
      rw [hsame]
      exact h

theorem Counted.reclaim (h : Counted o) (needed : Nat) (id : String) (ok : Bool) :
    Counted (observe needed (.reclaim id ok) o) := by
  by_cases hmem : id ∈ o.node.sweep.todo
  · obtain ⟨n, docker, hstep, hcases⟩ := stepReclaim_cases needed ok hmem
    have hn : n ≤ o.node.unusedImages id + 1 := by
      rcases hcases with ⟨rfl, -⟩ | ⟨rfl, -⟩
      · exact Nat.le_refl _
      · exact Nat.zero_le _
    have hstep : (observe needed (.reclaim id ok) o).node = _ := hstep
    have hsweeps : (observe needed (.reclaim id ok) o).sweeps = o.sweeps := rfl
    refine ⟨fun id' => ?_, fun id' hid' => ?_⟩
    · rw [hsweeps, hstep]
      by_cases hid : id' = id
      · subst hid
        simpa using (h.todo id' hmem).mono hn
      · simpa [Function.update_of_ne hid] using h.counts id'
    · rw [hsweeps]
      rw [hstep] at hid' ⊢
      obtain ⟨hmem', hid⟩ : id' ∈ o.node.sweep.todo ∧ id' ≠ id := by simpa using hid'
      simpa [Function.update_of_ne hid] using h.todo id' hmem'
  · have hsame : observe needed (.reclaim id ok) o = o := by
      simp [observe, told, step, stepReclaim_eq needed ok hmem]
    rw [hsame]
    exact h

theorem Counted.step (h : Counted o) (needed : Nat) (e : Event) : Counted (observe needed e o) := by
  by_cases himages : ∃ ok, e = .imagesInUse ok
  · obtain ⟨ok, rfl⟩ := himages
    exact h.imagesInUse needed ok
  by_cases hreclaim : ∃ id ok, e = .reclaim id ok
  · obtain ⟨id, ok, rfl⟩ := hreclaim
    exact h.reclaim needed id ok
  have he (ok : Bool) : e ≠ .imagesInUse ok := fun h => himages ⟨ok, h⟩
  obtain ⟨hcounts, htodo⟩ := step_quiet needed o.node he
    fun id ok h => hreclaim ⟨id, ok, h⟩
  have htold : told o.node e = [] := by
    cases e with
    | imagesInUse ok => exact absurd rfl (he ok)
    | _ => rfl
  refine ⟨fun id => ?_, fun id hid => ?_⟩
  · simpa [observe, htold, hcounts] using h.counts id
  · simp only [observe, htold, hcounts, htodo, List.nil_append] at hid ⊢
    exact h.todo id hid

theorem States.counted (h : States needed o) : Counted o := by
  refine Reached.invariant (I := Counted) h ?_ fun e o _ ho => ho.step needed e
  rintro o ⟨docker, rfl⟩
  exact ⟨fun _ => earned_zero, by simp [Sweep.todo]⟩

theorem Counted.rightly (h : Counted o) (hdue : o.node.Due needed id) : Rightly needed o id := by
  have hearned := h.todo id hdue.1
  refine ⟨hearned.mono hdue.2, fun listing hlisting => ?_⟩
  have hmem : listing ∈ o.sweeps.take (o.node.unusedImages id + 1) := by
    cases hsweeps : o.sweeps with
    | nil => simp [hsweeps] at hlisting
    | cons last sweeps =>
        rw [hsweeps, List.head?_cons, Option.mem_some_iff] at hlisting
        rw [List.take_succ_cons, hlisting]
        exact List.mem_cons_self
  obtain ⟨-, -, -, -, hfree⟩ := hearned.2 listing hmem
  exact hfree

/-- Whatever the order of steps, an image is removed rightly. -/
theorem States.rightly (h : States needed o) (hremoves : Removes needed e o.node id) :
    Rightly needed o id := h.counted.rightly hremoves.due.2

end

/-! ## What a create holds -/

/-- No image that a create holds comes to a full count, and no create takes one whose count is full
from under a sweep. -/
def Unhurried (needed : Nat) : Event → Node → Prop
  | .imagesInUse true, s =>
      ∀ images, s.sweep = .listed images → ∀ c id, s.Holds c id →
        id ∈ unusedOf images s.docker.imagesInUse → s.unusedImages id + 1 < needed
  | .search c ref policy, s => ∀ image, found s c ref policy = some image → ¬s.Due needed image.id
  | .pull c (some id), s => ∀ ref, s.creates c = some (.pulling ref) → ¬s.Due needed id
  | _, _ => True

/-- The states of the runs whose steps are all so. -/
def Calm (needed : Nat) : Observed → Prop :=
  Reached Started (observe needed) fun e o => Unhurried needed e o.node

/-- A step from here takes an image that a create holds. -/
def Loses (needed : Nat) (o : Observed) : Prop :=
  ∃ e c id, o.node.Holds c id ∧ Removes needed e o.node id

/-- What creates hold is there, and not due. -/
structure Guarded (needed : Nat) (s : Node) : Prop where
  has : ∀ c id, s.Holds c id → s.docker.Has id
  notDue : ∀ c id, s.Holds c id → ¬s.Due needed id

section

variable {needed : Nat} {o : Observed} {s : Node} {e : Event} {c : Nat} {id : String}

theorem has_of_found {ref : String} {policy : Option PullPolicy} {image : LocalImage}
    (h : found s c ref policy = some image) : s.docker.Has image.id := by
  simp only [found] at h
  split at h
  · exact Docker.has_of_inspectImage h
  · cases h

/-- What the loop has yet to come to was so before the step, or has just been listed. -/
theorem due_step (h : (step needed e s).Due needed id) :
    s.Due needed id ∨ ∃ images, e = .imagesInUse true ∧ s.sweep = .listed images ∧
      id ∈ unusedOf images s.docker.imagesInUse ∧ needed ≤ s.unusedImages id + 1 := by
  by_cases himages : ∃ ok, e = .imagesInUse ok
  · obtain ⟨ok, rfl⟩ := himages
    simp only [step, stepImagesInUse] at h
    split at h
    next images hsweep =>
      cases ok with
      | true =>
          obtain ⟨hmem, hneeded⟩ := h
          simp only [if_true, Sweep.todo_loop] at hmem hneeded
          rw [if_pos hmem] at hneeded
          exact .inr ⟨images, rfl, hsweep, hmem, hneeded⟩
      | false => cases h.1
    · exact .inl h
  by_cases hreclaim : ∃ id ok, e = .reclaim id ok
  · obtain ⟨id', ok, rfl⟩ := hreclaim
    by_cases hmem : id' ∈ s.sweep.todo
    · obtain ⟨n, docker, hstep, -⟩ := stepReclaim_cases needed ok hmem
      simp only [step, hstep] at h
      obtain ⟨hmem', hneeded⟩ := h
      obtain ⟨hmem', hid⟩ : id ∈ s.sweep.todo ∧ id ≠ id' := by simpa using hmem'
      exact .inl ⟨hmem', by simpa [Function.update_of_ne hid] using hneeded⟩
    · simp only [step, stepReclaim_eq needed ok hmem] at h
      exact .inl h
  obtain ⟨hcounts, htodo⟩ := step_quiet needed s
    (fun ok h => himages ⟨ok, h⟩) fun id ok h => hreclaim ⟨id, ok, h⟩
  left
  simpa [Node.Due, hcounts, htodo] using h

theorem step_of_found {ref : String} {policy : Option PullPolicy} {image : LocalImage}
    (h : found s c ref policy = some image) :
    step needed (.search c ref policy) s =
      { s with creates := Function.update s.creates c (some (.ready ref image.id)) } := by
  simp only [found] at h
  split at h
  next hcond =>
    obtain ⟨hfree, hpull⟩ := hcond
    rw [h, Option.isSome_some] at hpull
    simp only [step, stepSearch, hfree, h, Option.isSome_some, Option.map_some]
    rw [if_neg (by simpa using hpull)]
  · cases h

/-- A step that is not so leaves an image due that a create holds. -/
theorem exposed_of_hurried (hguarded : Guarded needed s) (h : ¬Unhurried needed e s) :
    ∃ c id, (step needed e s).Holds c id ∧ (step needed e s).docker.Has id ∧
      (step needed e s).Due needed id := by
  cases e with
  | imagesInUse ok =>
      cases ok with
      | false => exact absurd trivial h
      | true =>
          simp only [Unhurried, not_forall] at h
          obtain ⟨images, hsweep, c, id, hholds, hmem, hcount⟩ := h
          refine ⟨c, id, ?_⟩
          simp only [step, stepImagesInUse, hsweep, if_true, Node.Due, Sweep.todo_loop]
          rw [if_pos hmem]
          exact ⟨hholds, hguarded.has c id hholds, hmem, Nat.le_of_not_lt hcount⟩
  | search c ref policy =>
      simp only [Unhurried, not_forall, not_not] at h
      obtain ⟨image, himage, hdue⟩ := h
      have hhas := has_of_found himage
      refine ⟨c, image.id, ?_⟩
      rw [step_of_found himage]
      exact ⟨⟨ref, by simp⟩, hhas, hdue⟩
  | pull c id =>
      cases id with
      | none => exact absurd trivial h
      | some id =>
          simp only [Unhurried, not_forall, not_not] at h
          obtain ⟨ref, hpulling, hdue⟩ := h
          refine ⟨c, id, ?_⟩
          simp only [step, stepPull, hpulling]
          exact ⟨⟨ref, by simp⟩, Docker.has_pull.mpr (.inl rfl), hdue⟩
  | _ => exact absurd trivial h

/-- The containers of an image are removed one after the other. -/
theorem exists_unused (needed : Nat) (id : String) :
    ∀ n (o : Observed), o.node.docker.containers.count id = n →
      ∃ es, id ∉ (steps (observe needed) es o).node.docker.containers ∧
        (steps (observe needed) es o).node.docker.images = o.node.docker.images ∧
        (steps (observe needed) es o).node.creates = o.node.creates ∧
        (steps (observe needed) es o).node.unusedImages = o.node.unusedImages ∧
        (steps (observe needed) es o).node.sweep = o.node.sweep := by
  intro n
  induction n with
  | zero =>
      intro o hcount
      exact ⟨[], List.count_eq_zero.mp hcount, rfl, rfl, rfl, rfl⟩
  | succ n ih =>
      intro o hcount
      obtain ⟨es, hes⟩ := ih (observe needed (.gone id) o) (by
        simp [observe, step, List.count_erase_self, hcount])
      exact ⟨.gone id :: es, hes⟩

theorem loses_of_exposed (hholds : o.node.Holds c id) (hhas : o.node.docker.Has id)
    (hdue : o.node.Due needed id) : ∃ es, Loses needed (steps (observe needed) es o) := by
  obtain ⟨es, hfree, himages, hcreates, hcounts, hsweep⟩ := exists_unused needed id _ o rfl
  refine ⟨es, .reclaim id true, c, id, ?_⟩
  generalize hend : (steps (observe needed) es o).node = s at *
  have hhas' : s.docker.Has id := by
    rw [Docker.Has, himages]
    exact hhas
  have hremove : s.docker.removeImage id = some _ := if_pos ⟨hhas', hfree⟩
  have hlost := (Docker.removeImage_eq_some hremove).2.2 id
  refine ⟨?_, hhas', ?_⟩
  · obtain ⟨ref, href⟩ := hholds
    exact ⟨ref, by rw [hcreates, href]⟩
  · rw [step, stepReclaim, if_pos (by rw [hsweep]; exact hdue.1), hcounts,
      if_neg (Nat.not_lt.mpr hdue.2), if_pos rfl, hremove]
    intro hstill
    exact (hlost.mp hstill).2 rfl

theorem Guarded.step (h : Guarded needed s) (he : Unhurried needed e s) :
    Guarded needed (step needed e s) := by
  refine ⟨fun c id hholds => ?_, fun c id hholds hdue => ?_⟩
  · rcases holds_step hholds with hheld | ⟨ref, policy, image, rfl, himage, rfl⟩ | ⟨rfl, ref, hpulling⟩
    · exact (step_has (h.has c id hheld)).resolve_right fun hreclaim =>
        h.notDue c id hheld hreclaim.2
    · have hhas := has_of_found himage
      rw [step_of_found himage]
      exact hhas
    · simp [Image.step, stepPull, hpulling]
  · rcases due_step hdue with hdue' | ⟨images, rfl, hsweep, hmem, hneeded⟩
    · rcases holds_step hholds with hheld | ⟨ref, policy, image, rfl, himage, rfl⟩ | ⟨rfl, ref, hpulling⟩
      · exact h.notDue c id hheld hdue'
      · exact he image himage hdue'
      · exact he ref hpulling hdue'
    · rcases holds_step hholds with hheld | ⟨ref, policy, image, hsearch, -⟩ | ⟨hpull, -⟩
      · exact absurd (he images hsweep c id hheld hmem) (Nat.not_lt.mpr hneeded)
      · cases hsearch
      · cases hpull

theorem Calm.guarded (h : Calm needed o) : Guarded needed o.node := by
  refine Reached.invariant (I := fun o => Guarded needed o.node) h ?_ fun e o he ho => ho.step he
  rintro o ⟨docker, rfl⟩
  constructor <;> rintro c id ⟨ref, hready⟩ <;> cases hready

theorem Calm.not_loses (h : Calm needed o) : ¬Loses needed o := by
  rintro ⟨e, c, id, hholds, hremoves⟩
  exact h.guarded.notDue c id hholds hremoves.due.2

theorem Calm.exists_loses (h : Calm needed o) (he : ¬Unhurried needed e o.node) :
    ∃ es, Loses needed (steps (observe needed) (e :: es) o) := by
  obtain ⟨c, id, hholds, hhas, hdue⟩ := exposed_of_hurried h.guarded he
  exact loses_of_exposed (o := observe needed e o) hholds hhas hdue

end

/-- Every run removes an image rightly.  While all its steps are unhurried no image is taken that a
create holds, and from the first step that is not, the run can go on so that one is. -/
theorem spared_iff (needed : Nat) :
    (∀ o, States needed o → ∀ e id, Removes needed e o.node id → Rightly needed o id) ∧
    ∀ o, Calm needed o → ¬Loses needed o ∧
      ∀ e, ¬Unhurried needed e o.node → ∃ es, Loses needed (steps (observe needed) (e :: es) o) :=
  ⟨fun _ ho _ _ hremoves => ho.rightly hremoves,
    fun _ ho => ⟨ho.not_loses, fun _ he => ho.exists_loses he⟩⟩

/-- No run takes an image wrongly, or one that a create holds. -/
def Spared (needed : Nat) : Prop :=
  ∀ o, States needed o → ∀ e id, Removes needed e o.node id →
    Rightly needed o id ∧ ∀ c, ¬o.node.Holds c id

/-- An image is swept once, then found by a create, then swept again. -/
def wantedAgain : List Event :=
  [.listLocalImages true, .imagesInUse true, .reclaim "sha256:1" true,
    .search 0 "app:1" (some .ifnotpresent), .listLocalImages true, .imagesInUse true]

def longUnused : Observed := { node := { docker := { images := [{ id := "sha256:1", tags := ["app:1"] }] } } }

theorem not_spared : ¬Spared 2 := by
  intro h
  have hrun : States 2 (steps (observe 2) wantedAgain longUnused) :=
    Reached.steps (.init ⟨_, rfl⟩) (allowed_true _ _ _)
  have hremoves : Removes 2 (.reclaim "sha256:1" true) (steps (observe 2) wantedAgain longUnused).node
      "sha256:1" := ⟨by decide +kernel, by decide +kernel⟩
  have hcreates : (steps (observe 2) wantedAgain longUnused).node.creates 0 =
      some (.ready "app:1" "sha256:1") := by decide +kernel
  exact (h _ hrun _ _ hremoves).2 0 ⟨_, hcreates⟩

end Image

end Zun
