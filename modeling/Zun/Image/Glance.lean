import Mathlib.Logic.Function.Basic
import Zun.Data.Patch
import Zun.Effect.Run
import Zun.Image.Docker

/-!
# Pulls of Glance images

`pull_image` of `zun/image/glance/driver.py`, and what the manager does with its answer.  A download is
written to the file of its image, and then loaded into docker.  A pull that need not download takes a
file whose checksum is right for an image that is loaded.

All pulls of an image share the file, and each open truncates it.  Docker may refuse what it is sent,
and a sweep may take the image from docker later.  Neither touches the file.
-/

namespace Zun

open Effect

namespace Image

namespace Glance

abbrev Uuid := Nat

abbrev Bytes := List UInt8

/-- What Glance has of its images. -/
structure Env where
  data : Uuid → Bytes
  checksum : Uuid → String
  md5 : Bytes → String

/-- Where a pull is. -/
inductive Pull where
  /-- It is to download. -/
  | wanting
  /-- `_verify_md5sum_for_image` has read some of the file. -/
  | verifying (id : Uuid) (read : Bytes)
  /-- The file is open, and this much is written. -/
  | writing (id : Uuid) (offset : Nat)
  /-- `pull_image` has answered that the image is not loaded. -/
  | downloaded (id : Uuid)
  /-- `load_image` has sent some of the file. -/
  | loading (id : Uuid) (sent : Bytes)
deriving DecidableEq

structure Node where
  /-- The files of `images_directory`, each called by the id of its image. -/
  files : Uuid → Option Bytes := fun _ => none
  /-- The Glance images that docker has. -/
  docker : List Uuid := []
  pulls : Nat → Option Pull := fun _ => none

inductive Event where
  /-- `_search_image_on_host`, and what `find_image` has found. -/
  | search (i : Nat) (policy : Option PullPolicy) (found : Option Uuid)
  /-- A turn of the loop of `_verify_md5sum_for_image`. -/
  | verify (i : Nat)
  /-- The file is opened to be written. -/
  | openFile (i : Nat) (found : Option Uuid)
  /-- A chunk is written, of `n` bytes unless the image ends before. -/
  | write (i n : Nat)
  | close (i : Nat)
  /-- The file is opened to be loaded. -/
  | openTar (i : Nat)
  | send (i n : Nat)
  /-- Docker answers what it was sent. -/
  | load (i : Nat) (ok : Bool)
  /-- The pull or the load raises. -/
  | fail (i : Nat)
  /-- A sweep removes the image from docker. -/
  | reclaim (id : Uuid)
deriving DecidableEq

def blockSize : Nat := 10 * 1024 * 1024

def Node.file (s : Node) (id : Uuid) : Bytes := (s.files id).getD []

def Node.setPull (s : Node) (i : Nat) (pull : Option Pull) : Node :=
  { s with pulls := Function.update s.pulls i pull }

def Node.setFile (s : Node) (id : Uuid) (file : Bytes) : Node :=
  { s with files := Function.update s.files id (some file) }

/-- The next data that `fd.read` has for the loop. -/
def Node.block (s : Node) (id : Uuid) (read : Bytes) : Bytes := ((s.file id).drop read.length).take blockSize

/-- The next chunk of the download. -/
def Env.chunk (env : Env) (id : Uuid) (offset n : Nat) : Bytes := ((env.data id).drop offset).take n

def stepSearch (i : Nat) (policy : Option PullPolicy) (found : Option Uuid) (s : Node) : Node :=
  match s.pulls i with
  | some _ => s
  | none =>
      let image := found.filter fun id => (s.files id).isSome
      if shouldPullImage (getImagePullPolicy policy) image.isSome then s.setPull i (some .wanting)
      else s.setPull i (image.map fun id => .verifying id [])

def stepVerify (env : Env) (i : Nat) (s : Node) : Node :=
  match s.pulls i with
  | some (.verifying id read) =>
      if s.block id read = [] then
        s.setPull i (if env.md5 read = env.checksum id then none else some .wanting)
      else s.setPull i (some (.verifying id (read ++ s.block id read)))
  | _ => s

def stepOpenFile (i : Nat) (found : Option Uuid) (s : Node) : Node :=
  match s.pulls i with
  | some .wanting =>
      match found with
      | some id => (s.setFile id []).setPull i (some (.writing id 0))
      | none => s.setPull i none
  | _ => s

def stepWrite (env : Env) (i n : Nat) (s : Node) : Node :=
  match s.pulls i with
  | some (.writing id offset) =>
      let chunk := env.chunk id offset n
      (s.setFile id (Patch.writeAt (s.file id) offset chunk)).setPull i
        (some (.writing id (offset + chunk.length)))
  | _ => s

/-- The iterator of chunks ends with the image, and a download that is cut short raises. -/
def stepClose (env : Env) (i : Nat) (s : Node) : Node :=
  match s.pulls i with
  | some (.writing id offset) =>
      if offset = (env.data id).length then s.setPull i (some (.downloaded id)) else s
  | _ => s

def stepLoad (env : Env) (i : Nat) (ok : Bool) (s : Node) : Node :=
  match s.pulls i with
  | some (.loading id sent) =>
      let s := s.setPull i none
      if ok ∧ sent = env.data id then { s with docker := id :: s.docker } else s
  | _ => s

def step (env : Env) : Event → Node → Node
  | .search i policy found, s => stepSearch i policy found s
  | .verify i, s => stepVerify env i s
  | .openFile i found, s => stepOpenFile i found s
  | .write i n, s => stepWrite env i n s
  | .close i, s => stepClose env i s
  | .openTar i, s =>
      match s.pulls i with
      | some (.downloaded id) => s.setPull i (some (.loading id []))
      | _ => s
  | .send i n, s =>
      match s.pulls i with
      | some (.loading id sent) => s.setPull i (some (.loading id (sent ++ ((s.file id).drop sent.length).take n)))
      | _ => s
  | .load i ok, s => stepLoad env i ok s
  | .fail i, s => s.setPull i none
  | .reclaim id, s => { s with docker := s.docker.filter (· ≠ id) }

/-- What `pull_image` answers at a step: the image, and `image_loaded`. -/
def answers (env : Env) (s : Node) : Event → Option (Uuid × Bool)
  | .verify i =>
      match s.pulls i with
      | some (.verifying id read) =>
          if s.block id read = [] ∧ env.md5 read = env.checksum id then some (id, true) else none
      | _ => none
  | .close i =>
      match s.pulls i with
      | some (.writing id offset) => if offset = (env.data id).length then some (id, false) else none
      | _ => none
  | _ => none

/-! ## What has happened to an image -/

inductive Happened where
  /-- Docker took all of the image. -/
  | loaded (id : Uuid)
  | reclaimed (id : Uuid)
deriving DecidableEq

/-- The node, and what there has been of writes, loads and reclaims. -/
structure Observed where
  node : Node := {}
  /-- The writes to a file since it was last opened to be written. -/
  spans : Uuid → List Patch.Span := fun _ => []
  /-- The pull that last did so. -/
  opener : Uuid → Option Nat := fun _ => none
  /-- The last one first. -/
  happened : List Happened := []

/-- A load of the image has succeeded, and it has not been reclaimed since. -/
def LoadedSince (id : Uuid) : List Happened → Prop
  | [] => False
  | .loaded id' :: happened => id' = id ∨ LoadedSince id happened
  | .reclaimed id' :: happened => id' ≠ id ∧ LoadedSince id happened

def spansAfter (env : Env) (e : Event) (o : Observed) : Uuid → List Patch.Span :=
  match e with
  | .openFile i (some id) =>
      if o.node.pulls i = some .wanting then Function.update o.spans id [] else o.spans
  | .write i n =>
      match o.node.pulls i with
      | some (.writing id offset) =>
          let chunk := env.chunk id offset n
          if chunk = [] then o.spans
          else Function.update o.spans id (⟨offset, offset + chunk.length⟩ :: o.spans id)
      | _ => o.spans
  | _ => o.spans

def openerAfter (e : Event) (o : Observed) : Uuid → Option Nat :=
  match e with
  | .openFile i (some id) =>
      if o.node.pulls i = some .wanting then Function.update o.opener id (some i) else o.opener
  | _ => o.opener

def happens (env : Env) (e : Event) (s : Node) : List Happened :=
  match e with
  | .load i true =>
      match s.pulls i with
      | some (.loading id sent) => if sent = env.data id then [.loaded id] else []
      | _ => []
  | .reclaim id => [.reclaimed id]
  | _ => []

def observe (env : Env) (e : Event) (o : Observed) : Observed :=
  { node := step env e o.node, spans := spansAfter env e o, opener := openerAfter e o,
    happened := happens env e o.node ++ o.happened }

/-- The states of every run.  Nothing has been pulled at the beginning. -/
def States (env : Env) : Observed → Prop := Reached (· = {}) (observe env) fun _ _ => True

section

variable {env : Env} {s : Node} {e : Event} {o : Observed} {i j : Nat} {id : Uuid} {offset n : Nat}

@[simp] theorem setPull_files (pull : Option Pull) : (s.setPull i pull).files = s.files := rfl

@[simp] theorem setPull_docker (pull : Option Pull) : (s.setPull i pull).docker = s.docker := rfl

@[simp] theorem setPull_same (pull : Option Pull) : (s.setPull i pull).pulls i = pull := by
  simp [Node.setPull]

theorem setPull_of_ne (h : j ≠ i) (pull : Option Pull) : (s.setPull i pull).pulls j = s.pulls j := by
  simp [Node.setPull, h]

@[simp] theorem setFile_pulls (file : Bytes) : (s.setFile id file).pulls = s.pulls := rfl

@[simp] theorem setFile_docker (file : Bytes) : (s.setFile id file).docker = s.docker := rfl

@[simp] theorem setFile_same (file : Bytes) : (s.setFile id file).files id = some file := by
  simp [Node.setFile]

theorem setFile_of_ne {id' : Uuid} (h : id' ≠ id) (file : Bytes) :
    (s.setFile id file).files id' = s.files id' := by simp [Node.setFile, h]

/-- A pull that another state of a pull replaces is writing only if that state is. -/
theorem writing_of_setPull {pull : Option Pull} (h : (s.setPull i pull).pulls j = some (.writing id offset))
    (hpull : ∀ id offset, pull ≠ some (.writing id offset)) : s.pulls j = some (.writing id offset) := by
  by_cases hj : j = i
  · subst hj
    rw [setPull_same] at h
    exact absurd h (hpull id offset)
  · rwa [setPull_of_ne hj] at h

/-! ## What is in a file -/

/-- Every file has what has been written since it was last opened to be written. -/
structure Written (env : Env) (o : Observed) : Prop where
  file : ∀ id, ∀ file ∈ o.node.files id, file = Patch.patched (env.data id) (o.spans id)
  within : ∀ id, Patch.Within (env.data id) (o.spans id)
  isSome : ∀ j id offset, o.node.pulls j = some (.writing id offset) → (o.node.files id).isSome
  offset_le : ∀ j id offset, o.node.pulls j = some (.writing id offset) → offset ≤ (env.data id).length
  /-- What the last pull to open a file has written is all there. -/
  opener : ∀ j id offset, o.node.pulls j = some (.writing id offset) → o.opener id = some j →
    ∀ p < offset, Patch.Covered (o.spans id) p

/-- The other steps leave the files alone, and begin no download. -/
theorem step_files (env : Env) (s : Node) (hopen : ∀ i found, e ≠ .openFile i found) (hwrite : ∀ i n, e ≠ .write i n) :
    (step env e s).files = s.files ∧
      ∀ j id offset, (step env e s).pulls j = some (.writing id offset) →
        s.pulls j = some (.writing id offset) := by
  cases e with
  | openFile i found => exact absurd rfl (hopen i found)
  | write i n => exact absurd rfl (hwrite i n)
  | search i policy found =>
      simp only [step, stepSearch]
      split
      · exact ⟨rfl, fun _ _ _ h => h⟩
      · split
        · exact ⟨rfl, fun _ _ _ h => writing_of_setPull h nofun⟩
        · refine ⟨rfl, fun _ _ _ h => writing_of_setPull h fun id offset hmap => ?_⟩
          obtain ⟨_, -, hmap⟩ := Option.map_eq_some_iff.mp hmap
          cases hmap
  | verify i =>
      simp only [step, stepVerify]
      split
      · split
        · refine ⟨rfl, fun _ _ _ h => writing_of_setPull h fun id offset hif => ?_⟩
          split at hif <;> cases hif
        · exact ⟨rfl, fun _ _ _ h => writing_of_setPull h nofun⟩
      · exact ⟨rfl, fun _ _ _ h => h⟩
  | close i =>
      simp only [step, stepClose]
      split
      · split
        · exact ⟨rfl, fun _ _ _ h => writing_of_setPull h nofun⟩
        · exact ⟨rfl, fun _ _ _ h => h⟩
      · exact ⟨rfl, fun _ _ _ h => h⟩
  | openTar i =>
      simp only [step]
      split
      · exact ⟨rfl, fun _ _ _ h => writing_of_setPull h nofun⟩
      · exact ⟨rfl, fun _ _ _ h => h⟩
  | send i n =>
      simp only [step]
      split
      · exact ⟨rfl, fun _ _ _ h => writing_of_setPull h nofun⟩
      · exact ⟨rfl, fun _ _ _ h => h⟩
  | load i ok =>
      simp only [step, stepLoad]
      split
      · split <;> exact ⟨rfl, fun _ _ _ h => writing_of_setPull (s := s) h nofun⟩
      · exact ⟨rfl, fun _ _ _ h => h⟩
  | fail i => exact ⟨rfl, fun _ _ _ h => writing_of_setPull h nofun⟩
  | reclaim id => exact ⟨rfl, fun _ _ _ h => h⟩

theorem observe_spans (env : Env) (o : Observed) (hopen : ∀ i found, e ≠ .openFile i found) (hwrite : ∀ i n, e ≠ .write i n) :
    (observe env e o).spans = o.spans ∧ (observe env e o).opener = o.opener := by
  cases e with
  | openFile i found => exact absurd rfl (hopen i found)
  | write i n => exact absurd rfl (hwrite i n)
  | _ => exact ⟨rfl, rfl⟩

/-- Nothing is written, and no download begins. -/
theorem Written.of_quiet {o' : Observed} (h : Written env o) (hfiles : o'.node.files = o.node.files)
    (hpulls : ∀ j id offset, o'.node.pulls j = some (.writing id offset) →
      o.node.pulls j = some (.writing id offset))
    (hspans : o'.spans = o.spans) (hopener : o'.opener = o.opener) : Written env o' where
  file := by
    rw [hfiles, hspans]
    exact h.file
  within := by
    rw [hspans]
    exact h.within
  isSome j id offset hj := by
    rw [hfiles]
    exact h.isSome j id offset (hpulls j id offset hj)
  offset_le j id offset hj := h.offset_le j id offset (hpulls j id offset hj)
  opener j id offset hj := by
    rw [hspans, hopener]
    exact h.opener j id offset (hpulls j id offset hj)

/-- A pull writes to one file. -/
theorem Written.of_write {o' : Observed} {file : Bytes} {spans : List Patch.Span} (h : Written env o)
    (hnode : o'.node = (o.node.setFile id file).setPull i (some (.writing id offset)))
    (hspans : o'.spans = Function.update o.spans id spans)
    (hfile : file = Patch.patched (env.data id) spans) (hwithin : Patch.Within (env.data id) spans)
    (hoffset : offset ≤ (env.data id).length)
    (hopener : ∀ id', id' ≠ id → o'.opener id' = o.opener id')
    (hlast : ∀ j, o'.opener id = some j → j = i ∧ (∀ p < offset, Patch.Covered spans p) ∨
      j ≠ i ∧ o.opener id = some j ∧ ∀ p, Patch.Covered (o.spans id) p → Patch.Covered spans p) :
    Written env o' := by
  have hwriting (j : Nat) (id' : Uuid) (offset' : Nat)
      (hj : o'.node.pulls j = some (.writing id' offset')) :
      j = i ∧ id' = id ∧ offset' = offset ∨ j ≠ i ∧ o.node.pulls j = some (.writing id' offset') := by
    rw [hnode] at hj
    by_cases hji : j = i
    · subst hji
      rw [setPull_same] at hj
      injection hj with hj
      injection hj with hid hoffset
      exact .inl ⟨rfl, hid.symm, hoffset.symm⟩
    · rw [setPull_of_ne hji, setFile_pulls] at hj
      exact .inr ⟨hji, hj⟩
  refine ⟨fun id' file' hfile' => ?_, fun id' => ?_, fun j id' offset' hj => ?_, fun j id' offset' hj => ?_,
    fun j id' offset' hj hmine p hp => ?_⟩
  · rw [hnode, setPull_files] at hfile'
    rw [hspans]
    by_cases hid : id' = id
    · subst hid
      rw [setFile_same, Option.mem_some_iff] at hfile'
      rw [Function.update_self, ← hfile', hfile]
    · rw [setFile_of_ne hid] at hfile'
      rw [Function.update_of_ne hid]
      exact h.file id' file' hfile'
  · rw [hspans]
    by_cases hid : id' = id
    · subst hid
      rwa [Function.update_self]
    · rw [Function.update_of_ne hid]
      exact h.within id'
  · rw [hnode, setPull_files]
    by_cases hid : id' = id
    · subst hid
      rw [setFile_same, Option.isSome_some]
    · rw [setFile_of_ne hid]
      rcases hwriting j id' offset' hj with ⟨-, hid', -⟩ | ⟨-, hold⟩
      · exact absurd hid' hid
      · exact h.isSome j id' offset' hold
  · rcases hwriting j id' offset' hj with ⟨-, rfl, rfl⟩ | ⟨-, hold⟩
    · exact hoffset
    · exact h.offset_le j id' offset' hold
  · rw [hspans]
    by_cases hid : id' = id
    · subst hid
      rw [Function.update_self]
      rcases hwriting j id' offset' hj with ⟨rfl, -, rfl⟩ | ⟨hji, hold⟩
      · exact ((hlast j hmine).resolve_right fun hother => hother.1 rfl).2 p hp
      · obtain ⟨-, hopened, hkept⟩ := (hlast j hmine).resolve_left fun hsame => hji hsame.1
        exact hkept p (h.opener j id' offset' hold hopened p hp)
    · rw [Function.update_of_ne hid]
      rw [hopener id' hid] at hmine
      rcases hwriting j id' offset' hj with ⟨-, hid', -⟩ | ⟨-, hold⟩
      · exact absurd hid' hid
      · exact h.opener j id' offset' hold hmine p hp

theorem Written.openFile (h : Written env o) (i : Nat) (found : Option Uuid) :
    Written env (observe env (.openFile i found) o) := by
  by_cases hwanting : o.node.pulls i = some .wanting
  · cases found with
    | none =>
        refine h.of_quiet ?_ (fun j id offset hj => ?_) rfl rfl
        · simp [observe, step, stepOpenFile, hwanting]
        · simp only [observe, step, stepOpenFile, hwanting] at hj
          exact writing_of_setPull hj nofun
    | some id =>
        have hopener : (observe env (.openFile i (some id)) o).opener =
            Function.update o.opener id (some i) := by simp [observe, openerAfter, hwanting]
        have hnode : (observe env (.openFile i (some id)) o).node =
            (o.node.setFile id []).setPull i (some (.writing id 0)) := by
          simp [observe, step, stepOpenFile, hwanting]
        have hspans : (observe env (.openFile i (some id)) o).spans = Function.update o.spans id [] := by
          simp [observe, spansAfter, hwanting]
        refine h.of_write hnode hspans rfl ?_ (Nat.zero_le _) ?_ ?_
        · simp [Patch.Within]
        · intro id' hid
          rw [hopener, Function.update_of_ne hid]
        · intro j hj
          rw [hopener, Function.update_self] at hj
          injection hj with hj
          exact .inl ⟨hj.symm, nofun⟩
  · have hsame : (observe env (.openFile i found) o).node = o.node := by
      simp only [observe, step, stepOpenFile]
    refine h.of_quiet (by rw [hsame]) (fun j id offset hj => ?_) ?_ ?_
    · rwa [hsame] at hj
    · cases found <;> simp [observe, spansAfter, hwanting]
    · cases found <;> simp [observe, openerAfter, hwanting]

theorem Written.write (h : Written env o) (i n : Nat) : Written env (observe env (.write i n) o) := by
  by_cases hwriting : ∃ id offset, o.node.pulls i = some (.writing id offset)
  · obtain ⟨id, offset, hpull⟩ := hwriting
    have hle := h.offset_le i id offset hpull
    obtain ⟨file, hfile⟩ := Option.isSome_iff_exists.mp (h.isSome i id offset hpull)
    have hold : o.node.file id = Patch.patched (env.data id) (o.spans id) := by
      rw [Node.file, hfile, Option.getD_some, h.file id file hfile]
    have hlength : (env.chunk id offset n).length = min n ((env.data id).length - offset) := by
      rw [Env.chunk, List.length_take, List.length_drop]
    have hchunk : ((env.data id).drop offset).take (env.chunk id offset n).length = env.chunk id offset n := by
      rw [hlength]
      exact List.take_eq_take_iff.mpr (by rw [List.length_drop]; omega)
    have hnode : (observe env (.write i n) o).node =
        (o.node.setFile id (Patch.writeAt (o.node.file id) offset (env.chunk id offset n))).setPull i
          (some (.writing id (offset + (env.chunk id offset n).length))) := by
      simp [observe, step, stepWrite, hpull]
    have hkept (j : Nat) (hj : o.opener id = some j) (spans : List Patch.Span)
        (hspans : ∀ p, Patch.Covered spans p ↔
          (offset ≤ p ∧ p < offset + (env.chunk id offset n).length) ∨ Patch.Covered (o.spans id) p) :
        j = i ∧ (∀ p < offset + (env.chunk id offset n).length, Patch.Covered spans p) ∨
          j ≠ i ∧ o.opener id = some j ∧ ∀ p, Patch.Covered (o.spans id) p → Patch.Covered spans p := by
      by_cases hji : j = i
      · subst hji
        refine .inl ⟨rfl, fun p hp => (hspans p).mpr ?_⟩
        rcases Nat.lt_or_ge p offset with hlt | hge
        · exact .inr (h.opener j id offset hpull hj p hlt)
        · exact .inl ⟨hge, hp⟩
      · exact .inr ⟨hji, hj, fun p hp => (hspans p).mpr (.inr hp)⟩
    by_cases hempty : env.chunk id offset n = []
    · have hspans : (observe env (.write i n) o).spans = Function.update o.spans id (o.spans id) := by
        simp [observe, spansAfter, hpull, hempty]
      refine h.of_write hnode hspans ?_ (h.within id) (by omega) (fun _ _ => rfl) ?_
      · rw [hempty, Patch.writeAt, if_pos rfl, hold]
      · intro j hj
        refine hkept j hj _ fun p => ?_
        rw [hempty, List.length_nil]
        constructor
        · exact .inr
        · rintro (hnone | hcovered)
          · omega
          · exact hcovered
    · have hpos : 0 < (env.chunk id offset n).length := List.length_pos_iff.mpr hempty
      have hspans : (observe env (.write i n) o).spans = Function.update o.spans id
          (⟨offset, offset + (env.chunk id offset n).length⟩ :: o.spans id) := by
        simp [observe, spansAfter, hpull, hempty]
      refine h.of_write hnode hspans ?_ ?_ (by omega) (fun _ _ => rfl)
        fun j hj => hkept j hj _ fun p => Patch.covered_cons
      · rw [hold, ← Patch.writeAt_patched (by omega) hpos, hchunk]
      · intro span hspan
        rcases List.mem_cons.mp hspan with rfl | hspan
        · refine ⟨Nat.lt_add_of_pos_right hpos, ?_⟩
          simp only
          omega
        · exact h.within id span hspan
  · have hnone (id : Uuid) (offset : Nat) : o.node.pulls i ≠ some (.writing id offset) :=
      fun hpull => hwriting ⟨id, offset, hpull⟩
    have hsame : (observe env (.write i n) o).node = o.node := by
      simp only [observe, step, stepWrite]
    have hspans : (observe env (.write i n) o).spans = o.spans := by
      simp only [observe, spansAfter]
    refine h.of_quiet (by rw [hsame]) (fun j id offset hj => ?_) hspans rfl
    rwa [hsame] at hj

theorem Written.step (h : Written env o) (e : Event) : Written env (observe env e o) := by
  by_cases hopen : ∃ i found, e = .openFile i found
  · obtain ⟨i, found, rfl⟩ := hopen
    exact h.openFile i found
  by_cases hwrite : ∃ i n, e = .write i n
  · obtain ⟨i, n, rfl⟩ := hwrite
    exact h.write i n
  have hopen' (i : Nat) (found : Option Uuid) : e ≠ .openFile i found := fun he => hopen ⟨i, found, he⟩
  have hwrite' (i n : Nat) : e ≠ .write i n := fun he => hwrite ⟨i, n, he⟩
  obtain ⟨hfiles, hpulls⟩ := step_files env o.node hopen' hwrite'
  obtain ⟨hspans, hopener⟩ := observe_spans env o hopen' hwrite'
  exact h.of_quiet hfiles hpulls hspans hopener

theorem States.written (h : States env o) : Written env o := by
  refine Reached.invariant (I := Written env) h ?_ fun e o _ ho => ho.step e
  rintro o rfl
  exact ⟨nofun, fun _ => nofun, nofun, nofun, nofun⟩

/-! ## What docker has -/

/-- Docker has what has been loaded and not been reclaimed since. -/
theorem docker_observe (h : ∀ id, id ∈ o.node.docker ↔ LoadedSince id o.happened) (e : Event) (id : Uuid) :
    id ∈ (observe env e o).node.docker ↔ LoadedSince id (observe env e o).happened := by
  cases e with
  | reclaim id' =>
      simp only [observe, step, happens, List.mem_filter, decide_eq_true_eq, List.singleton_append,
        LoadedSince, h]
      tauto
  | load i ok =>
      simp only [observe, step, stepLoad]
      split
      next id' sent hpull =>
        cases ok with
        | false => simpa [happens] using h id
        | true =>
            by_cases hsent : sent = env.data id'
            · simp [happens, hpull, hsent, LoadedSince, h, eq_comm]
            · simpa [happens, hpull, hsent] using h id
      next hother =>
        have hnone : happens env (.load i ok) o.node = [] := by
          cases ok with
          | false => rfl
          | true =>
              simp only [happens]
        rw [hnone]
        exact h id
  | search i policy found =>
      simp only [observe, step, stepSearch, happens]
      split
      · exact h id
      · split <;> exact h id
  | verify i =>
      simp only [observe, step, stepVerify, happens]
      split
      · split <;> exact h id
      · exact h id
  | openFile i found =>
      simp only [observe, step, stepOpenFile, happens]
      split
      · split <;> exact h id
      · exact h id
  | write i n =>
      simp only [observe, step, stepWrite, happens]
      split <;> exact h id
  | close i =>
      simp only [observe, step, stepClose, happens]
      split
      · split <;> exact h id
      · exact h id
  | openTar i =>
      simp only [observe, step, happens]
      split <;> exact h id
  | send i n =>
      simp only [observe, step, happens]
      split <;> exact h id
  | fail i => exact h id

theorem States.docker (h : States env o) (id : Uuid) :
    id ∈ o.node.docker ↔ LoadedSince id o.happened := by
  refine Reached.invariant (I := fun o => ∀ id, id ∈ o.node.docker ↔ LoadedSince id o.happened) h ?_
    (fun e o _ ho => docker_observe ho e) id
  rintro o rfl id
  simp [LoadedSince]

/-! ## What a pull answers -/

/-- The answer is that of a pull whose step leaves docker and the files alone. -/
theorem answers_true (h : answers env s e = some (id, true)) : (step env e s).docker = s.docker := by
  cases e with
  | verify i =>
      simp only [step, stepVerify]
      split
      · split <;> rfl
      · rfl
  | close i =>
      simp only [answers] at h
      split at h
      · split at h <;> simp at h
      · cases h
  | _ => cases h

theorem answers_false (h : answers env s e = some (id, false)) :
    ∃ i, e = .close i ∧ s.pulls i = some (.writing id (env.data id).length) ∧
      (step env e s).files = s.files := by
  cases e with
  | close i =>
      simp only [answers] at h
      split at h
      next id' offset hpull =>
        split at h
        next hend =>
          injection h with h
          injection h with hid
          subst hid
          subst hend
          exact ⟨i, rfl, hpull, by simp [step, stepClose, hpull]⟩
        · cases h
      · cases h
  | verify i =>
      simp only [answers] at h
      split at h
      · split at h <;> simp at h
      · cases h
  | _ => cases h

/-- The answer is right: docker has an image that is loaded, and a file that is to be loaded has all
of its image. -/
def Right (env : Env) (s : Node) (e : Event) (id : Uuid) : Bool → Prop
  | true => id ∈ (step env e s).docker
  | false => (step env e s).files id = some (env.data id)

/-- When it is: the image has been loaded and not reclaimed since, and every byte of the file that
counts has been written since it was last opened. -/
def Due (env : Env) (o : Observed) (id : Uuid) : Bool → Prop
  | true => LoadedSince id o.happened
  | false => Patch.Complete (env.data id) (o.spans id)

theorem States.right_iff (h : States env o) {loaded : Bool}
    (hanswer : answers env o.node e = some (id, loaded)) :
    Right env o.node e id loaded ↔ Due env o id loaded := by
  cases loaded with
  | true =>
      rw [Right, Due, answers_true hanswer]
      exact h.docker id
  | false =>
      obtain ⟨i, rfl, hpull, hfiles⟩ := answers_false hanswer
      obtain ⟨file, hfile⟩ := Option.isSome_iff_exists.mp (h.written.isSome i id _ hpull)
      rw [Right, Due, hfiles, hfile, ← Patch.patched_eq_iff (h.written.within id), Option.some_inj,
        h.written.file id file hfile]

/-- No other pull has opened the file since the one that answers. -/
theorem States.due_of_opener (h : States env o) (hanswer : answers env o.node (.close i) = some (id, false))
    (hopener : o.opener id = some i) : Due env o id false := by
  obtain ⟨j, hj, hpull, -⟩ := answers_false hanswer
  injection hj with hj
  subst hj
  exact fun p hp _ => h.written.opener i id _ hpull hopener p hp

/-- However many pulls write to one file, and wherever each of them is, a byte of it is that of the image there, or
zero where none has written yet. -/
theorem byte_of_states (h : States env o) {file : Bytes} (hfile : o.node.files id = some file)
    {p : Nat} {b : UInt8} (hb : file[p]? = some b) :
    ∃ byte, (env.data id)[p]? = some byte ∧ (b = byte ∨ b = 0 ∧ ¬ Patch.Covered (o.spans id) p) := by
  have hw := h.written
  rw [hw.file id file hfile, Patch.getElem?_patched] at hb
  split at hb
  case isFalse => cases hb
  case isTrue hp =>
    have hlt : p < (env.data id).length := Nat.lt_of_lt_of_le hp (Patch.top_le (hw.within id))
    refine ⟨(env.data id)[p], List.getElem?_eq_getElem hlt, ?_⟩
    rw [← Option.some.inj hb]
    split
    case isTrue => exact .inl (List.getD_eq_getElem _ _ hlt)
    case isFalse hfree => exact .inr ⟨rfl, hfree⟩

end

/-- In every run an answer is right exactly when it is due.  A download answers when it is due unless
another pull has opened its file since. -/
theorem truthful_iff (env : Env) :
    ∀ o, States env o → ∀ e id loaded, answers env o.node e = some (id, loaded) →
      (Right env o.node e id loaded ↔ Due env o id loaded) ∧
        ∀ i, e = .close i → o.opener id = some i → Due env o id loaded := by
  intro o ho e id loaded hanswer
  refine ⟨ho.right_iff hanswer, ?_⟩
  rintro i rfl hopener
  cases loaded with
  | true =>
      simp only [answers] at hanswer
      split at hanswer
      · split at hanswer <;> simp at hanswer
      · cases hanswer
  | false => exact ho.due_of_opener hanswer hopener

/-- One image, of two bytes. -/
def twoBytes : Env :=
  { data := fun _ => [1, 2], checksum := fun _ => "sum", md5 := fun bytes => if bytes = [1, 2] then "sum" else "" }

/-- A download that nothing disturbs, but for its end. -/
def downloaded : Observed :=
  steps (observe twoBytes) [.search 0 (some .always) (some 7), .openFile 0 (some 7), .write 0 2] {}

theorem truthful_downloaded : Right twoBytes downloaded.node (.close 0) 7 false := by
  have hbegin : States twoBytes {} := .init rfl
  have hrun : States twoBytes downloaded := Reached.steps hbegin (allowed_true _ _ _)
  have hanswer : answers twoBytes downloaded.node (.close 0) = some (7, false) := by decide +kernel
  have hopener : downloaded.opener 7 = some 0 := by decide +kernel
  obtain ⟨hiff, hdue⟩ := truthful_iff twoBytes downloaded hrun (.close 0) 7 false hanswer
  exact hiff.mpr (hdue 0 rfl hopener)

/-- A pull opens the file anew after another has written to it, and writes less. -/
def reopened : Observed :=
  steps (observe twoBytes) [.search 0 (some .always) (some 7), .search 1 (some .always) (some 7),
    .openFile 0 (some 7), .write 0 1, .openFile 1 (some 7), .write 0 1] {}

theorem byte_reopened : ∃ byte, (twoBytes.data 7)[0]? = some byte ∧
    ((0 : UInt8) = byte ∨ (0 : UInt8) = 0 ∧ ¬Patch.Covered (reopened.spans 7) 0) := by
  have hbegin : States twoBytes {} := .init rfl
  have hrun : States twoBytes reopened := Reached.steps hbegin (allowed_true _ _ _)
  have hfile : reopened.node.files 7 = some [0, 2] := by decide +kernel
  exact byte_of_states hrun hfile rfl

/-- Every answer of every run is right. -/
def Truthful (env : Env) : Prop :=
  ∀ o, States env o → ∀ e id loaded, answers env o.node e = some (id, loaded) →
    Right env o.node e id loaded

/-- A download that docker does not take, and a pull that need not download. -/
def refusedByDocker : List Event :=
  [.search 0 (some .always) (some 7), .openFile 0 (some 7), .write 0 2, .close 0, .openTar 0, .send 0 2,
    .load 0 false, .search 1 (some .ifnotpresent) (some 7), .verify 1]

theorem not_truthful : ¬Truthful twoBytes := by
  intro h
  have hbegin : States twoBytes {} := .init rfl
  have hrun : States twoBytes (steps (observe twoBytes) refusedByDocker {}) :=
    Reached.steps hbegin (allowed_true _ _ _)
  have hanswer : answers twoBytes (steps (observe twoBytes) refusedByDocker {}).node (.verify 1) =
      some (7, true) := by decide +kernel
  have hlacks : 7 ∉ (step twoBytes (.verify 1) (steps (observe twoBytes) refusedByDocker {}).node).docker := by
    decide +kernel
  exact hlacks (h _ hrun _ _ _ hanswer)

end Glance

end Image

end Zun
