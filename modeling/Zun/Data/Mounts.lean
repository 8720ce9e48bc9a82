import Mathlib.Data.List.Induction
import Mathlib.Data.List.Infix

/-!
# Mount tables

A mount shows the tree of a filesystem at a path.  A table is a list of mounts, newest first.  A
path is looked up in the newest mount that is at or above it, so a mount hides whatever was at or
below its path before, and shows it again when it goes.

A file is a place in a filesystem.  The same file can be seen at several paths, or at none.
`Shown t p i` says that `i` is seen somewhere at or below `p`, which is what a removal that
descends from `p` reaches.
-/

namespace Mounts

variable {ν : Type} [DecidableEq ν]

/-- A path, from the root. -/
abbrev Path (ν : Type) := List ν

/-- A place in a filesystem: the device, and the path inside it. -/
structure Inode (ν : Type) where
  dev : Nat
  path : List ν
deriving DecidableEq

/-- A mount: the name of what is mounted, the tree it shows, and where. -/
structure Mount (ν : Type) where
  source : String
  root : Inode ν
  path : Path ν
deriving DecidableEq

/-- A mount table, newest first. -/
abbrev Table (ν : Type) := List (Mount ν)

/-- The mount that a path is looked up in. -/
def covering (t : Table ν) (p : Path ν) : Option (Mount ν) := t.find? fun m => m.path.isPrefixOf p

/-- What a mount shows at a path at or below its own. -/
def Mount.at (m : Mount ν) (p : Path ν) : Inode ν :=
  ⟨m.root.dev, m.root.path ++ p.drop m.path.length⟩

/-- What a path shows. -/
def resolve (t : Table ν) (p : Path ν) : Option (Inode ν) := (covering t p).map (·.at p)

/-- Something is mounted on the path. -/
def isMountpoint (t : Table ν) (p : Path ν) : Bool := (covering t p).any (·.path == p)

/-- The path shows something of another device than its parent, or what its parent shows. -/
def differs (t : Table ν) (p : Path ν) : Bool :=
  match resolve t p, resolve t p.dropLast with
  | some i, some j => i.dev != j.dev || i == j
  | _, _ => false

/-- The table without the newest mount on `p`. -/
def unmount (t : Table ν) (p : Path ν) : Table ν := t.eraseP (·.path == p)

/-- The paths at which a place would be seen if nothing were hidden. -/
def places (t : Table ν) (i : Inode ν) : List (Path ν) :=
  t.filterMap fun m =>
    if m.root.dev = i.dev ∧ m.root.path.isPrefixOf i.path then
      some (m.path ++ i.path.drop m.root.path.length)
    else none

/-- The place is seen at or below `p`. -/
def shown (t : Table ν) (p : Path ν) (i : Inode ν) : Bool :=
  (places t i).any fun q => p.isPrefixOf q && resolve t q == some i

theorem covering_path {t : Table ν} {p : Path ν} {m : Mount ν} (h : covering t p = some m) :
    m ∈ t ∧ m.path <+: p := by
  have habove := List.find?_some (p := fun m : Mount ν => m.path.isPrefixOf p) h
  exact ⟨List.mem_of_find?_eq_some h, List.isPrefixOf_iff_prefix.mp habove⟩

/-- A path on which nothing is mounted is looked up where its parent is. -/
theorem covering_dropLast {t : Table ν} {p : Path ν} {m : Mount ν} (h : covering t p = some m)
    (hne : m.path ≠ p) : covering t p.dropLast = some m := by
  obtain ⟨-, as, bs, ht, has⟩ := List.find?_eq_some_iff_append.mp h
  refine List.find?_eq_some_iff_append.mpr ⟨?_, as, bs, ht, fun a ha => ?_⟩
  · have hlt : m.path <+: p.dropLast := by
      obtain ⟨rest, rfl⟩ := (covering_path h).2
      cases rest using List.reverseRecOn with
      | nil => simp at hne
      | append_singleton rest x => simp [← List.append_assoc]
    simpa using hlt
  · have hnot := has a ha
    simp only [Bool.not_eq_true', ← Bool.not_eq_true, List.isPrefixOf_iff_prefix] at hnot ⊢
    exact fun hpre => hnot (hpre.trans (List.dropLast_prefix p))

theorem mem_of_differs {t : Table ν} {p : Path ν} (hp : p ≠ []) (h : differs t p = true) :
    ∃ m ∈ t, m.path = p := by
  unfold differs resolve at h
  cases hm : covering t p with
  | none => simp [hm] at h
  | some m =>
      by_contra hnone
      have hne : m.path ≠ p := fun heq => hnone ⟨m, (covering_path hm).1, heq⟩
      rw [hm, covering_dropLast hm hne] at h
      obtain ⟨rest, rfl⟩ := (covering_path hm).2
      cases rest using List.reverseRecOn with
      | nil => simp at hne
      | append_singleton rest x =>
          have hparent : (m.path ++ (rest ++ [x])).dropLast = m.path ++ rest := by
            rw [← List.append_assoc, List.dropLast_concat]
          rw [hparent] at h
          simp [Mount.at] at h

theorem isMountpoint_iff {t : Table ν} {p : Path ν} :
    isMountpoint t p = true ↔ ∃ m, covering t p = some m ∧ m.path = p := by
  unfold isMountpoint
  cases covering t p <;> simp

end Mounts
