import Mathlib.Data.List.Sort
import Mathlib.Logic.Function.Basic
import Zun.Effect.Run

/-!
# The log files of a container

`zun/container/cri/logfiles.py`, with `rotate_logs`, `_push_log`, `_reopen_log` and the reading of
`show_logs` of `zun/container/cri/driver.py`, for one container.  The runtime appends to the file it
holds open, by whatever name that goes.  The service moves names: `push` moves each file on by one,
from the oldest, and removes what would be too many; when the runtime will not reopen, `pop` moves
one file back.  A reader lists the names first and opens them one after the other.

Files are told apart by numbers in the order in which they were made, which nothing of the code
reads.  A directory is any assignment of files to names; the names are those that `_rotated` writes.
A file that a reader holds open stays as it is when its name goes.
-/

namespace Zun

open Effect

namespace LogFiles

/-- `current`, or `_rotated`. -/
inductive Name where
  | current
  | rotated (n : Nat)
deriving DecidableEq

structure Conf where
  /-- `cri_log_max_files`. -/
  keep : Nat
  two_le : 2 ≤ keep

variable {α : Type}

/-- A rotation, and what the readable output was when it began. -/
structure Round (α : Type) where
  /-- The container runs, as far as the look could tell. -/
  running : Bool
  before : List α
  /-- How much had been written by then. -/
  mark : Nat
  /-- A file was removed. -/
  dropped : Bool := false

/-- Where `rotate_logs` is. -/
inductive Rotator (α : Type) where
  | idle
  /-- In `push`, with the numbers still to be moved. -/
  | pushing (r : Round α) (todo : List Nat)
  /-- At the second `_running_by_log`. -/
  | looking (r : Round α)
  /-- At `ReopenContainerLog`. -/
  | reopening (r : Round α)
  /-- In `pop`. -/
  | popping (r : Round α)
  /-- There was no current file. -/
  | restoring (r : Round α)
  /-- The reopening had failed, and `pop` is done. -/
  | undone (r : Round α)

/-- Where a `show_logs` is, with what it has read. -/
inductive Reader (α : Type) where
  | opening (paths : List Name) (out : List α)
  | reading (file : Nat) (paths : List Name) (out : List α)
  | done (out : List α)

structure State (α : Type) where
  files : Name → Option Nat := fun _ => none
  /-- No number in use is larger. -/
  bound : Nat := 0
  content : Nat → List α := fun _ => []
  /-- How many files there have been. -/
  made : Nat := 0
  /-- The file that the runtime writes. -/
  writer : Option Nat := none
  rotator : Rotator α := .idle
  readers : Nat → Option (Reader α) := fun _ => none
  /-- Everything the container wrote. -/
  written : List α := []
  /-- Some `push` has come to its end. -/
  turned : Bool := false

namespace State

variable (s : State α)

def has (a : Name) : Bool := (s.files a).isSome

/-- `_numbers`. -/
def numbers : List Nat := (List.range s.bound).filter fun n => s.has (.rotated n)

/-- `oldest_first`. -/
def oldestFirst : List Name :=
  s.numbers.reverse.map .rotated ++ if s.has .current = true then [.current] else []

/-- What the files hold, read oldest first. -/
def readable : List α := (s.oldestFirst.filterMap s.files).flatMap s.content

/-- `os.rename`, of a name that is there. -/
def rename (a b : Name) : State α :=
  { s with
    files := Function.update (Function.update s.files b (s.files a)) a none
    bound := match b with
      | .current => s.bound
      | .rotated n => max s.bound (n + 1) }

/-- `os.unlink`. -/
def unlink (a : Name) : State α := { s with files := Function.update s.files a none }

/-- The runtime opens the path, for appending. -/
def openCurrent : State α :=
  match s.files .current with
  | some x => { s with writer := some x }
  | none =>
      { s with
        files := Function.update s.files .current (some s.made)
        made := s.made + 1
        writer := some s.made }

def setReader (j : Nat) (r : Reader α) : State α :=
  { s with readers := Function.update s.readers j (some r) }

end State

inductive Event (α : Type) where
  /-- The container's process starts, or stops. -/
  | start
  | stop
  | write (a : α)
  /-- A look finds the current file too large. -/
  | rotate (running : Bool)
  /-- The next call of `push` succeeds, or raises. -/
  | push (ok : Bool)
  | look (running : Bool)
  /-- The runtime reopens the log or does not, and its answer arrives or does not. -/
  | reopen (done answered : Bool)
  | pop
  | popRename (ok : Bool)
  | list (j : Nat)
  | openNext (j : Nat)
  | read (j : Nat)

section

variable (conf : Conf) (s : State α)

def stepWrite (a : α) : State α :=
  match s.writer with
  | some x =>
      { s with
        content := Function.update s.content x (s.content x ++ [a])
        written := s.written ++ [a] }
  | none => s

/-- The look, and the listing of `push`. -/
def stepRotate (running : Bool) : State α :=
  { s with
    rotator := .pushing { running, before := s.readable, mark := s.written.length }
      s.numbers.reverse }

def stepPush (ok : Bool) : State α :=
  match s.rotator with
  | .pushing r [] =>
      if ok = true ∧ s.has .current = true then
        { s.rename .current (.rotated 1) with
          turned := true
          rotator := if r.running = true then .reopening r else .looking r }
      else { s with rotator := .idle }
  | .pushing r (n :: todo) =>
      if ok = true ∧ s.has (.rotated n) = true then
        if n + 1 ≥ conf.keep then
          { s.unlink (.rotated n) with rotator := .pushing { r with dropped := true } todo }
        else { s.rename (.rotated n) (.rotated (n + 1)) with rotator := .pushing r todo }
      else { s with rotator := .idle }
  | _ => s

def stepLook (running : Bool) : State α :=
  match s.rotator with
  | .looking r => { s with rotator := if running = true then .reopening r else .idle }
  | _ => s

def stepReopen (done answered : Bool) : State α :=
  match s.rotator with
  | .reopening r =>
      { (if done = true then s.openCurrent else s) with
        rotator := if answered = true then .idle else .popping r }
  | _ => s

def stepPop : State α :=
  match s.rotator with
  | .popping r => { s with rotator := if s.has .current = true then .undone r else .restoring r }
  | _ => s

def stepPopRename (ok : Bool) : State α :=
  match s.rotator with
  | .restoring r =>
      if ok = true ∧ s.has (.rotated 1) = true then
        { s.rename (.rotated 1) .current with rotator := .undone r }
      else { s with rotator := .undone r }
  | _ => s

/-- `open`, or a path that is no longer there. -/
def stepOpenNext (j : Nat) : State α :=
  match s.readers j with
  | some (.opening [] out) => s.setReader j (.done out)
  | some (.opening (p :: paths) out) =>
      match s.files p with
      | none => s.setReader j (.opening paths out)
      | some x => s.setReader j (.reading x paths out)
  | _ => s

/-- The lines of the file, up to where it ends now. -/
def stepRead (j : Nat) : State α :=
  match s.readers j with
  | some (.reading x paths out) => s.setReader j (.opening paths (out ++ s.content x))
  | _ => s

end

def step (conf : Conf) : Event α → State α → State α
  | .start, s => s.openCurrent
  | .stop, s => { s with writer := none }
  | .write a, s => stepWrite s a
  | .rotate running, s => stepRotate s running
  | .push ok, s => stepPush conf s ok
  | .look running, s => stepLook s running
  | .reopen done answered, s => stepReopen s done answered
  | .pop, s => stepPop s
  | .popRename ok, s => stepPopRename s ok
  | .list j, s => s.setReader j (.opening s.oldestFirst [])
  | .openNext j, s => stepOpenNext s j
  | .read j, s => stepRead s j

/-! ## What can happen -/

def Rotator.resting : Rotator α → Bool
  | .idle | .undone _ => true
  | _ => false

def Possible : Event α → State α → Prop
  | .start, s => s.writer = none
  | .rotate _, s => s.rotator.resting = true ∧ s.has .current = true
  -- A container that does not run has no log to reopen.
  | .reopen done _, s => done = true → s.writer.isSome = true
  | .list j, s => s.readers j = none
  | _, _ => True

/-- `a` was written before `b`. -/
def Older : Name → Name → Prop
  | .rotated _, .current => True
  | .rotated m, .rotated n => n < m
  | .current, _ => False

/-- At the start, the directory holds what has been written.  The files are numbered as they are
read. -/
structure Begun (s : State α) : Prop where
  bound : ∀ n, s.has (.rotated n) = true → n < s.bound
  order : ∀ (a b : Name) (x y : Nat), s.files a = some x → s.files b = some y → Older a b → x < y
  held : ∀ x : Nat, (∃ a, s.files a = some x) ↔ x < s.made
  written : s.written = (List.range s.made).flatMap s.content
  unmade : ∀ x : Nat, s.made ≤ x → s.content x = []
  writer : ∀ x : Nat, s.writer = some x → x + 1 = s.made
  rotator : s.rotator = .idle
  readers : s.readers = fun _ => none
  turned : s.turned = false

/-- What a reader has still to open. -/
def Reader.ahead : Reader α → List Name
  | .opening paths _ | .reading _ paths _ => paths
  | .done _ => []

/-- No reader has listed the name and not opened it. -/
def Unlisted (s : State α) (a : Name) : Prop := ∀ j r, s.readers j = some r → a ∉ r.ahead

/-- The call that `push` makes next leaves the readers alone. -/
def PushUnlisted (s : State α) : Prop :=
  match s.rotator with
  | .pushing _ [] => Unlisted s .current
  | .pushing _ (n :: _) => Unlisted s (.rotated n)
  | _ => True

/-- No file was removed by the rotation. -/
def Undropped (s : State α) : Prop :=
  match s.rotator with
  | .reopening r => r.dropped = false
  | _ => True

/-- When a rotation begins there is no file with the number 0; when one is moved or removed no
reader has listed it and not opened it; when the runtime does not reopen, no file was removed; and
none has been made by the time `pop` moves one back. -/
def Sound : Event α → State α → Prop
  | .rotate _, s => s.has (.rotated 0) = false
  | .push ok, s => ok = true → PushUnlisted s
  | .reopen _ answered, s => answered = false → Undropped s
  | .popRename ok, s => ok = true → s.has .current = false ∧ Unlisted s (.rotated 1)
  | _, _ => True

/-- No recent output is lost or hidden. -/
structure Safe (conf : Conf) (s : State α) : Prop where
  final : s.readable <:+ s.written
  few : s.turned = true → s.oldestFirst.length ≤ conf.keep
  undone : ∀ r, s.rotator = .undone r → s.readable = r.before ++ s.written.drop r.mark
  told : ∀ j out, s.readers j = some (.done out) → out <:+: s.written

/-! ## Names and files -/

namespace State

variable {s : State α}

theorem mem_numbers (hbound : ∀ n, s.has (.rotated n) = true → n < s.bound) {n : Nat} :
    n ∈ s.numbers ↔ s.has (.rotated n) = true := by
  simp only [numbers, List.mem_filter, List.mem_range]
  exact ⟨And.right, fun h => ⟨hbound n h, h⟩⟩

theorem mem_oldestFirst (hbound : ∀ n, s.has (.rotated n) = true → n < s.bound) {a : Name} :
    a ∈ s.oldestFirst ↔ s.has a = true := by
  cases a with
  | current =>
    simp only [oldestFirst, List.mem_append, List.mem_map]
    constructor
    · rintro (⟨n, -, hn⟩ | h)
      · cases hn
      · split at h
        · assumption
        · cases h
    · intro h
      rw [if_pos h]
      exact .inr (List.mem_singleton_self _)
  | rotated n =>
    simp only [oldestFirst, List.mem_append, List.mem_map, List.mem_reverse, mem_numbers hbound]
    constructor
    · rintro (⟨m, hm, hn⟩ | h)
      · cases hn
        exact hm
      · split at h
        · cases List.mem_singleton.mp h
        · cases h
    · intro h
      exact .inl ⟨n, h, rfl⟩

theorem numbers_pairwise : s.numbers.Pairwise (· < ·) := List.pairwise_lt_range.filter _

theorem oldestFirst_pairwise : s.oldestFirst.Pairwise Older := by
  unfold oldestFirst
  rw [List.pairwise_append]
  refine ⟨?_, ?_, ?_⟩
  · rw [List.pairwise_map, List.pairwise_reverse]
    exact numbers_pairwise
  · split
    · exact List.pairwise_singleton ..
    · exact List.Pairwise.nil
  · intro a ha b hb
    obtain ⟨n, -, rfl⟩ := List.mem_map.mp ha
    split at hb
    · rw [List.mem_singleton] at hb
      subst hb
      trivial
    · cases hb

end State

theorem has_of_files {s : State α} {a : Name} {x : Nat} (h : s.files a = some x) :
    s.has a = true := by
  simp [State.has, h]

theorem files_of_has {s : State α} {a : Name} (h : s.has a = true) : ∃ x, s.files a = some x :=
  Option.isSome_iff_exists.mp h

/-! ## The invariant -/

/-- The files are those from `lo` on, an older one under an older name. -/
structure Chain (lo : Nat) (s : State α) : Prop where
  bound : ∀ n, s.has (.rotated n) = true → n < s.bound
  order : ∀ (a b : Name) (x y : Nat), s.files a = some x → s.files b = some y → Older a b → x < y
  held : ∀ x : Nat, (∃ a, s.files a = some x) ↔ lo ≤ x ∧ x < s.made
  le : lo ≤ s.made
  written : s.written = (List.range s.made).flatMap s.content
  unmade : ∀ x : Nat, s.made ≤ x → s.content x = []
  writer : ∀ x : Nat, s.writer = some x → lo ≤ x ∧ x + 1 = s.made

section Chain

variable {lo : Nat} {s : State α}

theorem Chain.filterMap_oldestFirst (h : Chain lo s) :
    s.oldestFirst.filterMap s.files = List.range' lo (s.made - lo) := by
  apply List.Pairwise.eq_of_mem_iff (r := (· < ·))
  · rw [List.pairwise_filterMap]
    apply s.oldestFirst_pairwise.imp
    intro a b hab x hx y hy
    exact h.order a b x y hx hy hab
  · exact List.pairwise_lt_range'
  · intro x
    rw [List.mem_filterMap, List.mem_range'_1]
    have hle := h.le
    have hheld := h.held x
    constructor
    · rintro ⟨a, -, ha⟩
      obtain ⟨hlo, hmade⟩ := hheld.mp ⟨a, ha⟩
      omega
    · rintro ⟨hlo, hmade⟩
      obtain ⟨a, ha⟩ := hheld.mpr ⟨hlo, by omega⟩
      exact ⟨a, (State.mem_oldestFirst h.bound).mpr (has_of_files ha), ha⟩

theorem Chain.readable (h : Chain lo s) :
    s.readable = (List.range' lo (s.made - lo)).flatMap s.content := by
  rw [State.readable, h.filterMap_oldestFirst]

/-- The files hold the last part of what was written. -/
theorem Chain.final (h : Chain lo s) : s.readable <:+ s.written := by
  refine ⟨(List.range' 0 lo).flatMap s.content, ?_⟩
  have hle := h.le
  rw [h.readable, h.written, ← List.flatMap_append, List.range_eq_range']
  have hsplit : List.range' 0 s.made = List.range' 0 lo ++ List.range' (0 + lo) (s.made - lo) := by
    rw [List.range'_append_1]
    congr 1
    omega
  rw [hsplit, Nat.zero_add]

/-- The files under the names of a listing are one after the other. -/
theorem Chain.map_oldestFirst (h : Chain lo s) :
    s.oldestFirst.map s.files =
      (List.range' lo s.oldestFirst.length).map some ∧
    lo + s.oldestFirst.length = s.made := by
  have hfilter := h.filterMap_oldestFirst
  have hall : s.oldestFirst.map s.files = (s.oldestFirst.filterMap s.files).map some := by
    have hsome : ∀ l : List Name, (∀ a ∈ l, s.has a = true) →
        l.map s.files = (l.filterMap s.files).map some := by
      intro l hl
      induction l with
      | nil => rfl
      | cons a l ih =>
        obtain ⟨x, hx⟩ := files_of_has (hl a (List.mem_cons_self ..))
        have ih := ih fun b hb => hl b (List.mem_cons_of_mem _ hb)
        simp [hx, ih]
    exact hsome _ fun a ha => (State.mem_oldestFirst h.bound).mp ha
  have hlength : s.oldestFirst.length = s.made - lo := by
    have hl := congrArg List.length hall
    rw [hfilter] at hl
    simpa using hl
  have hle := h.le
  constructor
  · rw [hall, hfilter, hlength]
  · omega

/-! ### What moves names -/

theorem rename_files (a b c : Name) :
    (s.rename a b).files c = if c = a then none else if c = b then s.files a else s.files c := by
  unfold State.rename
  by_cases ha : c = a
  · simp [ha]
  · by_cases hb : c = b
    · simp [Function.update, hb]
    · simp [Function.update, ha, hb]

theorem rename_bound_le (a b : Name) : s.bound ≤ (s.rename a b).bound := by
  cases b with
  | current => exact Nat.le_refl _
  | rotated n => exact Nat.le_max_left ..

/-- A name that nothing has, and that stands where the old one stood among those in use. -/
structure Vacant (s : State α) (a b : Name) : Prop where
  ne : a ≠ b
  free : s.files b = none
  older : ∀ c, s.has c = true → c ≠ a → (Older c b → Older c a) ∧ (Older b c → Older a c)

theorem has_rename {a b : Name} (hv : Vacant s a b) (ha : s.has a = true) (c : Name) :
    (s.rename a b).has c = true ↔ c = b ∨ c ≠ a ∧ s.has c = true := by
  unfold State.has
  rw [rename_files]
  by_cases hca : c = a
  · have hne : c ≠ b := hca ▸ hv.ne
    simp [hca, hv.ne]
  · by_cases hcb : c = b
    · have hsome : (s.files a).isSome = true := ha
      simp [hcb, hsome, hv.ne.symm]
    · simp [hca, hcb]

theorem Chain.rename {a b : Name} (h : Chain lo s) (hv : Vacant s a b) (ha : s.has a = true) :
    Chain lo (s.rename a b) where
  bound n hn := by
    rcases (has_rename hv ha _).mp hn with rfl | ⟨-, hn⟩
    · exact Nat.lt_of_lt_of_le (Nat.lt_succ_self n) (Nat.le_max_right ..)
    · exact Nat.lt_of_lt_of_le (h.bound n hn) (rename_bound_le a b)
  order c d x y hc hd hcd := by
    rw [rename_files] at hc hd
    split at hc
    · cases hc
    split at hd
    · cases hd
    rename_i hca hda
    split at hc
    · split at hd
      · subst_vars
        cases d with
        | current => exact hcd.elim
        | rotated n => exact absurd hcd (Nat.lt_irrefl n)
      · rename_i hcb hdb
        subst hcb
        exact h.order a d x y hc hd ((hv.older d (has_of_files hd) hda).2 hcd)
    · split at hd
      · rename_i hcb hdb
        subst hdb
        exact h.order c a x y hc hd ((hv.older c (has_of_files hc) hca).1 hcd)
      · exact h.order c d x y hc hd hcd
  held x := by
    rw [show (s.rename a b).made = s.made from rfl, ← h.held x]
    constructor
    · rintro ⟨c, hc⟩
      rw [rename_files] at hc
      split at hc
      · cases hc
      split at hc
      · exact ⟨a, hc⟩
      · exact ⟨c, hc⟩
    · rintro ⟨c, hc⟩
      by_cases hca : c = a
      · refine ⟨b, ?_⟩
        rw [rename_files, if_neg hv.ne.symm, if_pos rfl, ← hca]
        exact hc
      · refine ⟨c, ?_⟩
        have hcb : c ≠ b := by
          rintro rfl
          rw [hv.free] at hc
          cases hc
        rw [rename_files, if_neg hca, if_neg hcb]
        exact hc
  le := h.le
  written := h.written
  unmade := h.unmade
  writer := h.writer

/-- The oldest file goes. -/
theorem Chain.unlink {a : Name} (h : Chain lo s) (ha : s.has a = true)
    (hcurrent : s.has .current = true) (hne : a ≠ .current) (hold : ∀ c, s.has c = true → c ≠ a → Older a c) : Chain (lo + 1) (s.unlink a) := by
  obtain ⟨x, hx⟩ := files_of_has ha
  have hin := (h.held x).mp ⟨a, hx⟩
  have hxlo : x = lo := by
    obtain ⟨c, hc⟩ := (h.held lo).mpr ⟨Nat.le_refl _, by omega⟩
    by_cases hca : c = a
    · rw [hca, hx] at hc
      exact Option.some.inj hc
    · have hlt := h.order a c x lo hx hc (hold c (has_of_files hc) hca)
      omega
  have hfiles : ∀ c y, (s.unlink a).files c = some y ↔ c ≠ a ∧ s.files c = some y := by
    intro c y
    by_cases hca : c = a
    · simp [State.unlink, hca]
    · simp [State.unlink, Function.update, hca]
  exact
    { bound := by
        intro n hn
        obtain ⟨y, hy⟩ := files_of_has hn
        exact h.bound n (has_of_files ((hfiles _ y).mp hy).2)
      order := by
        intro c d y z hc hd hcd
        exact h.order c d y z ((hfiles c y).mp hc).2 ((hfiles d z).mp hd).2 hcd
      held := by
        intro y
        show (∃ c, _) ↔ lo + 1 ≤ y ∧ y < s.made
        constructor
        · rintro ⟨c, hc⟩
          obtain ⟨hca, hc⟩ := (hfiles c y).mp hc
          have hlt := h.order a c x y hx hc (hold c (has_of_files hc) hca)
          have hy := (h.held y).mp ⟨c, hc⟩
          exact ⟨by omega, hy.2⟩
        · rintro ⟨hlo, hmade⟩
          obtain ⟨c, hc⟩ := (h.held y).mpr ⟨by omega, hmade⟩
          refine ⟨c, (hfiles c y).mpr ⟨?_, hc⟩⟩
          rintro rfl
          have hxy : x = y := Option.some.inj (hx.symm.trans hc)
          omega
      le := by
        show lo + 1 ≤ s.made
        omega
      written := h.written
      unmade := h.unmade
      writer := by
        intro y hy
        obtain ⟨z, hz⟩ := files_of_has hcurrent
        have hlt := h.order a _ x z hx hz (hold _ hcurrent hne.symm)
        have hzmade := ((h.held z).mp ⟨_, hz⟩).2
        have hy := (h.writer y hy).2
        refine ⟨by omega, hy⟩ }

/-- The current file is the newest. -/
theorem Chain.newest {x : Nat} (h : Chain lo s) (hx : s.files .current = some x) :
    x + 1 = s.made := by
  have hin := (h.held x).mp ⟨_, hx⟩
  have hlast : lo ≤ s.made - 1 ∧ s.made - 1 < s.made := by omega
  obtain ⟨c, hc⟩ := (h.held (s.made - 1)).mpr hlast
  cases c with
  | current =>
    rw [hx] at hc
    have hxy := Option.some.inj hc
    omega
  | rotated n =>
    have hlt := h.order _ _ _ _ hc hx trivial
    omega

/-! ### What the runtime does -/

theorem openCurrent_of_has {x : Nat} (hx : s.files .current = some x) :
    s.openCurrent = { s with writer := some x } := by
  unfold State.openCurrent
  rw [hx]

theorem openCurrent_of_none (hx : s.files .current = none) :
    s.openCurrent =
      { s with
        files := Function.update s.files .current (some s.made)
        made := s.made + 1
        writer := some s.made } := by
  unfold State.openCurrent
  rw [hx]

/-- The files that have something in them are the same. -/
theorem flatMap_range'_succ {content : Nat → List α} {n : Nat} (hle : lo ≤ n)
    (hnone : content n = []) :
    (List.range' lo (n + 1 - lo)).flatMap content = (List.range' lo (n - lo)).flatMap content := by
  have hlength : n + 1 - lo = n - lo + 1 := by omega
  have hlast : lo + (n - lo) = n := by omega
  rw [hlength, List.range'_1_concat, List.flatMap_append, List.flatMap_singleton, hlast, hnone,
    List.append_nil]

theorem Chain.openCurrent (h : Chain lo s) : Chain lo s.openCurrent := by
  cases hx : s.files .current with
  | some x =>
    rw [openCurrent_of_has hx]
    exact
      { bound := h.bound
        order := h.order
        held := h.held
        le := h.le
        written := h.written
        unmade := h.unmade
        writer := by
          intro y hy
          have hxy : x = y := Option.some.inj hy
          subst hxy
          exact ⟨((h.held x).mp ⟨_, hx⟩).1, h.newest hx⟩ }
  | none =>
    rw [openCurrent_of_none hx]
    have hle := h.le
    exact
      { bound := by
          intro n hn
          exact h.bound n hn
        order := by
          intro a b x y ha hb hab
          cases a with
          | current => exact hab.elim
          | rotated m =>
            have ha : s.files (.rotated m) = some x := ha
            cases b with
            | current =>
              have hy : some s.made = some y := hb
              have hxm := ((h.held x).mp ⟨_, ha⟩).2
              have hym := Option.some.inj hy
              omega
            | rotated n => exact h.order _ _ x y ha hb hab
        held := by
          intro x
          show (∃ a, _) ↔ lo ≤ x ∧ x < s.made + 1
          constructor
          · rintro ⟨a, ha⟩
            cases a with
            | current =>
              have hy : some s.made = some x := ha
              have hxm := Option.some.inj hy
              omega
            | rotated n =>
              have hin := (h.held x).mp ⟨.rotated n, ha⟩
              omega
          · rintro ⟨hlo, hmade⟩
            by_cases hxm : x = s.made
            · exact ⟨.current, by rw [hxm]; rfl⟩
            · obtain ⟨a, ha⟩ := (h.held x).mpr ⟨hlo, by omega⟩
              cases a with
              | current =>
                rw [hx] at ha
                cases ha
              | rotated n => exact ⟨.rotated n, ha⟩
        le := Nat.le_succ_of_le hle
        written := by
          rw [h.written, List.range_succ, List.flatMap_append, List.flatMap_singleton,
            h.unmade s.made (Nat.le_refl _), List.append_nil]
        unmade := fun x hm => h.unmade x (Nat.le_of_succ_le hm)
        writer := by
          intro y hy
          have hy : s.made = y := Option.some.inj hy
          rw [← hy]
          exact ⟨hle, rfl⟩ }

theorem Chain.readable_openCurrent (h : Chain lo s) : s.openCurrent.readable = s.readable := by
  rw [h.openCurrent.readable, h.readable]
  cases hx : s.files .current with
  | some x => rw [openCurrent_of_has hx]
  | none =>
    rw [openCurrent_of_none hx]
    exact flatMap_range'_succ h.le (h.unmade _ (Nat.le_refl _))

theorem flatMap_update {content : Nat → List α} {i n x : Nat} {l : List α} (hx : i + n ≤ x) :
    (List.range' i n).flatMap (Function.update content x l) =
      (List.range' i n).flatMap content := by
  apply List.flatMap_congr
  intro y hy
  rw [List.mem_range'_1] at hy
  have hne : y ≠ x := by
    rintro rfl
    exact absurd hx (Nat.not_le_of_lt hy.2)
  exact Function.update_of_ne hne ..

theorem Chain.write {a : α} (h : Chain lo s) : Chain lo (stepWrite s a) := by
  unfold stepWrite
  cases hw : s.writer with
  | none => exact h
  | some x =>
    have hx := (h.writer x hw).2
    exact
      { bound := h.bound
        order := h.order
        held := h.held
        le := h.le
        written := by
          dsimp only
          rw [h.written, ← hx, List.range_succ, List.flatMap_append, List.flatMap_append,
            List.flatMap_singleton, List.flatMap_singleton, Function.update_self,
            ← List.append_assoc, List.range_eq_range', flatMap_update (by omega)]
        unmade := by
          intro y hy
          have hy : s.made ≤ y := hy
          have hne : y ≠ x := by
            rintro rfl
            omega
          dsimp only
          rw [Function.update_of_ne hne]
          exact h.unmade y hy
        writer := fun y hy => h.writer y (hw ▸ hy) }

/-- Something is written, unless nobody writes. -/
theorem Chain.wrote {a : α} (h : Chain lo s) :
    (stepWrite s a).readable = s.readable ∧ (stepWrite s a).written = s.written ∨
      ((stepWrite s a).readable = s.readable ++ [a] ∧ (stepWrite s a).written = s.written ++ [a]) := by
  rw [(h.write (a := a)).readable, h.readable]
  unfold stepWrite
  cases hw : s.writer with
  | none => exact .inl ⟨rfl, rfl⟩
  | some x =>
    obtain ⟨hlo, hx⟩ := h.writer x hw
    refine .inr ⟨?_, rfl⟩
    have hlength : s.made - lo = x - lo + 1 := by omega
    have hlast : lo + (x - lo) = x := by omega
    dsimp only
    rw [hlength, List.range'_1_concat, List.flatMap_append, List.flatMap_append,
      List.flatMap_singleton, List.flatMap_singleton, hlast, Function.update_self,
      flatMap_update (by omega), List.append_assoc]

end Chain

/-! ## Readers -/

/-- What is listed and not opened stands in the order of the files, from `g` on, and what has been
read comes right before it. -/
structure Following (s : State α) (g : Nat) (paths : List Name) (out : List α) : Prop where
  files : paths.map s.files = (List.range' g paths.length).map some
  le : g + paths.length ≤ s.made
  -- Nothing is written to a file that has a newer one listed.
  before : paths ≠ [] → ∃ lo ≤ g, out = (List.range' lo (g - lo)).flatMap s.content
  said : out <:+: s.written

/-- What is true of a reader. -/
def Told (s : State α) : Reader α → Prop
  | .opening paths out => ∃ g, Following s g paths out
  | .reading x paths out =>
      paths.map s.files = (List.range' (x + 1) paths.length).map some ∧
      x + 1 + paths.length ≤ s.made ∧
      ∃ lo ≤ x, out = (List.range' lo (x - lo)).flatMap s.content
  | .done out => out <:+: s.written

theorem has_of_map {s : State α} {g : Nat} {paths : List Name}
    (h : paths.map s.files = (List.range' g paths.length).map some) {a : Name} (ha : a ∈ paths) :
    s.has a = true := by
  have hmem : s.files a ∈ (List.range' g paths.length).map some := by
    rw [← h]
    exact List.mem_map_of_mem ha
  obtain ⟨x, -, hx⟩ := List.mem_map.mp hmem
  exact has_of_files hx.symm

/-- What a reader has still to open is there. -/
theorem Told.has {s : State α} {r : Reader α} (h : Told s r) {a : Name} (ha : a ∈ r.ahead) :
    s.has a = true := by
  cases r with
  | opening paths out =>
    obtain ⟨g, h⟩ := h
    exact has_of_map h.files ha
  | reading x paths out => exact has_of_map h.1 ha
  | done out => cases ha

/-- A step that leaves alone what a reader has still to open, and the files that are not written. -/
structure Aside (s s' : State α) : Prop where
  made : s.made ≤ s'.made
  content : ∀ x : Nat, x + 1 < s.made → s'.content x = s.content x
  written : s.written <+: s'.written

theorem flatMap_aside {s s' : State α} {lo g : Nat} (h : Aside s s') (hg : g + 1 ≤ s.made)
    (hlo : lo ≤ g) :
    (List.range' lo (g - lo)).flatMap s'.content = (List.range' lo (g - lo)).flatMap s.content := by
  apply List.flatMap_congr
  intro x hx
  rw [List.mem_range'_1] at hx
  exact h.content x (by omega)

theorem Told.aside {s s' : State α} {r : Reader α} (h : Told s r) (hs : Aside s s')
    (hfiles : ∀ a ∈ r.ahead, s'.files a = s.files a) : Told s' r := by
  cases r with
  | opening paths out =>
    obtain ⟨g, h⟩ := h
    have hmap : paths.map s'.files = paths.map s.files := List.map_congr_left hfiles
    refine ⟨g, hmap.trans h.files, h.le.trans hs.made, ?_, h.said.trans hs.written.isInfix⟩
    intro hne
    obtain ⟨lo, hlo, hout⟩ := h.before hne
    have hpos : 0 < paths.length := List.length_pos_iff.mpr hne
    have hle := h.le
    exact ⟨lo, hlo, hout.trans (flatMap_aside hs (by omega) hlo).symm⟩
  | reading x paths out =>
    obtain ⟨hpaths, hle, lo, hlo, hout⟩ := h
    have hmap : paths.map s'.files = paths.map s.files := List.map_congr_left hfiles
    refine ⟨hmap.trans hpaths, hle.trans hs.made, lo, hlo, ?_⟩
    exact hout.trans (flatMap_aside hs (by omega) hlo).symm
  | done out => exact List.IsInfix.trans h hs.written.isInfix

/-! ## Rotations -/

/-- What the files hold is what they held when the rotation began, with what was written since,
unless a file was removed. -/
structure Round.Rest (s : State α) (r : Round α) : Prop where
  mark : r.mark ≤ s.written.length
  same : r.dropped = false → s.readable = r.before ++ s.written.drop r.mark

theorem Round.Rest.same_readable {s s' : State α} {r : Round α} (h : r.Rest s)
    (hr : s'.readable = s.readable) (hw : s'.written = s.written) : r.Rest s' where
  mark := by
    rw [hw]
    exact h.mark
  same hd := by
    rw [hr, hw]
    exact h.same hd

theorem Round.Rest.append {s s' : State α} {r : Round α} {a : α} (h : r.Rest s)
    (hr : s'.readable = s.readable ++ [a]) (hw : s'.written = s.written ++ [a]) : r.Rest s' where
  mark := by
    rw [hw, List.length_append]
    exact Nat.le_add_right_of_le h.mark
  same hd := by
    rw [hr, hw, h.same hd, List.drop_append_of_le_length h.mark, List.append_assoc]

/-- What `push` has still to move, and what it has moved: those are out of its way. -/
structure Pushing (conf : Conf) (s : State α) (todo : List Nat) : Prop where
  sorted : todo.Pairwise (· > ·)
  pos : ∀ n ∈ todo, 1 ≤ n
  current : s.has .current = true
  moved : ∀ n, s.has (.rotated n) = true →
    n ∈ todo ∨ 2 ≤ n ∧ n < conf.keep ∧ ∀ m ∈ todo, m + 1 < n

def Turning (conf : Conf) (s : State α) : Rotator α → Prop
  | .idle => True
  | .pushing r todo => r.Rest s ∧ Pushing conf s todo
  | .looking r | .reopening r => r.Rest s ∧ s.turned = true
  | .popping r | .restoring r => r.Rest s ∧ s.turned = true ∧ r.dropped = false
  | .undone r => r.Rest s ∧ r.dropped = false

structure Inv (conf : Conf) (s : State α) : Prop where
  chain : ∃ lo, Chain lo s
  few : s.turned = true → ∀ n, s.has (.rotated n) = true → 1 ≤ n ∧ n < conf.keep
  rotator : Turning conf s s.rotator
  readers : ∀ j r, s.readers j = some r → Told s r

theorem inv_begun {conf : Conf} {s : State α} (h : Begun s) : Inv conf s where
  chain :=
    ⟨0,
      { bound := h.bound
        order := h.order
        held := fun x => (h.held x).trans ⟨fun hx => ⟨Nat.zero_le _, hx⟩, And.right⟩
        le := Nat.zero_le _
        written := h.written
        unmade := h.unmade
        writer := fun x hx => ⟨Nat.zero_le _, h.writer x hx⟩ }⟩
  few ht := by
    rw [h.turned] at ht
    cases ht
  rotator := by
    rw [h.rotator]
    trivial
  readers j r hr := by
    rw [h.readers] at hr
    cases hr

/-! ### Steps of the runtime -/

section

variable {conf : Conf} {s : State α}

theorem Pushing.same {s' : State α} {todo : List Nat} (h : Pushing conf s todo)
    (hcurrent : s.has .current = true → s'.has .current = true)
    (hrotated : ∀ n, s'.has (.rotated n) = s.has (.rotated n)) : Pushing conf s' todo where
  sorted := h.sorted
  pos := h.pos
  current := hcurrent h.current
  moved n hn := by
    rw [hrotated] at hn
    exact h.moved n hn

/-- A step of the runtime: it does not touch the rotated names. -/
theorem Turning.aside {s' : State α} {ρ : Rotator α} (h : Turning conf s ρ)
    (hrest : ∀ r : Round α, r.Rest s → r.Rest s')
    (hcurrent : s.has .current = true → s'.has .current = true)
    (hrotated : ∀ n, s'.has (.rotated n) = s.has (.rotated n)) (hturned : s'.turned = s.turned) :
    Turning conf s' ρ := by
  cases ρ with
  | idle => trivial
  | pushing r todo => exact ⟨hrest r h.1, h.2.same hcurrent hrotated⟩
  | looking r => exact ⟨hrest r h.1, hturned.trans h.2⟩
  | reopening r => exact ⟨hrest r h.1, hturned.trans h.2⟩
  | popping r => exact ⟨hrest r h.1, hturned.trans h.2.1, h.2.2⟩
  | restoring r => exact ⟨hrest r h.1, hturned.trans h.2.1, h.2.2⟩
  | undone r => exact ⟨hrest r h.1, h.2⟩

theorem openCurrent_fields :
    s.openCurrent.rotator = s.rotator ∧ s.openCurrent.readers = s.readers ∧
      s.openCurrent.turned = s.turned ∧ s.openCurrent.written = s.written ∧
      s.openCurrent.content = s.content ∧ s.made ≤ s.openCurrent.made := by
  unfold State.openCurrent
  split
  · exact ⟨rfl, rfl, rfl, rfl, rfl, Nat.le_refl _⟩
  · exact ⟨rfl, rfl, rfl, rfl, rfl, Nat.le_succ _⟩

theorem openCurrent_files {a : Name} (ha : s.has a = true ∨ a ≠ .current) :
    s.openCurrent.files a = s.files a := by
  cases hx : s.files .current with
  | some x => rw [openCurrent_of_has hx]
  | none =>
    rw [openCurrent_of_none hx]
    have hne : a ≠ .current := by
      rcases ha with ha | ha
      · rintro rfl
        simp [State.has, hx] at ha
      · exact ha
    exact Function.update_of_ne hne ..

theorem inv_openCurrent (h : Inv conf s) : Inv conf s.openCurrent := by
  obtain ⟨lo, hchain⟩ := h.chain
  obtain ⟨hrotator, hreaders, hturned, hwritten, hcontent, hmade⟩ := openCurrent_fields (s := s)
  have hrotated : ∀ n, s.openCurrent.has (.rotated n) = s.has (.rotated n) := by
    intro n
    have hne : Name.rotated n ≠ .current := nofun
    unfold State.has
    rw [openCurrent_files (.inr hne)]
  have hcurrent : s.has .current = true → s.openCurrent.has .current = true := by
    intro hc
    unfold State.has
    rw [openCurrent_files (.inl hc)]
    exact hc
  constructor
  · exact ⟨lo, hchain.openCurrent⟩
  · intro ht n hn
    rw [hturned] at ht
    rw [hrotated] at hn
    exact h.few ht n hn
  · rw [hrotator]
    apply h.rotator.aside
    · exact fun r hr => hr.same_readable hchain.readable_openCurrent hwritten
    · exact hcurrent
    · exact hrotated
    · exact hturned
  · intro j r hr
    rw [hreaders] at hr
    have htold := h.readers j r hr
    apply htold.aside
    · refine ⟨hmade, fun x _ => by rw [hcontent], ?_⟩
      simp only [hwritten, List.prefix_refl]
    · exact fun a ha => openCurrent_files (.inl (htold.has ha))

theorem inv_stop (h : Inv conf s) : Inv conf { s with writer := none } := by
  obtain ⟨lo, hchain⟩ := h.chain
  constructor
  · exact ⟨lo, hchain.bound, hchain.order, hchain.held, hchain.le, hchain.written, hchain.unmade,
      nofun⟩
  · exact h.few
  · apply h.rotator.aside
    · exact fun r hr => hr.same_readable rfl rfl
    · exact id
    · exact fun _ => rfl
    · rfl
  · intro j r hr
    apply (h.readers j r hr).aside
    · exact ⟨Nat.le_refl _, fun _ _ => rfl, List.prefix_refl _⟩
    · exact fun _ _ => rfl

theorem stepWrite_fields {a : α} :
    (stepWrite s a).rotator = s.rotator ∧ (stepWrite s a).readers = s.readers ∧
      (stepWrite s a).turned = s.turned ∧ (stepWrite s a).files = s.files ∧
      (stepWrite s a).made = s.made := by
  unfold stepWrite
  split
  · exact ⟨rfl, rfl, rfl, rfl, rfl⟩
  · exact ⟨rfl, rfl, rfl, rfl, rfl⟩

theorem inv_write {a : α} (h : Inv conf s) : Inv conf (stepWrite s a) := by
  obtain ⟨lo, hchain⟩ := h.chain
  obtain ⟨hrotator, hreaders, hturned, hfiles, hmade⟩ := stepWrite_fields (s := s) (a := a)
  have hhas : ∀ b, (stepWrite s a).has b = s.has b := by
    intro b
    unfold State.has
    rw [hfiles]
  have hextends : s.written <+: (stepWrite s a).written := by
    rcases hchain.wrote (a := a) with ⟨-, hw⟩ | ⟨-, hw⟩
    · simp only [hw, List.prefix_refl]
    · rw [hw]
      exact List.prefix_append ..
  constructor
  · exact ⟨lo, hchain.write⟩
  · intro ht n hn
    rw [hturned] at ht
    rw [hhas] at hn
    exact h.few ht n hn
  · rw [hrotator]
    apply h.rotator.aside
    · intro r hr
      rcases hchain.wrote (a := a) with ⟨hread, hw⟩ | ⟨hread, hw⟩
      · exact hr.same_readable hread hw
      · exact hr.append hread hw
    · exact fun hc => (hhas _).trans hc
    · exact fun n => hhas _
    · exact hturned
  · intro j r hr
    rw [hreaders] at hr
    apply (h.readers j r hr).aside
    · refine ⟨Nat.le_of_eq hmade.symm, ?_, hextends⟩
      intro x hx
      unfold stepWrite
      cases hw : s.writer with
      | none => rfl
      | some y =>
        have hy := (hchain.writer y hw).2
        exact Function.update_of_ne (by omega) ..
    · exact fun b _ => by rw [hfiles]

/-! ### Steps of a rotation -/

theorem Inv.withRotator {ρ : Rotator α} (h : Inv conf s) (hρ : Turning conf s ρ) :
    Inv conf { s with rotator := ρ } := by
  obtain ⟨lo, hchain⟩ := h.chain
  constructor
  · exact ⟨lo, hchain.bound, hchain.order, hchain.held, hchain.le, hchain.written, hchain.unmade,
      hchain.writer⟩
  · exact h.few
  · apply hρ.aside
    · exact fun r hr => hr.same_readable rfl rfl
    · exact id
    · exact fun _ => rfl
    · rfl
  · intro j r hr
    apply (h.readers j r hr).aside
    · exact ⟨Nat.le_refl _, fun _ _ => rfl, List.prefix_refl _⟩
    · exact fun _ _ => rfl

theorem inv_rotate {running : Bool} (h : Inv conf s) (hcurrent : s.has .current = true)
    (hzero : s.has (.rotated 0) = false) : Inv conf (stepRotate s running) := by
  obtain ⟨lo, hchain⟩ := h.chain
  apply h.withRotator
  constructor
  · constructor
    · exact Nat.le_refl _
    · intro _
      rw [List.drop_length, List.append_nil]
  · constructor
    · exact List.pairwise_reverse.mpr State.numbers_pairwise
    · intro n hn
      rw [List.mem_reverse, State.mem_numbers hchain.bound] at hn
      cases n with
      | zero =>
        rw [hzero] at hn
        cases hn
      | succ n => exact Nat.succ_pos n
    · exact hcurrent
    · intro n hn
      left
      rwa [List.mem_reverse, State.mem_numbers hchain.bound]

theorem readable_rename {lo : Nat} {a b : Name} (hchain : Chain lo s) (hv : Vacant s a b)
    (ha : s.has a = true) : (s.rename a b).readable = s.readable := by
  rw [(hchain.rename hv ha).readable, hchain.readable]
  rfl

/-- A file is moved, and no reader minds. -/
theorem inv_rename {a b : Name} (h : Inv conf s) (hv : Vacant s a b) (ha : s.has a = true)
    (hunlisted : Unlisted s a) {ρ : Rotator α} {turned : Bool}
    (hfew : turned = true → ∀ n, (s.rename a b).has (.rotated n) = true → 1 ≤ n ∧ n < conf.keep)
    (hρ : Turning conf { s.rename a b with rotator := ρ, turned } ρ) :
    Inv conf { s.rename a b with rotator := ρ, turned } := by
  obtain ⟨lo, hchain⟩ := h.chain
  have hmoved := hchain.rename hv ha
  constructor
  · exact ⟨lo, hmoved.bound, hmoved.order, hmoved.held, hmoved.le, hmoved.written, hmoved.unmade,
      hmoved.writer⟩
  · exact hfew
  · exact hρ
  · intro j r hr
    have htold := h.readers j r hr
    apply htold.aside
    · exact ⟨Nat.le_refl _, fun _ _ => rfl, List.prefix_refl _⟩
    · intro c hc
      show (s.rename a b).files c = s.files c
      have hca : c ≠ a := by
        rintro rfl
        exact hunlisted j r hr hc
      have hcb : c ≠ b := by
        rintro rfl
        have hthere := htold.has hc
        simp [State.has, hv.free] at hthere
      rw [rename_files, if_neg hca, if_neg hcb]

/-- The next number is free, and those above it are out of the way. -/
theorem Pushing.vacant {n : Nat} {todo : List Nat} (h : Pushing conf s (n :: todo)) :
    Vacant s (.rotated n) (.rotated (n + 1)) where
  ne := by simp
  free := by
    cases hx : s.files (.rotated (n + 1)) with
    | none => rfl
    | some x =>
      rcases h.moved (n + 1) (has_of_files hx) with hmem | ⟨-, -, hout⟩
      · rcases List.mem_cons.mp hmem with heq | hmem
        · omega
        · have hlt := List.rel_of_pairwise_cons h.sorted hmem
          omega
      · have hlt := hout n (List.mem_cons_self ..)
        omega
  older c _ hne := by
    cases c with
    | current => exact ⟨fun hno => hno.elim, fun _ => trivial⟩
    | rotated k =>
      have hk : k ≠ n := by
        rintro rfl
        exact hne rfl
      show (n + 1 < k → n < k) ∧ (k < n + 1 → k < n)
      omega

theorem Pushing.vacant_one (h : Pushing conf s []) : Vacant s .current (.rotated 1) where
  ne := nofun
  free := by
    cases hx : s.files (.rotated 1) with
    | none => rfl
    | some x =>
      rcases h.moved 1 (has_of_files hx) with hmem | ⟨htwo, -⟩
      · cases hmem
      · omega
  older c hc hne := by
    cases c with
    | current => exact absurd rfl hne
    | rotated k =>
      rcases h.moved k hc with hmem | ⟨htwo, -⟩
      · cases hmem
      · refine ⟨fun _ => trivial, fun hlt => ?_⟩
        have hlt : k < 1 := hlt
        omega

/-- The next file is moved on. -/
theorem Pushing.rename {n : Nat} {todo : List Nat} (h : Pushing conf s (n :: todo))
    (hn : s.has (.rotated n) = true) (hkeep : n + 1 < conf.keep) :
    Pushing conf (s.rename (.rotated n) (.rotated (n + 1))) todo where
  sorted := h.sorted.of_cons
  pos m hm := h.pos m (List.mem_cons_of_mem _ hm)
  current := (has_rename h.vacant hn _).mpr (.inr ⟨nofun, h.current⟩)
  moved k hk := by
    rcases (has_rename h.vacant hn _).mp hk with heq | ⟨hne, hk⟩
    · cases heq
      have hpos := h.pos n (List.mem_cons_self ..)
      refine .inr ⟨by omega, hkeep, fun m hm => ?_⟩
      have hlt := List.rel_of_pairwise_cons h.sorted hm
      omega
    · rcases h.moved k hk with hmem | ⟨htwo, hlt, hout⟩
      · rcases List.mem_cons.mp hmem with rfl | hmem
        · exact absurd rfl hne
        · exact .inl hmem
      · exact .inr ⟨htwo, hlt, fun m hm => hout m (List.mem_cons_of_mem _ hm)⟩

theorem has_unlink {a c : Name} : (s.unlink a).has c = true ↔ c ≠ a ∧ s.has c = true := by
  unfold State.has State.unlink
  by_cases hca : c = a
  · simp [hca]
  · simp [Function.update, hca]

/-- The next file is the oldest, if it is one too many. -/
theorem Pushing.oldest {n : Nat} {todo : List Nat} (h : Pushing conf s (n :: todo))
    (hkeep : n + 1 ≥ conf.keep) {c : Name} (hc : s.has c = true) (hne : c ≠ .rotated n) :
    Older (.rotated n) c := by
  cases c with
  | current => trivial
  | rotated k =>
    show k < n
    rcases h.moved k hc with hmem | ⟨-, hlt, hout⟩
    · rcases List.mem_cons.mp hmem with rfl | hmem
      · exact absurd rfl hne
      · exact List.rel_of_pairwise_cons h.sorted hmem
    · have hlt' := hout n (List.mem_cons_self ..)
      omega

theorem Pushing.unlink {n : Nat} {todo : List Nat} (h : Pushing conf s (n :: todo)) :
    Pushing conf (s.unlink (.rotated n)) todo where
  sorted := h.sorted.of_cons
  pos m hm := h.pos m (List.mem_cons_of_mem _ hm)
  current := has_unlink.mpr ⟨nofun, h.current⟩
  moved k hk := by
    obtain ⟨hne, hk⟩ := has_unlink.mp hk
    rcases h.moved k hk with hmem | ⟨htwo, hlt, hout⟩
    · rcases List.mem_cons.mp hmem with rfl | hmem
      · exact absurd rfl hne
      · exact .inl hmem
    · exact .inr ⟨htwo, hlt, fun m hm => hout m (List.mem_cons_of_mem _ hm)⟩

theorem inv_unlink {n : Nat} {todo : List Nat} {r : Round α} (h : Inv conf s) (hr : r.Rest s)
    (hp : Pushing conf s (n :: todo)) (hn : s.has (.rotated n) = true)
    (hkeep : n + 1 ≥ conf.keep) (hunlisted : Unlisted s (.rotated n)) :
    Inv conf { s.unlink (.rotated n) with
      rotator := .pushing { r with dropped := true } todo } := by
  obtain ⟨lo, hchain⟩ := h.chain
  have hne : Name.rotated n ≠ .current := nofun
  have hcut := hchain.unlink hn hp.current hne fun c hc hca => hp.oldest hkeep hc hca
  constructor
  · exact ⟨lo + 1, hcut.bound, hcut.order, hcut.held, hcut.le, hcut.written, hcut.unmade,
      hcut.writer⟩
  · intro ht k hk
    exact h.few ht k (has_unlink.mp hk).2
  · refine ⟨⟨hr.mark, ?_⟩, hp.unlink.same id fun _ => rfl⟩
    intro hno
    cases hno
  · intro j r hr
    apply (h.readers j r hr).aside
    · exact ⟨Nat.le_refl _, fun _ _ => rfl, List.prefix_refl _⟩
    · intro c hc
      have hca : c ≠ .rotated n := by
        rintro rfl
        exact hunlisted j r hr hc
      exact Function.update_of_ne hca ..

theorem inv_push {ok : Bool} (h : Inv conf s) (hunlisted : ok = true → PushUnlisted s) :
    Inv conf (stepPush conf s ok) := by
  have hturning := h.rotator
  unfold stepPush
  cases hρ : s.rotator with
  | pushing r todo =>
    rw [hρ] at hturning
    obtain ⟨hrest, hp⟩ := hturning
    obtain ⟨lo, hchain⟩ := h.chain
    cases todo with
    | nil =>
      dsimp only
      split
      case isFalse _ => exact h.withRotator trivial
      case isTrue hok =>
        have hfree : Unlisted s .current := by
          have hfree := hunlisted hok.1
          unfold PushUnlisted at hfree
          rwa [hρ] at hfree
        have hread := readable_rename hchain hp.vacant_one hok.2
        apply inv_rename h hp.vacant_one hok.2 hfree
        · intro _ n hn
          rcases (has_rename hp.vacant_one hok.2 _).mp hn with heq | ⟨-, hn⟩
          · cases heq
            exact ⟨Nat.le_refl _, conf.two_le⟩
          · rcases hp.moved n hn with hmem | ⟨htwo, hlt, -⟩
            · cases hmem
            · omega
        · split
          · exact ⟨hrest.same_readable hread rfl, rfl⟩
          · exact ⟨hrest.same_readable hread rfl, rfl⟩
    | cons n todo =>
      have hfree : ok = true → Unlisted s (.rotated n) := by
        intro hok
        have hfree := hunlisted hok
        unfold PushUnlisted at hfree
        rwa [hρ] at hfree
      dsimp only
      split
      case isFalse _ => exact h.withRotator trivial
      case isTrue hok =>
        split
        case isTrue hkeep => exact inv_unlink h hrest hp hok.2 hkeep (hfree hok.1)
        case isFalse hkeep =>
          have hkeep : n + 1 < conf.keep := Nat.lt_of_not_le hkeep
          have hread := readable_rename hchain hp.vacant hok.2
          apply inv_rename h hp.vacant hok.2 (hfree hok.1)
          · intro ht k hk
            rcases (has_rename hp.vacant hok.2 _).mp hk with heq | ⟨-, hk⟩
            · cases heq
              omega
            · exact h.few ht k hk
          · exact ⟨hrest.same_readable hread rfl, (hp.rename hok.2 hkeep).same id fun _ => rfl⟩
  | idle => exact h
  | looking r => exact h
  | reopening r => exact h
  | popping r => exact h
  | restoring r => exact h
  | undone r => exact h

theorem inv_look {running : Bool} (h : Inv conf s) : Inv conf (stepLook s running) := by
  have hturning := h.rotator
  unfold stepLook
  cases hρ : s.rotator with
  | looking r =>
    rw [hρ] at hturning
    apply h.withRotator
    split
    · exact hturning
    · trivial
  | pushing r todo => exact h
  | idle => exact h
  | reopening r => exact h
  | popping r => exact h
  | restoring r => exact h
  | undone r => exact h

theorem inv_reopen {done answered : Bool} (h : Inv conf s)
    (hundropped : answered = false → Undropped s) : Inv conf (stepReopen s done answered) := by
  have hturning := h.rotator
  unfold stepReopen
  cases hρ : s.rotator with
  | reopening r =>
    have hopened : Inv conf (if done = true then s.openCurrent else s) := by
      split
      · exact inv_openCurrent h
      · exact h
    have hrotator : (if done = true then s.openCurrent else s).rotator = s.rotator := by
      split
      · exact openCurrent_fields.1
      · rfl
    have hturning' := hopened.rotator
    rw [hrotator, hρ] at hturning'
    apply hopened.withRotator
    cases answered with
    | true => trivial
    | false =>
      have hdropped := hundropped rfl
      unfold Undropped at hdropped
      rw [hρ] at hdropped
      exact ⟨hturning'.1, hturning'.2, hdropped⟩
  | pushing r todo => exact h
  | idle => exact h
  | looking r => exact h
  | popping r => exact h
  | restoring r => exact h
  | undone r => exact h

theorem inv_pop (h : Inv conf s) : Inv conf (stepPop s) := by
  have hturning := h.rotator
  unfold stepPop
  cases hρ : s.rotator with
  | popping r =>
    rw [hρ] at hturning
    apply h.withRotator
    split
    · exact ⟨hturning.1, hturning.2.2⟩
    · exact hturning
  | pushing r todo => exact h
  | idle => exact h
  | looking r => exact h
  | reopening r => exact h
  | restoring r => exact h
  | undone r => exact h

/-- The last file that was moved goes back. -/
theorem vacant_current (h : Inv conf s) (ht : s.turned = true) (hfree : s.has .current = false) :
    Vacant s (.rotated 1) .current where
  ne := nofun
  free := by
    cases hx : s.files .current with
    | none => rfl
    | some x =>
      rw [has_of_files hx] at hfree
      cases hfree
  older c hc hne := by
    cases c with
    | current =>
      rw [hfree] at hc
      cases hc
    | rotated k =>
      have hpos := (h.few ht k hc).1
      have hk : k ≠ 1 := by
        rintro rfl
        exact hne rfl
      refine ⟨fun _ => ?_, fun hno => hno.elim⟩
      show 1 < k
      omega

theorem inv_popRename {ok : Bool} (h : Inv conf s)
    (hsound : ok = true → s.has .current = false ∧ Unlisted s (.rotated 1)) :
    Inv conf (stepPopRename s ok) := by
  have hturning := h.rotator
  unfold stepPopRename
  cases hρ : s.rotator with
  | restoring r =>
    rw [hρ] at hturning
    obtain ⟨hrest, ht, hdropped⟩ := hturning
    obtain ⟨lo, hchain⟩ := h.chain
    dsimp only
    split
    case isFalse _ => exact h.withRotator ⟨hrest, hdropped⟩
    case isTrue hok =>
      obtain ⟨hfree, hunlisted⟩ := hsound hok.1
      have hv := vacant_current h ht hfree
      have hread := readable_rename hchain hv hok.2
      apply inv_rename h hv hok.2 hunlisted
      · intro _ k hk
        rcases (has_rename hv hok.2 _).mp hk with heq | ⟨-, hk⟩
        · cases heq
        · exact h.few ht k hk
      · exact ⟨hrest.same_readable hread rfl, hdropped⟩
  | pushing r todo => exact h
  | idle => exact h
  | looking r => exact h
  | reopening r => exact h
  | popping r => exact h
  | undone r => exact h

/-! ### Steps of a reader -/

theorem Inv.setReader {j : Nat} {r : Reader α} (h : Inv conf s) (hr : Told s r) :
    Inv conf (s.setReader j r) := by
  have haside : Aside s (s.setReader j r) :=
    ⟨Nat.le_refl _, fun _ _ => rfl, List.prefix_refl _⟩
  obtain ⟨lo, hchain⟩ := h.chain
  constructor
  · exact ⟨lo, hchain.bound, hchain.order, hchain.held, hchain.le, hchain.written, hchain.unmade,
      hchain.writer⟩
  · exact h.few
  · apply h.rotator.aside
    · exact fun r hr => hr.same_readable rfl rfl
    · exact id
    · exact fun _ => rfl
    · rfl
  · intro j' r' hr'
    unfold State.setReader at hr'
    by_cases hj : j' = j
    · subst hj
      have heq : r = r' := by simpa using hr'
      subst heq
      exact hr.aside haside fun _ _ => rfl
    · have hr' : s.readers j' = some r' := by simpa [Function.update, hj] using hr'
      exact (h.readers j' r' hr').aside haside fun _ _ => rfl

theorem Chain.part {lo g y : Nat} (h : Chain lo s) (hg : g ≤ y) (hy : y ≤ s.made) :
    (List.range' g (y - g)).flatMap s.content <:+: s.written := by
  have hsplit : List.range s.made =
      List.range' 0 g ++ List.range' g (y - g) ++ List.range' y (s.made - y) := by
    have hfirst : List.range' 0 g ++ List.range' g (y - g) = List.range' 0 y := by
      have happend := List.range'_append_1 (s := 0) (m := g) (n := y - g)
      rw [Nat.zero_add] at happend
      rw [happend]
      congr 1
      omega
    have happend := List.range'_append_1 (s := 0) (m := y) (n := s.made - y)
    rw [Nat.zero_add] at happend
    rw [hfirst, happend, List.range_eq_range']
    congr 1
    omega
  rw [h.written, hsplit, List.flatMap_append, List.flatMap_append]
  exact ⟨_, _, rfl⟩

theorem inv_list {j : Nat} (h : Inv conf s) :
    Inv conf (s.setReader j (.opening s.oldestFirst [])) := by
  obtain ⟨lo, hchain⟩ := h.chain
  obtain ⟨hmap, hlength⟩ := hchain.map_oldestFirst
  apply h.setReader
  refine ⟨lo, hmap, Nat.le_of_eq hlength, fun _ => ⟨lo, Nat.le_refl _, ?_⟩, List.nil_infix⟩
  rw [Nat.sub_self]
  rfl

theorem inv_openNext {j : Nat} (h : Inv conf s) : Inv conf (stepOpenNext s j) := by
  unfold stepOpenNext
  cases hr : s.readers j with
  | none => exact h
  | some r =>
    have htold := h.readers j r hr
    cases r with
    | reading x paths out => exact h
    | done out => exact h
    | opening paths out =>
      obtain ⟨g, hf⟩ := htold
      cases paths with
      | nil =>
        apply h.setReader
        exact hf.said
      | cons p paths =>
        have hfiles := hf.files
        rw [List.map_cons, List.length_cons, List.range'_succ, List.map_cons, List.cons.injEq]
          at hfiles
        dsimp only
        rw [hfiles.1]
        apply h.setReader
        have hle := hf.le
        rw [List.length_cons] at hle
        exact ⟨hfiles.2, by omega, hf.before (List.cons_ne_nil _ _)⟩

theorem inv_read {j : Nat} (h : Inv conf s) : Inv conf (stepRead s j) := by
  unfold stepRead
  cases hr : s.readers j with
  | none => exact h
  | some r =>
    have htold := h.readers j r hr
    cases r with
    | opening paths out => exact h
    | done out => exact h
    | reading x paths out =>
      obtain ⟨hpaths, hle, lo, hlo, hout⟩ := htold
      obtain ⟨_, hchain⟩ := h.chain
      have hread : out ++ s.content x = (List.range' lo (x + 1 - lo)).flatMap s.content := by
        have hlength : x + 1 - lo = x - lo + 1 := by omega
        have hlast : lo + (x - lo) = x := by omega
        rw [hout, hlength, List.range'_1_concat, List.flatMap_append, List.flatMap_singleton, hlast]
      apply h.setReader
      refine ⟨x + 1, hpaths, hle, fun _ => ⟨lo, by omega, hread⟩, ?_⟩
      rw [hread]
      exact hchain.part (by omega) (by omega)

/-! ## Runs -/

theorem inv_step {e : Event α} (h : Inv conf s) (hp : Possible e s) (hs : Sound e s) :
    Inv conf (step conf e s) := by
  cases e with
  | start => exact inv_openCurrent h
  | stop => exact inv_stop h
  | write a => exact inv_write h
  | rotate running => exact inv_rotate h hp.2 hs
  | push ok => exact inv_push h hs
  | look running => exact inv_look h
  | reopen done answered => exact inv_reopen h hs
  | pop => exact inv_pop h
  | popRename ok => exact inv_popRename h hs
  | list j => exact inv_list h
  | openNext j => exact inv_openNext h
  | read j => exact inv_read h

/-- Rotated names with small numbers, and the current one: they are few. -/
theorem length_oldestFirst (hfew : ∀ n, s.has (.rotated n) = true → 1 ≤ n ∧ n < conf.keep)
    (hbound : ∀ n, s.has (.rotated n) = true → n < s.bound) :
    s.oldestFirst.length ≤ conf.keep := by
  have hnumbers : s.numbers.length ≤ conf.keep - 1 := by
    have hsub : s.numbers ⊆ List.range' 1 (conf.keep - 1) := by
      intro n hn
      have hn := hfew n ((State.mem_numbers hbound).mp hn)
      rw [List.mem_range'_1]
      omega
    have hnodup : s.numbers.Nodup := State.numbers_pairwise.imp Nat.ne_of_lt
    have hle := (List.subperm_of_subset hnodup hsub).length_le
    rwa [List.length_range'] at hle
  have htwo := conf.two_le
  unfold State.oldestFirst
  rw [List.length_append, List.length_map, List.length_reverse]
  split
  · rw [List.length_singleton]
    omega
  · rw [List.length_nil]
    omega

theorem Inv.safe (h : Inv conf s) : Safe conf s where
  final := by
    obtain ⟨lo, hchain⟩ := h.chain
    exact hchain.final
  few ht := by
    obtain ⟨lo, hchain⟩ := h.chain
    exact length_oldestFirst (h.few ht) hchain.bound
  undone r hr := by
    have hturning := h.rotator
    rw [hr] at hturning
    exact hturning.1.same hturning.2
  told j out hr := h.readers j _ hr

end

/-- In a run in which each file keeps its name until a reader that has listed it has opened it, and
in which no rotation fails that has removed a file, no recent output is lost or hidden. -/
theorem rotation_safe (conf : Conf) (s : State α)
    (h : Reached Begun (step conf) (fun e s => Possible e s ∧ Sound e s) s) : Safe conf s := by
  apply Inv.safe
  apply h.invariant
  · exact fun _ => inv_begun
  · exact fun e s he hs => inv_step hs he.1 he.2

/-! ## A rotation that fails -/

/-- A rotated file with the line 1, and the current one with the line 2. -/
def twoFiles : State Nat where
  files a := if a = .current then some 1 else if a = .rotated 1 then some 0 else none
  bound := 2
  content x := if x = 0 then [1] else if x = 1 then [2] else []
  made := 2
  writer := some 1
  written := [1, 2]

theorem twoFiles_files {a : Name} {x : Nat} :
    twoFiles.files a = some x ↔ a = .current ∧ x = 1 ∨ a = .rotated 1 ∧ x = 0 := by
  simp only [twoFiles]
  split
  · simp_all [eq_comm]
  · split
    · simp_all [eq_comm]
    · simp_all

theorem begun_twoFiles : Begun twoFiles where
  bound n hn := by
    obtain ⟨x, hx⟩ := files_of_has hn
    rcases twoFiles_files.mp hx with ⟨ha, -⟩ | ⟨ha, -⟩
    · cases ha
    · cases ha
      decide
  order a b x y ha hb hab := by
    rcases twoFiles_files.mp ha with ⟨rfl, rfl⟩ | ⟨rfl, rfl⟩
    · exact hab.elim
    · rcases twoFiles_files.mp hb with ⟨rfl, rfl⟩ | ⟨rfl, rfl⟩
      · decide
      · exact absurd hab (Nat.lt_irrefl 1)
  held x := by
    simp only [twoFiles_files]
    constructor
    · rintro ⟨a, ⟨-, rfl⟩ | ⟨-, rfl⟩⟩
      · decide
      · decide
    · intro hx
      have hx : x < 2 := hx
      by_cases hzero : x = 0
      · exact ⟨.rotated 1, .inr ⟨rfl, hzero⟩⟩
      · exact ⟨.current, .inl ⟨rfl, by omega⟩⟩
  written := rfl
  unmade x hx := by
    have hx : 2 ≤ x := hx
    have hzero : x ≠ 0 := by omega
    have hone : x ≠ 1 := by omega
    simp [twoFiles, hzero, hone]
  writer x hx := by
    cases hx
    rfl
  rotator := rfl
  readers := rfl
  turned := rfl

def three : Conf := ⟨3, by decide⟩

def two : Conf := ⟨2, by decide⟩

/-- A rotation and a reader after it. -/
def rotated : List (Event Nat) :=
  [.rotate true, .push true, .push true, .write 3, .reopen true true, .write 4,
    .list 0, .openNext 0, .read 0, .openNext 0, .read 0, .openNext 0, .read 0, .openNext 0]

theorem rotation_safe_rotated : Safe three (steps (step three) rotated twoFiles) := by
  apply rotation_safe
  apply (Reached.init begun_twoFiles).steps
  have hnone : ∀ a, Unlisted (steps (step three) (rotated.take 2) twoFiles) a := by
    intro a j r hr
    cases hr
  have hone : ∀ a, Unlisted (steps (step three) (rotated.take 1) twoFiles) a := by
    intro a j r hr
    cases hr
  exact ⟨⟨⟨rfl, rfl⟩, rfl⟩, ⟨trivial, fun _ => hone _⟩, ⟨trivial, fun _ => hnone _⟩,
    ⟨trivial, trivial⟩, ⟨fun _ => rfl, nofun⟩, ⟨trivial, trivial⟩, ⟨rfl, trivial⟩,
    ⟨trivial, trivial⟩, ⟨trivial, trivial⟩, ⟨trivial, trivial⟩, ⟨trivial, trivial⟩,
    ⟨trivial, trivial⟩, ⟨trivial, trivial⟩, ⟨trivial, trivial⟩, trivial⟩

/-- The oldest file is removed, and then the runtime does not reopen the log. -/
def refused : List (Event Nat) :=
  [.rotate true, .push true, .push true, .reopen false false, .pop, .popRename true]

theorem not_rotation_safe :
    ¬ ∀ (conf : Conf) (s : State Nat), Reached Begun (step conf) Possible s → Safe conf s := by
  intro h
  have hreached : Reached Begun (step two) Possible (steps (step two) refused twoFiles) := by
    apply (Reached.init begun_twoFiles).steps
    exact ⟨⟨rfl, rfl⟩, trivial, trivial, nofun, trivial, trivial, trivial⟩
  have hsame := (h two _ hreached).undone ⟨true, [1, 2], 2, true⟩ rfl
  revert hsame
  decide +kernel

end LogFiles

end Zun
