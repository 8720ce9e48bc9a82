import Mathlib.Algebra.GroupWithZero.Nat
import Mathlib.Data.List.Basic
import Mathlib.Logic.Function.Basic

/-!
# Relations

The tables of a relational database: rows of named columns, keys that no two rows of a table share, and
foreign keys.  A row that refers to one that is deleted is in its way, or is deleted with it.

A deletion begins with the rows that a statement names, and takes along what cascades from them.  It does what
the statement says, and no more, exactly when no other row refers to one that is named.
-/

namespace Relations

variable {T C V : Type}

/-- A row.  A column that is null has no value. -/
abbrev Row (C V : Type) := C → Option V

abbrev Store (T C V : Type) := T → List (Row C V)

/-- A set of rows. -/
abbrev Rows (T C V : Type) := T → Row C V → Bool

structure ForeignKey (T C : Type) where
  child : T
  column : C
  parent : T
  key : C
  /-- The rows that refer to a deleted one are deleted too. -/
  cascades : Bool

structure Schema (T C : Type) where
  keys : T → List (List C)
  foreign : List (ForeignKey T C)

section

variable [DecidableEq T] [DecidableEq V]

/-! ## Keys -/

/-- The rows have the same values under a key, none of them null. -/
def agree (key : List C) (r r' : Row C V) : Bool := key.all fun c => (r c).isSome && r c = r' c

/-- No two rows agree on a key. -/
def keysHold (keys : List (List C)) (rows : List (Row C V)) : Bool :=
  keys.all fun key => decide (rows.Pairwise fun r r' => agree key r r' = false)

/-- What the rows have under a key that some of them share tells at most one of them from the others. -/
theorem countP_le_one {rows : List (Row C V)} {keys : List (List C)} {key : List C} {p : Row C V → Bool}
    (h : keysHold keys rows = true) (hkey : key ∈ keys)
    (hp : ∀ r r', p r = true → p r' = true → agree key r r' = true) : rows.countP p ≤ 1 := by
  have hpair := of_decide_eq_true (List.all_eq_true.mp h key hkey)
  clear h hkey
  induction rows with
  | nil => exact Nat.zero_le 1
  | cons r rows ih =>
      obtain ⟨hr, hrows⟩ := List.pairwise_cons.mp hpair
      rw [List.countP_cons]
      by_cases hpr : p r = true
      · have hnone : rows.countP p = 0 := List.countP_eq_zero.mpr fun r' hr' hpr' => by
          have hdiffer := hr r' hr'
          rw [hp r r' hpr hpr'] at hdiffer
          cases hdiffer
        have hone : rows.countP p + (if p r = true then 1 else 0) = 1 := by rw [hnone, if_pos hpr]
        exact Nat.le_of_eq hone
      · rw [if_neg hpr]
        exact ih hrows

/-! ## Foreign keys -/

def refers (fk : ForeignKey T C) (child parent : Row C V) : Bool :=
  (child fk.column).isSome && child fk.column = parent fk.key

/-- Every row that refers to something refers to a row that is there. -/
def holds (s : Store T C V) (fk : ForeignKey T C) : Bool :=
  (s fk.child).all fun c => (c fk.column).isNone || (s fk.parent).any fun r => refers fk c r

/-- What the database asks of a table that is changed. -/
def Schema.admits (S : Schema T C) (s : Store T C V) (t : T) : Bool :=
  keysHold (S.keys t) (s t) && S.foreign.all (holds s)

/-- The content of a database. -/
structure Content (S : Schema T C) (V : Type) [DecidableEq V] where
  rows : Store T C V
  admitted : ∀ t, S.admits rows t = true

/-! ## Deletion -/

variable (S : Schema T C) (s : Store T C V) (start : Rows T C V)

/-- The rows that go with some others, next to these themselves. -/
def spread (doomed : Rows T C V) : Rows T C V := fun t r =>
  doomed t r || S.foreign.any fun fk => fk.child = t && fk.cascades &&
    (s fk.parent).any fun parent => doomed fk.parent parent && refers fk r parent

/-- A chain of references is not longer than the tables that refer. -/
def depth : Nat := (S.foreign.map fun fk => (s fk.child).length).sum

/-- The rows that a deletion takes. -/
def cascade : Nat → Rows T C V
  | 0 => start
  | n + 1 => spread S s (cascade n)

def doomed : Rows T C V := cascade S s start (depth S s + 1)

/-- A row that stays refers to one that goes. -/
def inTheWay : Bool :=
  S.foreign.any fun fk => !fk.cascades && (s fk.child).any fun c =>
    !doomed S s start fk.child c && (s fk.parent).any fun r => doomed S s start fk.parent r && refers fk c r

/-- The store without some rows. -/
def without (gone : Rows T C V) : Store T C V := fun t => (s t).filter fun r => !gone t r

/-- The store after a deletion, unless it is refused. -/
def delete : Option (Store T C V) :=
  if inTheWay S s start = true then none else some (without s (doomed S s start))

variable {S s start}

theorem cascade_of_start {t : T} {r : Row C V} (h : start t r = true) (n : Nat) :
    cascade S s start n t r = true := by
  induction n with
  | zero => exact h
  | succ n ih => exact Bool.or_eq_true_iff.mpr (.inl ih)

/-- No row that is not deleted refers to one that is. -/
def Unreferenced (S : Schema T C) (s : Store T C V) (start : Rows T C V) : Prop :=
  ∀ fk ∈ S.foreign, ∀ c ∈ s fk.child, ∀ r ∈ s fk.parent,
    start fk.parent r = true → refers fk c r = true → start fk.child c = true

/-- Nothing cascades from rows that no other row refers to. -/
theorem cascade_eq_start (h : Unreferenced S s start) (n : Nat) {t : T} {c : Row C V} (hc : c ∈ s t) :
    cascade S s start n t c = start t c := by
  induction n generalizing t c with
  | zero => rfl
  | succ n ih =>
      rw [Bool.eq_iff_iff]
      constructor
      · intro hspread
        rcases Bool.or_eq_true_iff.mp hspread with hearlier | hgone
        · rw [← ih hc]
          exact hearlier
        · obtain ⟨fk, hfk, hgone⟩ := List.any_eq_true.mp hgone
          simp only [Bool.and_eq_true, decide_eq_true_eq, List.any_eq_true] at hgone
          obtain ⟨⟨rfl, -⟩, r, hr, hdoomed, hrefers⟩ := hgone
          rw [ih hr] at hdoomed
          exact h fk hfk c hc r hr hdoomed hrefers
      · exact fun hstart => cascade_of_start hstart _

theorem without_doomed (h : Unreferenced S s start) : without s (doomed S s start) = without s start := by
  funext t
  exact List.filter_congr fun r hr => by rw [doomed, cascade_eq_start h _ hr]

theorem inTheWay_eq_false (h : Unreferenced S s start) : inTheWay S s start = false := by
  rw [Bool.eq_false_iff]
  intro hway
  simp only [inTheWay, List.any_eq_true, Bool.and_eq_true, Bool.not_eq_true'] at hway
  obtain ⟨fk, hfk, -, c, hc, hstays, r, hr, hgoes, hrefers⟩ := hway
  rw [doomed, cascade_eq_start h _ hr] at hgoes
  rw [doomed, cascade_eq_start h _ hc, h fk hfk c hc r hr hgoes hrefers] at hstays
  cases hstays

/-- A deletion takes the rows of the statement and no others exactly if no other row refers to these. -/
theorem delete_eq_iff : delete S s start = some (without s start) ↔ Unreferenced S s start := by
  constructor
  · intro h fk hfk c hc r hr hstart hrefers
    unfold delete at h
    split at h
    · cases h
    · next hway =>
      have hstore : without s (doomed S s start) fk.child = without s start fk.child := by
        rw [Option.some.inj h]
      have hdoomed : doomed S s start fk.child c = true := by
        by_contra hstays
        refine hway (List.any_eq_true.mpr ⟨fk, hfk, Bool.and_eq_true_iff.mpr ⟨?_, ?_⟩⟩)
        · refine Bool.not_eq_true' _ |>.mpr (Bool.eq_false_iff.mpr fun hcascades => hstays ?_)
          refine Bool.or_eq_true_iff.mpr (.inr (List.any_eq_true.mpr ⟨fk, hfk, ?_⟩))
          simp only [Bool.and_eq_true, decide_eq_true_eq, List.any_eq_true]
          exact ⟨⟨trivial, hcascades⟩, r, hr, cascade_of_start hstart _, hrefers⟩
        · refine List.any_eq_true.mpr ⟨c, hc, Bool.and_eq_true_iff.mpr ⟨?_, ?_⟩⟩
          · exact Bool.not_eq_true' _ |>.mpr (Bool.eq_false_iff.mpr hstays)
          · exact List.any_eq_true.mpr ⟨r, hr, Bool.and_eq_true_iff.mpr ⟨cascade_of_start hstart _, hrefers⟩⟩
      by_contra hstart
      have hmem : c ∈ without s start fk.child :=
        List.mem_filter.mpr ⟨hc, Bool.not_eq_true' _ |>.mpr (Bool.eq_false_iff.mpr hstart)⟩
      rw [← hstore] at hmem
      have hkept := (List.mem_filter.mp hmem).2
      rw [hdoomed] at hkept
      cases hkept
  · intro h
    rw [delete, inTheWay_eq_false h, without_doomed h]
    rfl

/-! ## Assignment -/

/-- The row with new values in some columns. -/
def assign [DecidableEq C] (values : List (C × Option V)) (r : Row C V) : Row C V :=
  fun c => (values.lookup c).getD (r c)

/-- The store with some rows of a table changed. -/
def change (s : Store T C V) (t : T) (p : Row C V → Bool) (f : Row C V → Row C V) : Store T C V :=
  Function.update s t ((s t).map fun r => if p r = true then f r else r)

end

end Relations
