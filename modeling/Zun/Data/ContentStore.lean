import Mathlib.Logic.Function.Basic

/-!
# Stores of content

Content is kept under the digest of what it is, with labels.  Where no two contents have one digest, what is
written can be read under its digest from then on, and writing it a second time changes nothing: not the labels
either, which are those of the first time.
-/

/-- A digest without collisions. -/
structure Digest (D B : Type) where
  of : B → D
  injective : Function.Injective of

structure ContentStore {D B : Type} (digest : Digest D B) (L : Type) where
  entry : D → Option (B × L)
  addressed : ∀ d b l, entry d = some (b, l) → d = digest.of b

namespace ContentStore

variable {D B L : Type} {digest : Digest D B}

def empty : ContentStore digest L where
  entry _ := none
  addressed _ _ _ h := nomatch h

def read (s : ContentStore digest L) (d : D) : Option B := (s.entry d).map (·.1)

def write [DecidableEq D] (s : ContentStore digest L) (b : B) (l : L) : ContentStore digest L where
  entry d := if d = digest.of b then some ((s.entry d).getD (b, l)) else s.entry d
  addressed d b' l' h := by
    split at h
    · next hd =>
      cases hentry : s.entry d with
      | none =>
          simp only [hentry, Option.getD_none, Option.some_inj, Prod.mk.injEq] at h
          rw [hd, h.1]
      | some e =>
          simp only [hentry, Option.getD_some, Option.some_inj] at h
          exact s.addressed d b' l' (by rw [hentry, h])
    · exact s.addressed d b' l' h

section

variable {s : ContentStore digest L} {b : B} {l : L} {d : D} {P : B → L → Prop}

/-- Whatever is kept meets a condition with its labels. -/
def Labelled (P : B → L → Prop) (s : ContentStore digest L) : Prop := ∀ d b l, s.entry d = some (b, l) → P b l

theorem labelled_empty : (empty : ContentStore digest L).Labelled P := fun _ _ _ h => nomatch h

theorem read_eq_some_iff : s.read d = some b ↔ ∃ l, s.entry d = some (b, l) := by
  simp [read]

variable [DecidableEq D]

/-- What is kept stays, labels and all. -/
theorem entry_write {e : B × L} (h : s.entry d = some e) (b : B) (l : L) : (s.write b l).entry d = some e := by
  simp only [write]
  split
  · simp [h]
  · exact h

theorem read_write {b' : B} (h : s.read d = some b') (b : B) (l : L) : (s.write b l).read d = some b' := by
  obtain ⟨l', hl'⟩ := read_eq_some_iff.mp h
  exact read_eq_some_iff.mpr ⟨l', entry_write hl' b l⟩

/-- What is written is kept. -/
theorem read_write_self (s : ContentStore digest L) (b : B) (l : L) :
    (s.write b l).read (digest.of b) = some b := by
  cases hentry : s.entry (digest.of b) with
  | none => simp [read, write, hentry]
  | some e =>
      have haddressed : b = e.1 := digest.injective (s.addressed _ e.1 e.2 hentry)
      rw [read, entry_write hentry b l, Option.map_some, haddressed]

/-- Nothing comes from elsewhere. -/
theorem eq_of_entry_write {d : D} {e : B × L} (h : (s.write b l).entry d = some e) :
    s.entry d = some e ∨ e = (b, l) := by
  simp only [write] at h
  split at h
  · cases hentry : s.entry d with
    | none =>
        simp only [hentry, Option.getD_none, Option.some_inj] at h
        exact .inr h.symm
    | some e' =>
        simp only [hentry, Option.getD_some, Option.some_inj] at h
        exact .inl (by rw [h])
  · exact .inl h

theorem Labelled.write (h : s.Labelled P) (hb : P b l) : (s.write b l).Labelled P := by
  intro d b' l' hentry
  rcases eq_of_entry_write hentry with hold | hnew
  · exact h d b' l' hold
  · cases hnew
    exact hb

end

end ContentStore
