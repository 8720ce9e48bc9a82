import Mathlib.Logic.Function.Basic

/-!
# Tables

Rows under keys that are given once.  A table remembers which keys were ever given.  A key made
up for a new row is a fresh one, so what is true of the row of a given key stays true as long as
it is not changed, and a row that was erased does not come back.  `Settled` says this of a
condition on rows; a key settled for a condition that no row meets has lost its row for good.
-/

structure Table (κ ρ : Type) where
  row : κ → Option ρ
  given : κ → Bool
  given_of_row : ∀ k r, row k = some r → given k = true

namespace Table

variable {κ ρ : Type} {t : Table κ ρ} {k l : κ} {r : ρ}

/-- The key was given, and its row, if it still has one, meets the condition. -/
def Settled (t : Table κ ρ) (P : ρ → Prop) (k : κ) : Prop :=
  t.given k = true ∧ ∀ r, t.row k = some r → P r

def empty : Table κ ρ where
  row _ := none
  given _ := false
  given_of_row _ _ h := nomatch h

/-- A row under the key meets the condition. -/
def has (t : Table κ ρ) (p : ρ → Bool) (k : κ) : Bool := (t.row k).any p

theorem has_iff {p : ρ → Bool} : t.has p k = true ↔ ∃ r, t.row k = some r ∧ p r = true := by
  simp [has, Option.any_eq_true]

theorem Settled.mono {P Q : ρ → Prop} (h : t.Settled P k) (hPQ : ∀ r, P r → Q r) :
    t.Settled Q k :=
  ⟨h.1, fun r hr => hPQ r (h.2 r hr)⟩

/-- What a listing of the rows that meet a condition leaves out. -/
theorem Settled.of_has {P : ρ → Prop} {p : ρ → Bool} (h : t.Settled P k)
    (hp : t.has p k = false) : t.Settled (fun r => P r ∧ p r = false) k := by
  constructor
  · exact h.1
  · intro r hr
    cases hpr : p r with
    | false => exact ⟨h.2 r hr, rfl⟩
    | true =>
      rw [has_iff.mpr ⟨r, hr, hpr⟩] at hp
      cases hp

/-- No condition is met by the row of a key, so it has none. -/
theorem Settled.row_eq_none {P : ρ → Prop} (h : t.Settled P k) (hP : ∀ r, ¬ P r) :
    t.row k = none := by
  cases hr : t.row k with
  | none => rfl
  | some r => exact absurd (h.2 r hr) (hP r)

section

variable [DecidableEq κ]

def insert (t : Table κ ρ) (k : κ) (r : ρ) : Table κ ρ where
  row := Function.update t.row k (some r)
  given := Function.update t.given k true
  given_of_row l r' h := by
    by_cases hl : l = k
    · subst hl
      simp
    · rw [Function.update_of_ne hl] at h ⊢
      exact t.given_of_row l r' h

def erase (t : Table κ ρ) (k : κ) : Table κ ρ where
  row := Function.update t.row k none
  given := t.given
  given_of_row l r' h := by
    by_cases hl : l = k
    · subst hl
      simp at h
    · rw [Function.update_of_ne hl] at h
      exact t.given_of_row l r' h

/-- The row of a key is changed, if it has one. -/
def modify (t : Table κ ρ) (k : κ) (f : ρ → ρ) : Table κ ρ where
  row := Function.update t.row k ((t.row k).map f)
  given := t.given
  given_of_row l r' h := by
    by_cases hl : l = k
    · subst hl
      rw [Function.update_self, Option.map_eq_some_iff] at h
      obtain ⟨r, hr, -⟩ := h
      exact t.given_of_row l r hr
    · rw [Function.update_of_ne hl] at h
      exact t.given_of_row l r' h

@[simp] theorem row_insert_self : (t.insert k r).row k = some r := by simp [insert]

theorem row_insert_of_ne (h : l ≠ k) : (t.insert k r).row l = t.row l :=
  Function.update_of_ne h _ _

@[simp] theorem given_insert_self : (t.insert k r).given k = true := by simp [insert]

theorem given_insert (h : t.given l = true) : (t.insert k r).given l = true := by
  by_cases hl : l = k
  · subst hl
    simp
  · show Function.update t.given k true l = true
    rw [Function.update_of_ne hl]
    exact h

@[simp] theorem row_erase_self : (t.erase k).row k = none := by simp [erase]

theorem row_erase_of_ne (h : l ≠ k) : (t.erase k).row l = t.row l :=
  Function.update_of_ne h _ _

theorem row_of_erase (h : (t.erase k).row l = some r) : t.row l = some r := by
  by_cases hl : l = k
  · subst hl
    simp at h
  · rwa [row_erase_of_ne hl] at h

theorem row_modify_self {f : ρ → ρ} : (t.modify k f).row k = (t.row k).map f := by simp [modify]

theorem row_modify_of_ne {f : ρ → ρ} (h : l ≠ k) : (t.modify k f).row l = t.row l :=
  Function.update_of_ne h _ _

/-- A changed row was there, and a row that is not the changed one is what it was. -/
theorem row_of_modify {f : ρ → ρ} (h : (t.modify k f).row l = some r) :
    l = k ∧ (∃ r', t.row k = some r' ∧ f r' = r) ∨ l ≠ k ∧ t.row l = some r := by
  by_cases hl : l = k
  · subst hl
    rw [row_modify_self, Option.map_eq_some_iff] at h
    exact .inl ⟨rfl, h⟩
  · rw [row_modify_of_ne hl] at h
    exact .inr ⟨hl, h⟩

/-- A new row is put under a fresh key, so it settles nothing anew. -/
theorem Settled.insert {P : ρ → Prop} (h : t.Settled P l) (hk : t.given k = false) :
    (t.insert k r).Settled P l := by
  have hl : l ≠ k := by
    rintro rfl
    rw [h.1] at hk
    cases hk
  constructor
  · exact given_insert h.1
  · intro r' hr'
    rw [row_insert_of_ne hl] at hr'
    exact h.2 r' hr'

theorem Settled.erase {P : ρ → Prop} (h : t.Settled P l) : (t.erase k).Settled P l :=
  ⟨h.1, fun r hr => h.2 r (row_of_erase hr)⟩

/-- A change that keeps the condition keeps what is settled. -/
theorem Settled.modify {P : ρ → Prop} {f : ρ → ρ} (h : t.Settled P l)
    (hf : ∀ r, t.row k = some r → P r → P (f r)) : (t.modify k f).Settled P l := by
  constructor
  · exact h.1
  · intro r hr
    rcases row_of_modify hr with ⟨rfl, r', hr', rfl⟩ | ⟨-, hr⟩
    · exact hf r' hr' (h.2 r' hr')
    · exact h.2 r hr

end

end Table
