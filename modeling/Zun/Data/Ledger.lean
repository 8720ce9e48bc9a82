import Mathlib.Algebra.BigOperators.Group.List.Basic
import Mathlib.Data.List.AList

/-!
# Ledgers

A ledger is a dictionary whose entries are summed up.  `total f l` is the sum of `f` over the
values of the dictionary `l`.  A counter that is kept beside a ledger agrees with it when every
insertion adds what is inserted and every removal takes off what is removed.  The lemmas
below say what each operation of the dictionary does to the total.
-/

namespace Ledger

variable {κ β M : Type} [AddCommGroup M]

/-- The sum of a function over the values of a dictionary. -/
def total (f : β → M) (l : AList fun _ : κ => β) : M := (l.entries.map fun e => f e.2).sum

variable [DecidableEq κ] {l : AList fun _ : κ => β} {a : κ} {b : β}

/-- An entry that is removed takes its share with it. -/
theorem total_erase (f : β → M) (h : l.lookup a = some b) :
    total f l = f b + total f (l.erase a) := by
  have hmem : a ∈ l.entries.keys := List.dlookup_isSome.mp (Option.isSome_of_eq_some h)
  obtain ⟨b', l₁, l₂, -, hl, hk⟩ := List.exists_of_kerase hmem
  have hb : b' = b := by
    have hin : (⟨a, b'⟩ : Σ _ : κ, β) ∈ l.entries := by
      rw [hl]
      simp
    exact Option.some.inj ((List.mem_dlookup l.nodupKeys hin).symm.trans h)
  subst hb
  have he : (l.erase a).entries = l₁ ++ l₂ := hk
  unfold total
  rw [hl, he]
  simp only [List.map_append, List.map_cons, List.sum_append, List.sum_cons]
  exact add_left_comm _ _ _

theorem erase_of_lookup_none (h : l.lookup a = none) : l.erase a = l := by
  apply AList.ext
  exact List.kerase_of_notMem_keys (List.dlookup_eq_none.mp h)

/-- An entry that is put in replaces the one that was there. -/
theorem total_insert (f : β → M) (a : κ) (b : β) (l : AList fun _ : κ => β) :
    total f (l.insert a b) = f b + total f (l.erase a) := by
  unfold total
  rw [AList.entries_insert]
  simp
  rfl

theorem total_insert_new (f : β → M) (h : l.lookup a = none) :
    total f (l.insert a b) = total f l + f b := by
  rw [total_insert, erase_of_lookup_none h, add_comm]

/-- A replaced entry moves the total by the difference. -/
theorem total_insert_old {b' : β} (f : β → M) (h : l.lookup a = some b') :
    total f (l.insert a b) = total f l - f b' + f b := by
  rw [total_insert, total_erase f h, add_sub_cancel_left, add_comm]

end Ledger
