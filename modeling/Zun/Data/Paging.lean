import Zun.Data.SortBy

/-!
# Pages of a sorted list

A listing that is handed out page by page, each page from where the last one ended.  When no two elements have
one key, what comes after the last element of the first `n` is what is left when these are dropped.
-/

namespace Zun

namespace Paging

open Sorting

variable {α κ : Type} [LinearOrder κ] {key : α → κ} {l s : List α} {m m' : α}

/-- What comes after an element. -/
def after (key : α → κ) (m : α) (l : List α) : List α := l.filter fun a => decide (key m < key a)

/-- The list is in the order of the key, and no key is in it twice. -/
def Ascending (key : α → κ) (l : List α) : Prop := l.Pairwise fun a b => key a < key b

theorem ascending_sortBy (hnodup : (l.map key).Nodup) : Ascending key (sortBy key l) := by
  have hsort := sortBy_ordered key l
  have hne : ((sortBy key l).map key).Nodup := (hsort.perm.map key).nodup_iff.mpr hnodup
  rw [List.Nodup, List.pairwise_map] at hne
  exact (hsort.sorted.and hne).imp fun hab => lt_of_le_of_ne hab.1 hab.2

/-- What comes after a later element comes after an earlier one. -/
theorem after_after (key : α → κ) (hle : key m ≤ key m') : after key m' (after key m l) = after key m' l := by
  rw [after, after, List.filter_filter]
  refine List.filter_congr fun a _ => ?_
  by_cases hlt : key m' < key a
  · simp [hlt, hle.trans_lt hlt]
  · simp [hlt]

/-- After the last of the first ones come the others. -/
theorem after_last (hs : Ascending key s) {n : Nat} (hlast : (s.take n).getLast? = some m) :
    after key m s = s.drop n := by
  obtain ⟨first, hfirst⟩ := List.getLast?_eq_some_iff.mp hlast
  have hsplit : s = first ++ m :: s.drop n := by
    rw [List.append_cons, ← hfirst, List.take_append_drop]
  have hs' := hs
  rw [hsplit, Ascending, List.pairwise_append] at hs'
  obtain ⟨-, hrest, hcross⟩ := hs'
  have hearlier : first.filter (fun a => decide (key m < key a)) = [] := by
    rw [List.filter_eq_nil_iff]
    exact fun a ha => by simpa using (hcross a ha m (List.mem_cons_self ..)).le
  have hlater : (s.drop n).filter (fun a => decide (key m < key a)) = s.drop n := by
    rw [List.filter_eq_self]
    exact fun a ha => by simpa using List.rel_of_pairwise_cons hrest ha
  calc after key m s = after key m (first ++ m :: s.drop n) := congrArg (after key m) hsplit
    _ = s.drop n := by simp [after, List.filter_append, hearlier, hlater]

end Paging

end Zun
