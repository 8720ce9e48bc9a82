import Mathlib.Data.List.Sort

/-!
# Sorting by a key

A stable sort is determined by its key: the list is permuted, the keys come in order, and the elements of
one key stay in the order they were in.  Sorting by a coarser key is sorting by the finer one exactly
where the ties of the coarser key were in the order of the finer one before.
-/

namespace Zun

namespace Sorting

variable {α κ μ : Type} [LinearOrder κ] [LinearOrder μ]

/-- The list in the order of the key. -/
def sortBy (key : α → κ) (l : List α) : List α := l.insertionSort fun a b => key a ≤ key b

/-- The second list is the first, in the order of the key. -/
structure Ordered (key : α → κ) (l out : List α) : Prop where
  perm : out.Perm l
  sorted : out.Pairwise fun a b => key a ≤ key b
  stable : ∀ k, out.filter (key · = k) = l.filter (key · = k)

variable {key : α → κ} {l out : List α}

theorem filter_orderedInsert (k : κ) (a : α) (l : List α) :
    (l.orderedInsert (fun a b => key a ≤ key b) a).filter (key · = k) = (a :: l).filter (key · = k) := by
  induction l with
  | nil => rfl
  | cons b l ih =>
      rw [List.orderedInsert_cons]
      by_cases hab : key a ≤ key b
      · rw [if_pos hab]
      · rw [if_neg hab, List.filter_cons, ih]
        -- what the new element passes has another key
        by_cases ha : key a = k
        · have hb : key b ≠ k := fun hb => hab (by rw [ha, hb])
          simp [ha, hb]
        · simp [ha, List.filter_cons]

theorem sortBy_ordered (key : α → κ) (l : List α) : Ordered key l (sortBy key l) where
  perm := List.perm_insertionSort _ l
  sorted := by
    have : Std.Total fun a b : α => key a ≤ key b := ⟨fun a b => le_total (key a) (key b)⟩
    have : IsTrans α fun a b => key a ≤ key b := ⟨fun _ _ _ => le_trans⟩
    exact List.pairwise_insertionSort _ l
  stable := fun k => by
    induction l with
    | nil => rfl
    | cons a l ih =>
        rw [sortBy, List.insertionSort_cons, filter_orderedInsert, List.filter_cons, List.filter_cons]
        exact congrArg (fun l => if decide (key a = k) = true then a :: l else l) ih

/-- Two elements of one key stay as they were. -/
theorem Ordered.pair_sublist (h : Ordered key l out) {a b : α} (hab : key a = key b) :
    List.Sublist [a, b] out ↔ List.Sublist [a, b] l := by
  have hfilter : ∀ l : List α, List.Sublist [a, b] l ↔
      List.Sublist [a, b] (l.filter (key · = key b)) := by
    intro l
    constructor
    · intro hl
      simpa [hab] using hl.filter (key · = key b)
    · exact fun hl => hl.trans List.filter_sublist
  rw [hfilter out, hfilter l, h.stable]

theorem sortBy_map {β : Type} (key : β → κ) (f : α → β) (l : List α) :
    sortBy key (l.map f) = (sortBy (fun a => key (f a)) l).map f :=
  (List.map_insertionSort _ (fun a b => key a ≤ key b) f l fun _ _ _ _ => Iff.rfl).symm

theorem sortBy_congr {key key' : α → κ} (h : ∀ a ∈ l, key a = key' a) : sortBy key l = sortBy key' l := by
  have hmap := List.map_insertionSort (fun a b => key a ≤ key b) (fun a b => key' a ≤ key' b) id l
    fun a ha b hb => by rw [h a ha, h b hb]; rfl
  simpa [sortBy] using hmap

/-- The list in the order of one key is in the order of a finer one if and only if the ties were. -/
theorem ordered_sortBy_iff {f : α → κ} {g : α → μ} (hmono : ∀ a b, g a ≤ g b → f a ≤ f b) (l : List α) :
    Ordered g l (sortBy f l) ↔ l.Pairwise fun a b => f a = f b → g a ≤ g b := by
  have hsort := sortBy_ordered f l
  rw [List.pairwise_iff_forall_sublist]
  constructor
  · intro h a b hl heq
    exact List.pairwise_iff_forall_sublist.mp h.sorted ((hsort.pair_sublist heq).mpr hl)
  · intro hties
    refine ⟨hsort.perm, List.pairwise_iff_forall_sublist.mpr fun {a b} hout => ?_, fun k => ?_⟩
    · by_contra hgt
      -- elements that are the wrong way round are tied
      have hba : f b ≤ f a := hmono b a (le_of_not_ge hgt)
      have hab : f a ≤ f b := List.pairwise_iff_forall_sublist.mp hsort.sorted hout
      have heq : f a = f b := le_antisymm hab hba
      exact hgt (hties ((hsort.pair_sublist heq).mp hout) heq)
    · -- elements of one finer key are of one coarser key
      by_cases hk : ∃ a, g a = k
      · obtain ⟨a, rfl⟩ := hk
        have hsame : ∀ l : List α, l.filter (g · = g a) = (l.filter (f · = f a)).filter (g · = g a) := by
          intro l
          rw [List.filter_filter]
          refine List.filter_congr fun b _ => ?_
          by_cases hb : g b = g a
          · have hfb : f b = f a := le_antisymm (hmono _ _ hb.le) (hmono _ _ hb.ge)
            simp [hb, hfb]
          · simp [hb]
        rw [hsame, hsort.stable, ← hsame]
      · have hnone : ∀ a, g a ≠ k := fun a ha => hk ⟨a, ha⟩
        simp [hnone]

end Sorting

end Zun
