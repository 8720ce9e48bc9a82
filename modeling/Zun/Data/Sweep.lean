import Mathlib.Algebra.Ring.Int.Defs
import Mathlib.Algebra.BigOperators.Group.List.Basic
import Mathlib.Algebra.Order.Group.Int
import Zun.Data.SortBy

/-!
# Sweeping over intervals

Whether two closed intervals of a list meet.  The ends of all of them are put in order, and a counter goes up at
each start and down at each finish.  Where a start and a finish are in one place, the start comes first; so the
counter stands, after the last start of a place, at the number of the intervals that cover it.
-/

namespace Zun

namespace Sweep

open Sorting

variable {ι V : Type} {start finish : ι → V} {l : List ι} {ps qs : List (V × Int)} {v : V}

/-- The ends of the intervals, with what each adds to the counter. -/
def ends (start finish : ι → V) (l : List ι) : List (V × Int) :=
  l.flatMap fun i => [(start i, 1), (finish i, -1)]

/-- The counter passes one. -/
def exceeds : Int → List (V × Int) → Bool
  | _, [] => false
  | counter, p :: ps => if counter + p.2 > 1 then true else exceeds (counter + p.2) ps

/-- What the counter makes of some ends. -/
def total (ps : List (V × Int)) : Int := (ps.map (·.2)).sum

@[simp] theorem total_nil : total ([] : List (V × Int)) = 0 := rfl

@[simp] theorem total_cons (p : V × Int) : total (p :: ps) = p.2 + total ps := List.sum_cons

@[simp] theorem total_append : total (ps ++ qs) = total ps + total qs := by
  simp only [total, List.map_append, List.sum_append]

theorem total_perm (h : ps.Perm qs) : total ps = total qs := List.Perm.sum_eq (h.map fun p => p.2)

theorem total_nonneg (h : ∀ p ∈ ps, 0 ≤ p.2) : 0 ≤ total ps := by
  induction ps with
  | nil => exact le_refl 0
  | cons p ps ih =>
      rw [total_cons]
      exact add_nonneg (h p (List.mem_cons_self ..)) (ih fun q hq => h q (List.mem_cons_of_mem p hq))

/-- Leaving out what takes off makes the total no smaller. -/
theorem total_le_filter {P : V × Int → Bool} (h : ∀ p ∈ ps, P p = false → p.2 ≤ 0) :
    total ps ≤ total (ps.filter P) := by
  induction ps with
  | nil => exact le_refl 0
  | cons p ps ih =>
      have hps := ih fun q hq => h q (List.mem_cons_of_mem p hq)
      cases hp : P p with
      | true =>
          rw [List.filter_cons_of_pos hp, total_cons, total_cons]
          exact Int.add_le_add_left hps p.2
      | false =>
          rw [List.filter_cons_of_neg (by rw [hp]; decide), total_cons]
          exact le_trans (add_le_of_nonpos_left (h p (List.mem_cons_self ..) hp)) hps

/-- The counter passes one after some of the ends. -/
theorem exceeds_iff {counter : Int} : exceeds counter ps = true ↔
    ∃ before p after, ps = before ++ p :: after ∧ 1 < counter + total (before ++ [p]) := by
  induction ps generalizing counter with
  | nil => simp [exceeds]
  | cons q ps ih =>
      rw [exceeds]
      constructor
      · intro h
        split at h
        · next hq => exact ⟨[], q, ps, rfl, by simpa using hq⟩
        · obtain ⟨before, p, after, rfl, hp⟩ := ih.mp h
          refine ⟨q :: before, p, after, rfl, ?_⟩
          rw [List.cons_append, total_cons, ← add_assoc]
          exact hp
      · rintro ⟨before, p, after, hps, hp⟩
        split
        · rfl
        · next hq =>
          refine ih.mpr ?_
          cases before with
          | nil =>
              obtain ⟨rfl, rfl⟩ := List.cons.inj hps
              exact absurd (by simpa using hp) hq
          | cons r before =>
              obtain ⟨rfl, rfl⟩ := List.cons.inj hps
              refine ⟨before, p, after, rfl, ?_⟩
              rw [List.cons_append, total_cons, ← add_assoc] at hp
              exact hp

/-! ## Intervals of an order -/

variable [LinearOrder V]

def Covers (start finish : ι → V) (v : V) (i : ι) : Prop := start i ≤ v ∧ v ≤ finish i

instance (v : V) : DecidablePred (Covers start finish v) :=
  fun i => inferInstanceAs (Decidable (start i ≤ v ∧ v ≤ finish i))

/-- They have a place in common. -/
def Meet (start finish : ι → V) (i j : ι) : Prop := ∃ v, Covers start finish v i ∧ Covers start finish v j

/-- By place, and at one place what adds more first. -/
def InOrder (p q : V × Int) : Prop := p.1 < q.1 ∨ p.1 = q.1 ∧ q.2 ≤ p.2

/-- It is not after the last start of `v`. -/
def UpTo (v : V) (p : V × Int) : Prop := p.1 < v ∨ p.1 = v ∧ p.2 = 1

instance (v : V) : DecidablePred (UpTo v) :=
  fun p => inferInstanceAs (Decidable (p.1 < v ∨ p.1 = v ∧ p.2 = 1))

/-- Up to the last start of a place the counter has come to the number of intervals that cover it. -/
theorem total_filter_ends (h : ∀ i ∈ l, start i ≤ finish i) :
    total ((ends start finish l).filter (UpTo v)) = l.countP (Covers start finish v) := by
  induction l with
  | nil => rfl
  | cons i l ih =>
      have hi := h i (List.mem_cons_self ..)
      have hstart : UpTo v (start i, 1) ↔ start i ≤ v := by
        simp [UpTo, le_iff_lt_or_eq]
      have hfinish : UpTo v (finish i, -1) ↔ ¬ v ≤ finish i := by
        simp [UpTo]
      have hcons : ends start finish (i :: l) = (start i, 1) :: (finish i, -1) :: ends start finish l := rfl
      rw [hcons, List.countP_cons, List.filter_cons, List.filter_cons, Int.natCast_add,
        ← ih fun j hj => h j (List.mem_cons_of_mem i hj)]
      simp only [hstart, hfinish, Covers, decide_eq_true_eq]
      by_cases hlow : start i ≤ v
      · by_cases hhigh : v ≤ finish i
        · simp [hlow, hhigh, add_comm]
        · simp [hlow, hhigh]
      · have hhigh : v ≤ finish i := le_trans (le_of_not_ge hlow) hi
        simp [hlow, hhigh]

/-- Some place is covered twice if and only if two intervals meet. -/
theorem exists_two_covers_iff (start finish : ι → V) (l : List ι) : (∃ v, 2 ≤ l.countP (Covers start finish v)) ↔
    ¬ l.Pairwise fun i j => ¬ Meet start finish i j := by
  rw [List.pairwise_iff_forall_sublist]
  constructor
  · rintro ⟨v, hv⟩ h
    rw [List.countP_eq_length_filter] at hv
    cases hfilter : l.filter (Covers start finish v) with
    | nil => simp [hfilter] at hv
    | cons i rest =>
        cases rest with
        | nil => simp [hfilter] at hv
        | cons j rest =>
            have hcovers : ∀ k ∈ [i, j], Covers start finish v k := by
              intro k hk
              have hmem : k ∈ l.filter (Covers start finish v) := by
                rw [hfilter]
                exact List.mem_append_left rest hk
              exact of_decide_eq_true (List.mem_filter.mp hmem).2
            have hsub : List.Sublist [i, j] l := by
              refine List.Sublist.trans ?_ (List.filter_sublist (p := (Covers start finish v)))
              rw [hfilter]
              exact List.sublist_append_left [i, j] rest
            exact h hsub ⟨v, hcovers i (by simp), hcovers j (by simp)⟩
  · intro h
    simp only [not_forall, not_not] at h
    obtain ⟨i, j, hsub, v, hi, hj⟩ := h
    refine ⟨v, ?_⟩
    have hcount := hsub.countP_le (p := fun k => decide (Covers start finish v k))
    simpa [hi, hj] using hcount

/-- What is in order up to `v` comes first. -/
theorem filter_upTo_eq_takeWhile (h : ps.Pairwise InOrder) (hone : ∀ p ∈ ps, p.2 ≤ 1) :
    ps.filter (UpTo v) = ps.takeWhile (UpTo v) := by
  induction ps with
  | nil => rfl
  | cons p ps ih =>
      obtain ⟨hp, hps⟩ := List.pairwise_cons.mp h
      rw [List.filter_cons, List.takeWhile_cons, ih hps fun q hq => hone q (List.mem_cons_of_mem p hq)]
      by_cases hup : UpTo v p
      · simp [hup]
      · have hnone : ps.takeWhile (UpTo v) = [] := by
          cases ps with
          | nil => rfl
          | cons q ps =>
              have hq : ¬ UpTo v q := by
                intro hq
                refine hup ?_
                rcases hp q (List.mem_cons_self ..) with hlt | ⟨heq, hle⟩
                · rcases hq with hq | ⟨hq, -⟩
                  · exact .inl (lt_trans hlt hq)
                  · exact .inl (hq ▸ hlt)
                · rcases hq with hq | ⟨hq, hq'⟩
                  · exact .inl (heq ▸ hq)
                  · refine .inr ⟨heq.trans hq, le_antisymm (hone p (List.mem_cons_self ..)) ?_⟩
                    rw [← hq']
                    exact hle
              simp [hq]
        simp [hup, hnone]

/-- Two stable sorts put the ends in order. -/
theorem inOrder_sortBy (ps : List (V × Int)) :
    (sortBy (fun p => p.1) (sortBy (fun p => OrderDual.toDual p.2) ps)).Pairwise InOrder := by
  have houter := sortBy_ordered (fun p : V × Int => p.1) (sortBy (fun p => OrderDual.toDual p.2) ps)
  have hinner := sortBy_ordered (fun p : V × Int => OrderDual.toDual p.2) ps
  refine List.pairwise_iff_forall_sublist.mpr fun {p q} hsub => ?_
  have hle : p.1 ≤ q.1 := List.pairwise_iff_forall_sublist.mp houter.sorted hsub
  rcases lt_or_eq_of_le hle with hlt | heq
  · exact .inl hlt
  · have hsub := (houter.pair_sublist heq).mp hsub
    exact .inr ⟨heq, List.pairwise_iff_forall_sublist.mp hinner.sorted hsub⟩

/-- The counter passes one if and only if two intervals meet. -/
theorem exceeds_iff_meet (start finish : ι → V) (h : ∀ i ∈ l, start i ≤ finish i) (hperm : ps.Perm (ends start finish l))
    (hsorted : ps.Pairwise InOrder) :
    exceeds 0 ps = true ↔ ¬ l.Pairwise fun i j => ¬ Meet start finish i j := by
  rw [← exists_two_covers_iff, exceeds_iff]
  have htotal : ∀ v, total (ps.filter (UpTo v)) = l.countP (Covers start finish v) := fun v => by
    rw [total_perm (hperm.filter _), total_filter_ends h]
  have hstep : ∀ p ∈ ps, p.2 = 1 ∨ p.2 = -1 := by
    intro p hp
    obtain ⟨i, -, hi⟩ := List.mem_flatMap.mp (hperm.mem_iff.mp hp)
    simp only [List.mem_cons, List.not_mem_nil, or_false] at hi
    rcases hi with rfl | rfl
    · exact .inl rfl
    · exact .inr rfl
  constructor
  · rintro ⟨before, p, after, rfl, hp⟩
    obtain ⟨hbefore, hafter, hcross⟩ := List.pairwise_append.mp hsorted
    refine ⟨p.1, ?_⟩
    have hleft : total (before ++ [p]) ≤ total ((before ++ [p]).filter (UpTo p.1)) := by
      refine total_le_filter fun q hq hup => ?_
      have hq' : q ∈ before ++ p :: after := by
        rcases List.mem_append.mp hq with hq | hq
        · exact List.mem_append_left _ hq
        · exact List.mem_append_right _ (List.mem_cons.mpr (.inl (List.mem_singleton.mp hq)))
      have hle : q.1 ≤ p.1 := by
        rcases List.mem_append.mp hq with hq | hq
        · exact (hcross q hq p (List.mem_cons_self ..)).elim le_of_lt fun h => le_of_eq h.1
        · rw [List.mem_singleton.mp hq]
      rcases hstep q hq' with hone | hone
      · -- a start in this place or before it is up to it
        have : UpTo p.1 q := (lt_or_eq_of_le hle).imp id fun heq => ⟨heq, hone⟩
        exact absurd this (of_decide_eq_false hup)
      · rw [hone]
        decide
    have hright : 0 ≤ total (after.filter (UpTo p.1)) := by
      refine total_nonneg fun q hq => ?_
      obtain ⟨hq, hup⟩ := List.mem_filter.mp hq
      rcases of_decide_eq_true hup with hlt | ⟨-, hone⟩
      · rcases (List.pairwise_cons.mp hafter).1 q hq with h | h
        · exact absurd hlt (lt_asymm h)
        · exact absurd h.1 (ne_of_gt hlt)
      · rw [hone]
        decide
    have hall := htotal p.1
    rw [List.append_cons, List.filter_append, total_append] at hall
    omega
  · rintro ⟨v, hv⟩
    have htake := htotal v
    rw [filter_upTo_eq_takeWhile hsorted fun p hp => by rcases hstep p hp with h | h <;> omega] at htake
    have hps := List.takeWhile_append_dropWhile (p := fun p => decide (UpTo v p)) (l := ps)
    rcases List.eq_nil_or_concat (ps.takeWhile (UpTo v)) with hnil | ⟨before, p, hconcat⟩
    · rw [hnil, total_nil] at htake
      omega
    · rw [hconcat, List.concat_eq_append] at hps htake
      refine ⟨before, p, ps.dropWhile (UpTo v), ?_, ?_⟩
      · rw [List.append_cons]
        exact hps.symm
      · omega

end Sweep

end Zun
