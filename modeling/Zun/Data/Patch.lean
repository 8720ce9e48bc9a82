import Mathlib.Data.List.GetD
import Mathlib.Tactic.ByContra

/-!
# A file that several writers fill with the same data

Each writer has an offset of its own, so a file that is truncated under a writer has a hole up to
where that writer goes on.  `patched` is what is in the file after some writes, given by the spans that
they wrote.
-/

namespace Patch

/-- A write at an offset.  The bytes between the end of the file and the offset are noughts. -/
def writeAt (file : List UInt8) (offset : Nat) (bytes : List UInt8) : List UInt8 :=
  if bytes = [] then file
  else (file ++ List.replicate (offset - file.length) 0).take offset ++ bytes ++
    file.drop (offset + bytes.length)

/-- The bytes from `start` on and before `stop`. -/
structure Span where
  start : Nat
  stop : Nat
deriving DecidableEq

/-- Some span has the byte. -/
def Covered (spans : List Span) (p : Nat) : Prop := ∃ span ∈ spans, span.start ≤ p ∧ p < span.stop

instance (spans : List Span) (p : Nat) : Decidable (Covered spans p) :=
  inferInstanceAs (Decidable (∃ span ∈ spans, span.start ≤ p ∧ p < span.stop))

/-- Where the last span ends. -/
def top (spans : List Span) : Nat := (spans.map (·.stop)).foldr max 0

/-- The file after some writes of `data`. -/
def patched (data : List UInt8) (spans : List Span) : List UInt8 :=
  (List.range (top spans)).map fun p => if Covered spans p then data.getD p 0 else 0

/-- The spans are of `data`, and none is empty. -/
def Within (data : List UInt8) (spans : List Span) : Prop :=
  ∀ span ∈ spans, span.start < span.stop ∧ span.stop ≤ data.length

/-- No byte that counts is missing: none but a nought that is not the last. -/
def Complete (data : List UInt8) (spans : List Span) : Prop :=
  ∀ p < data.length, data.getD p 0 ≠ 0 ∨ p + 1 = data.length → Covered spans p

variable {data : List UInt8} {spans : List Span} {span : Span} {p offset n : Nat}

@[simp] theorem top_cons : top (span :: spans) = max span.stop (top spans) := rfl

@[simp] theorem length_patched (data : List UInt8) (spans : List Span) : (patched data spans).length = top spans := by simp [patched]

@[simp] theorem covered_nil : ¬Covered [] p := by simp [Covered]

@[simp] theorem covered_cons :
    Covered (span :: spans) p ↔ (span.start ≤ p ∧ p < span.stop) ∨ Covered spans p := by simp [Covered]

theorem lt_top_of_covered (h : Covered spans p) : p < top spans := by
  induction spans with
  | nil => exact absurd h covered_nil
  | cons span spans ih =>
      rw [covered_cons] at h
      rw [top_cons]
      rcases h with h | h
      · omega
      · have := ih h
        omega

theorem top_le (h : Within data spans) : top spans ≤ data.length := by
  induction spans with
  | nil => exact Nat.zero_le _
  | cons span spans ih =>
      have hspan := (h span List.mem_cons_self).2
      have hrest := ih fun span' hmem => h span' (List.mem_cons_of_mem _ hmem)
      rw [top_cons]
      omega

/-- The file ends where some span does. -/
theorem covered_of_top (h : Within data spans) (htop : top spans = p + 1) : Covered spans p := by
  induction spans with
  | nil => cases htop
  | cons span spans ih =>
      have hspan := (h span List.mem_cons_self).1
      rw [top_cons] at htop
      rw [covered_cons]
      by_cases hrest : top spans = p + 1
      · exact .inr (ih (fun span' hmem => h span' (List.mem_cons_of_mem _ hmem)) hrest)
      · left
        omega

theorem getElem?_patched :
    (patched data spans)[p]? =
      if p < top spans then some (if Covered spans p then data.getD p 0 else 0) else none := by
  rw [patched, List.getElem?_map]
  split
  case isTrue h => rw [List.getElem?_range h, Option.map_some]
  case isFalse h => rw [List.getElem?_eq_none (by simpa using h), Option.map_none]

/-- The next write of `data` of a writer that is at `offset`. -/
theorem writeAt_patched (h : offset + n ≤ data.length) (hn : 0 < n) :
    writeAt (patched data spans) offset ((data.drop offset).take n) =
      patched data (⟨offset, offset + n⟩ :: spans) := by
  have hlength : ((data.drop offset).take n).length = n := by
    rw [List.length_take, List.length_drop]
    omega
  have hne : (data.drop offset).take n ≠ [] := by
    intro hnil
    rw [hnil] at hlength
    simp at hlength
    omega
  have hhead : ((patched data spans ++ List.replicate (offset - top spans) 0).take offset).length = offset := by
    rw [List.length_take, List.length_append, length_patched, List.length_replicate]
    omega
  rw [writeAt, if_neg hne, hlength, length_patched]
  refine List.ext_getElem? fun p => ?_
  rw [getElem?_patched, List.append_assoc]
  simp only [top_cons, covered_cons]
  rcases Nat.lt_or_ge p offset with hp | hp
  · -- before the write, where the file may have been too short
    rw [List.getElem?_append_left (by omega), List.getElem?_take_of_lt hp, if_pos (by omega)]
    have hnot : ¬(offset ≤ p ∧ p < offset + n) := by omega
    rcases Nat.lt_or_ge p (top spans) with htop | htop
    · rw [List.getElem?_append_left (by rw [length_patched]; exact htop), getElem?_patched, if_pos htop]
      simp [hnot]
    · have hfree : ¬Covered spans p := fun hcov => absurd (lt_top_of_covered hcov) (by omega)
      rw [List.getElem?_append_right (by rw [length_patched]; exact htop), length_patched,
        List.getElem?_replicate, if_pos (by omega)]
      simp [hnot, hfree]
  · rw [List.getElem?_append_right (by omega), hhead]
    rcases Nat.lt_or_ge p (offset + n) with hlt | hge
    · rw [List.getElem?_append_left (by omega), List.getElem?_take_of_lt (by omega), List.getElem?_drop,
        Nat.add_sub_cancel' hp, if_pos (by omega), if_pos (.inl ⟨hp, hlt⟩)]
      have hbound : p < data.length := by omega
      simp [List.getElem?_eq_getElem hbound]
    · rw [List.getElem?_append_right (by omega), hlength, List.getElem?_drop,
        show offset + n + (p - offset - n) = p by omega, getElem?_patched]
      have hnot : ¬(offset ≤ p ∧ p < offset + n) := by omega
      have htop : p < max (offset + n) (top spans) ↔ p < top spans := by omega
      simp only [htop, hnot, false_or]

/-- The file is the data when no byte that counts is missing. -/
theorem patched_eq_iff (h : Within data spans) : patched data spans = data ↔ Complete data spans := by
  constructor
  · intro heq p hp hcounts
    by_contra hfree
    have hbyte : (patched data spans)[p]? = data[p]? := by rw [heq]
    have hlength : top spans = data.length := by rw [← length_patched data spans, heq]
    rw [getElem?_patched, if_pos (by omega), if_neg hfree, List.getElem?_eq_getElem hp] at hbyte
    injection hbyte with hbyte
    rcases hcounts with hcounts | hlast
    · rw [List.getD_eq_getElem _ _ hp] at hcounts
      exact hcounts hbyte.symm
    · exact hfree (covered_of_top h (by omega))
  · intro hcomplete
    have htop : top spans = data.length := by
      refine Nat.le_antisymm (top_le h) ?_
      by_contra hlt
      have hpos : 0 < data.length := by omega
      have := lt_top_of_covered (hcomplete (data.length - 1) (by omega) (.inr (by omega)))
      omega
    refine List.ext_getElem? fun p => ?_
    rw [getElem?_patched, htop]
    split
    case isTrue hp =>
      rw [List.getElem?_eq_getElem hp, ← List.getD_eq_getElem _ 0 hp]
      split
      case isTrue => rfl
      case isFalse hfree =>
        by_contra hne
        exact hfree (hcomplete p hp (.inl fun hzero => hne (by rw [hzero])))
    case isFalse hp => rw [List.getElem?_eq_none (by omega)]

end Patch
