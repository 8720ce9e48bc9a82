import Zun.Container.ExecOutput

/-!
# Characters in the combined output

`output` of `client_fields` is the text of both streams in the order of writing, and what is no text
in it is replaced.  A caller is told so when one of the streams is no text.  Both can be text when
their interleaving is not, since a write to one stream can come inside a character of the other.
The interleaving of two texts is text when every write comes while the other stream is between
characters (`whole_iff_separate`).
-/

namespace Zun

open Channel (Bytes)

namespace ExecOutput

open Utf8 (Whole)

def Stream.other : Stream → Stream
  | .stdout => .stderr
  | .stderr => .stdout

theorem Stream.eq_other_of_ne {s t : Stream} (h : s ≠ t) : t = s.other := by
  cases s <;> cases t <;> simp_all [other]

/-! ## Two interleaved streams -/

/-- Every byte comes while the other stream is between characters. -/
def Separate (bytes : List Tagged) : Prop :=
  ∀ before s b after, bytes = before ++ (s, b) :: after → Whole (bytesOf s.other before)

section

variable {s : Stream} {bytes bytes' : List Tagged}

theorem bytesOf_all (h : ∀ b ∈ bytes, b.1 = s) : bytesOf s bytes = bytes.map (·.2) := by
  rw [bytesOf, List.filter_eq_self.mpr fun b hb => by simp [h b hb]]

theorem bytesOf_none (h : ∀ b ∈ bytes, b.1 = s) : bytesOf s.other bytes = [] := by
  have hother (b : Tagged) (hb : b ∈ bytes) : b.1 ≠ s.other := by
    rw [h b hb]
    cases s <;> simp [Stream.other]
  rw [bytesOf, List.filter_eq_nil_iff.mpr fun b hb => by simp [hother b hb]]
  rfl

/-- The bytes up to the first one of the other stream. -/
theorem exists_run (b : Tagged) (bytes : List Tagged) :
    ∃ run rest, b :: bytes = run ++ rest ∧ run ≠ [] ∧ (∀ b' ∈ run, b'.1 = b.1) ∧
      (rest = [] ∨ ∃ c rest', rest = (b.1.other, c) :: rest') := by
  induction bytes generalizing b with
  | nil => exact ⟨[b], [], rfl, by simp, by simp, .inl rfl⟩
  | cons b' bytes ih =>
      by_cases hs : b.1 = b'.1
      · obtain ⟨run, rest, hrun, -, hall, hrest⟩ := ih b'
        refine ⟨b :: run, rest, by rw [hrun, List.cons_append], by simp, ?_, ?_⟩
        · intro c hc
          rcases List.mem_cons.mp hc with rfl | hc
          · rfl
          · rw [hall c hc, hs]
        · rw [hs]
          exact hrest
      · exact ⟨[b], b' :: bytes, rfl, by simp, by simp,
          .inr ⟨b'.2, bytes, by rw [← Stream.eq_other_of_ne hs]⟩⟩

/-- Bytes of one stream come while the other is where it was. -/
theorem separate_append (hrun : ∀ b ∈ bytes, b.1 = s) (hwhole : Whole (bytesOf s bytes)) :
    Separate (bytes ++ bytes') ↔ Separate bytes' := by
  have hwhole' (t : Stream) : Whole (bytesOf t bytes) := by
    by_cases ht : s = t
    · rw [← ht]
      exact hwhole
    · rw [Stream.eq_other_of_ne ht, bytesOf_none hrun]
      exact Utf8.whole_nil
  constructor
  · intro h before t b after hsplit
    have := h (bytes ++ before) t b after (by rw [hsplit, List.append_assoc])
    rw [bytesOf_append, (hwhole' _).append_iff] at this
    exact this
  · intro h before t b after hsplit
    rcases List.append_eq_append_iff.mp hsplit with ⟨rest, hbefore, hrest⟩ | ⟨rest, hbytes, hrest⟩
    · rw [hbefore, bytesOf_append, (hwhole' _).append_iff]
      exact h rest t b after hrest
    · -- The byte may be one of the run.
      cases rest with
      | nil =>
          rw [List.append_nil] at hbytes
          rw [← hbytes]
          exact hwhole' _
      | cons c rest =>
          rw [List.cons_append] at hrest
          injection hrest with hc
          have hs : t = s := hrun (t, b) (by rw [hbytes, hc]; simp)
          have hnone : bytesOf s.other before = [] :=
            bytesOf_none fun b' hb' => hrun b' (by rw [hbytes]; simp [hb'])
          rw [hs, hnone]
          exact Utf8.whole_nil

/-- The interleaving of two texts. -/
theorem whole_iff_separate (bytes : List Tagged) (h : ∀ s, Whole (bytesOf s bytes)) :
    Whole (bytes.map (·.2)) ↔ Separate bytes := by
  induction hlen : bytes.length using Nat.strongRecOn generalizing bytes with
  | _ n ih =>
  cases bytes with
  | nil =>
      refine iff_of_true Utf8.whole_nil fun before s b after hsplit => ?_
      exact absurd hsplit (by simp)
  | cons b bytes =>
      obtain ⟨run, rest, hrun, hne, hall, hrest⟩ := exists_run b bytes
      rw [hrun] at h hlen ⊢
      have hmap : bytesOf b.1 run = run.map (·.2) := bytesOf_all hall
      -- When the run is whole, so is the rest of each stream.
      have hstep (hwhole : Whole (bytesOf b.1 run)) :
          Whole ((run ++ rest).map (·.2)) ↔ Separate (run ++ rest) := by
        have hrestWhole (t : Stream) : Whole (bytesOf t rest) := by
          have ht := h t
          rw [bytesOf_append] at ht
          by_cases hs : b.1 = t
          · subst hs
            exact hwhole.append_iff.mp ht
          · rw [Stream.eq_other_of_ne hs, bytesOf_none hall, List.nil_append] at ht
            rw [Stream.eq_other_of_ne hs]
            exact ht
        have hshort : rest.length < n := by
          have := List.length_pos_iff.mpr hne
          rw [← hlen, List.length_append]
          omega
        rw [List.map_append, ← hmap, hwhole.append_iff, separate_append hall hwhole]
        exact ih rest.length hshort rest hrestWhole rfl
      rcases hrest with rfl | ⟨c, rest', rfl⟩
      · have hwhole := h b.1
        rw [List.append_nil] at hwhole
        exact hstep hwhole
      · have hfirst : c.IsUTF8FirstByte := by
          have hother := h b.1.other
          rw [bytesOf_append, bytesOf_none hall, List.nil_append, bytesOf_cons, if_pos rfl] at hother
          exact hother.isFirst
        constructor
        · intro hcombined
          refine (hstep ?_).mp hcombined
          rw [List.map_append, List.map_cons] at hcombined
          rw [hmap]
          exact hcombined.of_append_isFirst hfirst
        · intro hseparate
          refine (hstep ?_).mpr hseparate
          have hwhole := hseparate run b.1.other c rest' rfl
          have hback : b.1.other.other = b.1 := by cases b.1 <;> rfl
          rw [hback] at hwhole
          exact hwhole

end

/-! ## The writes of a command -/

/-- What `combined` has of a stream, by what was written. -/
def usableOf (limit : Option Nat) (writes : List (Nat × Bytes)) (s : Stream) : Nat :=
  usableLength (cut limit (written s writes)) (decide (Exceeds limit (written s writes)))

/-- A stream is text, up to a character that the limit cuts. -/
def IsText (limit : Option Nat) (writes : List (Nat × Bytes)) (s : Stream) : Prop :=
  Whole ((cut limit (written s writes)).take (usableOf limit writes s))

/-- What is usable of a stream is written while the other one is between characters. -/
def Apart (limit : Option Nat) (writes : List (Nat × Bytes)) : Prop :=
  ∀ before stream data after, writes = before ++ (stream, data) :: after → data ≠ [] →
    (written (streamOf stream) before).length < usableOf limit writes (streamOf stream) →
      Whole ((written (streamOf stream).other before).take
        (usableOf limit writes (streamOf stream).other))

section

variable {n : Stream → Nat} {writes : List (Nat × Bytes)}

theorem tagged_append (writes writes' : List (Nat × Bytes)) :
    tagged (writes ++ writes') = tagged writes ++ tagged writes' := List.flatMap_append

theorem sift_map (n : Stream → Nat) (s : Stream) (data : Bytes) :
    sift n (data.map (s, ·)) = (data.take (n s)).map (s, ·) := by
  induction data generalizing n with
  | nil => simp [sift]
  | cons b data ih =>
      rw [List.map_cons, sift]
      by_cases hn : 0 < n s
      · obtain ⟨k, hk⟩ : ∃ k, n s = k + 1 := ⟨n s - 1, by omega⟩
        rw [if_pos hn, ih]
        simp [hk]
      · have hzero : n s = 0 := by omega
        rw [if_neg hn, ih, hzero]
        rfl

/-- A usable byte is of a write that comes when not all that is usable was written. -/
theorem exists_write {before : List Tagged} {s : Stream} {b : UInt8} {after : List Tagged}
    (h : sift n (tagged writes) = before ++ (s, b) :: after) :
    ∃ earlier stream data later, writes = earlier ++ (stream, data) :: later ∧ data ≠ [] ∧
      streamOf stream = s ∧ (written s earlier).length < n s ∧
      bytesOf s.other before = (written s.other earlier).take (n s.other) := by
  induction writes using List.reverseRecOn generalizing after with
  | nil => simp [tagged, sift] at h
  | append_singleton writes w ih =>
      obtain ⟨stream, data⟩ := w
      have hlast : tagged [(stream, data)] = data.map (streamOf stream, ·) := by simp [tagged]
      rw [tagged_append, sift_append, hlast, sift_map, bytesOf_tagged] at h
      -- The byte is of the last write.
      have hnew (rest : List Tagged) (hbefore : before = sift n (tagged writes) ++ rest)
          (hrest : (data.take (n (streamOf stream) - (written (streamOf stream) writes).length)).map
            (streamOf stream, ·) = rest ++ (s, b) :: after) :
          streamOf stream = s ∧ data ≠ [] ∧ (written s writes).length < n s ∧
            bytesOf s.other before = (written s.other writes).take (n s.other) := by
        have hall (b' : Tagged) (hb' : b' ∈ rest ++ (s, b) :: after) : b'.1 = streamOf stream := by
          rw [← hrest, List.mem_map] at hb'
          obtain ⟨c, -, rfl⟩ := hb'
          rfl
        have hs : streamOf stream = s := (hall (s, b) (by simp)).symm
        rw [hs] at hrest hall
        refine ⟨hs, ?_, ?_, ?_⟩
        · rintro rfl
          simp at hrest
        · by_contra hlen
          rw [Nat.sub_eq_zero_of_le (by omega)] at hrest
          simp at hrest
        · rw [hbefore, bytesOf_append, bytesOf_sift, bytesOf_tagged,
            bytesOf_none fun b' hb' => hall b' (by simp [hb']), List.append_nil]
      rcases List.append_eq_append_iff.mp h with ⟨rest, hbefore, hrest⟩ | ⟨rest, hsift, hrest⟩
      · obtain ⟨hs, hdata, hlen, hother⟩ := hnew rest hbefore hrest
        exact ⟨writes, stream, data, [], rfl, hdata, hs, hlen, hother⟩
      · cases rest with
        | nil =>
            rw [List.append_nil] at hsift
            obtain ⟨hs, hdata, hlen, hother⟩ := hnew [] (by rw [hsift, List.append_nil]) hrest.symm
            exact ⟨writes, stream, data, [], rfl, hdata, hs, hlen, hother⟩
        | cons c rest =>
            rw [List.cons_append] at hrest
            injection hrest with hc
            rw [← hc] at hsift
            obtain ⟨earlier, stream', data', later, hwrites, hrest⟩ := ih hsift
            exact ⟨earlier, stream', data', later ++ [(stream, data)], by rw [hwrites]; simp, hrest⟩

theorem separate_sift_iff :
    Separate (sift n (tagged writes)) ↔
      ∀ before stream data after, writes = before ++ (stream, data) :: after → data ≠ [] →
        (written (streamOf stream) before).length < n (streamOf stream) →
          Whole ((written (streamOf stream).other before).take (n (streamOf stream).other)) := by
  constructor
  · intro h before stream data after hwrites hdata hlen
    obtain ⟨b, data, rfl⟩ := List.exists_cons_of_ne_nil hdata
    have htagged : tagged ((stream, b :: data) :: after) =
        (streamOf stream, b) :: (data.map (streamOf stream, ·) ++ tagged after) := by
      simp [tagged]
    rw [hwrites, tagged_append, htagged, sift_append, sift,
      if_pos (by rw [bytesOf_tagged]; exact Nat.sub_pos_of_lt hlen)] at h
    have hother := h _ _ _ _ rfl
    rw [bytesOf_sift, bytesOf_tagged] at hother
    exact hother
  · intro h before s b after hsplit
    obtain ⟨earlier, stream, data, later, hwrites, hdata, rfl, hlen, hother⟩ := exists_write hsplit
    rw [hother]
    exact h earlier stream data later hwrites hdata hlen

end

section

variable (limit : Option Nat) (writes : List (Nat × Bytes))

theorem Output.usable_of (s : Stream) : (of limit writes).usable s = usableOf limit writes s := by
  have htrunc : (of limit writes).truncated s = decide (Exceeds limit (written s writes)) := by
    rw [Bool.eq_iff_iff, truncated_of, decide_eq_true_iff]
  rw [usable, usableOf, kept_of, htrunc]

theorem Output.combined_of :
    (of limit writes).combined = (sift (usableOf limit writes) (tagged writes)).map (·.2) := by
  have husable : (of limit writes).usable = usableOf limit writes := funext (usable_of limit writes)
  rw [combined_eq, taken_of, husable]

theorem Output.combinedOf_eq_text (s : Stream) :
    (of limit writes).combinedOf s =
      (cut limit (written s writes)).take (usableOf limit writes s) := by
  rw [combinedOf_of, usable_of, kept_of]

/-- Both streams are text: `output` is the combined bytes exactly when nothing is written inside a
character of the other stream. -/
theorem whole_combined_iff (h : ∀ s, IsText limit writes s) :
    Whole (Output.of limit writes).combined ↔ Apart limit writes := by
  have hwhole (s : Stream) : Whole (bytesOf s (sift (usableOf limit writes) (tagged writes))) := by
    have husable : (Output.of limit writes).usable = usableOf limit writes :=
      funext (Output.usable_of limit writes)
    rw [← husable, ← Output.taken_of, ← Output.combinedOf_eq, Output.combinedOf_eq_text]
    exact h s
  rw [Output.combined_of, whole_iff_separate _ hwhole, separate_sift_iff]
  rfl

/-- Nothing in the combined output is altered without saying so. -/
def Faithful : Prop :=
  ∀ fields, clientFields (Output.of limit writes).asWire = some fields →
    fields.outputReplaced = [] → Utf8.encode fields.output = (Output.of limit writes).combined

/-- A stream is named when it is no text. -/
theorem outputReplaced_eq_nil_iff {fields : ClientFields}
    (h : clientFields (Output.of limit writes).asWire = some fields) :
    fields.outputReplaced = [] ↔ ∀ s, IsText limit writes s := by
  obtain ⟨fields', hfields', hfield, hreplaced, -⟩ :=
    (Output.of limit writes).clientFields_asWire
  rw [hfields'] at h
  injection h with h
  subst h
  have hencoding (s : Stream) : (fields'.field s).encoding = "base64" ↔ ¬IsText limit writes s := by
    rw [hfield, encoding_fieldOf, IsText, ← Output.combinedOf_eq_text, Output.combinedOf_of]
    rfl
  simp only [hreplaced, List.map_eq_nil_iff, List.filter_eq_nil_iff, hencoding, decide_eq_true_iff,
    not_not]
  constructor
  · intro h s
    cases s <;> simp [h]
  · intro h s _
    exact h s

theorem faithful_iff :
    Faithful limit writes ↔ (∃ s, ¬IsText limit writes s) ∨ Apart limit writes := by
  obtain ⟨fields, hfields, -, -, houtput⟩ := (Output.of limit writes).clientFields_asWire
  have hreplaced := outputReplaced_eq_nil_iff limit writes hfields
  have hfaithful : Faithful limit writes ↔
      ((∀ s, IsText limit writes s) → Whole (Output.of limit writes).combined) := by
    unfold Faithful
    rw [hfields]
    simp only [Option.some.injEq, forall_eq']
    rw [hreplaced, houtput, Utf8.encode_decodeReplace_iff]
  rw [hfaithful]
  constructor
  · intro h
    by_cases htext : ∀ s, IsText limit writes s
    · exact .inr ((whole_combined_iff limit writes htext).mp (h htext))
    · exact .inl (not_forall.mp htext)
  · rintro (⟨s, hs⟩ | hapart) htext
    · exact absurd (htext s) hs
    · exact (whole_combined_iff limit writes htext).mpr hapart

end

/-- A character of stdout that a write to stderr comes inside of. -/
def torn : List (Nat × Bytes) := [(1, [0xE4]), (2, [0x78]), (1, [0xB8, 0xAD])]

theorem not_faithful : ¬Faithful (some 1024) torn := by
  intro h
  obtain ⟨fields, hfields, -, -, houtput⟩ := (Output.of (some 1024) torn).clientFields_asWire
  have htext (s : Stream) : IsText (some 1024) torn s := by
    rw [IsText, Utf8.whole_iff_decode]
    cases s with
    | stdout => exact ⟨['中'], by decide +kernel⟩
    | stderr => exact ⟨['x'], by decide +kernel⟩
  have hequal := h fields hfields ((outputReplaced_eq_nil_iff _ _ hfields).mpr htext)
  rw [houtput] at hequal
  exact absurd hequal (by decide +kernel)

end ExecOutput

end Zun
