import Mathlib.Data.List.Basic

/-!
# Regular expressions with captures

A backtracking matcher as a list of results, the one that is tried first at the head, and the language of an
expression as a relation between words and what is captured.  `mem_run_iff` says that the matcher finds the words
of the language that the input begins with, and all of them.

An iteration of a star has to take something, in the matcher and in the language alike.
-/

inductive Regex (α : Type) where
  | eps
  | chars (p : α → Bool)
  | seq (r s : Regex α)
  | alt (r s : Regex α)
  | star (r : Regex α)
  | capture (i : Nat) (r : Regex α)

namespace Regex

variable {α : Type}

/-- The numbers of groups, with what they have captured. -/
abbrev Captures (α : Type) := List (Nat × List α)

def opt (r : Regex α) : Regex α := alt r eps

def plus (r : Regex α) : Regex α := seq r (star r)

/-- At most so many in a row. -/
def upTo : Nat → Regex α → Regex α
  | 0, _ => eps
  | n + 1, r => opt (seq r (upTo n r))

def lit [DecidableEq α] (a : α) : Regex α := chars (· = a)

/-! ## The matcher -/

/-- What a matcher captures and leaves, followed by what the next one does. -/
def andThen (results : List (Captures α × List α)) (next : List α → List (Captures α × List α)) :
    List (Captures α × List α) :=
  results.flatMap fun (g, rest) => (next rest).map fun (h, rest') => (g ++ h, rest')

/-- At most so many iterations, as many as possible first. -/
def iterate (matcher : List α → List (Captures α × List α)) : Nat → List α → List (Captures α × List α)
  | 0, s => [([], s)]
  | n + 1, s =>
      andThen ((matcher s).filter fun (_, rest) => rest.length < s.length) (iterate matcher n) ++ [([], s)]

/-- What is captured and what is left of the input. -/
def run : Regex α → List α → List (Captures α × List α)
  | eps, s => [([], s)]
  | chars _, [] => []
  | chars p, a :: s => if p a then [([], s)] else []
  | seq r r', s => andThen (run r s) (run r')
  | alt r r', s => run r s ++ run r' s
  | star r, s => iterate (run r) s.length s
  | capture i r, s => (run r s).map fun (g, rest) => ((i, s.take (s.length - rest.length)) :: g, rest)

/-! ## The language -/

inductive Matches : Regex α → List α → Captures α → Prop where
  | eps : Matches eps [] []
  | chars {p : α → Bool} {a : α} : p a = true → Matches (chars p) [a] []
  | seq {r r' : Regex α} {w w' : List α} {g g' : Captures α} :
      Matches r w g → Matches r' w' g' → Matches (seq r r') (w ++ w') (g ++ g')
  | altLeft {r r' : Regex α} {w : List α} {g : Captures α} : Matches r w g → Matches (alt r r') w g
  | altRight {r r' : Regex α} {w : List α} {g : Captures α} : Matches r' w g → Matches (alt r r') w g
  | starNil {r : Regex α} : Matches (star r) [] []
  | starCons {r : Regex α} {w w' : List α} {g g' : Captures α} :
      Matches r w g → w ≠ [] → Matches (star r) w' g' → Matches (star r) (w ++ w') (g ++ g')
  | capture {i : Nat} {r : Regex α} {w : List α} {g : Captures α} :
      Matches r w g → Matches (capture i r) w ((i, w) :: g)

section

variable {r r' : Regex α} {w : List α} {g : Captures α} {p : α → Bool} {i n : Nat}

@[simp] theorem matches_eps_iff : Matches eps w g ↔ w = [] ∧ g = [] := by
  constructor
  · intro h
    cases h
    exact ⟨rfl, rfl⟩
  · rintro ⟨rfl, rfl⟩
    exact .eps

@[simp] theorem matches_chars_iff : Matches (chars p) w g ↔ ∃ a, p a = true ∧ w = [a] ∧ g = [] := by
  constructor
  · intro h
    cases h with
    | chars ha => exact ⟨_, ha, rfl, rfl⟩
  · rintro ⟨a, ha, rfl, rfl⟩
    exact .chars ha

theorem matches_seq_iff : Matches (seq r r') w g ↔
    ∃ w₁ w₂ g₁ g₂, Matches r w₁ g₁ ∧ Matches r' w₂ g₂ ∧ w = w₁ ++ w₂ ∧ g = g₁ ++ g₂ := by
  constructor
  · intro h
    cases h with
    | seq h h' => exact ⟨_, _, _, _, h, h', rfl, rfl⟩
  · rintro ⟨w₁, w₂, g₁, g₂, h, h', rfl, rfl⟩
    exact .seq h h'

@[simp] theorem matches_alt_iff : Matches (alt r r') w g ↔ Matches r w g ∨ Matches r' w g := by
  constructor
  · intro h
    cases h with
    | altLeft h => exact .inl h
    | altRight h => exact .inr h
  · rintro (h | h)
    · exact .altLeft h
    · exact .altRight h

theorem matches_capture_iff : Matches (capture i r) w g ↔ ∃ g', Matches r w g' ∧ g = (i, w) :: g' := by
  constructor
  · intro h
    cases h with
    | capture h => exact ⟨_, h, rfl⟩
  · rintro ⟨g', h, rfl⟩
    exact .capture h

@[simp] theorem matches_opt_iff : Matches (opt r) w g ↔ Matches r w g ∨ w = [] ∧ g = [] := by
  simp [opt]

@[simp] theorem matches_lit_iff [DecidableEq α] {a : α} : Matches (lit a) w g ↔ w = [a] ∧ g = [] := by
  simp [lit]

/-- The characters that an expression has. -/
def allows : Regex α → α → Bool
  | eps, _ => false
  | chars p, a => p a
  | seq r r', a => allows r a || allows r' a
  | alt r r', a => allows r a || allows r' a
  | star r, a => allows r a
  | capture _ r, a => allows r a

theorem Matches.allows (h : Matches r w g) : ∀ a ∈ w, r.allows a = true := by
  induction h with
  | eps => simp
  | chars ha => simpa [Regex.allows] using ha
  | seq _ _ ih ih' =>
      intro a ha
      rcases List.mem_append.mp ha with ha | ha
      · simp [Regex.allows, ih a ha]
      · simp [Regex.allows, ih' a ha]
  | altLeft _ ih =>
      intro a ha
      simp [Regex.allows, ih a ha]
  | altRight _ ih =>
      intro a ha
      simp [Regex.allows, ih a ha]
  | starNil => simp
  | starCons _ _ _ ih ih' =>
      intro a ha
      rcases List.mem_append.mp ha with ha | ha
      · exact ih a ha
      · exact ih' a ha
  | capture _ ih => exact ih

/-- A word does not have what its expression has not. -/
theorem Matches.notMem {a : α} (h : Matches r w g) (ha : r.allows a = false) : a ∉ w := by
  intro hmem
  rw [h.allows a hmem] at ha
  cases ha

/-- The groups of an expression. -/
def groups : Regex α → List Nat
  | eps => []
  | chars _ => []
  | seq r r' => groups r ++ groups r'
  | alt r r' => groups r ++ groups r'
  | star r => groups r
  | capture i r => i :: groups r

theorem Matches.mem_groups (h : Matches r w g) : ∀ c ∈ g, c.1 ∈ r.groups := by
  induction h with
  | eps => simp
  | chars _ => simp
  | seq _ _ ih ih' =>
      intro c hc
      rcases List.mem_append.mp hc with hc | hc
      · exact List.mem_append_left _ (ih c hc)
      · exact List.mem_append_right _ (ih' c hc)
  | altLeft _ ih => exact fun c hc => List.mem_append_left _ (ih c hc)
  | altRight _ ih => exact fun c hc => List.mem_append_right _ (ih c hc)
  | starNil => simp
  | starCons _ _ _ ih ih' =>
      intro c hc
      rcases List.mem_append.mp hc with hc | hc
      · exact ih c hc
      · exact ih' c hc
  | capture _ ih =>
      intro c hc
      rcases List.mem_cons.mp hc with rfl | hc
      · exact List.mem_cons_self ..
      · exact List.mem_cons_of_mem _ (ih c hc)

/-- An expression without groups captures nothing. -/
theorem Matches.eq_nil (h : Matches r w g) (hr : r.groups = []) : g = [] := by
  cases g with
  | nil => rfl
  | cons c g =>
      have hmem := h.mem_groups c (List.mem_cons_self ..)
      rw [hr] at hmem
      cases hmem

theorem matches_star_chars_iff : Matches (star (chars p)) w g ↔ (∀ a ∈ w, p a = true) ∧ g = [] := by
  constructor
  · exact fun h => ⟨h.allows, h.eq_nil rfl⟩
  · rintro ⟨h, rfl⟩
    induction w with
    | nil => exact .starNil
    | cons a w ih =>
        exact .starCons (.chars (h a (List.mem_cons_self ..))) (List.cons_ne_nil a [])
          (ih fun b hb => h b (List.mem_cons_of_mem _ hb))

theorem matches_plus_chars_iff :
    Matches (plus (chars p)) w g ↔ w ≠ [] ∧ (∀ a ∈ w, p a = true) ∧ g = [] := by
  constructor
  · intro h
    refine ⟨?_, fun a ha => by simpa [plus, Regex.allows] using h.allows a ha, h.eq_nil rfl⟩
    obtain ⟨w₁, w₂, g₁, g₂, h₁, -, rfl, -⟩ := matches_seq_iff.mp h
    obtain ⟨a, -, rfl, -⟩ := matches_chars_iff.mp h₁
    simp
  · rintro ⟨hne, h, rfl⟩
    cases w with
    | nil => exact absurd rfl hne
    | cons a w =>
        exact .seq (.chars (h a (List.mem_cons_self ..)))
          (matches_star_chars_iff.mpr ⟨fun b hb => h b (List.mem_cons_of_mem _ hb), rfl⟩)

theorem matches_upTo_chars_iff :
    Matches (upTo n (chars p)) w g ↔ w.length ≤ n ∧ (∀ a ∈ w, p a = true) ∧ g = [] := by
  induction n generalizing w g with
  | zero => cases w <;> simp [upTo]
  | succ n ih =>
      simp only [upTo, matches_opt_iff, matches_seq_iff, matches_chars_iff, ih]
      constructor
      · rintro (⟨w₁, w₂, g₁, g₂, ⟨a, ha, rfl, rfl⟩, ⟨hlength, hall, rfl⟩, rfl, rfl⟩ | ⟨rfl, rfl⟩)
        · refine ⟨by simpa using hlength, ?_, rfl⟩
          simpa using ⟨ha, hall⟩
        · simp
      · rintro ⟨hlength, hall, rfl⟩
        cases w with
        | nil => exact .inr ⟨rfl, rfl⟩
        | cons a w =>
            exact .inl ⟨[a], w, [], [], ⟨a, hall a (List.mem_cons_self ..), rfl, rfl⟩,
              ⟨by simpa using hlength, fun b hb => hall b (List.mem_cons_of_mem _ hb), rfl⟩, rfl, rfl⟩

/-! ## The matcher and the language -/

theorem mem_andThen_iff {results : List (Captures α × List α)} {next : List α → List (Captures α × List α)}
    {rest : List α} : (g, rest) ∈ andThen results next ↔
      ∃ g₁ rest₁ g₂, (g₁, rest₁) ∈ results ∧ (g₂, rest) ∈ next rest₁ ∧ g = g₁ ++ g₂ := by
  simp only [andThen, List.mem_flatMap, List.mem_map, Prod.exists, Prod.mk.injEq]
  constructor
  · rintro ⟨g₁, rest₁, hmem, g₂, rest₂, hnext, rfl, rfl⟩
    exact ⟨g₁, rest₁, g₂, hmem, hnext, rfl⟩
  · rintro ⟨g₁, rest₁, g₂, hmem, hnext, rfl⟩
    exact ⟨g₁, rest₁, hmem, g₂, rest, hnext, rfl, rfl⟩

theorem mem_iterate_iff {matcher : List α → List (Captures α × List α)}
    (h : ∀ {s g rest}, (g, rest) ∈ matcher s ↔ ∃ w, s = w ++ rest ∧ Matches r w g) :
    ∀ {n : Nat} {s : List α} {g : Captures α} {rest : List α}, s.length ≤ n →
      ((g, rest) ∈ iterate matcher n s ↔ ∃ w, s = w ++ rest ∧ Matches (star r) w g) := by
  intro n
  induction n with
  | zero =>
      intro s g rest hlength
      obtain rfl := List.length_eq_zero_iff.mp (Nat.le_zero.mp hlength)
      simp only [iterate, List.mem_singleton, Prod.mk.injEq]
      constructor
      · rintro ⟨rfl, rfl⟩
        exact ⟨[], rfl, .starNil⟩
      · rintro ⟨w, hw, hstar⟩
        obtain ⟨rfl, rfl⟩ := List.append_eq_nil_iff.mp hw.symm
        generalize hnil : ([] : List α) = w at hstar
        cases hstar with
        | starNil => exact ⟨rfl, rfl⟩
        | starCons _ hne _ => exact absurd (List.append_eq_nil_iff.mp hnil.symm).1 hne
  | succ n ih =>
      intro s g rest hlength
      simp only [iterate, List.mem_append, mem_andThen_iff, List.mem_filter, List.mem_singleton, Prod.mk.injEq,
        decide_eq_true_eq]
      constructor
      · rintro (⟨g₁, rest₁, g₂, ⟨hmem, hlt⟩, hnext, rfl⟩ | ⟨rfl, rfl⟩)
        · obtain ⟨w₁, rfl, hw₁⟩ := h.mp hmem
          obtain ⟨w₂, rfl, hw₂⟩ := (ih (by omega)).mp hnext
          refine ⟨w₁ ++ w₂, by rw [List.append_assoc], .starCons hw₁ ?_ hw₂⟩
          rintro rfl
          simp at hlt
        · exact ⟨[], rfl, .starNil⟩
      · rintro ⟨w, rfl, hstar⟩
        cases hstar with
        | starNil => exact .inr ⟨rfl, rfl⟩
        | @starCons _ w₁ w₂ g₁ g₂ hw₁ hne hw₂ =>
            have hpos := List.length_pos_iff.mpr hne
            simp only [List.length_append] at hlength
            refine .inl ⟨g₁, w₂ ++ rest, g₂, ⟨h.mpr ⟨w₁, by rw [List.append_assoc], hw₁⟩, ?_⟩,
              (ih ?_).mpr ⟨w₂, rfl, hw₂⟩, rfl⟩
            · simp only [List.length_append]
              omega
            · simp only [List.length_append]
              omega

/-- The matcher finds the words of the language that the input begins with. -/
theorem mem_run_iff (r : Regex α) : ∀ {s : List α} {g : Captures α} {rest : List α},
    (g, rest) ∈ run r s ↔ ∃ w, s = w ++ rest ∧ Matches r w g := by
  induction r with
  | eps =>
      intro s g rest
      simp only [run, List.mem_singleton, Prod.mk.injEq, matches_eps_iff]
      constructor
      · rintro ⟨rfl, rfl⟩
        exact ⟨[], rfl, rfl, rfl⟩
      · rintro ⟨w, rfl, rfl, rfl⟩
        exact ⟨rfl, rfl⟩
  | chars p =>
      intro s g rest
      cases s with
      | nil => simp [run]
      | cons a s =>
          simp only [run, matches_chars_iff]
          constructor
          · intro hmem
            split at hmem
            · next ha =>
              obtain ⟨rfl, rfl⟩ := Prod.mk.inj (List.mem_singleton.mp hmem)
              exact ⟨[a], rfl, a, ha, rfl, rfl⟩
            · cases hmem
          · rintro ⟨w, hs, b, hb, rfl, rfl⟩
            obtain ⟨rfl, rfl⟩ := List.cons.inj hs
            simp [hb]
  | seq r r' ih ih' =>
      intro s g rest
      simp only [run, mem_andThen_iff, ih, ih', matches_seq_iff]
      constructor
      · rintro ⟨g₁, rest₁, g₂, ⟨w₁, rfl, hw₁⟩, ⟨w₂, rfl, hw₂⟩, rfl⟩
        exact ⟨w₁ ++ w₂, by rw [List.append_assoc], w₁, w₂, g₁, g₂, hw₁, hw₂, rfl, rfl⟩
      · rintro ⟨w, rfl, w₁, w₂, g₁, g₂, hw₁, hw₂, rfl, rfl⟩
        exact ⟨g₁, w₂ ++ rest, g₂, ⟨w₁, by rw [List.append_assoc], hw₁⟩, ⟨w₂, rfl, hw₂⟩, rfl⟩
  | alt r r' ih ih' =>
      intro s g rest
      simp only [run, List.mem_append, ih, ih', matches_alt_iff]
      constructor
      · rintro (⟨w, hs, hw⟩ | ⟨w, hs, hw⟩)
        · exact ⟨w, hs, .inl hw⟩
        · exact ⟨w, hs, .inr hw⟩
      · rintro ⟨w, hs, hw | hw⟩
        · exact .inl ⟨w, hs, hw⟩
        · exact .inr ⟨w, hs, hw⟩
  | star r ih =>
      intro s g rest
      exact mem_iterate_iff ih (Nat.le_refl s.length)
  | capture i r ih =>
      intro s g rest
      simp only [run, List.mem_map, Prod.exists, Prod.mk.injEq, ih, matches_capture_iff]
      constructor
      · rintro ⟨g', rest', ⟨w, rfl, hw⟩, rfl, rfl⟩
        exact ⟨w, rfl, g', hw, by simp⟩
      · rintro ⟨w, rfl, g', hw, rfl⟩
        exact ⟨g', rest, ⟨w, rfl, hw⟩, by simp, rfl⟩

end

end Regex
