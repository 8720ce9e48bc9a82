import Mathlib.Data.List.Induction
import Mathlib.Data.List.Nodup
import Mathlib.Data.Set.Insert

/-!
# Sets with parents

Nodes have a key, and perhaps the key of another node as their parent.  A node is put into a set in the
place of the one of its key, which goes with everything under it.

When nodes are put in one after the other, each after its own parent if that is one of them, two things
may go wrong.  A parent that stays as it was may be lost on the way, and with it what was put under it; the
last part of the file says that this happens exactly where such a parent was under one of the nodes.
-/

namespace Zun

namespace Lineage

variable {α κ : Type} (key : α → κ) (parent : α → Option κ)

/-- The node is in the set, under the one of the key. -/
inductive Under (S : Set α) (k : κ) : α → Prop where
  | child {a : α} : a ∈ S → parent a = some k → Under S k a
  | deeper {a b : α} : a ∈ S → parent a = some (key b) → Under S k b → Under S k a

/-- No two nodes have one key, and every parent is there. -/
structure Sound (S : Set α) : Prop where
  unique : ∀ a ∈ S, ∀ b ∈ S, key a = key b → a = b
  closed : ∀ a ∈ S, ∀ k, parent a = some k → ∃ b ∈ S, key b = k

/-- The set, less the node of a key and what is under it. -/
def without (S : Set α) (k : κ) : Set α := {a | a ∈ S ∧ key a ≠ k ∧ ¬ Under key parent S k a}

/-- The node has its parent when it is put in. -/
def Fits (S : Set α) (a : α) : Prop :=
  ∀ k, parent a = some k → ∃ b ∈ without key parent S (key a), key b = k

/-- The set with the node in the place of what had its key. -/
def put (S : Set α) (a : α) : Set α := insert a (without key parent S (key a))

/-- The nodes are put in one after the other. -/
inductive Puts : Set α → List α → Set α → Prop where
  | nil (S : Set α) : Puts S [] S
  | snoc {S S' : Set α} {as : List α} {a : α} : Puts S as S' → Fits key parent S' a →
      Puts S (as ++ [a]) (put key parent S' a)

/-- The keys are different, and no node comes before its own parent, or is it. -/
structure Ripe (as : List α) : Prop where
  nodup : (as.map key).Nodup
  after : ∀ pre a post, as = pre ++ a :: post → ∀ b ∈ a :: post, parent a ≠ some (key b)

/-- Every parent is in the set or in the list. -/
def Known (S : Set α) (as : List α) : Prop :=
  ∀ a ∈ as, ∀ k, parent a = some k → k ∈ as.map key ∨ ∃ b ∈ S, key b = k

/-- A parent that is not in the list is under a node that is. -/
def Lost (S : Set α) (as : List α) : Prop :=
  ∃ a ∈ as, ∃ b ∈ S, parent a = some (key b) ∧ key b ∉ as.map key ∧ ∃ c ∈ as, Under key parent S (key c) b

/-- The set with the nodes of the list, less what was under them. -/
def merged (S : Set α) (as : List α) : Set α :=
  {a | a ∈ as ∨ a ∈ S ∧ key a ∉ as.map key ∧ ∀ c ∈ as, ¬ Under key parent S (key c) a}

/-- What is not in the list is all there. -/
def Kept (S : Set α) (as : List α) (S' : Set α) : Prop := ∀ a ∈ S, key a ∉ as.map key → a ∈ S'

variable {key : α → κ} {parent : α → Option κ} {S S' : Set α} {a b : α} {k : κ} {as pre post : List α}

/-! ## What is under what -/

theorem Under.mem (h : Under key parent S k a) : a ∈ S := by
  cases h with
  | child hmem => exact hmem
  | deeper hmem => exact hmem

theorem Under.trans (hb : Under key parent S k b) (ha : Under key parent S (key b) a) :
    Under key parent S k a := by
  induction ha with
  | child hmem hparent => exact .deeper hmem hparent hb
  | deeper hmem hparent _ ih => exact .deeper hmem hparent ih

/-- Nothing goes with a key that no node has. -/
theorem without_of_absent (h : Sound key parent S) (habsent : ∀ b ∈ S, key b ≠ k) :
    without key parent S k = S := by
  ext a
  refine ⟨fun ha => ha.1, fun ha => ⟨ha, habsent a ha, fun hunder => ?_⟩⟩
  induction hunder with
  | child hmem hparent =>
      obtain ⟨b, hb, heq⟩ := h.closed _ hmem _ hparent
      exact habsent b hb heq
  | deeper _ _ hb ih => exact ih hb.mem

theorem Sound.without (h : Sound key parent S) (k : κ) : Sound key parent (without key parent S k) where
  unique a ha b hb := h.unique a ha.1 b hb.1
  closed := by
    rintro a ⟨ha, -, hunder⟩ j hparent
    obtain ⟨b, hb, rfl⟩ := h.closed a ha j hparent
    refine ⟨b, ⟨hb, ?_, fun hb' => hunder (.deeper ha hparent hb')⟩, rfl⟩
    rintro rfl
    exact hunder (.child ha hparent)

theorem Sound.put (h : Sound key parent S) (hfits : Fits key parent S a) : Sound key parent (put key parent S a) where
  unique := by
    have hne : ∀ b ∈ Lineage.without key parent S (key a), key b ≠ key a := fun b hb => hb.2.1
    rintro b (rfl | hb) c (rfl | hc) heq
    · rfl
    · exact absurd heq.symm (hne c hc)
    · exact absurd heq (hne b hb)
    · exact h.unique b hb.1 c hc.1 heq
  closed := by
    rintro b (rfl | hb) j hparent
    · obtain ⟨c, hc, heq⟩ := hfits j hparent
      exact ⟨c, .inr hc, heq⟩
    · obtain ⟨c, hc, heq⟩ := (h.without (key a)).closed b hb j hparent
      exact ⟨c, .inr hc, heq⟩

theorem Puts.sound (h : Puts key parent S as S') (hS : Sound key parent S) : Sound key parent S' := by
  induction h with
  | nil => exact hS
  | snoc _ hfits ih => exact ih.put hfits

/-- Nothing comes in but the nodes of the list. -/
theorem Puts.mem (h : Puts key parent S as S') (ha : a ∈ S') (hkey : key a ∉ as.map key) : a ∈ S := by
  induction h with
  | nil => exact ha
  | snoc _ _ ih =>
      simp only [List.map_append, List.mem_append, not_or] at hkey
      obtain rfl | ha := ha
      · simp at hkey
      · exact ih ha.1 hkey.1

theorem Puts.snoc_inv (h : Puts key parent S (as ++ [a]) S') : ∃ T, Puts key parent S as T ∧
    Fits key parent T a ∧ S' = put key parent T a := by
  generalize hlist : as ++ [a] = l at h
  cases h with
  | nil => simp at hlist
  | @snoc T as' a' hputs hfits =>
      obtain ⟨rfl, hlast⟩ := List.append_inj' hlist rfl
      cases hlast
      exact ⟨T, hputs, hfits, rfl⟩

theorem Puts.eq {T : Set α} (h : Puts key parent S as S') (h' : Puts key parent S as T) : S' = T := by
  induction h generalizing T with
  | nil =>
      generalize hlist : ([] : List α) = l at h'
      cases h' with
      | nil => rfl
      | snoc => simp at hlist
  | snoc _ _ ih =>
      obtain ⟨T', hT', -, rfl⟩ := h'.snoc_inv
      rw [ih hT']

/-! ## What is gone -/

/-- A node under one that is put in is gone, and stays so. -/
theorem Puts.not_mem_of_child (h : Puts key parent S as S') (hk : k ∈ as.map key) (hparent : parent a = some k)
    (hkey : key a ∉ as.map key) : a ∉ S' := by
  induction h with
  | nil => simp at hk
  | @snoc S' as b _ _ ih =>
      simp only [List.map_append, List.map_cons, List.map_nil, List.mem_append, List.mem_singleton,
        not_or] at hk hkey
      rintro (rfl | ha)
      · exact hkey.2 rfl
      · obtain hk | rfl := hk
        · exact ih hk hkey.1 ha.1
        · exact ha.2.2 (.child ha.1 hparent)

theorem Puts.not_mem_of_under (h : Puts key parent S as S') (hS : Sound key parent S)
    (hk : k ∈ as.map key) (hunder : Under key parent S k a) (hkey : key a ∉ as.map key) : a ∉ S' := by
  induction hunder with
  | child _ hparent => exact h.not_mem_of_child hk hparent hkey
  | @deeper a b _ hparent hb ih =>
      by_cases hb' : key b ∈ as.map key
      · exact h.not_mem_of_child hb' hparent hkey
      · intro ha
        obtain ⟨c, hc, heq⟩ := (h.sound hS).closed a ha _ hparent
        have hmem := h.mem hc (by rwa [heq])
        rw [hS.unique c hmem b hb.mem heq] at hc
        exact ih hb' hc

/-! ## What fits -/

theorem Ripe.snoc (h : Ripe key parent as) (hkey : key a ∉ as.map key) (hself : parent a ≠ some (key a))
    (hothers : ∀ b ∈ as, parent b ≠ some (key a)) : Ripe key parent (as ++ [a]) where
  nodup := by
    rw [List.map_append, List.map_singleton, List.nodup_append]
    refine ⟨h.nodup, List.nodup_singleton _, fun x hx y hy heq => ?_⟩
    rw [heq, List.mem_singleton.mp hy] at hx
    exact hkey hx
  after := by
    intro pre b post hsplit c hc
    have hcases : pre = as ∧ b = a ∧ post = [] ∨ ∃ post', post = post' ++ [a] ∧ as = pre ++ b :: post' := by
      obtain ⟨l, rfl, hl⟩ | ⟨l, rfl, hl⟩ := List.append_eq_append_iff.mp hsplit
      · cases l with
        | nil =>
            cases hl
            exact .inl ⟨by simp, rfl, rfl⟩
        | cons x l => simp at hl
      · cases l with
        | nil =>
            cases hl
            exact .inl ⟨by simp, rfl, rfl⟩
        | cons x l =>
            cases hl
            exact .inr ⟨l, rfl, rfl⟩
    obtain ⟨-, rfl, rfl⟩ | ⟨post', rfl, rfl⟩ := hcases
    · rw [List.mem_singleton.mp hc]
      exact hself
    · rw [← List.cons_append] at hc
      obtain hc | hc := List.mem_append.mp hc
      · exact h.after pre b post' rfl c hc
      · rw [List.mem_singleton.mp hc]
        exact hothers b (by simp)

/-- The parent of a node of the list that is in the list comes before the next node. -/
theorem Ripe.parent_mem (h : Ripe key parent (pre ++ a :: post)) (hb : b ∈ pre) (hparent : parent b = some k)
    (hk : k ∈ (pre ++ a :: post).map key) : k ∈ pre.map key := by
  obtain ⟨l, r, rfl⟩ := List.append_of_mem hb
  obtain ⟨c, hc, rfl⟩ := List.mem_map.mp hk
  have hne := h.after l b (r ++ a :: post) (by simp)
  rw [List.append_assoc, List.mem_append] at hc
  obtain hc | hc := hc
  · exact List.mem_map_of_mem (List.mem_append_left _ hc)
  · exact absurd hparent (hne c hc)

theorem Ripe.key_ne (h : Ripe key parent (pre ++ a :: post)) (hb : b ∈ pre) : key b ≠ key a := by
  have hnodup := h.nodup
  rw [List.map_append, List.nodup_append] at hnodup
  exact hnodup.2.2 _ (List.mem_map_of_mem hb) _ (by simp)

/-- Nothing that was put in is under the next node, if the parents that stay are not. -/
theorem Ripe.not_under (h : Ripe key parent (pre ++ a :: post)) (hS : Sound key parent S)
    (hpre : ∀ b ∈ pre, b ∈ S)
    (hstay : ∀ b ∈ pre, ∀ c ∈ S, parent b = some (key c) → key c ∉ (pre ++ a :: post).map key →
      ¬ Under key parent S (key a) c)
    (hb : b ∈ pre) : ¬ Under key parent S (key a) b := by
  intro hunder
  induction hunder with
  | child _ hparent =>
      obtain ⟨c, hc, heq⟩ := List.mem_map.mp (h.parent_mem hb hparent (by simp))
      exact h.key_ne hc heq
  | @deeper b c _ hparent hc ih =>
      by_cases hin : key c ∈ (pre ++ a :: post).map key
      · obtain ⟨d, hd, heq⟩ := List.mem_map.mp (h.parent_mem hb hparent hin)
        rw [hS.unique d (hpre d hd) c hc.mem heq] at hd
        exact ih hd
      · exact hstay b hb c hc.mem hparent hin hc

theorem Puts.mem_of_rest {done : List α} (h : Puts key parent S done S') (ha : a ∈ S')
    (hkey : key a ∉ (done ++ post).map key) : a ∈ S :=
  h.mem ha fun hmem => hkey (by
    rw [List.map_append]
    exact List.mem_append_left _ hmem)

/-- Where nothing that stays is lost, every node that was put in is there. -/
theorem Puts.subset_of_kept {done : List α} (h : Puts key parent S done S') (hS : Sound key parent S)
    (hripe : Ripe key parent (done ++ post)) (hkept : Kept key S (done ++ post) S') : ∀ b ∈ done, b ∈ S' := by
  induction h generalizing post with
  | nil => exact fun _ => nofun
  | @snoc S' done a hputs _ ih =>
      rw [List.append_assoc, List.singleton_append] at hripe hkept
      -- nothing that stays was lost before
      have hbefore : Kept key S (done ++ a :: post) S' := by
        intro b hb hkey
        obtain rfl | hmem := hkept b hb hkey
        · simp at hkey
        · exact hmem.1
      have hdone := ih hripe hbefore
      intro b hb
      obtain hb | hb := List.mem_append.mp hb
      · refine .inr ⟨hdone b hb, hripe.key_ne hb, ?_⟩
        refine hripe.not_under (hputs.sound hS) hdone ?_ hb
        intro _ _ c hc _ hkey
        obtain rfl | hmem := hkept c (hputs.mem_of_rest hc hkey) hkey
        · simp at hkey
        · exact hmem.2.2
      · exact .inl (List.mem_singleton.mp hb)

/-- And the next node has its parent. -/
theorem Puts.fits_of_kept {done : List α} (h : Puts key parent S done S') (hS : Sound key parent S)
    (hripe : Ripe key parent (done ++ a :: post)) (hknown : Known key parent S (done ++ a :: post))
    (hkept : Kept key S (done ++ a :: post) (without key parent S' (key a))) : Fits key parent S' a := by
  have hbefore : Kept key S (done ++ a :: post) S' := fun b hb hkey => (hkept b hb hkey).1
  have hdone := h.subset_of_kept hS hripe hbefore
  intro k hparent
  by_cases hk : k ∈ (done ++ a :: post).map key
  · rw [List.map_append, List.mem_append] at hk
    obtain hk | hk := hk
    · obtain ⟨b, hb, rfl⟩ := List.mem_map.mp hk
      refine ⟨b, ⟨hdone b hb, hripe.key_ne hb, ?_⟩, rfl⟩
      refine hripe.not_under (h.sound hS) hdone ?_ hb
      exact fun _ _ c hc _ hkey => (hkept c (h.mem_of_rest hc hkey) hkey).2.2
    · obtain ⟨c, hc, rfl⟩ := List.mem_map.mp hk
      exact absurd hparent (hripe.after done a post rfl c hc)
  · obtain hin | ⟨b, hb, rfl⟩ := hknown a (by simp) k hparent
    · exact absurd hin hk
    · exact ⟨b, hkept b hb hk, rfl⟩

/-! ## What is merged -/

/-- What is not in the list, nor under a node of it, is not under the next node. -/
theorem not_under_of_untouched {done : List α} (h : Puts key parent S done S') (ha : a ∈ as)
    (hlist : as = done ++ post) (hb : b ∈ S) (hkey : key b ∉ as.map key)
    (hfree : ∀ c ∈ as, ¬ Under key parent S (key c) b) : ¬ Under key parent S' (key a) b := by
  subst hlist
  intro hunder
  induction hunder with
  | child _ hparent => exact hfree a ha (.child hb hparent)
  | @deeper b c _ hparent hc ih =>
      by_cases hin : key c ∈ (done ++ post).map key
      · obtain ⟨d, hd, heq⟩ := List.mem_map.mp hin
        exact hfree d hd (.child hb (heq ▸ hparent))
      · have hcS : c ∈ S := h.mem_of_rest hc.mem hin
        exact ih hcS hin fun d hd hunder => hfree d hd (.deeper hb hparent hunder)

/-- Where no parent is lost, the nodes all go in. -/
theorem exists_puts (hS : Sound key parent S) (hripe : Ripe key parent as) (hknown : Known key parent S as)
    (hlost : ¬ Lost key parent S as) : ∀ done post, as = done ++ post → ∃ S', Puts key parent S done S' ∧
      (∀ b ∈ done, b ∈ S') ∧
      ∀ b ∈ S, key b ∉ as.map key → (∀ c ∈ as, ¬ Under key parent S (key c) b) → b ∈ S' := by
  intro done
  induction done using List.reverseRecOn with
  | nil => exact fun _ _ => ⟨S, .nil S, nofun, fun _ hb _ _ => hb⟩
  | append_singleton done a ih =>
      intro post hlist
      rw [List.append_assoc, List.singleton_append] at hlist
      obtain ⟨S', hputs, hdone, hstay⟩ := ih (a :: post) hlist
      have ha : a ∈ as := by simp [hlist]
      have hfree : ∀ b ∈ S, key b ∉ as.map key → (∀ c ∈ as, ¬ Under key parent S (key c) b) →
          ¬ Under key parent S' (key a) b := fun b hb hkey hfree =>
        not_under_of_untouched hputs ha hlist hb hkey hfree
      -- the parents that stay are not under a node of the list
      have hparents : ∀ b ∈ as, ∀ c ∈ S, parent b = some (key c) → key c ∉ as.map key →
          ∀ d ∈ as, ¬ Under key parent S (key d) c := by
        intro b hb c hc hparent hkey d hd hunder
        exact hlost ⟨b, hb, c, hc, hparent, hkey, d, hd, hunder⟩
      have hdone' : ∀ b ∈ done, b ∈ without key parent S' (key a) := by
        intro b hb
        refine ⟨hdone b hb, (hlist ▸ hripe).key_ne hb, ?_⟩
        refine (hlist ▸ hripe).not_under (hputs.sound hS) hdone ?_ hb
        rw [← hlist]
        intro d hd c hc hparent hkey
        have hcS : c ∈ S := hputs.mem_of_rest hc (hlist ▸ hkey)
        exact hfree c hcS hkey (hparents d (by simp [hlist, hd]) c hcS hparent hkey)
      have hstay' : ∀ b ∈ S, key b ∉ as.map key → (∀ c ∈ as, ¬ Under key parent S (key c) b) →
          b ∈ without key parent S' (key a) := by
        intro b hb hkey hb'
        refine ⟨hstay b hb hkey hb', ?_, hfree b hb hkey hb'⟩
        exact fun heq => hkey (heq ▸ List.mem_map_of_mem ha)
      refine ⟨_, .snoc hputs ?_, ?_, fun b hb hkey hb' => .inr (hstay' b hb hkey hb')⟩
      · intro k hparent
        by_cases hk : k ∈ as.map key
        · have hk' : k ∈ done.map key := by
            rw [hlist, List.map_append, List.mem_append] at hk
            obtain hk | hk := hk
            · exact hk
            · obtain ⟨c, hc, rfl⟩ := List.mem_map.mp hk
              exact absurd hparent ((hlist ▸ hripe).after done a post rfl c hc)
          obtain ⟨b, hb, rfl⟩ := List.mem_map.mp hk'
          exact ⟨b, hdone' b hb, rfl⟩
        · obtain hin | ⟨b, hb, rfl⟩ := hknown a ha k hparent
          · exact absurd hin hk
          · exact ⟨b, hstay' b hb hk (hparents a ha b hb hparent hk), rfl⟩
      · intro b hb
        obtain hb | hb := List.mem_append.mp hb
        · exact .inr (hdone' b hb)
        · exact .inl (List.mem_singleton.mp hb)

/-- Where no parent is lost, the nodes are merged into the set. -/
theorem puts_merged (hS : Sound key parent S) (hripe : Ripe key parent as) (hknown : Known key parent S as)
    (hlost : ¬ Lost key parent S as) : Puts key parent S as (merged key parent S as) := by
  obtain ⟨S', hputs, hall, hstay⟩ := exists_puts hS hripe hknown hlost as [] (by simp)
  have heq : S' = merged key parent S as := by
    ext a
    constructor
    · intro ha
      by_cases hkey : key a ∈ as.map key
      · obtain ⟨b, hb, heq⟩ := List.mem_map.mp hkey
        exact .inl ((hputs.sound hS).unique b (hall b hb) a ha heq ▸ hb)
      · refine .inr ⟨hputs.mem ha hkey, hkey, fun c hc hunder => ?_⟩
        exact hputs.not_mem_of_under hS (List.mem_map_of_mem hc) hunder hkey ha
    · rintro (ha | ⟨ha, hkey, hfree⟩)
      · exact hall a ha
      · exact hstay a ha hkey hfree
  rwa [← heq]

end Lineage

end Zun
