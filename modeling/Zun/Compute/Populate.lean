import Zun.Compute.ProviderTree
import Zun.Data.Lineage

/-!
# Filling a provider tree

`populate_from_iterable` checks once that every parent is there, and then puts the providers in one by one,
each in the place of what had its uuid.  A parent that the check found in the tree may be under a provider
that is replaced; and a cycle among the providers is only noticed when nothing else is left to be put in.
-/

namespace Zun

namespace ProviderTree

open Effect Effect.Prog Lineage

variable {δ : Type}

/-! ## The providers of a tree -/

namespace Forest

/-- The providers of a tree, whose parents are in their parent uuids. -/
def nodes (F : Forest δ) : Set (Provider δ) := {p | p ∈ F.members}

variable {F G : Forest δ} {p q : Provider δ} {parent : Option String} {found : Provider δ × Forest δ}

theorem mem_members_of_mem_providers (h : found ∈ F.providers) : found.1 ∈ F.members :=
  List.mem_map_of_mem h

theorem providers_subset (h : found ∈ F.providers) : ∀ x ∈ found.2.providers, x ∈ F.providers := by
  induction F with
  | nil => cases h
  | cons p children rest ihc ihr =>
      simp only [providers, List.mem_cons, List.mem_append] at h ⊢
      obtain rfl | h | h := h
      · exact fun x hx => .inr (.inl hx)
      · exact fun x hx => .inr (.inl (ihc h x hx))
      · exact fun x hx => .inr (.inr (ihr h x hx))

theorem Held.below (h : F.Held parent) (hfound : found ∈ F.providers) : found.2.Held (some found.1.uuid) := by
  induction F generalizing parent with
  | nil => cases hfound
  | cons p children rest ihc ihr =>
      obtain ⟨-, hc, hr⟩ := h
      simp only [providers, List.mem_cons, List.mem_append] at hfound
      obtain rfl | hfound | hfound := hfound
      · exact hc
      · exact ihc hc hfound
      · exact ihr hr hfound

/-- What a provider holds is under it. -/
theorem Held.under {u : String} (h : G.Held (some u)) (hsub : ∀ q ∈ G.members, q ∈ F.nodes) :
    ∀ q ∈ G.members, Under Provider.uuid Provider.parentUuid F.nodes u q := by
  induction G generalizing u with
  | nil => exact fun _ => nofun
  | cons p children rest ihc ihr =>
      obtain ⟨hp, hc, hr⟩ := h
      rw [members_cons, List.forall_mem_cons, List.forall_mem_append] at hsub
      rw [members_cons, List.forall_mem_cons, List.forall_mem_append]
      have hunder : Under Provider.uuid Provider.parentUuid F.nodes u p := .child hsub.1 hp
      exact ⟨hunder, fun q hq => hunder.trans (ihc hc hsub.2.1 q hq), ihr hr hsub.2.2⟩

end Forest

section

variable {F F' : Forest δ} {p : Provider δ} {found : Provider δ × Forest δ} {search : String}

theorem Orderly.members_nodup (h : Orderly F) : F.members.Nodup := by
  have hnodup := h.nodup
  rw [Forest.uuids_eq_members] at hnodup
  exact hnodup.of_map

theorem Orderly.sound (h : Orderly F) : Sound Provider.uuid Provider.parentUuid F.nodes where
  unique := by
    have hnodup := h.nodup
    rw [Forest.uuids_eq_members] at hnodup
    exact fun a ha b hb heq => List.inj_on_of_nodup_map hnodup ha hb heq
  closed := by
    intro a ha k hparent
    obtain ⟨found, hfound, rfl⟩ := List.mem_map.mp ha
    obtain hnone | ⟨q, hq, heq, -⟩ := h.held.holder hfound
    · rw [hnone] at hparent
      cases hparent
    · rw [heq] at hparent
      cases hparent
      exact ⟨q.1, Forest.mem_members_of_mem_providers hq, rfl⟩

/-- What a provider holds is what is under it. -/
theorem Orderly.mem_below_iff (h : Orderly F) (hfound : found ∈ F.providers) (q : Provider δ) :
    q ∈ found.2.members ↔ Under Provider.uuid Provider.parentUuid F.nodes found.1.uuid q := by
  constructor
  · intro hq
    refine (h.held.below hfound).under ?_ q hq
    intro x hx
    obtain ⟨y, hy, rfl⟩ := List.mem_map.mp hx
    exact Forest.mem_members_of_mem_providers (Forest.providers_subset hfound y hy)
  · -- the holder of a provider has it in its children
    have hheld : ∀ x ∈ F.nodes, ∀ holder ∈ F.providers, x.parentUuid = some holder.1.uuid →
        x ∈ holder.2.members := by
      intro x hx holder hholder hparent
      obtain ⟨y, hy, rfl⟩ := List.mem_map.mp hx
      obtain hnone | ⟨z, hz, heq, hchild⟩ := h.held.holder hy
      · rw [hnone] at hparent
        cases hparent
      · have hsame : z = holder := h.unique hz hholder (Option.some.inj (heq.symm.trans hparent))
        subst hsame
        obtain ⟨w, hw⟩ := Option.isSome_iff_exists.mp hchild
        obtain ⟨hmem, huuid⟩ := Forest.mem_of_child hw
        have heqw : w = y := h.unique (Forest.providers_subset hz w hmem) hy huuid
        exact heqw ▸ Forest.mem_members_of_mem_providers hmem
    intro hunder
    induction hunder with
    | child hmem hparent => exact hheld _ hmem found hfound hparent
    | deeper hmem hparent _ ih =>
        obtain ⟨y, hy, rfl⟩ := List.mem_map.mp ih
        have hbelow := hheld _ hmem y (Forest.providers_subset hfound y hy) hparent
        obtain ⟨w, hw, rfl⟩ := List.mem_map.mp hbelow
        exact Forest.mem_members_of_mem_providers (Forest.providers_subset hy w hw)

/-- A provider that is cut out goes with what is under it. -/
theorem Orderly.nodes_of_cut (h : Orderly F) (hfound : found ∈ F.providers) {l₁ l₂ : List (Provider δ)}
    (hF : F.members = l₁ ++ found.1 :: found.2.members ++ l₂) (hF' : F'.members = l₁ ++ l₂) :
    F'.nodes = without Provider.uuid Provider.parentUuid F.nodes found.1.uuid := by
  have hnodup := h.members_nodup
  rw [hF] at hnodup
  have hout : ∀ q, q ∈ l₁ ++ l₂ ↔ q ∈ F.members ∧ q ≠ found.1 ∧ q ∉ found.2.members := by
    intro q
    rw [hF]
    simp only [List.nodup_append, List.nodup_cons, List.mem_append, List.mem_cons, or_imp, forall_and] at hnodup ⊢
    grind
  have hkey : ∀ q ∈ F.members, q ≠ found.1 ↔ q.uuid ≠ found.1.uuid := by
    intro q hq
    refine not_congr ⟨fun heq => heq ▸ rfl, fun heq => ?_⟩
    exact h.sound.unique q hq found.1 (Forest.mem_members_of_mem_providers hfound) heq
  ext q
  show q ∈ F'.members ↔ _
  rw [hF', hout]
  constructor
  · rintro ⟨hq, hne, hbelow⟩
    exact ⟨hq, (hkey q hq).mp hne, fun hunder => hbelow ((h.mem_below_iff hfound q).mpr hunder)⟩
  · rintro ⟨hq, hne, hunder⟩
    exact ⟨hq, (hkey q hq).mpr hne, fun hbelow => hunder ((h.mem_below_iff hfound q).mp hbelow)⟩

/-! ## One provider -/

/-- What a removal leaves of the providers. -/
theorem wp_removeWithLock_nodes (h : Orderly F) (hname : ∀ l ∈ F.labels, l.2 = search → l.1 = search) :
    wp (removeWithLock search)
      (fun _ F' => F'.nodes = without Provider.uuid Provider.parentUuid F.nodes search) F := by
  simp only [removeWithLock, wp_bind]
  apply wp_findWithLock
  · intro found hfind
    obtain ⟨hmem, rfl⟩ := uuid_of_find hname hfind
    simp only [seqPost_ok]
    cases hparent : found.1.parentUuid with
    | none =>
      have hroot := h.held.findsRoot hfind hparent
      simp only [removeFromRoots, wp_bind, wp_read, seqPost_ok, id, hroot, if_true]
      obtain ⟨l₁, l₂, hF, hF'⟩ := Forest.removeRoot_members hroot hfind
      exact h.nodes_of_cut hmem hF hF'
    | some parentUuid =>
      obtain ⟨q, hq, rfl, hchild⟩ : ∃ q ∈ F.providers, parentUuid = q.1.uuid ∧
          (q.2.child found.1.uuid).isSome := by
        obtain hnone | ⟨q, hq, heq, hchild⟩ := h.held.holder hmem
        · rw [hparent] at hnone
          cases hnone
        · rw [hparent] at heq
          exact ⟨q, hq, Option.some.inj heq, hchild⟩
      have hne : q.1.uuid ≠ "" := fun hempty => h.named (hempty ▸ Forest.mem_uuids hq)
      simp only [hne, if_false, wp_bind]
      apply wp_findWithLock
      · intro other hother
        rw [h.find_uuid hq] at hother
        cases hother
        obtain ⟨l₁, l₂, hF, hF'⟩ :=
          Forest.onFound_members (f := (·.removeChild found.1.uuid)) (h.find_uuid hq)
        obtain ⟨c, hc⟩ := Option.isSome_iff_exists.mp hchild
        obtain ⟨hcmem, hcuuid⟩ := Forest.mem_of_child hc
        -- the child of the uuid is the provider that was found
        obtain rfl : c = found := h.unique (Forest.providers_subset hq c hcmem) hmem hcuuid
        obtain ⟨m₁, m₂, hbelow, hleft⟩ := Forest.removeChild_members hc
        have hbefore : F.members = l₁ ++ m₁ ++ c.1 :: c.2.members ++ (m₂ ++ l₂) := by simp [hF, hbelow]
        have hafter : (F.onFound q.1.uuid (·.removeChild c.1.uuid)).members = l₁ ++ m₁ ++ (m₂ ++ l₂) := by
          rw [hF', hleft]
          simp
        exact h.nodes_of_cut hmem hbefore hafter
      · intro hnone
        rw [h.find_uuid hq] at hnone
        cases hnone
  · intro hnone
    have habsent : ∀ q ∈ F.nodes, q.uuid ≠ search := by
      intro q hq heq
      obtain ⟨found, hfound, rfl⟩ := List.mem_map.mp hq
      exact Forest.not_answers_of_find hnone found hfound (.inr heq)
    exact (without_of_absent h.sound habsent).symm

/-- A provider is put in, or its parent is not there once what had its uuid is gone. -/
theorem wp_inject_nodes {L : List (String × String)} {pd : ProviderDict δ} (h : Grown L F)
    (hL : Apart L) (hpd : (pd.uuid, pd.name) ∈ L)
    (hparent : ∀ parent ∈ pd.parentProviderUuid, parent ∈ L.map Prod.fst) :
    wp (inject pd) (fun r F' =>
      (r = .ok () ∧ Fits Provider.uuid Provider.parentUuid F.nodes pd.toProvider ∧
        F'.nodes = put Provider.uuid Provider.parentUuid F.nodes pd.toProvider) ∨
      ((∃ e, r = .raise e) ∧ ¬ Fits Provider.uuid Provider.parentUuid F.nodes pd.toProvider ∧
        F'.nodes = without Provider.uuid Provider.parentUuid F.nodes pd.uuid)) F := by
  have hname : ∀ l ∈ F.labels, l.2 = pd.uuid → l.1 = pd.uuid :=
    fun l hl heq => hL l (h.2 l hl) _ hpd heq
  rw [inject]
  apply wp_swallow_then
  refine wp_mono (wp_and (wp_removeWithLock h.1) (wp_removeWithLock_nodes h.1 hname)) ?_
  rintro r F₁ ⟨hr, hnodes⟩
  have hlabels : ∀ l ∈ F₁.labels, l ∈ L := fun l hl => h.2 l (hr.sublist.subset hl)
  have hu : pd.toProvider.uuid ∉ F₁.uuids := hr.not_mem h.1 hname
  have hinsert : ∀ F' : Forest δ, (∀ q, q ∈ F'.members ↔ q = pd.toProvider ∨ q ∈ F₁.members) →
      F'.nodes = put Provider.uuid Provider.parentUuid F.nodes pd.toProvider := by
    intro F' hF'
    ext q
    show q ∈ F'.members ↔ _
    rw [hF', put, Set.mem_insert_iff]
    have hmem : F₁.nodes = without Provider.uuid Provider.parentUuid F.nodes pd.toProvider.uuid := hnodes
    rw [← hmem]
    rfl
  refine ⟨hr.ne_halt, ?_⟩
  cases heq : pd.parentProviderUuid with
  | none =>
    refine .inl ⟨rfl, fun k hk => ?_, hinsert _ fun q => ?_⟩
    · rw [show pd.toProvider.parentUuid = none from heq] at hk
      cases hk
    · show q ∈ (F₁.append pd.toProvider).members ↔ _
      rw [Forest.append_members]
      simp [or_comm]
  | some parent =>
    have hkey : pd.toProvider.parentUuid = some parent := heq
    simp only [wp_bind]
    apply wp_findWithLock
    · intro found hfind
      obtain ⟨a, ha, rfl⟩ := List.mem_map.mp (hparent parent (Option.mem_def.mpr heq))
      obtain ⟨hfound, huuid⟩ := uuid_of_find (fun l hl hl' => hL l (hlabels l hl) a ha hl') hfind
      have hbelow : pd.toProvider.uuid ∉ found.2.uuids := by
        intro hmem
        obtain ⟨x, hx, hx'⟩ := List.mem_map.mp hmem
        exact hu (hx' ▸ Forest.mem_uuids (Forest.providers_subset hfound x hx))
      obtain ⟨l₁, l₂, hF, hF'⟩ := Forest.onFound_members (f := (·.addChild pd.toProvider)) hfind
      refine .inl ⟨rfl, fun k hk => ?_, hinsert _ fun q => ?_⟩
      · rw [hkey, Option.some.injEq] at hk
        have hmem : found.1 ∈ F₁.nodes := Forest.mem_members_of_mem_providers hfound
        rw [hnodes] at hmem
        exact ⟨found.1, hmem, huuid.trans hk⟩
      · show q ∈ (F₁.onFound a.1 (·.addChild pd.toProvider)).members ↔ _
        rw [hF', Forest.addChild_members hbelow, hF]
        simp only [List.mem_append, List.mem_singleton]
        tauto
    · intro hnone
      refine .inr ⟨⟨_, rfl⟩, fun hfits => ?_, hnodes⟩
      obtain ⟨b, hb, hbuuid⟩ := hfits parent hkey
      have hmem : b ∈ F₁.nodes := by
        rw [hnodes]
        exact hb
      obtain ⟨x, hx, rfl⟩ := List.mem_map.mp hmem
      exact Forest.not_answers_of_find hnone x hx (.inr hbuuid)

end

/-! ## All of them -/

/-- The providers of the dicts. -/
def given (dicts : List (ProviderDict δ)) : List (Provider δ) := (byUuid dicts).map (·.toProvider)

/-- Some of the providers are put in, each after its parent, and the others are still to be added. -/
structure Chosen (all done : List (Provider δ)) (rest : List (ProviderDict δ)) : Prop where
  perm : (done ++ rest.map (·.toProvider)).Perm all
  ripe : Ripe Provider.uuid Provider.parentUuid done
  settled : ∀ a ∈ done, ∀ k, a.parentUuid = some k → k ∈ all.map (·.uuid) → k ∈ done.map (·.uuid)

/-- How the loop ends. -/
inductive Outcome (S : Set (Provider δ)) (all : List (Provider δ)) :
    Result TreeError Unit → Set (Provider δ) → Prop where
  /-- Every provider is put in. -/
  | full {done : List (Provider δ)} {T : Set (Provider δ)} : Chosen all done [] →
      Puts Provider.uuid Provider.parentUuid S done T → Outcome S all (.ok ()) T
  /-- Each of those that are left waits for another. -/
  | stuck {done : List (Provider δ)} {rest : List (ProviderDict δ)} {T : Set (Provider δ)} {e : TreeError} :
      Chosen all done rest → rest ≠ [] → (∀ pd ∈ rest, Waits rest pd) →
      Puts Provider.uuid Provider.parentUuid S done T → Outcome S all (.raise e) T
  /-- A parent is not there any more. -/
  | missing {done : List (Provider δ)} {p : Provider δ} {rest : List (ProviderDict δ)}
      {T : Set (Provider δ)} {e : TreeError} : Chosen all (done ++ [p]) rest →
      Puts Provider.uuid Provider.parentUuid S done T → ¬ Fits Provider.uuid Provider.parentUuid T p →
      Outcome S all (.raise e) (without Provider.uuid Provider.parentUuid T p.uuid)

section

variable {F F' : Forest δ} {all done : List (Provider δ)} {rest : List (ProviderDict δ)}
  {pd : ProviderDict δ}

theorem byUuid_nodup (dicts : List (ProviderDict δ)) : ((byUuid dicts).map (·.uuid)).Nodup := by
  induction dicts with
  | nil => exact List.nodup_nil
  | cons pd dicts ih =>
      have hhead : ((dicts.reverse.find? (·.uuid = pd.uuid)).getD pd).uuid = pd.uuid := by
        cases hfind : dicts.reverse.find? (·.uuid = pd.uuid) with
        | none => rfl
        | some found => simpa using List.find?_some hfind
      rw [byUuid, List.map_cons, List.nodup_cons, hhead]
      refine ⟨fun hmem => ?_, ih.sublist (List.filter_sublist.map _)⟩
      obtain ⟨other, hother, heq⟩ := List.mem_map.mp hmem
      simpa [heq] using List.of_mem_filter hother

theorem given_uuids (dicts : List (ProviderDict δ)) :
    (given dicts).map (·.uuid) = (byUuid dicts).map (·.uuid) := by
  rw [given, List.map_map]
  rfl

/-- The next provider is put in. -/
theorem Chosen.next (h : Chosen all done rest) (hnodup : (all.map (·.uuid)).Nodup) (hpd : pd ∈ rest)
    (hwaits : ¬ Waits rest pd) : Chosen all (done ++ [pd.toProvider]) (rest.filter (·.uuid ≠ pd.uuid)) := by
  have huuids := (h.perm.map (·.uuid)).nodup_iff.mpr hnodup
  rw [List.map_append, List.nodup_append, List.map_map] at huuids
  obtain ⟨hdone, hrest, hapart⟩ := huuids
  obtain ⟨l, r, rfl⟩ := List.append_of_mem hpd
  -- the others have other uuids
  have hfilter : (l ++ pd :: r).filter (·.uuid ≠ pd.uuid) = l ++ r := by
    have hother : ∀ x ∈ l ++ r, x.uuid ≠ pd.uuid := by
      intro x hx heq
      have hmiddle : ((l ++ pd :: r).map (·.uuid)).Perm ((pd :: (l ++ r)).map (·.uuid)) :=
        List.perm_middle.map _
      have hcons := hmiddle.nodup_iff.mp hrest
      rw [List.map_cons, List.nodup_cons] at hcons
      exact hcons.1 (heq ▸ List.mem_map_of_mem hx)
    rw [List.filter_append, List.filter_cons_of_neg (by simp), ← List.filter_append, List.filter_eq_self]
    exact fun x hx => by simpa using hother x hx
  have hnew : pd.uuid ∉ done.map (·.uuid) := fun hmem =>
    hapart _ hmem pd.uuid (List.mem_map_of_mem (f := fun x : ProviderDict δ => x.toProvider.uuid) hpd) rfl
  have hperm : (done ++ [pd.toProvider] ++ (l ++ r).map (·.toProvider)).Perm all := by
    refine List.Perm.trans ?_ h.perm
    simp only [List.append_assoc, List.map_append, List.map_cons, List.singleton_append]
    exact List.perm_middle.symm.append_left done
  rw [hfilter]
  refine ⟨hperm, h.ripe.snoc hnew ?_ ?_, ?_⟩
  · intro hparent
    exact hwaits ⟨pd.uuid, Option.mem_def.mpr hparent, List.mem_map_of_mem hpd⟩
  · intro b hb hparent
    refine hnew (h.settled b hb _ hparent ?_)
    rw [← (h.perm.map (·.uuid)).mem_iff, List.map_append, List.mem_append, List.map_map]
    exact .inr (List.mem_map_of_mem (f := fun x : ProviderDict δ => x.toProvider.uuid) hpd)
  · intro a ha k hparent hk
    rw [List.map_append, List.mem_append]
    obtain ha | ha := List.mem_append.mp ha
    · exact .inl (h.settled a ha k hparent hk)
    · obtain rfl := List.mem_singleton.mp ha
      rw [← (h.perm.map (·.uuid)).mem_iff, List.map_append, List.mem_append, List.map_map] at hk
      obtain hk | hk := hk
      · exact .inl hk
      · exact absurd ⟨k, hparent, hk⟩ hwaits

theorem wp_injectAll_outcome {L : List (String × String)} (hL : Apart L) {S : Set (Provider δ)}
    (hnodup : (all.map (·.uuid)).Nodup) (n : Nat) :
    ∀ (toAdd : List (ProviderDict δ)) (F : Forest δ) (done : List (Provider δ)), Grown L F →
      toAdd.length ≤ n →
      (∀ pd ∈ toAdd, (pd.uuid, pd.name) ∈ L ∧ pd.uuid ≠ "" ∧
        ∀ parent ∈ pd.parentProviderUuid, parent ∈ L.map Prod.fst) →
      Chosen all done toAdd → Puts Provider.uuid Provider.parentUuid S done F.nodes →
      wp (injectAll n toAdd) (fun r F' => Outcome S all r F'.nodes) F := by
  induction n with
  | zero =>
    intro toAdd F done _ hn _ hchosen hputs
    obtain rfl := List.length_eq_zero_iff.mp (Nat.le_zero.mp hn)
    exact .full hchosen hputs
  | succ n ih =>
    intro toAdd F done hF hn hadd hchosen hputs
    cases toAdd with
    | nil => exact .full hchosen hputs
    | cons pd₀ pds =>
      simp only [injectAll]
      split
      next hnone =>
        refine .stuck hchosen (List.cons_ne_nil _ _) (fun pd hpd => ?_) hputs
        have hwaits := List.find?_eq_none.mp hnone pd hpd
        simpa using hwaits
      next pd hpd =>
        have hmem := List.mem_of_find?_eq_some hpd
        have hwaits : ¬ Waits (pd₀ :: pds) pd := by simpa using List.find?_some hpd
        obtain ⟨hlabel, hne, hparent⟩ := hadd pd hmem
        have hnext := hchosen.next hnodup hmem hwaits
        rw [wp_bind]
        refine wp_mono (wp_and (wp_inject hF hL hlabel hne hparent)
          (wp_inject_nodes hF hL hlabel hparent)) ?_
        rintro r F₁ ⟨hr, ⟨rfl, hfits, hnodes⟩ | ⟨⟨e, rfl⟩, hfits, hnodes⟩⟩
        · refine ih _ F₁ (done ++ [pd.toProvider]) hr.2 ?_
            (fun pd' hpd' => hadd pd' (List.mem_of_mem_filter hpd')) hnext ?_
          · have hlt : ((pd₀ :: pds).filter (·.uuid ≠ pd.uuid)).length < (pd₀ :: pds).length := by
              apply List.length_filter_lt_length_iff_exists.mpr
              exact ⟨pd, hmem, by simp⟩
            omega
          · rw [hnodes]
            exact .snoc hputs hfits
        · rw [seqPost_raise, hnodes]
          exact .missing (p := pd.toProvider) hnext hputs hfits

/-- What the check finds wrong: a parent that is neither in the tree nor among the providers. -/
def Orphaned (F : Forest δ) (dicts : List (ProviderDict δ)) : Prop :=
  ∃ p ∈ given dicts, ∃ k, p.parentUuid = some k ∧ k ∉ (given dicts).map (·.uuid) ∧ k ∉ F.uuids

theorem wp_populate_outcome {dicts : List (ProviderDict δ)} (h : Orderly F)
    (ha : Apart (F.labels ++ dicts.map fun pd => (pd.uuid, pd.name)))
    (hne : ∀ pd ∈ dicts, pd.uuid ≠ "") :
    wp (populateFromIterable dicts) (fun r F' =>
      (Orphaned F dicts ∧ (∃ e, r = .raise e) ∧ F' = F) ∨
        (¬ Orphaned F dicts ∧ Outcome F.nodes (given dicts) r F'.nodes)) F := by
  have horphaned : Orphaned F dicts ↔ missing F (byUuid dicts) ≠ [] := by
    rw [Orphaned, given_uuids, ne_eq, missing, List.filter_eq_nil_iff]
    constructor
    · rintro ⟨p, hp, k, hk, hgiven, htree⟩ hall
      obtain ⟨pd, hpd, rfl⟩ := List.mem_map.mp hp
      have hfound := hall _ (List.mem_map_of_mem (f := (·.parentProviderUuid)) hpd)
      rw [show pd.parentProviderUuid = some k from hk] at hfound
      exact hfound (by simpa using ⟨by simpa using hgiven, htree⟩)
    · intro hsome
      by_contra hnone
      refine hsome fun parent hparent hany => ?_
      obtain ⟨pd, hpd, rfl⟩ := List.mem_map.mp hparent
      obtain ⟨k, hk, hout⟩ := (Option.any_eq_true _ _).mp hany
      rw [decide_eq_true_eq] at hout
      exact hnone ⟨pd.toProvider, List.mem_map_of_mem hpd, k, hk, hout.1, hout.2⟩
  simp only [populateFromIterable, wp_bind, wp_read, seqPost_ok, id]
  split
  next hmissing => exact .inl ⟨horphaned.mpr hmissing, ⟨_, rfl⟩, rfl⟩
  next hmissing =>
    have hF : Grown (F.labels ++ dicts.map fun pd => (pd.uuid, pd.name)) F :=
      ⟨h, fun l hl => List.mem_append_left _ hl⟩
    have hnodup : ((given dicts).map (·.uuid)).Nodup := by
      rw [given_uuids]
      exact byUuid_nodup dicts
    have hchosen : Chosen (given dicts) [] (byUuid dicts) :=
      ⟨List.Perm.refl _, ⟨List.nodup_nil, by simp⟩, by simp⟩
    refine wp_mono (wp_injectAll_outcome ha hnodup _ (byUuid dicts) F [] hF (Nat.le_refl _)
      (known_of_missing hne (not_not.mp hmissing)) hchosen (.nil _)) ?_
    exact fun r F' hr => .inr ⟨fun h => hmissing (horphaned.mp h), hr⟩

end
/-! ## All or nothing -/

/-- The provider's parents among those given end with one that has none among them. -/
inductive Grounded (all : List (Provider δ)) : Provider δ → Prop where
  | outside {p : Provider δ} : p ∈ all → (∀ k, p.parentUuid = some k → k ∉ all.map (·.uuid)) → Grounded all p
  | inside {p q : Provider δ} : p ∈ all → q ∈ all → p.parentUuid = some q.uuid → Grounded all q →
      Grounded all p

/-- The call raises and leaves the providers as they were, or it merges those given into the tree. -/
def AllOrNothing (dicts : List (ProviderDict δ)) (F : Forest δ) (r : Result TreeError Unit) (F' : Forest δ) :
    Prop :=
  Tidy F' ∧
    ((∃ e, r = .raise e) ∧ F'.nodes = F.nodes ∨
      r = .ok () ∧ F'.nodes = merged Provider.uuid Provider.parentUuid F.nodes (given dicts))

/-- When it does: the check finds a parent missing; or every provider is grounded, and none has a parent
in the tree, not given, under one that is; or those that are grounded are in the tree as they are, with
nothing under them but one another. -/
inductive Settled (F : Forest δ) (dicts : List (ProviderDict δ)) : Prop where
  | orphaned : Orphaned F dicts → Settled F dicts
  | grounded : (∀ p ∈ given dicts, Grounded (given dicts) p) →
      ¬ Lost Provider.uuid Provider.parentUuid F.nodes (given dicts) → Settled F dicts
  | unchanged : (∃ p ∈ given dicts, ¬ Grounded (given dicts) p) →
      (∀ p ∈ given dicts, Grounded (given dicts) p → p ∈ F.nodes ∧
        ∀ q, Under Provider.uuid Provider.parentUuid F.nodes p.uuid q →
          q ∈ given dicts ∧ Grounded (given dicts) q) → Settled F dicts

section

variable {F F' : Forest δ} {dicts : List (ProviderDict δ)} {all done : List (Provider δ)}
  {rest : List (ProviderDict δ)} {S T : Set (Provider δ)} {p : Provider δ}

theorem Grounded.mem (h : Grounded all p) : p ∈ all := by
  cases h with
  | outside hmem => exact hmem
  | inside hmem => exact hmem

/-- What is put in is grounded. -/
theorem Chosen.grounded (h : Chosen all done rest) : ∀ p ∈ done, Grounded all p := by
  have hall : ∀ p ∈ done, p ∈ all := fun p hp => h.perm.subset (List.mem_append_left _ hp)
  have haux : ∀ pre post, done = pre ++ post → ∀ p ∈ pre, Grounded all p := by
    intro pre
    induction pre using List.reverseRecOn with
    | nil => exact fun _ _ => nofun
    | append_singleton pre a ih =>
        intro post hsplit p hp
        rw [List.append_assoc, List.singleton_append] at hsplit
        obtain hp | hp := List.mem_append.mp hp
        · exact ih (a :: post) hsplit p hp
        obtain rfl := List.mem_singleton.mp hp
        have hmem : p ∈ done := by simp [hsplit]
        by_cases houtside : ∀ k, p.parentUuid = some k → k ∉ all.map (·.uuid)
        · exact .outside (hall p hmem) houtside
        · simp only [not_forall, not_not] at houtside
          obtain ⟨k, hk, hin⟩ := houtside
          obtain ⟨q, hq, rfl⟩ := List.mem_map.mp (h.settled p hmem k hk hin)
          -- the parent came before
          have hbefore : q ∈ pre := by
            rw [hsplit, List.mem_append] at hq
            obtain hq | hq := hq
            · exact hq
            · exact absurd hk (h.ripe.after pre p post hsplit q hq)
          exact .inside (hall p hmem) (hall q (by simp [hsplit, hbefore])) hk (ih (p :: post) hsplit q hbefore)
  exact haux done [] (by simp)

/-- And what waits is not. -/
theorem Chosen.not_grounded (h : Chosen all done rest) (hnodup : (all.map (·.uuid)).Nodup)
    (hwaits : ∀ pd ∈ rest, Waits rest pd) (hp : p ∈ rest.map (·.toProvider)) : ¬ Grounded all p := by
  have hall : ∀ p ∈ rest.map (·.toProvider), p ∈ all :=
    fun p hp => h.perm.subset (List.mem_append_right _ hp)
  intro hgrounded
  induction hgrounded with
  | outside _ houtside =>
      obtain ⟨pd, hpd, rfl⟩ := List.mem_map.mp hp
      obtain ⟨k, hk, hin⟩ := hwaits pd hpd
      obtain ⟨other, hother, rfl⟩ := List.mem_map.mp hin
      exact houtside _ hk (List.mem_map_of_mem (f := (·.uuid)) (hall _ (List.mem_map_of_mem hother)))
  | @inside p q _ hq hparent _ ih =>
      obtain ⟨pd, hpd, rfl⟩ := List.mem_map.mp hp
      obtain ⟨k, hk, hin⟩ := hwaits pd hpd
      obtain ⟨other, hother, rfl⟩ := List.mem_map.mp hin
      have heq : other.toProvider.uuid = q.uuid := Option.some.inj (hk.symm.trans hparent)
      have hmem := List.mem_map_of_mem (f := (·.toProvider)) hother
      exact ih (List.inj_on_of_nodup_map hnodup (hall _ hmem) hq heq ▸ hmem)

theorem merged_perm {as bs : List (Provider δ)} (h : as.Perm bs) :
    merged Provider.uuid Provider.parentUuid S as = merged Provider.uuid Provider.parentUuid S bs := by
  ext q
  simp only [merged, Set.mem_ofPred_eq, h.mem_iff, (h.map (·.uuid)).mem_iff]

/-- Parents are known to those that are put in, too. -/
theorem Chosen.known (h : Chosen all done rest) (hknown : Known Provider.uuid Provider.parentUuid S all) :
    Known Provider.uuid Provider.parentUuid S done := by
  intro a ha k hparent
  obtain hk | hk := hknown a (h.perm.subset (List.mem_append_left _ ha)) k hparent
  · exact .inl (h.settled a ha k hparent hk)
  · exact .inr hk

theorem Chosen.lost (h : Chosen all done rest) (hlost : Lost Provider.uuid Provider.parentUuid S done) :
    Lost Provider.uuid Provider.parentUuid S all := by
  have hall : ∀ p ∈ done, p ∈ all := fun p hp => h.perm.subset (List.mem_append_left _ hp)
  obtain ⟨a, ha, b, hb, hparent, hkey, c, hc, hunder⟩ := hlost
  exact ⟨a, hall a ha, b, hb, hparent, fun hin => hkey (h.settled a ha _ hparent hin), c, hall c hc, hunder⟩

/-- Where the providers were lost, they are not merged. -/
theorem merged_not_sound (hS : Sound Provider.uuid Provider.parentUuid S)
    (hlost : Lost Provider.uuid Provider.parentUuid S all) :
    ¬ Sound Provider.uuid Provider.parentUuid (merged Provider.uuid Provider.parentUuid S all) := by
  intro h
  obtain ⟨a, ha, b, hb, hparent, hkey, c, hc, hunder⟩ := hlost
  obtain ⟨d, hd, heq⟩ := h.closed a (.inl ha) _ hparent
  obtain hd | ⟨hd, -, hfree⟩ := hd
  · exact hkey (heq ▸ List.mem_map_of_mem hd)
  · exact hfree c hc (hS.unique d hd b hb heq ▸ hunder)

end

section

variable {F F' : Forest δ} {dicts : List (ProviderDict δ)} {all done : List (Provider δ)}
  {rest : List (ProviderDict δ)} {S T : Set (Provider δ)} {p : Provider δ}

/-- Where those put in had nothing under them but one another, no parent was lost. -/
theorem not_lost_of_unchanged (hgrounded : ∀ p ∈ done, p ∈ all ∧ Grounded all p)
    (hclosed : ∀ a ∈ done, ∀ k, a.parentUuid = some k → k ∈ all.map (·.uuid) → k ∈ done.map (·.uuid))
    (hunder : ∀ p ∈ all, Grounded all p → ∀ q, Under Provider.uuid Provider.parentUuid S p.uuid q →
      q ∈ all ∧ Grounded all q) : ¬ Lost Provider.uuid Provider.parentUuid S done := by
  rintro ⟨a, ha, b, -, hparent, hkey, c, hc, hb⟩
  obtain ⟨hcall, hcgrounded⟩ := hgrounded c hc
  obtain ⟨hball, -⟩ := hunder c hcall hcgrounded b hb
  exact hkey (hclosed a ha _ hparent (List.mem_map_of_mem hball))

/-- What is put in where nothing is lost fits. -/
theorem Chosen.fits (hS : Sound Provider.uuid Provider.parentUuid S) (h : Chosen all (done ++ [p]) rest)
    (hknown : Known Provider.uuid Provider.parentUuid S all)
    (hlost : ¬ Lost Provider.uuid Provider.parentUuid S (done ++ [p]))
    (hputs : Puts Provider.uuid Provider.parentUuid S done T) : Fits Provider.uuid Provider.parentUuid T p := by
  obtain ⟨T', hputs', hfits, -⟩ := (puts_merged hS h.ripe (h.known hknown) hlost).snoc_inv
  rwa [hputs.eq hputs']

/-- The call is all or nothing if and only if it is settled. -/
theorem outcome_iff (hF : Orderly F) (hF' : Orderly F') {r : Result TreeError Unit}
    (hnot : ¬ Orphaned F dicts) (houtcome : Outcome F.nodes (given dicts) r F'.nodes) :
    AllOrNothing dicts F r F' ↔ Settled F dicts := by
  have hnodup : ((given dicts).map (·.uuid)).Nodup := by
    rw [given_uuids]
    exact byUuid_nodup dicts
  have hknown : Known Provider.uuid Provider.parentUuid F.nodes (given dicts) := by
    intro a ha k hparent
    by_contra hnone
    rw [not_or] at hnone
    refine hnot ⟨a, ha, k, hparent, hnone.1, fun htree => hnone.2 ?_⟩
    rw [Forest.uuids_eq_members] at htree
    exact List.mem_map.mp htree
  have htidy := hF'.tidy
  have hsound' := hF'.sound
  rw [AllOrNothing]
  generalize F'.nodes = T at houtcome hsound' ⊢
  cases houtcome with
  | @full done T hchosen hputs =>
      have hperm : done.Perm (given dicts) := by simpa using hchosen.perm
      have hgrounded : ∀ p ∈ given dicts, Grounded (given dicts) p :=
        fun p hp => hchosen.grounded p (hperm.mem_iff.mpr hp)
      constructor
      · rintro ⟨-, ⟨⟨_, hraise⟩, -⟩ | ⟨-, rfl⟩⟩
        · cases hraise
        · exact .grounded hgrounded fun hlost => merged_not_sound hF.sound hlost hsound'
      · intro hsettled
        refine ⟨htidy, .inr ⟨rfl, ?_⟩⟩
        cases hsettled with
        | orphaned h => exact absurd h hnot
        | unchanged hsome => exact absurd (hgrounded _ hsome.choose_spec.1) hsome.choose_spec.2
        | grounded _ hlost =>
            have hmerged := puts_merged hF.sound hchosen.ripe (hchosen.known hknown)
              fun h => hlost (hchosen.lost h)
            rw [hputs.eq hmerged, merged_perm hperm]
  | @stuck done rest T e hchosen hne hwaits hputs =>
      obtain ⟨pd, hpd⟩ := List.exists_mem_of_ne_nil _ hne
      have hrest : ∀ p ∈ rest.map (·.toProvider), ¬ Grounded (given dicts) p :=
        fun p hp => hchosen.not_grounded hnodup hwaits hp
      have hnotall : ∃ p ∈ given dicts, ¬ Grounded (given dicts) p := by
        have hmem := List.mem_map_of_mem (f := (·.toProvider)) hpd
        exact ⟨_, hchosen.perm.subset (List.mem_append_right _ hmem), hrest _ hmem⟩
      have hdone : ∀ p ∈ done, p ∈ given dicts ∧ Grounded (given dicts) p := fun p hp =>
        ⟨hchosen.perm.subset (List.mem_append_left _ hp), hchosen.grounded p hp⟩
      have hdone' : ∀ p, Grounded (given dicts) p → p ∈ done := by
        intro p hp
        obtain hmem | hmem := List.mem_append.mp (hchosen.perm.mem_iff.mpr hp.mem)
        · exact hmem
        · exact absurd hp (hrest p hmem)
      constructor
      · rintro ⟨-, ⟨-, hsame⟩ | ⟨hok, -⟩⟩
        · have hin : ∀ p ∈ done, p ∈ F.nodes := by
            have hkept : Kept Provider.uuid F.nodes (done ++ []) T := fun a ha _ => hsame ▸ ha
            rw [← hsame]
            exact hputs.subset_of_kept hF.sound (by simpa using hchosen.ripe) hkept
          refine .unchanged hnotall fun p _ hp => ⟨hin p (hdone' p hp), fun q hq => ?_⟩
          by_cases hkey : q.uuid ∈ done.map (·.uuid)
          · obtain ⟨x, hx, heq⟩ := List.mem_map.mp hkey
            exact hF.sound.unique x (hin x hx) q hq.mem heq ▸ hdone x hx
          · have hgone := hputs.not_mem_of_under hF.sound (List.mem_map_of_mem (hdone' p hp)) hq hkey
            exact absurd (hsame ▸ hq.mem) hgone
        · cases hok
      · intro hsettled
        refine ⟨htidy, .inl ⟨⟨_, rfl⟩, ?_⟩⟩
        cases hsettled with
        | orphaned h => exact absurd h hnot
        | grounded hall => exact absurd (hall _ hnotall.choose_spec.1) hnotall.choose_spec.2
        | unchanged _ hunder =>
            have hlost := not_lost_of_unchanged hdone hchosen.settled fun p hp hg => (hunder p hp hg).2
            have hmerged := puts_merged hF.sound hchosen.ripe (hchosen.known hknown) hlost
            rw [hputs.eq hmerged]
            ext q
            constructor
            · rintro (hq | ⟨hq, -⟩)
              · exact (hunder q (hdone q hq).1 (hdone q hq).2).1
              · exact hq
            · intro hq
              by_cases hqdone : q ∈ done
              · exact .inl hqdone
              · refine .inr ⟨hq, fun hkey => hqdone ?_, fun c hc hcq => hqdone ?_⟩
                · obtain ⟨x, hx, heq⟩ := List.mem_map.mp hkey
                  have hxF := (hunder x (hdone x hx).1 (hdone x hx).2).1
                  exact hF.sound.unique x hxF q hq heq ▸ hx
                · exact hdone' q ((hunder c (hdone c hc).1 (hdone c hc).2).2 q hcq).2
  | @missing done p rest T e hchosen hputs hfits =>
      have hdone : ∀ q ∈ done ++ [p], q ∈ given dicts ∧ Grounded (given dicts) q := fun q hq =>
        ⟨hchosen.perm.subset (List.mem_append_left _ hq), hchosen.grounded q hq⟩
      constructor
      · rintro ⟨-, ⟨-, hsame⟩ | ⟨hok, -⟩⟩
        · have hkept : Kept Provider.uuid F.nodes (done ++ [p])
              (without Provider.uuid Provider.parentUuid T p.uuid) := fun a ha _ => hsame ▸ ha
          exact absurd (hputs.fits_of_kept hF.sound hchosen.ripe (hchosen.known hknown) hkept) hfits
        · cases hok
      · intro hsettled
        have hlost : ¬ Lost Provider.uuid Provider.parentUuid F.nodes (done ++ [p]) := by
          cases hsettled with
          | orphaned h => exact absurd h hnot
          | grounded _ hlost => exact fun h => hlost (hchosen.lost h)
          | unchanged _ hunder =>
              exact not_lost_of_unchanged hdone hchosen.settled fun p hp hg => (hunder p hp hg).2
        exact absurd (hchosen.fits hF.sound hknown hlost hputs) hfits

end

/-- A host, alone. -/
def hostTree : Forest Unit := .cons ⟨"u1", "host", none, ()⟩ .nil .nil

theorem hostTree_orderly : Orderly hostTree where
  nodup := by decide
  held := ⟨rfl, trivial, trivial⟩
  apart := by decide
  named := by decide

end ProviderTree

end Zun
