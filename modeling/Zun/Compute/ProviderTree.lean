import Mathlib.Data.List.Nodup
import Zun.Effect.Prog
import Zun.Effect.Run

/-!
# Provider trees

A provider tree is what the report client and the container driver pass to each other: resource
providers, each below the provider that has it in its `children`.  Providers are looked up by uuid
or by name in one search, so a provider that is named as another one's uuid is in its way.
-/

namespace Zun.ProviderTree

open Effect Effect.Prog

/-- A provider without its children.  Its generation, inventory, traits and aggregates are its
details. -/
structure Provider (δ : Type) where
  uuid : String
  name : String
  parentUuid : Option String
  details : δ

/-- The providers of a `children` dict, or of the roots, in order, each with its own children. -/
inductive Forest (δ : Type) where
  | nil
  | cons (provider : Provider δ) (children rest : Forest δ)

variable {δ : Type}

/-- A provider goes by its name and by its uuid. -/
def Provider.Answers (p : Provider δ) (search : String) : Prop :=
  p.name = search ∨ p.uuid = search

instance (p : Provider δ) (search : String) : Decidable (p.Answers search) :=
  inferInstanceAs (Decidable (_ ∨ _))

namespace Forest

/-! ## Searching and changing -/

/-- Every provider with its children, from the top down. -/
def providers : Forest δ → List (Provider δ × Forest δ)
  | nil => []
  | cons p children rest => (p, children) :: (children.providers ++ rest.providers)

/-- `get_provider_uuids`. -/
def uuids (F : Forest δ) : List String := F.providers.map (·.1.uuid)

/-- The providers without their children. -/
def members (F : Forest δ) : List (Provider δ) := F.providers.map (·.1)

/-- The uuid and the name of every provider. -/
def labels (F : Forest δ) : List (String × String) :=
  F.providers.map fun found => (found.1.uuid, found.1.name)

/-- `self.children.get(search)`. -/
def child (search : String) : Forest δ → Option (Provider δ × Forest δ)
  | nil => none
  | cons p children rest => if p.uuid = search then some (p, children) else rest.child search

/-- `find` of each of the providers in turn, until one has found something.  The loop of `find`
over the children of a provider is this one too: each of them begins with itself. -/
def find (search : String) : Forest δ → Option (Provider δ × Forest δ)
  | nil => none
  | cons p children rest =>
      if p.Answers search then some (p, children)
      else match children.child search with
        | some found => some found
        | none => match children.find search with
          | some found => some found
          | none => rest.find search

/-- `add_child` of a provider that is new. -/
def addChild (p : Provider δ) : Forest δ → Forest δ
  | nil => cons p nil nil
  | cons q children rest =>
      if q.uuid = p.uuid then cons p nil rest else cons q children (rest.addChild p)

/-- `remove_child`. -/
def removeChild (uuid : String) : Forest δ → Forest δ
  | nil => nil
  | cons p children rest =>
      if p.uuid = uuid then rest else cons p children (rest.removeChild uuid)

/-- `self.roots.append`. -/
def append (p : Provider δ) : Forest δ → Forest δ
  | nil => cons p nil nil
  | cons q children rest => cons q children (rest.append p)

/-- `self.roots.remove` of the root that `find` finds. -/
def removeRoot (search : String) : Forest δ → Forest δ
  | nil => nil
  | cons p children rest =>
      if p.Answers search then rest else cons p children (rest.removeRoot search)

/-- What `find` finds is a root. -/
def findsRoot (search : String) : Forest δ → Bool
  | nil => false
  | cons p children rest =>
      decide (p.Answers search) || (children.find search).isNone && rest.findsRoot search

/-- The children of the child with the uuid, changed by `f`. -/
def onChild (search : String) (f : Forest δ → Forest δ) : Forest δ → Forest δ
  | nil => nil
  | cons p children rest =>
      if p.uuid = search then cons p (f children) rest
      else cons p children (rest.onChild search f)

/-- The children of the provider that `find` finds, changed by `f`. -/
def onFound (search : String) (f : Forest δ → Forest δ) : Forest δ → Forest δ
  | nil => nil
  | cons p children rest =>
      if p.Answers search then cons p (f children) rest
      else if (children.child search).isSome then cons p (children.onChild search f) rest
      else if (children.find search).isSome then cons p (children.onFound search f) rest
      else cons p children (rest.onFound search f)

end Forest

/-! ## The operations -/

inductive TreeError where
  | noSuchProvider (search : String)
  | alreadyExists (search : String)
  | parentsNotFound (parents : List (Option String))
  | parentsStillToAdd (uuids : List String)
  /-- `list.remove` of something that is not in the list. -/
  | notARoot
deriving DecidableEq

/-- A dict that describes a provider. -/
structure ProviderDict (δ : Type) where
  uuid : String
  name : String
  parentProviderUuid : Option String
  details : δ

/-- `_Provider.from_dict`. -/
def ProviderDict.toProvider (pd : ProviderDict δ) : Provider δ where
  uuid := pd.uuid
  name := pd.name
  parentUuid := pd.parentProviderUuid
  details := pd.details

/-- `_find_with_lock`. -/
def findWithLock (search : String) : Prog (Forest δ) TreeError (Provider δ × Forest δ) := do
  let roots ← read id
  match roots.find search with
  | some found => pure found
  | none => raise (.noSuchProvider search)

/-- `self.roots.remove(found)`, for what the search found. -/
def removeFromRoots (search : String) : Prog (Forest δ) TreeError Unit := do
  let roots ← read id
  if roots.findsRoot search then modify (·.removeRoot search) else raise .notARoot

/-- `_remove_with_lock`.  A parent uuid that is empty counts as none. -/
def removeWithLock (search : String) : Prog (Forest δ) TreeError Unit := do
  let found ← findWithLock search
  match found.1.parentUuid with
  | none => removeFromRoots search
  | some parentUuid =>
      if parentUuid = "" then removeFromRoots search
      else do
        let _ ← findWithLock parentUuid
        modify (·.onFound parentUuid (·.removeChild found.1.uuid))

/-- `new_root`. -/
def newRoot (name uuid : String) (details : δ) : Prog (Forest δ) TreeError String := do
  let roots ← read id
  if (roots.find uuid).isSome then raise (.alreadyExists uuid)
  else do
    modify (·.append ⟨uuid, name, none, details⟩)
    pure uuid

/-- `uuid or name`. -/
def key (name : String) : Option String → String
  | none => name
  | some uuid => if uuid = "" then name else uuid

/-- `new_child`.  The uuid is made up where none is given. -/
def newChild (name parent : String) (uuid : Option String) (made : String) (details : δ) :
    Prog (Forest δ) TreeError String := do
  let roots ← read id
  if (roots.find (key name uuid)).isSome then raise (.alreadyExists (key name uuid))
  else do
    let found ← findWithLock parent
    let p : Provider δ := ⟨uuid.getD made, name, some found.1.uuid, details⟩
    modify (·.onFound parent (·.addChild p))
    pure p.uuid

/-- `{pd['uuid']: pd for pd in provider_dicts}`: the place is that of the first of a uuid, the
dict that of the last. -/
def byUuid : List (ProviderDict δ) → List (ProviderDict δ)
  | [] => []
  | pd :: pds =>
      (pds.reverse.find? (·.uuid = pd.uuid)).getD pd :: (byUuid pds).filter (·.uuid ≠ pd.uuid)

/-- A provider of the dicts goes in: the one it replaces goes out with everything below it. -/
def inject (pd : ProviderDict δ) : Prog (Forest δ) TreeError Unit := do
  swallow (removeWithLock pd.uuid)
  match pd.parentProviderUuid with
  | none => modify (·.append pd.toProvider)
  | some parent => do
      let _ ← findWithLock parent
      modify (·.onFound parent (·.addChild pd.toProvider))

/-- The parent of the dict is itself still to be added. -/
def Waits (toAdd : List (ProviderDict δ)) (pd : ProviderDict δ) : Prop :=
  ∃ parent ∈ pd.parentProviderUuid, parent ∈ toAdd.map (·.uuid)

instance (toAdd : List (ProviderDict δ)) (pd : ProviderDict δ) : Decidable (Waits toAdd pd) :=
  decidable_of_iff (pd.parentProviderUuid.any (· ∈ toAdd.map (·.uuid)) = true) (by
    simp [Waits, Option.any_eq_true])

/-- The loop of `populate_from_iterable`, for as many turns as there are providers to add. -/
def injectAll : Nat → List (ProviderDict δ) → Prog (Forest δ) TreeError Unit
  | _, [] => pure ()
  | 0, _ => halt
  | n + 1, toAdd =>
      match toAdd.find? (¬ Waits toAdd ·) with
      | none => raise (.parentsStillToAdd (toAdd.map (·.uuid)))
      | some pd => do
          inject pd
          injectAll n (toAdd.filter (·.uuid ≠ pd.uuid))

/-- `populate_from_iterable`. -/
def populateFromIterable (dicts : List (ProviderDict δ)) : Prog (Forest δ) TreeError Unit := do
  let toAdd := byUuid dicts
  let roots ← read id
  let missing := (toAdd.map (·.parentProviderUuid)).filter fun parent =>
    parent.any fun uuid => uuid ∉ toAdd.map (·.uuid) ∧ uuid ∉ roots.uuids
  if missing ≠ [] then raise (.parentsNotFound missing)
  else injectAll toAdd.length toAdd

/-- The operations that change which providers are in the tree. -/
inductive Op (δ : Type) where
  | newRoot (name uuid : String) (details : δ)
  | newChild (name parent : String) (uuid : Option String) (made : String) (details : δ)
  | remove (search : String)
  | populate (dicts : List (ProviderDict δ))

def Op.run : Op δ → Prog (Forest δ) TreeError Unit
  | .newRoot name uuid details => do let _ ← ProviderTree.newRoot name uuid details
  | .newChild name parent uuid made details => do
      let _ ← ProviderTree.newChild name parent uuid made details
  | .remove search => removeWithLock search
  | .populate dicts => populateFromIterable dicts

/-- What an operation leaves, whether it raises or not. -/
def step (op : Op δ) (F : Forest δ) : Forest δ := (op.run F).2

namespace Forest

/-! ## Labels -/

variable {F G : Forest δ} {p : Provider δ} {children rest : Forest δ} {search : String}
  {found : Provider δ × Forest δ} {f : Forest δ → Forest δ}

@[simp] theorem labels_nil : (nil : Forest δ).labels = [] := rfl

@[simp] theorem members_nil : (nil : Forest δ).members = [] := rfl

@[simp] theorem members_cons :
    (cons p children rest).members = p :: (children.members ++ rest.members) := by
  simp [members, providers]

theorem labels_eq : F.labels = F.members.map fun p => (p.uuid, p.name) := by
  simp [labels, members]

theorem uuids_eq_members : F.uuids = F.members.map (·.uuid) := by
  simp [uuids, members]

theorem uuids_eq : F.uuids = F.labels.map Prod.fst := by
  simp [uuids, labels]

theorem mem_labels (h : found ∈ F.providers) : (found.1.uuid, found.1.name) ∈ F.labels :=
  List.mem_map_of_mem h

theorem mem_uuids (h : found ∈ F.providers) : found.1.uuid ∈ F.uuids := List.mem_map_of_mem h

/-! ## What a search finds -/

theorem mem_of_child (h : F.child search = some found) :
    found ∈ F.providers ∧ found.1.uuid = search := by
  induction F with
  | nil => cases h
  | cons p children rest _ ih =>
    simp only [child] at h
    split at h
    next heq =>
      cases h
      exact ⟨List.mem_cons_self .., heq⟩
    next =>
      obtain ⟨hmem, heq⟩ := ih h
      exact ⟨by simp [providers, hmem], heq⟩

theorem mem_of_find (h : F.find search = some found) :
    found ∈ F.providers ∧ found.1.Answers search := by
  induction F with
  | nil => cases h
  | cons p children rest ihc ihr =>
    simp only [find] at h
    split at h
    next hp =>
      cases h
      exact ⟨List.mem_cons_self .., hp⟩
    next =>
      split at h
      next c hc =>
        cases h
        obtain ⟨hmem, heq⟩ := mem_of_child hc
        exact ⟨by simp [providers, hmem], .inr heq⟩
      next =>
        split at h
        next c hc =>
          cases h
          obtain ⟨hmem, hans⟩ := ihc hc
          exact ⟨by simp [providers, hmem], hans⟩
        next =>
          obtain ⟨hmem, hans⟩ := ihr h
          exact ⟨by simp [providers, hmem], hans⟩

theorem not_answers_of_find (h : F.find search = none) :
    ∀ found ∈ F.providers, ¬ found.1.Answers search := by
  induction F with
  | nil => simp [providers]
  | cons p children rest ihc ihr =>
    simp only [find] at h
    split at h
    · cases h
    next hp =>
      split at h
      · cases h
      next =>
        split at h
        · cases h
        next hc =>
          intro found hfound
          simp only [providers, List.mem_cons, List.mem_append] at hfound
          rcases hfound with rfl | hfound | hfound
          · exact hp
          · exact ihc hc found hfound
          · exact ihr h found hfound

theorem exists_find (h : found ∈ F.providers) (ha : found.1.Answers search) :
    ∃ other, F.find search = some other := by
  cases hf : F.find search with
  | none => exact absurd ha (not_answers_of_find hf found h)
  | some other => exact ⟨other, rfl⟩

theorem find_isSome_of_child (h : (F.child search).isSome) : (F.find search).isSome := by
  obtain ⟨found, hfound⟩ := Option.isSome_iff_exists.mp h
  obtain ⟨hmem, heq⟩ := mem_of_child hfound
  obtain ⟨other, hother⟩ := exists_find hmem (.inr heq)
  exact Option.isSome_iff_exists.mpr ⟨other, hother⟩

/-! ## A change below what was found

Only the providers below the one that the search finds change, and they stay where they are. -/

theorem onChild_members (h : F.child search = some found) :
    ∃ l₁ l₂, F.members = l₁ ++ found.2.members ++ l₂ ∧
      (F.onChild search f).members = l₁ ++ (f found.2).members ++ l₂ := by
  induction F with
  | nil => cases h
  | cons p children rest _ ih =>
    simp only [child] at h
    simp only [onChild]
    split at h
    next heq =>
      cases h
      exact ⟨[p], rest.members, by simp [heq]⟩
    next hne =>
      obtain ⟨l₁, l₂, hF, hf⟩ := ih h
      refine ⟨p :: (children.members ++ l₁), l₂, ?_, ?_⟩
      · simp [hF]
      · simp [hne, hf]

theorem onFound_members (h : F.find search = some found) :
    ∃ l₁ l₂, F.members = l₁ ++ found.2.members ++ l₂ ∧
      (F.onFound search f).members = l₁ ++ (f found.2).members ++ l₂ := by
  induction F with
  | nil => cases h
  | cons p children rest ihc ihr =>
    simp only [find] at h
    simp only [onFound]
    split at h
    next hp =>
      cases h
      exact ⟨[p], rest.members, by simp [hp]⟩
    next hp =>
      split at h
      next c hc =>
        cases h
        obtain ⟨l₁, l₂, hF, hf⟩ := onChild_members (f := f) hc
        refine ⟨p :: l₁, l₂ ++ rest.members, ?_, ?_⟩
        · simp [hF]
        · simp [hp, hc, hf]
      next hchild =>
        split at h
        next c hc =>
          cases h
          obtain ⟨l₁, l₂, hF, hf⟩ := ihc hc
          refine ⟨p :: l₁, l₂ ++ rest.members, ?_, ?_⟩
          · simp [hF]
          · simp [hp, hchild, hc, hf]
        next hfind =>
          obtain ⟨l₁, l₂, hF, hf⟩ := ihr h
          refine ⟨p :: (children.members ++ l₁), l₂, ?_, ?_⟩
          · simp [hF]
          · simp [hp, hchild, hfind, hf]

theorem onFound_labels (h : F.find search = some found) :
    ∃ l₁ l₂, F.labels = l₁ ++ found.2.labels ++ l₂ ∧
      (F.onFound search f).labels = l₁ ++ (f found.2).labels ++ l₂ := by
  obtain ⟨l₁, l₂, hF, hf⟩ := onFound_members (f := f) h
  refine ⟨l₁.map fun p => (p.uuid, p.name), l₂.map fun p => (p.uuid, p.name), ?_, ?_⟩
  · simp [labels_eq, hF]
  · simp [labels_eq, hf]

theorem addChild_members (h : p.uuid ∉ F.uuids) : (F.addChild p).members = F.members ++ [p] := by
  induction F with
  | nil => simp [addChild]
  | cons q children rest _ ih =>
    simp only [uuids, providers, List.map_cons, List.map_append, List.mem_cons, List.mem_append,
      not_or] at h
    simp [addChild, Ne.symm h.1, ih h.2.2]

theorem addChild_labels (h : p.uuid ∉ F.uuids) :
    (F.addChild p).labels = F.labels ++ [(p.uuid, p.name)] := by
  simp [labels_eq, addChild_members h]

theorem append_members : (F.append p).members = F.members ++ [p] := by
  induction F with
  | nil => simp [append]
  | cons q children rest _ ih => simp [append, ih]

theorem append_labels : (F.append p).labels = F.labels ++ [(p.uuid, p.name)] := by
  simp [labels_eq, append_members]

/-- Some labels next to each other are gone, and the uuid is one of theirs. -/
def Cut (uuid : String) (l l' : List (String × String)) : Prop :=
  ∃ l₁ m l₂, l = l₁ ++ m ++ l₂ ∧ l' = l₁ ++ l₂ ∧ uuid ∈ m.map Prod.fst

theorem Cut.sublist {uuid : String} {l l' : List (String × String)} (h : Cut uuid l l') :
    l'.Sublist l := by
  obtain ⟨l₁, m, l₂, rfl, rfl, -⟩ := h
  simp

theorem Cut.not_mem {uuid : String} {l l' : List (String × String)} (h : Cut uuid l l')
    (hl : (l.map Prod.fst).Nodup) : uuid ∉ l'.map Prod.fst := by
  obtain ⟨l₁, m, l₂, rfl, rfl, hm⟩ := h
  simp only [List.map_append, List.nodup_append, List.mem_append] at hl ⊢
  rintro (h₁ | h₂)
  · exact hl.1.2.2 uuid h₁ uuid hm rfl
  · exact hl.2.2 uuid (.inr hm) uuid h₂ rfl

theorem Cut.within {uuid : String} {l l' : List (String × String)} (h : Cut uuid l l')
    (m₁ m₂ : List (String × String)) : Cut uuid (m₁ ++ l ++ m₂) (m₁ ++ l' ++ m₂) := by
  obtain ⟨l₁, m, l₂, rfl, rfl, hm⟩ := h
  exact ⟨m₁ ++ l₁, m, l₂ ++ m₂, by simp, by simp, hm⟩

theorem removeChild_members (h : F.child search = some found) :
    ∃ l₁ l₂, F.members = l₁ ++ found.1 :: found.2.members ++ l₂ ∧
      (F.removeChild search).members = l₁ ++ l₂ := by
  induction F with
  | nil => cases h
  | cons p children rest _ ih =>
    simp only [child] at h
    simp only [removeChild]
    split at h
    next heq =>
      cases h
      exact ⟨[], rest.members, by simp, by simp [heq]⟩
    next hne =>
      obtain ⟨l₁, l₂, hF, hf⟩ := ih h
      exact ⟨p :: (children.members ++ l₁), l₂, by simp [hF], by simp [hne, hf]⟩

theorem removeRoot_members (h : F.findsRoot search) (hf : F.find search = some found) :
    ∃ l₁ l₂, F.members = l₁ ++ found.1 :: found.2.members ++ l₂ ∧
      (F.removeRoot search).members = l₁ ++ l₂ := by
  induction F with
  | nil => cases h
  | cons p children rest _ ih =>
    simp only [find] at hf
    simp only [removeRoot]
    by_cases hp : p.Answers search
    · simp only [hp, if_true] at hf ⊢
      cases hf
      exact ⟨[], rest.members, by simp, by simp⟩
    · simp only [findsRoot, hp, decide_false, Bool.false_or, Bool.and_eq_true,
        Option.isNone_iff_eq_none] at h
      have hchild : children.child search = none := by
        cases hc : children.child search with
        | none => rfl
        | some c =>
          have hsome := find_isSome_of_child (Option.isSome_iff_exists.mpr ⟨c, hc⟩)
          rw [h.1] at hsome
          cases hsome
      simp only [hp, if_false, hchild, h.1] at hf ⊢
      obtain ⟨l₁, l₂, hF, hr⟩ := ih h.2 hf
      exact ⟨p :: (children.members ++ l₁), l₂, by simp [hF], by simp [hr]⟩

theorem Cut.of_members {F' : Forest δ} {l₁ l₂ : List (Provider δ)}
    (hF : F.members = l₁ ++ found.1 :: found.2.members ++ l₂) (hF' : F'.members = l₁ ++ l₂) :
    Cut found.1.uuid F.labels F'.labels :=
  ⟨l₁.map fun p => (p.uuid, p.name), (found.1 :: found.2.members).map fun p => (p.uuid, p.name),
    l₂.map fun p => (p.uuid, p.name), by simp [labels_eq, hF], by simp [labels_eq, hF'], by simp⟩

theorem removeChild_labels (h : (F.child search).isSome) :
    Cut search F.labels (F.removeChild search).labels := by
  obtain ⟨found, hfound⟩ := Option.isSome_iff_exists.mp h
  obtain ⟨l₁, l₂, hF, hF'⟩ := removeChild_members hfound
  have hcut := Cut.of_members hF hF'
  rwa [(mem_of_child hfound).2] at hcut

theorem removeRoot_labels (h : F.findsRoot search) (hf : F.find search = some found) :
    Cut found.1.uuid F.labels (F.removeRoot search).labels := by
  obtain ⟨l₁, l₂, hF, hF'⟩ := removeRoot_members h hf
  exact Cut.of_members hF hF'

end Forest

namespace Forest

/-! ## Parents -/

variable {F : Forest δ} {p : Provider δ} {search : String} {parent : Option String}
  {found : Provider δ × Forest δ} {f : Forest δ → Forest δ}

/-- Each provider has the uuid of the one that holds it in its children as its parent uuid, those
of `F` itself the one given. -/
def Held (parent : Option String) : Forest δ → Prop
  | nil => True
  | cons p children rest =>
      p.parentUuid = parent ∧ children.Held (some p.uuid) ∧ rest.Held parent

/-- A provider is held by `F` itself, or by a provider of `F` that its parent uuid names. -/
theorem Held.holder (h : F.Held parent) (hmem : found ∈ F.providers) :
    found.1.parentUuid = parent ∨ ∃ q ∈ F.providers, found.1.parentUuid = some q.1.uuid ∧
      (q.2.child found.1.uuid).isSome := by
  have haux : found.1.parentUuid = parent ∧ (F.child found.1.uuid).isSome ∨
      ∃ q ∈ F.providers, found.1.parentUuid = some q.1.uuid ∧
        (q.2.child found.1.uuid).isSome := by
    induction F generalizing parent with
    | nil => cases hmem
    | cons p children rest ihc ihr =>
      obtain ⟨hp, hc, hr⟩ := h
      simp only [providers, List.mem_cons, List.mem_append] at hmem
      rcases hmem with rfl | hmem | hmem
      · exact .inl ⟨hp, by simp [child]⟩
      · rcases ihc hc hmem with ⟨heq, hchild⟩ | ⟨q, hq, hrest⟩
        · exact .inr ⟨(p, children), by simp [providers], heq, hchild⟩
        · exact .inr ⟨q, by simp [providers, hq], hrest⟩
      · rcases ihr hr hmem with ⟨heq, hchild⟩ | ⟨q, hq, hrest⟩
        · refine .inl ⟨heq, ?_⟩
          simp only [child]
          split
          · rfl
          · exact hchild
        · exact .inr ⟨q, by simp [providers, hq], hrest⟩
  rcases haux with h' | h'
  · exact .inl h'.1
  · exact .inr h'

theorem Held.findsRoot (h : F.Held parent) (hfind : F.find search = some found)
    (hnone : found.1.parentUuid = none) : F.findsRoot search := by
  induction F with
  | nil => cases hfind
  | cons p children rest _ ih =>
    obtain ⟨-, hc, hr⟩ := h
    simp only [find] at hfind
    simp only [Forest.findsRoot, Bool.or_eq_true, decide_eq_true_eq, Bool.and_eq_true,
      Option.isNone_iff_eq_none]
    by_cases hp : p.Answers search
    · exact .inl hp
    -- what is below a provider has a parent uuid
    have hbelow : found ∉ children.providers := by
      intro hmem
      rcases hc.holder hmem with h' | ⟨q, -, h', -⟩
      · rw [hnone] at h'
        cases h'
      · rw [hnone] at h'
        cases h'
    simp only [hp, if_false] at hfind
    split at hfind
    next c hchild =>
      cases hfind
      exact absurd (mem_of_child hchild).1 hbelow
    next =>
      split at hfind
      next c hcf =>
        cases hfind
        exact absurd (mem_of_find hcf).1 hbelow
      next hcf => exact .inr ⟨hcf, ih hr hfind⟩

theorem onChild_held (h : F.Held parent) (hchild : F.child search = some found)
    (hf : found.2.Held (some found.1.uuid) → (f found.2).Held (some found.1.uuid)) :
    (F.onChild search f).Held parent := by
  induction F with
  | nil => cases hchild
  | cons p children rest _ ih =>
    obtain ⟨hp, hc, hr⟩ := h
    simp only [child] at hchild
    simp only [onChild]
    split at hchild
    next heq =>
      cases hchild
      simp only [heq, if_true]
      exact ⟨hp, heq ▸ hf hc, hr⟩
    next hne =>
      simp only [hne, if_false]
      exact ⟨hp, hc, ih hr hchild⟩

theorem onFound_held (h : F.Held parent) (hfind : F.find search = some found)
    (hf : found.2.Held (some found.1.uuid) → (f found.2).Held (some found.1.uuid)) :
    (F.onFound search f).Held parent := by
  induction F generalizing parent with
  | nil => cases hfind
  | cons p children rest ihc ihr =>
    obtain ⟨hp, hc, hr⟩ := h
    simp only [find] at hfind
    simp only [onFound]
    split at hfind
    next hans =>
      cases hfind
      simp only [hans, if_true]
      exact ⟨hp, hf hc, hr⟩
    next hans =>
      simp only [hans, if_false]
      split at hfind
      next c hchild =>
        cases hfind
        simp only [hchild, Option.isSome_some, if_true]
        exact ⟨hp, onChild_held hc hchild hf, hr⟩
      next hchild =>
        simp only [hchild, Option.isSome_none]
        split at hfind
        next c hcf =>
          cases hfind
          simp only [hcf, Option.isSome_some, if_true]
          exact ⟨hp, ihc hc hcf, hr⟩
        next hcf =>
          simp only [hcf, Option.isSome_none]
          exact ⟨hp, hc, ihr hr hfind⟩

theorem Held.addChild (h : F.Held parent) (hp : p.parentUuid = parent) :
    (F.addChild p).Held parent := by
  induction F with
  | nil => exact ⟨hp, trivial, trivial⟩
  | cons q children rest _ ih =>
    simp only [Forest.addChild]
    split
    · exact ⟨hp, trivial, h.2.2⟩
    · exact ⟨h.1, h.2.1, ih h.2.2⟩

theorem Held.append (h : F.Held parent) (hp : p.parentUuid = parent) :
    (F.append p).Held parent := by
  induction F with
  | nil => exact ⟨hp, trivial, trivial⟩
  | cons q children rest _ ih => exact ⟨h.1, h.2.1, ih h.2.2⟩

theorem Held.removeChild (h : F.Held parent) : (F.removeChild search).Held parent := by
  induction F with
  | nil => trivial
  | cons q children rest _ ih =>
    simp only [Forest.removeChild]
    split
    · exact h.2.2
    · exact ⟨h.1, h.2.1, ih h.2.2⟩

theorem Held.removeRoot (h : F.Held parent) : (F.removeRoot search).Held parent := by
  induction F with
  | nil => trivial
  | cons q children rest _ ih =>
    simp only [Forest.removeRoot]
    split
    · exact h.2.2
    · exact ⟨h.1, h.2.1, ih h.2.2⟩

/-- From the top down, the parent of a provider comes before it. -/
theorem Held.parent_before (h : F.Held parent) {l₁ l₂ : List (Provider δ × Forest δ)}
    (hsplit : F.providers = l₁ ++ found :: l₂) :
    found.1.parentUuid = parent ∨
      ∃ q ∈ l₁, found.1.parentUuid = some q.1.uuid := by
  induction F generalizing parent l₁ l₂ with
  | nil => simp [providers] at hsplit
  | cons p children rest ihc ihr =>
    obtain ⟨hp, hc, hr⟩ := h
    simp only [providers] at hsplit
    rcases List.cons_eq_append_iff.mp hsplit with ⟨rfl, hhead⟩ | ⟨m, rfl, hm⟩
    · cases hhead
      exact .inl hp
    rcases List.append_eq_append_iff.mp hm with ⟨m', rfl, hrest⟩ | ⟨m', hchildren, hm'⟩
    · rcases ihr hr hrest with h' | ⟨q, hq, h'⟩
      · exact .inl h'
      · exact .inr ⟨q, by simp [hq], h'⟩
    · cases m' with
      | nil =>
        simp only [List.append_nil] at hchildren
        have hsplit' : rest.providers = [] ++ found :: l₂ := hm'.symm
        rcases ihr hr hsplit' with h' | ⟨q, hq, -⟩
        · exact .inl h'
        · cases hq
      | cons a m'' =>
        cases hm'
        rcases ihc hc hchildren with h' | ⟨q, hq, h'⟩
        · exact .inr ⟨(p, children), by simp, h'⟩
        · exact .inr ⟨q, by simp [hq], h'⟩

end Forest

/-! ## Trees in order -/

variable {F F' : Forest δ} {op : Op δ} {search : String}

/-- No provider is named as the uuid of another one. -/
def Apart (l : List (String × String)) : Prop := ∀ a ∈ l, ∀ b ∈ l, a.2 = b.1 → a.1 = b.1

theorem Apart.mono {l l' : List (String × String)} (h : Apart l) (hl : ∀ a ∈ l', a ∈ l) :
    Apart l' := fun a ha b hb => h a (hl a ha) b (hl b hb)

/-- What the operations keep, given names that stay apart from the uuids. -/
structure Orderly (F : Forest δ) : Prop where
  nodup : F.uuids.Nodup
  held : F.Held none
  apart : Apart F.labels
  named : "" ∉ F.uuids

theorem orderly_nil : Orderly (.nil : Forest δ) where
  nodup := List.nodup_nil
  held := trivial
  apart := by simp [Apart]
  named := by simp [Forest.uuids, Forest.providers]

/-- Two providers with one uuid are one. -/
theorem Orderly.unique (h : Orderly F) {a b : Provider δ × Forest δ} (ha : a ∈ F.providers)
    (hb : b ∈ F.providers) (heq : a.1.uuid = b.1.uuid) : a = b :=
  List.inj_on_of_nodup_map h.nodup ha hb heq

/-- What goes by a uuid that no name in the tree is has this uuid. -/
theorem uuid_of_find {found : Provider δ × Forest δ}
    (hname : ∀ l ∈ F.labels, l.2 = search → l.1 = search)
    (hfind : F.find search = some found) : found ∈ F.providers ∧ found.1.uuid = search := by
  obtain ⟨hmem, hans⟩ := Forest.mem_of_find hfind
  rcases hans with hans | hans
  · exact ⟨hmem, hname _ (Forest.mem_labels hmem) hans⟩
  · exact ⟨hmem, hans⟩

/-- A lookup by uuid finds the provider of this uuid. -/
theorem Orderly.find_uuid (h : Orderly F) {found : Provider δ × Forest δ}
    (hmem : found ∈ F.providers) : F.find found.1.uuid = some found := by
  obtain ⟨other, hother⟩ := Forest.exists_find hmem (.inr rfl)
  have hname : ∀ l ∈ F.labels, l.2 = found.1.uuid → l.1 = found.1.uuid :=
    fun l hl heq => h.apart l hl _ (Forest.mem_labels hmem) heq
  obtain ⟨hmem', heq⟩ := uuid_of_find hname hother
  rw [hother, h.unique hmem' hmem heq]

theorem Orderly.of_labels (h : Orderly F) (hheld : F'.Held none)
    (hl : F'.labels.Sublist F.labels) : Orderly F' where
  nodup := by
    have hn := h.nodup
    rw [Forest.uuids_eq] at hn ⊢
    exact hn.sublist (hl.map _)
  held := hheld
  apart := h.apart.mono fun a ha => hl.subset ha
  named := by
    have hn := h.named
    rw [Forest.uuids_eq] at hn ⊢
    exact fun hmem => hn ((hl.map _).subset hmem)

/-- A provider whose uuid is new comes in. -/
theorem Orderly.insert (h : Orderly F) {u n : String} (hheld : F'.Held none)
    (hl : F'.labels.Perm ((u, n) :: F.labels)) (hu : u ∉ F.uuids) (hne : u ≠ "")
    (ha : Apart (F.labels ++ [(u, n)])) : Orderly F' where
  nodup := by
    rw [Forest.uuids_eq, (hl.map _).nodup_iff]
    rw [Forest.uuids_eq] at hu
    exact List.nodup_cons.mpr ⟨hu, Forest.uuids_eq (F := F) ▸ h.nodup⟩
  held := hheld
  apart := ha.mono fun a ha' => by simpa [or_comm] using hl.subset ha'
  named := by
    rw [Forest.uuids_eq, (hl.map _).mem_iff]
    have hn := h.named
    rw [Forest.uuids_eq] at hn
    simp only [List.map_cons, List.mem_cons, not_or]
    exact ⟨Ne.symm hne, hn⟩

/-! ## Removing -/

theorem wp_findWithLock {Q : Result TreeError (Provider δ × Forest δ) → Forest δ → Prop}
    (hsome : ∀ found, F.find search = some found → Q (.ok found) F)
    (hnone : F.find search = none → Q (.raise (.noSuchProvider search)) F) :
    wp (findWithLock search) Q F := by
  unfold findWithLock
  simp only [wp_bind, wp_read, seqPost_ok, id]
  cases hf : F.find search with
  | none => exact hnone hf
  | some found => exact hsome found hf

/-- What a removal leaves. -/
def Removed (F : Forest δ) (search : String) (r : Result TreeError Unit) (F' : Forest δ) : Prop :=
  (F.find search = none ∧ r = .raise (.noSuchProvider search) ∧ F' = F) ∨
  ∃ found, F.find search = some found ∧ r = .ok () ∧
    Forest.Cut found.1.uuid F.labels F'.labels ∧ F'.Held none

theorem wp_removeFromRoots (h : Orderly F) {found : Provider δ × Forest δ}
    (hfind : F.find search = some found) (hnone : found.1.parentUuid = none) :
    wp (removeFromRoots search) (Removed F search) F := by
  have hroot := h.held.findsRoot hfind hnone
  simp only [removeFromRoots, wp_bind, wp_read, seqPost_ok, id, hroot, if_true]
  exact .inr ⟨found, hfind, rfl, Forest.removeRoot_labels hroot hfind, h.held.removeRoot⟩

theorem wp_removeWithLock (h : Orderly F) :
    wp (removeWithLock search) (Removed F search) F := by
  simp only [removeWithLock, wp_bind]
  apply wp_findWithLock
  · intro found hfind
    obtain ⟨hmem, -⟩ := Forest.mem_of_find hfind
    simp only [seqPost_ok]
    cases hparent : found.1.parentUuid with
    | none => exact wp_removeFromRoots h hfind hparent
    | some parentUuid =>
      obtain ⟨q, hq, heq, hchild⟩ : ∃ q ∈ F.providers, parentUuid = q.1.uuid ∧
          (q.2.child found.1.uuid).isSome := by
        rcases h.held.holder hmem with h' | ⟨q, hq, h', hchild⟩
        · rw [hparent] at h'
          cases h'
        · rw [hparent] at h'
          cases h'
          exact ⟨q, hq, rfl, hchild⟩
      have hne : parentUuid ≠ "" := by
        intro hempty
        exact h.named (hempty ▸ heq ▸ Forest.mem_uuids hq)
      simp only [hne, if_false, wp_bind]
      have hfindq : F.find parentUuid = some q := heq ▸ h.find_uuid hq
      apply wp_findWithLock
      · intro other hother
        rw [hfindq] at hother
        cases hother
        obtain ⟨l₁, l₂, hF, hF'⟩ :=
          Forest.onFound_labels (f := (·.removeChild found.1.uuid)) hfindq
        right
        refine ⟨found, hfind, rfl, ?_, ?_⟩
        · show Forest.Cut _ F.labels (F.onFound parentUuid _).labels
          rw [hF, hF']
          exact (Forest.removeChild_labels hchild).within l₁ l₂
        · exact Forest.onFound_held h.held hfindq fun hq => hq.removeChild
      · intro hnone
        rw [hfindq] at hnone
        cases hnone
  · intro hnone
    exact .inl ⟨hnone, rfl, rfl⟩

theorem Removed.orderly {r : Result TreeError Unit} (h : Orderly F)
    (hr : Removed F search r F') : Orderly F' := by
  rcases hr with ⟨-, -, rfl⟩ | ⟨found, -, -, hcut, hheld⟩
  · exact h
  · exact h.of_labels hheld hcut.sublist

theorem Removed.ne_halt {r : Result TreeError Unit} (hr : Removed F search r F') : r ≠ .halt := by
  rcases hr with ⟨-, rfl, -⟩ | ⟨-, -, rfl, -, -⟩
  · intro hhalt
    cases hhalt
  · intro hhalt
    cases hhalt

theorem Removed.sublist {r : Result TreeError Unit} (hr : Removed F search r F') :
    F'.labels.Sublist F.labels := by
  rcases hr with ⟨-, -, rfl⟩ | ⟨found, -, -, hcut, -⟩
  · exact List.Sublist.refl _
  · exact hcut.sublist

/-- A uuid that no name is goes with its removal, if it was there at all. -/
theorem Removed.not_mem {r : Result TreeError Unit} (h : Orderly F)
    (hname : ∀ l ∈ F.labels, l.2 = search → l.1 = search) (hr : Removed F search r F') :
    search ∉ F'.uuids := by
  rcases hr with ⟨hnone, -, rfl⟩ | ⟨found, hfind, -, hcut, -⟩
  · intro hmem
    obtain ⟨found, hfound, heq⟩ := List.mem_map.mp hmem
    exact Forest.not_answers_of_find hnone found hfound (.inr heq)
  · obtain ⟨-, heq⟩ := uuid_of_find hname hfind
    rw [Forest.uuids_eq, ← heq]
    apply hcut.not_mem
    rw [← Forest.uuids_eq]
    exact h.nodup

/-! ## Adding -/

theorem Orderly.append (h : Orderly F) {p : Provider δ} (hparent : p.parentUuid = none)
    (hu : p.uuid ∉ F.uuids) (hne : p.uuid ≠ "") (ha : Apart (F.labels ++ [(p.uuid, p.name)])) :
    Orderly (F.append p) ∧ ∀ l ∈ (F.append p).labels, l ∈ F.labels ++ [(p.uuid, p.name)] := by
  constructor
  · apply h.insert (h.held.append hparent) _ hu hne ha
    rw [Forest.append_labels]
    exact List.perm_append_singleton ..
  · intro l hl
    rwa [Forest.append_labels] at hl

theorem Orderly.addBelow (h : Orderly F) {p : Provider δ} {found : Provider δ × Forest δ}
    (hfind : F.find search = some found) (hparent : p.parentUuid = some found.1.uuid)
    (hu : p.uuid ∉ F.uuids) (hne : p.uuid ≠ "") (ha : Apart (F.labels ++ [(p.uuid, p.name)])) :
    Orderly (F.onFound search (·.addChild p)) ∧
      ∀ l ∈ (F.onFound search (·.addChild p)).labels, l ∈ F.labels ++ [(p.uuid, p.name)] := by
  obtain ⟨l₁, l₂, hF, hF'⟩ := Forest.onFound_labels (f := (·.addChild p)) hfind
  have hbelow : p.uuid ∉ found.2.uuids := by
    rw [Forest.uuids_eq, hF] at hu
    rw [Forest.uuids_eq]
    simp only [List.map_append, List.mem_append, not_or] at hu
    exact hu.1.2
  rw [Forest.addChild_labels hbelow] at hF'
  have hperm : (F.onFound search (·.addChild p)).labels.Perm ((p.uuid, p.name) :: F.labels) := by
    rw [hF, hF']
    simpa using @List.perm_middle _ (p.uuid, p.name) (l₁ ++ found.2.labels) l₂
  constructor
  · exact h.insert (Forest.onFound_held h.held hfind fun hq => hq.addChild hparent) hperm hu hne ha
  · intro l hl
    simpa [or_comm] using hperm.subset hl

/-- The tree is in order, and nothing is in it but what was and what the labels allow. -/
def Grown (L : List (String × String)) (F : Forest δ) : Prop :=
  Orderly F ∧ ∀ l ∈ F.labels, l ∈ L

theorem wp_inject {L : List (String × String)} {pd : ProviderDict δ} (h : Grown L F)
    (hL : Apart L) (hpd : (pd.uuid, pd.name) ∈ L) (hne : pd.uuid ≠ "")
    (hparent : ∀ parent ∈ pd.parentProviderUuid, parent ∈ L.map Prod.fst) :
    wp (inject pd) (fun r F' => r ≠ .halt ∧ Grown L F') F := by
  have hname : ∀ l ∈ F.labels, l.2 = pd.uuid → l.1 = pd.uuid :=
    fun l hl heq => hL l (h.2 l hl) _ hpd heq
  rw [inject]
  apply wp_swallow_then
  refine wp_mono (wp_removeWithLock h.1) ?_
  intro r F₁ hr
  have hF₁ : Grown L F₁ := ⟨hr.orderly h.1, fun l hl => h.2 l (hr.sublist.subset hl)⟩
  have hu : pd.toProvider.uuid ∉ F₁.uuids := hr.not_mem h.1 hname
  have hsub : ∀ l ∈ F₁.labels ++ [(pd.uuid, pd.name)], l ∈ L := by
    intro l hl
    rcases List.mem_append.mp hl with hl | hl
    · exact hF₁.2 l hl
    · rw [List.mem_singleton.mp hl]
      exact hpd
  have ha := hL.mono hsub
  refine ⟨hr.ne_halt, ?_⟩
  cases heq : pd.parentProviderUuid with
  | none =>
    obtain ⟨ho, hl⟩ := hF₁.1.append (p := pd.toProvider) heq hu hne ha
    exact ⟨nofun, ho, fun l h' => hsub l (hl l h')⟩
  | some parent =>
    simp only [wp_bind]
    apply wp_findWithLock
    · intro found hfind
      obtain ⟨a, ha', hfst⟩ := List.mem_map.mp (hparent parent (Option.mem_def.mpr heq))
      have hfound : found.1.uuid = parent :=
        (uuid_of_find (fun l hl h' => by
          rw [← hfst]
          exact hL l (hF₁.2 l hl) a ha' (h'.trans hfst.symm)) hfind).2
      obtain ⟨ho, hl⟩ := hF₁.1.addBelow (p := pd.toProvider) hfind
        (by rw [hfound]; exact heq) hu hne ha
      exact ⟨nofun, ho, fun l h' => hsub l (hl l h')⟩
    · intro _
      exact ⟨nofun, hF₁⟩

theorem wp_injectAll {L : List (String × String)} (hL : Apart L) (n : Nat) :
    ∀ (toAdd : List (ProviderDict δ)) (F : Forest δ), Grown L F → toAdd.length ≤ n →
      (∀ pd ∈ toAdd, (pd.uuid, pd.name) ∈ L ∧ pd.uuid ≠ "" ∧
        ∀ parent ∈ pd.parentProviderUuid, parent ∈ L.map Prod.fst) →
      wp (injectAll n toAdd) (fun r F' => r ≠ .halt ∧ Grown L F') F := by
  induction n with
  | zero =>
    intro toAdd F hF hn _
    rw [List.length_eq_zero_iff.mp (Nat.le_zero.mp hn)]
    exact ⟨nofun, hF⟩
  | succ n ih =>
    intro toAdd F hF hn hadd
    cases toAdd with
    | nil => exact ⟨nofun, hF⟩
    | cons pd₀ pds =>
      simp only [injectAll]
      split
      · exact ⟨nofun, hF⟩
      next pd hpd =>
        have hmem := List.mem_of_find?_eq_some hpd
        obtain ⟨hlabel, hne, hparent⟩ := hadd pd hmem
        rw [wp_bind]
        refine wp_mono (wp_inject hF hL hlabel hne hparent) ?_
        intro r F₁ hr
        cases r with
        | ok _ =>
          apply ih _ F₁ hr.2
          · have hlt : ((pd₀ :: pds).filter (·.uuid ≠ pd.uuid)).length < (pd₀ :: pds).length := by
              apply List.length_filter_lt_length_iff_exists.mpr
              exact ⟨pd, hmem, by simp⟩
            omega
          · intro pd' hpd'
            exact hadd pd' (List.mem_of_mem_filter hpd')
        | raise e => exact ⟨nofun, hr.2⟩
        | halt => exact absurd rfl hr.1

theorem mem_of_byUuid {dicts : List (ProviderDict δ)} {pd : ProviderDict δ}
    (h : pd ∈ byUuid dicts) : pd ∈ dicts := by
  induction dicts with
  | nil => cases h
  | cons pd₀ pds ih =>
    simp only [byUuid, List.mem_cons] at h
    rcases h with rfl | h
    · cases hlast : pds.reverse.find? (·.uuid = pd₀.uuid) with
      | none => simp
      | some last =>
        have hmem := List.mem_of_find?_eq_some hlast
        simp only [List.mem_reverse] at hmem
        simp [hmem]
    · exact List.mem_cons_of_mem _ (ih (List.mem_of_mem_filter h))

/-- The parents of the dicts that are neither in the tree nor among them. -/
def missing (F : Forest δ) (toAdd : List (ProviderDict δ)) : List (Option String) :=
  (toAdd.map (·.parentProviderUuid)).filter fun parent =>
    parent.any fun uuid => uuid ∉ toAdd.map (·.uuid) ∧ uuid ∉ F.uuids

/-- Where no parent is missing, the labels have what the dicts are about. -/
theorem known_of_missing {dicts : List (ProviderDict δ)} (hne : ∀ pd ∈ dicts, pd.uuid ≠ "")
    (hmissing : missing F (byUuid dicts) = []) : ∀ pd ∈ byUuid dicts,
      (pd.uuid, pd.name) ∈ F.labels ++ dicts.map (fun pd => (pd.uuid, pd.name)) ∧ pd.uuid ≠ "" ∧
      ∀ parent ∈ pd.parentProviderUuid,
        parent ∈ (F.labels ++ dicts.map fun pd => (pd.uuid, pd.name)).map Prod.fst := by
  intro pd hpd
  refine ⟨?_, hne pd (mem_of_byUuid hpd), ?_⟩
  · apply List.mem_append_right
    exact List.mem_map_of_mem (f := fun pd => (pd.uuid, pd.name)) (mem_of_byUuid hpd)
  · intro parent hparent
    have hfound := List.filter_eq_nil_iff.mp hmissing _
      (List.mem_map_of_mem (f := (·.parentProviderUuid)) hpd)
    rw [Option.mem_def.mp hparent] at hfound
    simp only [Option.any_some, decide_eq_true_eq, not_and, not_not] at hfound
    simp only [List.map_append, List.mem_append, ← Forest.uuids_eq]
    by_cases hin : parent ∈ (byUuid dicts).map (·.uuid)
    · right
      obtain ⟨other, hother, heq⟩ := List.mem_map.mp hin
      simp only [List.map_map, List.mem_map]
      exact ⟨other, mem_of_byUuid hother, heq⟩
    · exact .inl (hfound hin)

theorem wp_populate {dicts : List (ProviderDict δ)} (h : Orderly F)
    (ha : Apart (F.labels ++ dicts.map fun pd => (pd.uuid, pd.name)))
    (hne : ∀ pd ∈ dicts, pd.uuid ≠ "") :
    wp (populateFromIterable dicts) (fun r F' => r ≠ .halt ∧ Orderly F') F := by
  simp only [populateFromIterable, wp_bind, wp_read, seqPost_ok, id]
  split
  · exact ⟨nofun, h⟩
  next hmissing =>
    have hF : Grown (F.labels ++ dicts.map fun pd => (pd.uuid, pd.name)) F :=
      ⟨h, fun l hl => List.mem_append_left _ hl⟩
    refine wp_mono (wp_injectAll ha _ (byUuid dicts) F hF (Nat.le_refl _)
      (known_of_missing hne (not_not.mp hmissing))) ?_
    intro r F' hr
    exact ⟨hr.1, hr.2.1⟩

theorem wp_newRoot {name uuid : String} {details : δ} (h : Orderly F)
    (ha : Apart (F.labels ++ [(uuid, name)])) (hne : uuid ≠ "") :
    wp (newRoot name uuid details) (fun r F' => r ≠ .halt ∧ Orderly F') F := by
  simp only [newRoot, wp_bind, wp_read, seqPost_ok, id]
  split
  · exact ⟨nofun, h⟩
  next hfind =>
    have hu : uuid ∉ F.uuids := by
      intro hmem
      obtain ⟨found, hfound, heq⟩ := List.mem_map.mp hmem
      obtain ⟨other, hother⟩ := Forest.exists_find hfound (.inr heq)
      exact hfind (by rw [hother]; rfl)
    obtain ⟨ho, -⟩ := h.append (p := ⟨uuid, name, none, details⟩) rfl hu hne ha
    exact ⟨nofun, ho⟩

/-! ## New children -/

variable {name parent made : String} {uuid : Option String} {details : δ}

namespace Op

/-- The uuids and names that an operation brings. -/
def labels : Op δ → List (String × String)
  | .newRoot name uuid _ => [(uuid, name)]
  | .newChild name _ uuid made _ => [(uuid.getD made, name)]
  | .remove _ => []
  | .populate dicts => dicts.map fun pd => (pd.uuid, pd.name)

/-- A uuid that is made up is a new one. -/
def Fresh : Op δ → Forest δ → Prop
  | .newChild _ _ none made _, F => made ∉ F.uuids
  | _, _ => True

/-- The names that come in are no uuids of other providers, the uuids no names of others, and no
uuid is empty. -/
structure Separate (op : Op δ) (F : Forest δ) : Prop where
  apart : Apart (F.labels ++ op.labels)
  named : ∀ l ∈ op.labels, l.1 ≠ ""

/-- A new child that comes with a uuid comes with a new name too, unless it is refused anyway. -/
def Distinct : Op δ → Forest δ → Prop
  | .newChild name parent (some uuid) _ _, F =>
      name ∈ F.labels.map Prod.snd → uuid ∈ F.uuids ∨ F.find parent = none
  | _, _ => True

end Op

instance (l : List (String × String)) : Decidable (Apart l) :=
  inferInstanceAs (Decidable (∀ a ∈ l, ∀ b ∈ l, a.2 = b.1 → a.1 = b.1))

section NewChild

variable {name parent made : String} {uuid : Option String} {details : δ}

/-- The uuid, or the name, is there already, or the parent is not. -/
def Taken (F : Forest δ) (name parent : String) (uuid : Option String) : Prop :=
  (∃ u ∈ uuid, u ∈ F.uuids) ∨ name ∈ F.labels.map Prod.snd ∨
    ∀ found ∈ F.providers, ¬ found.1.Answers parent

/-- It raises. -/
def Refused (F : Forest δ) (name parent : String) (uuid : Option String) (made : String)
    (details : δ) : Prop :=
  ∃ e, (newChild name parent uuid made details F).1 = .raise e

theorem find_eq_none_iff :
    F.find search = none ↔ ∀ found ∈ F.providers, ¬ found.1.Answers search := by
  constructor
  · exact Forest.not_answers_of_find
  · intro h
    cases hf : F.find search with
    | none => rfl
    | some found =>
      obtain ⟨hmem, hans⟩ := Forest.mem_of_find hf
      exact absurd hans (h found hmem)

theorem wp_newChild_raise :
    Refused F name parent uuid made details ↔
      (F.find (key name uuid)).isSome ∨ F.find parent = none := by
  have hwp : ∀ b : Prop, wp (newChild name parent uuid made details)
      (fun r _ => (∃ e, r = .raise e) ↔ b) F ↔
      (Refused F name parent uuid made details ↔ b) := fun b => Iff.rfl
  rw [← hwp]
  simp only [newChild, wp_bind, wp_read, seqPost_ok, id]
  split
  next hkey => exact ⟨fun _ => .inl hkey, fun _ => ⟨_, rfl⟩⟩
  next hkey =>
    rw [wp_bind]
    apply wp_findWithLock
    · intro found hfind
      constructor
      · rintro ⟨e, he⟩
        cases he
      · rintro (h | h)
        · exact absurd h hkey
        · rw [hfind] at h
          cases h
    · intro hnone
      exact ⟨fun _ => .inr hnone, fun _ => ⟨_, rfl⟩⟩

/-- The uuid, or the name where no uuid is given, decides. -/
theorem key_found_iff (hf : (Op.newChild name parent uuid made details).Fresh F)
    (hs : (Op.newChild name parent uuid made details).Separate F) :
    (F.find (key name uuid)).isSome ↔
      (∃ u ∈ uuid, u ∈ F.uuids) ∨ uuid = none ∧ name ∈ F.labels.map Prod.snd := by
  have hapart := hs.apart
  cases uuid with
  | none =>
    simp only [Option.mem_def, reduceCtorEq, false_and, exists_false, false_or, true_and, key]
    constructor
    · intro hsome
      obtain ⟨found, hfind⟩ := Option.isSome_iff_exists.mp hsome
      obtain ⟨hmem, hans⟩ := Forest.mem_of_find hfind
      rcases hans with hans | hans
      · exact List.mem_map.mpr ⟨_, Forest.mem_labels hmem, hans⟩
      · -- a provider with the name as its uuid
        have heq : made = found.1.uuid :=
          hapart (made, name) (by simp [Op.labels]) _
            (List.mem_append_left _ (Forest.mem_labels hmem)) hans.symm
        exact absurd (heq ▸ Forest.mem_uuids hmem) hf
    · intro hname
      obtain ⟨l, hl, heq⟩ := List.mem_map.mp hname
      obtain ⟨found, hfound, rfl⟩ := List.mem_map.mp hl
      obtain ⟨other, hother⟩ := Forest.exists_find hfound (.inl heq)
      rw [hother]
      rfl
  | some u =>
    have hne : u ≠ "" := hs.named (u, name) (by simp [Op.labels])
    simp only [Option.mem_def, Option.some.injEq, exists_eq_left', reduceCtorEq, false_and,
      or_false, key, hne, if_false]
    constructor
    · intro hsome
      obtain ⟨found, hfind⟩ := Option.isSome_iff_exists.mp hsome
      obtain ⟨hmem, heq⟩ := uuid_of_find (fun l hl h' =>
        hapart l (List.mem_append_left _ hl) (u, name) (by simp [Op.labels]) h') hfind
      have hu : found.1.uuid = u := heq
      exact hu ▸ Forest.mem_uuids hmem
    · intro hu
      obtain ⟨found, hfound, heq⟩ := List.mem_map.mp hu
      obtain ⟨other, hother⟩ := Forest.exists_find hfound (.inr heq)
      rw [hother]
      rfl

/-- `new_child` raises when it should, but for a name that is taken when a uuid is given. -/
theorem refused_iff (hf : (Op.newChild name parent uuid made details).Fresh F)
    (hs : (Op.newChild name parent uuid made details).Separate F) :
    (Refused F name parent uuid made details ↔ Taken F name parent uuid) ↔
      (Op.newChild name parent uuid made details).Distinct F := by
  rw [wp_newChild_raise, key_found_iff hf hs, Taken, ← find_eq_none_iff]
  cases uuid with
  | none => simp [Op.Distinct]
  | some u =>
    simp only [Option.mem_def, Option.some.injEq, exists_eq_left', reduceCtorEq, false_and,
      or_false, Op.Distinct]
    grind

theorem wp_newChild (h : Orderly F) (hf : (Op.newChild name parent uuid made details).Fresh F)
    (hs : (Op.newChild name parent uuid made details).Separate F) :
    wp (newChild name parent uuid made details) (fun r F' => r ≠ .halt ∧ Orderly F') F := by
  simp only [newChild, wp_bind, wp_read, seqPost_ok, id]
  split
  · exact ⟨nofun, h⟩
  next hkey =>
    rw [key_found_iff hf hs] at hkey
    have hu : uuid.getD made ∉ F.uuids := by
      cases uuid with
      | none => exact hf
      | some u =>
        intro hmem
        exact hkey (.inl ⟨u, rfl, hmem⟩)
    rw [wp_bind]
    apply wp_findWithLock
    · intro found hfind
      have hne : uuid.getD made ≠ "" := hs.named (uuid.getD made, name) (by simp [Op.labels])
      obtain ⟨ho, -⟩ := h.addBelow (p := ⟨uuid.getD made, name, some found.1.uuid, details⟩) hfind
        rfl hu hne hs.apart
      exact ⟨nofun, ho⟩
    · intro _
      exact ⟨nofun, h⟩

end NewChild

/-! ## Runs -/

theorem orderly_step (h : Orderly F) (hf : op.Fresh F) (hs : op.Separate F) :
    Orderly (step op F) := by
  have hstep : wp op.run (fun _ F' => Orderly F') F := by
    cases op with
    | newRoot name uuid details =>
      simp only [Op.run, wp_bind]
      refine wp_mono (wp_newRoot h hs.apart (hs.named (uuid, name) (by simp [Op.labels]))) ?_
      intro r F' hr
      cases r <;> exact hr.2
    | newChild name parent uuid made details =>
      simp only [Op.run, wp_bind]
      refine wp_mono (wp_newChild h hf hs) ?_
      intro r F' hr
      cases r <;> exact hr.2
    | remove search => exact wp_mono (wp_removeWithLock h) fun r F' hr => hr.orderly h
    | populate dicts =>
      refine wp_mono (wp_populate h hs.apart ?_) fun r F' hr => hr.2
      intro pd hpd
      exact hs.named (pd.uuid, pd.name) (List.mem_map_of_mem (f := fun pd => (pd.uuid, pd.name)) hpd)
  exact hstep

/-- What the other parts of the program take for granted of a provider tree. -/
structure Tidy (F : Forest δ) : Prop where
  /-- Every provider is reached once, and no two have one uuid. -/
  once : F.uuids.Nodup
  /-- The parent uuid of a provider is that of the one that holds it. -/
  held : F.Held none
  /-- A provider is listed after its parent. -/
  before : ∀ l₁ found l₂, F.providers = l₁ ++ found :: l₂ → ∀ u ∈ found.1.parentUuid,
    u ∈ l₁.map (·.1.uuid)
  /-- A lookup by the uuid of a provider finds it. -/
  found : ∀ found ∈ F.providers, F.find found.1.uuid = some found

theorem Orderly.tidy (h : Orderly F) : Tidy F where
  once := h.nodup
  held := h.held
  before l₁ found l₂ hsplit u hu := by
    rcases h.held.parent_before hsplit with hnone | ⟨q, hq, heq⟩
    · rw [hnone] at hu
      cases hu
    · rw [heq] at hu
      cases hu
      exact List.mem_map_of_mem (f := (·.1.uuid)) hq
  found _ := h.find_uuid

/-- An empty tree. -/
def Begun (F : Forest δ) : Prop := F = .nil

theorem orderly_of_reached
    (h : Reached Begun step (fun op F => op.Fresh F ∧ op.Separate F ∧ op.Distinct F) F) :
    Orderly F := by
  apply h.invariant
  · rintro F rfl
    exact orderly_nil
  · rintro op F ⟨hf, hs, -⟩ hF
    exact orderly_step hF hf hs

/-- Names that stay apart from the uuids keep the tree in order, and where `new_child` is given no
taken name with a uuid of its own it raises exactly when it should. -/
theorem tree_tidy (F : Forest δ)
    (h : Reached Begun step (fun op F => op.Fresh F ∧ op.Separate F ∧ op.Distinct F) F) :
    Tidy F ∧ ∀ name parent uuid made details,
      (Op.newChild name parent uuid made details).Fresh F →
      (Op.newChild name parent uuid made details).Separate F →
      (Op.newChild name parent uuid made details).Distinct F →
      (Refused F name parent uuid made details ↔ Taken F name parent uuid) := by
  constructor
  · exact (orderly_of_reached h).tidy
  · intro name parent uuid made details hf hs hd
    exact (refused_iff hf hs).mpr hd

/-- A root, a child with a uuid and one without, a second root, and the first child moved there. -/
def family : List (Op Unit) :=
  [.newRoot "host" "u1" (), .newChild "disk" "host" (some "u2") "" (),
    .newChild "card" "disk" none "u3" (), .newRoot "shared" "u4" (), .remove "card",
    .populate [⟨"u2", "disk", some "u4", ()⟩, ⟨"u4", "shared", none, ()⟩]]

theorem tree_tidy_family :
    Tidy (steps step family .nil) ∧
      (Refused (steps step family .nil) "card" "u4" (some "u5") "" () ↔
        Taken (steps step family .nil) "card" "u4" (some "u5")) := by
  have hallowed : Allowed step (fun op F => op.Fresh F ∧ op.Separate F ∧ op.Distinct F) family
      .nil :=
    ⟨⟨trivial, ⟨by decide +kernel, by decide⟩, trivial⟩,
      ⟨trivial, ⟨by decide +kernel, by decide⟩, fun h => absurd h (by decide +kernel)⟩,
      ⟨fun h => absurd h (by decide +kernel), ⟨by decide +kernel, by decide⟩, trivial⟩,
      ⟨trivial, ⟨by decide +kernel, by decide⟩, trivial⟩,
      ⟨trivial, ⟨by decide +kernel, by decide⟩, trivial⟩,
      ⟨trivial, ⟨by decide +kernel, by decide⟩, trivial⟩, trivial⟩
  have hbegun : Begun (.nil : Forest Unit) := rfl
  obtain ⟨htidy, hraise⟩ :=
    tree_tidy (steps step family .nil) ((Reached.init hbegun).steps hallowed)
  exact ⟨htidy, hraise "card" "u4" (some "u5") "" () trivial ⟨by decide +kernel, by decide⟩
    fun h => absurd h (by decide +kernel)⟩

/-- A root, and a child that is to bear its name. -/
theorem not_tree_tidy :
    ¬ ∀ F : Forest Unit, Reached Begun step Op.Fresh F →
      Tidy F ∧ ∀ name parent uuid made details,
        (Op.newChild name parent uuid made details).Fresh F →
        (Refused F name parent uuid made details ↔ Taken F name parent uuid) := by
  intro h
  have hallowed : Allowed step Op.Fresh [.newRoot "host" "u1" ()] (.nil : Forest Unit) :=
    ⟨trivial, trivial⟩
  have hbegun : Begun (.nil : Forest Unit) := rfl
  obtain ⟨-, hraise⟩ := h _ ((Reached.init hbegun).steps hallowed)
  obtain ⟨e, he⟩ :=
    (hraise "host" "u1" (some "u2") "" () trivial).mpr (.inr (.inl (by decide +kernel)))
  cases he

end Zun.ProviderTree
