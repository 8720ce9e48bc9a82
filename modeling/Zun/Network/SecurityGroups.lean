import Mathlib.Data.List.Nodup
import Mathlib.Data.List.Perm.Subperm

/-!
# Security groups by name or id

`get_security_group_ids` of `zun/common/utils.py`.  Whether every entry of a list matches a group is judged by
two lengths: that of the list, and the number of groups that some entry matches.  A group that is asked for
twice makes the first one longer, a name that two groups have the second one.

What is returned is right in any case.  What can go wrong is when something is returned at all.
-/

namespace Zun

namespace SecurityGroups

/-! ## The model -/

structure Group where
  id : String
  name : String
deriving DecidableEq

/-- The groups of a project, as `list_security_groups` lists them. -/
structure Project where
  groups : List Group
  /-- Neutron gives every group an id of its own. -/
  ids : (groups.map (·.id)).Nodup

/-- `ZunException`, with the list that was asked for. -/
inductive Error where
  | notFound (securityGroups : List String)
deriving DecidableEq

/-- An entry of a request matches a group by its name or its id. -/
def Group.matched (g : Group) (entry : String) : Prop := g.name = entry ∨ g.id = entry

instance (g : Group) (entry : String) : Decidable (g.matched entry) :=
  inferInstanceAs (Decidable (_ ∨ _))

/-- `item['name'] in security_groups or item['id'] in security_groups`. -/
def Group.asked (securityGroups : List String) (g : Group) : Bool :=
  g.name ∈ securityGroups || g.id ∈ securityGroups

/-- `get_security_group_ids`. -/
def getSecurityGroupIds (project : Project) : Option (List String) → Except Error (Option (List String))
  | none => .ok none
  | some [] => .ok (some [])
  | some securityGroups =>
      let ids := (project.groups.filter (·.asked securityGroups)).map (·.id)
      if securityGroups.length ≤ ids.length then .ok (some ids)
      else .error (.notFound securityGroups)

/-! ## What is claimed -/

/-- The entry matches a group of the project. -/
def Known (project : Project) (entry : String) : Prop := ∃ g ∈ project.groups, g.matched entry

instance (project : Project) (entry : String) : Decidable (Known project entry) :=
  inferInstanceAs (Decidable (∃ g ∈ project.groups, g.matched entry))

/-- The ids are those of the groups that were asked for. -/
structure Answers (project : Project) (securityGroups ids : List String) : Prop where
  all : ∀ entry ∈ securityGroups, ∃ g ∈ project.groups, g.id ∈ ids ∧ g.matched entry
  others : ∀ id ∈ ids, ∃ g ∈ project.groups, g.id = id ∧ ∃ entry ∈ securityGroups, g.matched entry
  nodup : ids.Nodup

/-- It raises when an entry matches no group, and answers otherwise. -/
structure Resolves (project : Project) (securityGroups : List String) : Prop where
  raises : (∃ e, getSecurityGroupIds project (some securityGroups) = .error e) ↔
    ∃ entry ∈ securityGroups, ¬ Known project entry
  answers : ∀ ids, getSecurityGroupIds project (some securityGroups) = .ok ids →
    ∃ l, ids = some l ∧ Answers project securityGroups l

/-- The groups that some entry matches. -/
def found (project : Project) (securityGroups : List String) : List Group :=
  project.groups.filter (·.asked securityGroups)

section

variable {project : Project} {securityGroups : List String} {g : Group}

theorem asked_iff : g.asked securityGroups = true ↔ ∃ entry ∈ securityGroups, g.matched entry := by
  simp only [Group.asked, Bool.or_eq_true, decide_eq_true_eq, Group.matched]
  constructor
  · rintro (h | h)
    · exact ⟨g.name, h, .inl rfl⟩
    · exact ⟨g.id, h, .inr rfl⟩
  · rintro ⟨entry, hentry, rfl | rfl⟩
    · exact .inl hentry
    · exact .inr hentry

theorem getSecurityGroupIds_eq : getSecurityGroupIds project (some securityGroups) =
    if securityGroups.length ≤ (found project securityGroups).length then
      .ok (some ((found project securityGroups).map (·.id)))
    else .error (.notFound securityGroups) := by
  cases securityGroups with
  | nil => simp [getSecurityGroupIds, found, Group.asked]
  | cons entry entries =>
      simp only [getSecurityGroupIds, List.length_map]
      rfl

/-- A list resolves to a list, if it resolves. -/
theorem exists_ids {ids : Option (List String)} (h : getSecurityGroupIds project (some securityGroups) = .ok ids) :
    ∃ l, ids = some l := by
  rw [getSecurityGroupIds_eq] at h
  by_cases hle : securityGroups.length ≤ (found project securityGroups).length
  · rw [if_pos hle] at h
    exact ⟨_, (Except.ok.inj h).symm⟩
  · rw [if_neg hle] at h
    cases h

theorem ids_nodup {ids : List String} (h : getSecurityGroupIds project (some securityGroups) = .ok (some ids)) :
    ids.Nodup := by
  rw [getSecurityGroupIds_eq] at h
  by_cases hle : securityGroups.length ≤ (found project securityGroups).length
  · rw [if_pos hle] at h
    cases h
    exact project.ids.sublist (List.filter_sublist.map _)
  · rw [if_neg hle] at h
    cases h

/-- The ids that are returned are right for every entry that is known. -/
theorem answers_of_known (h : ∀ entry ∈ securityGroups, Known project entry) :
    Answers project securityGroups ((found project securityGroups).map (·.id)) where
  all := by
    intro entry hentry
    obtain ⟨g, hg, hmatched⟩ := h entry hentry
    have hfound : g ∈ found project securityGroups :=
      List.mem_filter.mpr ⟨hg, asked_iff.mpr ⟨entry, hentry, hmatched⟩⟩
    exact ⟨g, hg, List.mem_map_of_mem hfound, hmatched⟩
  others := by
    intro id hid
    obtain ⟨g, hg, rfl⟩ := List.mem_map.mp hid
    obtain ⟨hgroup, hasked⟩ := List.mem_filter.mp hg
    exact ⟨g, hgroup, rfl, asked_iff.mp hasked⟩
  nodup := project.ids.sublist (List.filter_sublist.map _)

end

/-- Two groups of the name `web`. -/
def twoOfAName : Project where
  groups := [{ id := "g1", name := "web" }, { id := "g2", name := "web" }]
  ids := by decide

end SecurityGroups

end Zun
