import Zun.Data.Sweep

/-!
# Versions of the API

`api_version`, `check_for_versions_intersection` and `__getattribute__` of `Controller` in
`zun/api/controllers/base.py`, with the comparisons of `Version` in `zun/api/controllers/versions.py`.

Methods of one name are registered for ranges of versions.  Two of them are never to answer one request, which is
checked at each registration, and then the first in the list that has the version is taken.
-/

namespace Zun

open Sorting

namespace Api

/-! ## Versions -/

structure Version where
  major : Int
  minor : Int
deriving DecidableEq

namespace Version

def isNull (self : Version) : Bool := self.major = 0 && self.minor = 0

def lt (self other : Version) : Bool :=
  if self.major < other.major then true
  else if self.major = other.major && self.minor < other.minor then true
  else false

def gt (self other : Version) : Bool :=
  if self.major > other.major then true
  else if self.major = other.major && self.minor > other.minor then true
  else false

def eq (self other : Version) : Bool := self.major = other.major && self.minor = other.minor

def le (self other : Version) : Bool := self.lt other || self.eq other

variable {a b : Version}

theorem lt_iff : a.lt b = true ↔ a.major < b.major ∨ a.major = b.major ∧ a.minor < b.minor := by
  simp only [lt, Bool.and_eq_true, decide_eq_true_eq]
  split
  · next h => simp [h]
  · next h => split <;> simp_all

theorem eq_iff : a.eq b = true ↔ a.major = b.major ∧ a.minor = b.minor := by
  simp only [eq, Bool.and_eq_true, decide_eq_true_eq]

theorem le_iff : a.le b = true ↔ a.major < b.major ∨ a.major = b.major ∧ a.minor ≤ b.minor := by
  rw [le, Bool.or_eq_true, lt_iff, eq_iff]
  omega

/-- The comparisons are those of one order. -/
instance : LinearOrder Version where
  le a b := a.le b = true
  lt a b := a.lt b = true
  le_refl a := le_iff.mpr (.inr ⟨rfl, le_refl _⟩)
  le_trans a b c := by
    simp only [le_iff]
    omega
  lt_iff_le_not_ge a b := by
    simp only [le_iff, lt_iff]
    omega
  le_antisymm a b hab hba := by
    obtain ⟨major, minor⟩ := a
    obtain ⟨major', minor'⟩ := b
    simp only [le_iff] at hab hba
    rw [mk.injEq]
    omega
  le_total a b := by
    simp only [le_iff]
    omega
  toDecidableLE a b := inferInstanceAs (Decidable (a.le b = true))
  toDecidableLT a b := inferInstanceAs (Decidable (a.lt b = true))
  toDecidableEq := inferInstance

inductive ValueError where
  | nullVersion
deriving DecidableEq

/-- `MIN_VER` and `MAX_VER`. -/
def minVer : Version := ⟨1, 1⟩

def maxVer : Version := ⟨1, 62⟩

/-- `_check_version`, which each request has passed. -/
def checkVersion (version : Version) : Bool :=
  version.major = 1 && !(version.lt minVer || version.gt maxVer)

/-- `matches`. -/
def answers (self start finish : Version) : Except ValueError Bool :=
  if self.isNull then .error .nullVersion else .ok (start.le self && self.le finish)

end Version

/-! ## The versions of a method -/

/-- `VersionedMethod`. -/
structure Method (F : Type) where
  name : String
  startVersion : Version
  endVersion : Version
  func : F

variable {F : Type}

/-- The versioned methods of a controller by their names. -/
abbrev FuncDict (F : Type) := String → List (Method F)

def pairs (funcList : List (Method F)) : List (Version × Int) :=
  funcList.flatMap fun f => [(f.startVersion, 1), (f.endVersion, -1)]

def checkForVersionsIntersection (funcList : List (Method F)) : Bool :=
  Sweep.exceeds 0 (sortBy (fun p => p.1) (sortBy (fun p => OrderDual.toDual p.2) (pairs funcList)))

structure ApiVersionsIntersect where
  name : String
  minVer : Version
  maxVer : Version
deriving DecidableEq

/-- `api_version` on a function.  One that is refused has been put into the list. -/
def apiVersion (dict : FuncDict F) (funcName : String) (f : F) (minVer : Version) (maxVer : Option Version) :
    FuncDict F × Option ApiVersionsIntersect :=
  let newFunc : Method F := ⟨funcName, minVer, maxVer.getD Version.maxVer, f⟩
  let funcList := dict funcName ++ [newFunc]
  if checkForVersionsIntersection funcList then
    (Function.update dict funcName funcList,
      some ⟨newFunc.name, newFunc.startVersion, newFunc.endVersion⟩)
  else
    (Function.update dict funcName (sortBy (fun g => OrderDual.toDual g.startVersion) funcList), none)

/-- What an attribute of the controller is. -/
inductive Attribute (F : Type) where
  | func (f : F)
  | noVersionMatch
  /-- It has no versions. -/
  | plain
deriving DecidableEq

/-- `version_select`. -/
def versionSelect (ver : Version) : List (Method F) → Except Version.ValueError (Attribute F)
  | [] => .ok .noVersionMatch
  | f :: funcList =>
      match ver.answers f.startVersion f.endVersion with
      | .error e => .error e
      | .ok true => .ok (.func f.func)
      | .ok false => versionSelect ver funcList

/-- `__getattribute__`, when the class has versioned methods. -/
def getattribute (dict : FuncDict F) (ver : Version) (key : String) :
    Except Version.ValueError (Attribute F) :=
  if dict key ≠ [] then versionSelect ver (dict key) else .ok .plain

/-! ## Ranges that meet -/

/-- They have a version in common. -/
def Method.Meet (f g : Method F) : Prop :=
  ∃ v, (f.startVersion ≤ v ∧ v ≤ f.endVersion) ∧ g.startVersion ≤ v ∧ v ≤ g.endVersion

/-- The range is not empty. -/
def Method.Ranges (f : Method F) : Prop := f.startVersion ≤ f.endVersion

instance (f : Method F) : Decidable f.Ranges :=
  inferInstanceAs (Decidable (f.startVersion.le f.endVersion = true))

/-- The check finds methods that have a version in common, and nothing else. -/
theorem intersection_iff {funcList : List (Method F)} (h : ∀ f ∈ funcList, f.Ranges) :
    checkForVersionsIntersection funcList = true ↔ ¬ funcList.Pairwise fun f g => ¬ f.Meet g := by
  have hperm := (sortBy_ordered (fun p : Version × Int => p.1)
    (sortBy (fun p => OrderDual.toDual p.2) (pairs funcList))).perm.trans
      (sortBy_ordered (fun p : Version × Int => OrderDual.toDual p.2) (pairs funcList)).perm
  exact Sweep.exceeds_iff_meet Method.startVersion Method.endVersion h hperm
    (Sweep.inOrder_sortBy (pairs funcList))

/-! ## What is registered -/

/-- A decorated function. -/
structure Registration (F : Type) where
  funcName : String
  func : F
  minVer : Version
  maxVer : Option Version

def Registration.method (r : Registration F) : Method F :=
  ⟨r.funcName, r.minVer, r.maxVer.getD Version.maxVer, r.func⟩

/-- The functions are decorated one after the other, up to the first that is refused. -/
def register (dict : FuncDict F) : List (Registration F) → Except ApiVersionsIntersect (FuncDict F)
  | [] => .ok dict
  | r :: rs =>
      match apiVersion dict r.funcName r.func r.minVer r.maxVer with
      | (_, some e) => .error e
      | (dict, none) => register dict rs

/-- The registered methods of a name that a version is in the range of. -/
def answering (rs : List (Registration F)) (key : String) (ver : Version) : List (Method F) :=
  ((rs.filter fun r => r.funcName = key).map Registration.method).filter
    fun f => f.startVersion.le ver && ver.le f.endVersion

/-- The attribute that the methods with the version in their range make. -/
def attributeOf : List (Method F) → Attribute F
  | [] => .noVersionMatch
  | f :: _ => .func f.func

section

variable {dict dict' : FuncDict F} {rs : List (Registration F)} {r : Registration F} {ver : Version} {key : String}

theorem apiVersion_eq_none (h : apiVersion dict r.funcName r.func r.minVer r.maxVer = (dict', none)) :
    checkForVersionsIntersection (dict r.funcName ++ [r.method]) = false ∧
      dict' = Function.update dict r.funcName
        (sortBy (fun g => OrderDual.toDual g.startVersion) (dict r.funcName ++ [r.method])) := by
  simp only [apiVersion] at h
  split at h
  · cases congrArg Prod.snd h
  · next hcheck => exact ⟨Bool.eq_false_iff.mpr hcheck, (congrArg Prod.fst h).symm⟩

/-- What a dictionary of methods has to be like. -/
structure Apart (dict : FuncDict F) : Prop where
  ranges : ∀ key, ∀ f ∈ dict key, f.Ranges
  disjoint : ∀ key, (dict key).Pairwise fun f g => ¬ f.Meet g

theorem Method.Meet.symm {f g : Method F} (h : f.Meet g) : g.Meet f := by
  obtain ⟨v, hf, hg⟩ := h
  exact ⟨v, hg, hf⟩

theorem disjoint_perm {l l' : List (Method F)} (h : l.Perm l') :
    (l.Pairwise fun f g => ¬ f.Meet g) ↔ l'.Pairwise fun f g => ¬ f.Meet g :=
  h.pairwise_iff fun {_ _} hfg hgf => hfg hgf.symm

/-- One registration keeps the ranges apart and adds its method. -/
theorem apiVersion_apart (h : Apart dict) (hr : r.method.Ranges)
    (hapi : apiVersion dict r.funcName r.func r.minVer r.maxVer = (dict', none)) :
    Apart dict' ∧ ∀ key, (dict' key).Perm (dict key ++ if r.funcName = key then [r.method] else []) := by
  obtain ⟨hcheck, rfl⟩ := apiVersion_eq_none hapi
  have hsort := (sortBy_ordered (fun g : Method F => OrderDual.toDual g.startVersion)
    (dict r.funcName ++ [r.method])).perm
  have hranges : ∀ f ∈ dict r.funcName ++ [r.method], f.Ranges := by
    intro f hf
    rcases List.mem_append.mp hf with hf | hf
    · exact h.ranges _ f hf
    · rw [List.mem_singleton.mp hf]
      exact hr
  have hdisjoint : (dict r.funcName ++ [r.method]).Pairwise fun f g => ¬ f.Meet g := by
    by_contra hmeet
    rw [(intersection_iff hranges).mpr hmeet] at hcheck
    cases hcheck
  refine ⟨⟨fun key => ?_, fun key => ?_⟩, fun key => ?_⟩
  · by_cases hkey : key = r.funcName
    · subst hkey
      rw [Function.update_self]
      exact fun f hf => hranges f (hsort.mem_iff.mp hf)
    · rw [Function.update_of_ne hkey]
      exact h.ranges key
  · by_cases hkey : key = r.funcName
    · subst hkey
      rw [Function.update_self]
      exact (disjoint_perm hsort).mpr hdisjoint
    · rw [Function.update_of_ne hkey]
      exact h.disjoint key
  · by_cases hkey : key = r.funcName
    · subst hkey
      rw [Function.update_self, if_pos rfl]
      exact hsort
    · rw [Function.update_of_ne hkey, if_neg (Ne.symm hkey), List.append_nil]

/-- All registrations keep the ranges apart, and the methods of a name are those that were registered for it. -/
theorem register_apart (h : Apart dict) (hrs : ∀ r ∈ rs, r.method.Ranges) (hreg : register dict rs = .ok dict') :
    Apart dict' ∧ ∀ key, (dict' key).Perm
      (dict key ++ (rs.filter fun r => r.funcName = key).map Registration.method) := by
  induction rs generalizing dict with
  | nil =>
      obtain rfl := Except.ok.inj hreg
      exact ⟨h, fun key => by simp⟩
  | cons r rs ih =>
      cases hapi : apiVersion dict r.funcName r.func r.minVer r.maxVer with
      | mk dict₁ refusal =>
          cases refusal with
          | some e => simp only [register, hapi, reduceCtorEq] at hreg
          | none =>
              simp only [register, hapi] at hreg
              obtain ⟨hapart, hperm⟩ := apiVersion_apart h (hrs r (List.mem_cons_self ..)) hapi
              obtain ⟨hapart', hperm'⟩ := ih hapart (fun r hr => hrs r (List.mem_cons_of_mem _ hr)) hreg
              refine ⟨hapart', fun key => (hperm' key).trans ?_⟩
              refine ((hperm key).append_right _).trans ?_
              by_cases hkey : r.funcName = key
              · simp [hkey]
              · simp [hkey]

/-- In the list the first method with the version in its range is taken. -/
theorem versionSelect_eq (hver : ver.isNull = false) (funcList : List (Method F)) :
    versionSelect ver funcList =
      .ok (attributeOf (funcList.filter fun f => f.startVersion.le ver && ver.le f.endVersion)) := by
  induction funcList with
  | nil => rfl
  | cons f funcList ih =>
      simp only [versionSelect, Version.answers, hver, Bool.false_eq_true, if_false]
      cases hf : f.startVersion.le ver && ver.le f.endVersion with
      | true => simp [hf, attributeOf]
      | false => simp [hf, ih]

/-- Of methods whose ranges are apart at most one has a version. -/
theorem length_filter_le_one (ver : Version) {funcList : List (Method F)} (h : funcList.Pairwise fun f g => ¬ f.Meet g) :
    (funcList.filter fun f => f.startVersion.le ver && ver.le f.endVersion).length ≤ 1 := by
  by_contra hlong
  refine (Sweep.exists_two_covers_iff Method.startVersion Method.endVersion funcList).mp ⟨ver, ?_⟩ h
  have hcount : (funcList.filter fun f => f.startVersion.le ver && ver.le f.endVersion).length =
      funcList.countP fun f => Sweep.Covers Method.startVersion Method.endVersion ver f := by
    rw [List.countP_eq_length_filter]
    refine congrArg List.length (List.filter_congr fun f _ => ?_)
    rw [Bool.eq_iff_iff, Bool.and_eq_true, decide_eq_true_eq]
    exact Iff.rfl
  omega

/-- Lists of at most one element that are permutations are the same list. -/
theorem eq_of_perm_of_length_le_one {l l' : List (Method F)} (h : l.Perm l') (hl : l.length ≤ 1) : l = l' := by
  cases l with
  | nil => exact (List.nil_perm.mp h).symm
  | cons f l =>
      obtain rfl := List.length_eq_zero_iff.mp (Nat.le_zero.mp (Nat.le_of_succ_le_succ hl))
      exact List.singleton_perm.mp h

theorem empty_apart : Apart (fun _ => [] : FuncDict F) :=
  ⟨fun _ _ hf => absurd hf List.not_mem_nil, fun _ => List.Pairwise.nil⟩

/-- The methods of a name that have been registered, and those that a dictionary has. -/
theorem answering_eq (hrs : ∀ r ∈ rs, r.method.Ranges) (hreg : register (fun _ => []) rs = .ok dict) (key : String)
    (ver : Version) : (answering rs key ver).length ≤ 1 ∧
      (dict key).filter (fun f => f.startVersion.le ver && ver.le f.endVersion) = answering rs key ver := by
  obtain ⟨hapart, hperm⟩ := register_apart empty_apart hrs hreg
  have hfilter := (hperm key).filter fun f => f.startVersion.le ver && ver.le f.endVersion
  have hone := length_filter_le_one ver (hapart.disjoint key)
  exact ⟨hfilter.length_eq ▸ hone, eq_of_perm_of_length_le_one hfilter hone⟩

end

/-- Two methods that have a version in common are found, whatever else is there; and of methods that have been
registered under one name at most one has a requested version, and that one is taken, in whatever order they were
registered. -/
theorem selects_one :
    (∀ funcList : List (Method F), (∀ f ∈ funcList, f.Ranges) →
      (checkForVersionsIntersection funcList = true ↔ ¬ funcList.Pairwise fun f g => ¬ f.Meet g)) ∧
    ∀ (rs : List (Registration F)) (dict : FuncDict F), (∀ r ∈ rs, r.method.Ranges) →
      register (fun _ => []) rs = .ok dict →
      ∀ (key : String) (ver : Version), (∃ r ∈ rs, r.funcName = key) → ver.isNull = false →
        (answering rs key ver).length ≤ 1 ∧
        getattribute dict ver key = .ok (attributeOf (answering rs key ver)) ∧
        ∀ (rs' : List (Registration F)) (dict' : FuncDict F), rs'.Perm rs →
          register (fun _ => []) rs' = .ok dict' → getattribute dict' ver key = getattribute dict ver key := by
  refine ⟨fun funcList => intersection_iff, fun rs dict hrs hreg key ver hkey hver => ?_⟩
  have hget : ∀ {rs : List (Registration F)} {dict : FuncDict F}, (∀ r ∈ rs, r.method.Ranges) →
      register (fun _ => []) rs = .ok dict → (∃ r ∈ rs, r.funcName = key) →
      getattribute dict ver key = .ok (attributeOf (answering rs key ver)) := by
    intro rs dict hrs hreg hkey
    obtain ⟨r, hr, hname⟩ := hkey
    have hne : dict key ≠ [] := by
      intro hnil
      have hperm := (register_apart empty_apart hrs hreg).2 key
      rw [hnil] at hperm
      have hmem : r ∈ rs.filter fun r => r.funcName = key := List.mem_filter.mpr ⟨hr, decide_eq_true hname⟩
      have hmethod := hperm.mem_iff.mpr (List.mem_append_right _ (List.mem_map_of_mem hmem))
      cases hmethod
    rw [getattribute, if_pos hne, versionSelect_eq hver, (answering_eq hrs hreg key ver).2]
  refine ⟨(answering_eq hrs hreg key ver).1, hget hrs hreg hkey, fun rs' dict' hperm hreg' => ?_⟩
  have hrs' : ∀ r ∈ rs', r.method.Ranges := fun r hr => hrs r (hperm.mem_iff.mp hr)
  have hkey' : ∃ r ∈ rs', r.funcName = key := by
    obtain ⟨r, hr, hname⟩ := hkey
    exact ⟨r, hperm.mem_iff.mpr hr, hname⟩
  have hsame : answering rs' key ver = answering rs key ver := by
    refine eq_of_perm_of_length_le_one ?_ (answering_eq hrs' hreg' key ver).1
    exact ((hperm.filter _).map _).filter _
  rw [hget hrs hreg hkey, hget hrs' hreg' hkey', hsame]

/-- Two of the versions of `get_all`. -/
def getAll : List (Registration String) :=
  [⟨"get_all", "get_all_1", ⟨1, 1⟩, some ⟨1, 31⟩⟩, ⟨"get_all", "get_all_2", ⟨1, 32⟩, none⟩]

theorem selects_one_getAll : ∃ dict, register (fun _ => []) getAll = .ok dict ∧
    getattribute dict ⟨1, 32⟩ "get_all" = .ok (.func "get_all_2") := by
  refine ⟨_, rfl, ?_⟩
  exact (selects_one.2 getAll _ (by decide) rfl "get_all" ⟨1, 32⟩ ⟨_, List.mem_cons_self .., rfl⟩ rfl).2.1.trans rfl

end Api

end Zun
