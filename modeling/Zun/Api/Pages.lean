import Mathlib.Data.PNat.Basic
import Mathlib.Data.Prod.Lex
import Mathlib.Order.OrderDual
import Mathlib.Order.WithBot
import Zun.Data.Paging
import Zun.Db.Api

/-!
# The pages of a listing

`_get_containers_collection` of `zun/api/controllers/v1/containers.py`, `list_containers` of
`zun/db/sqlalchemy/api.py` and `get_next` of `zun/api/controllers/v1/collection.py`.  The database cuts a page,
the labels thin it out, and whether there is a next page is read off what is left.  The link to it has the
sort key, the direction, the limit and the last container of the page, and nothing else of the request.

So a chain of links is right when its first page is the last one and nothing was left behind it, or when what
comes after a full first page is the same with the filters and without.
-/

namespace Zun

namespace Pages

open Paging Sorting

/-! ## The model -/

/-- `container_allowed_filters`, but `labels`. -/
inductive Column where
  | name | image | projectId | userId | memory | host | taskState | status | autoRemove
deriving DecidableEq

def Column.all : List Column :=
  [.name, .image, .projectId, .userId, .memory, .host, .taskState, .status, .autoRemove]

/-- A row of the container table. -/
structure Row where
  id : Nat
  uuid : Uuid
  containerType : Db.ContainerType := .container
  /-- What a column holds, as the database compares it. -/
  column : Column → Option String := fun _ => none
  labels : String → Option String := fun _ => none

/-- What the query on its owner reads of it. -/
def Row.container (r : Row) : Db.Container :=
  { containerType := r.containerType
    projectId := r.column .projectId
    userId := r.column .userId
    name := r.column .name
    host := r.column .host }

/-- The table.  Ids and uuids are unique. -/
structure Rows where
  rows : List Row
  ids : (rows.map (·.id)).Nodup
  uuids : (rows.map (·.uuid)).Nodup

inductive SortDir where
  | asc | desc
deriving DecidableEq

/-- A filter: one value, or a list of them. -/
inductive Wanted where
  | value (v : String)
  | values (vs : List String)

/-- The arguments of a listing, once they are valid. -/
structure Request where
  filters : Column → Option Wanted := fun _ => none
  labels : List String := []
  allProjects : Bool := false
  limit : Option ℕ+ := none
  sortKey : String := "id"
  sortDir : SortDir := .asc

/-- A request for a page. -/
structure Query extends Request where
  marker : Option Uuid := none

/-- The order of the values of a column, the largest page, and who asks. -/
structure Env (κ : Type) where
  value : String → Row → κ
  maxLimit : ℕ+
  context : Db.Context := {}

section

variable {κ : Type} [LinearOrder κ] (env : Env κ) (t : Rows)

/-- `validate_limit`. -/
def validateLimit (limit : Option ℕ+) : ℕ+ := (limit.map (min env.maxLimit)).getD env.maxLimit

/-- `_add_project_filters`, and the type of the rows. -/
def visible (allProjects : Bool) (r : Row) : Bool :=
  Db.addProjectFilters { env.context with allProjects := env.context.allProjects || allProjects } r.container &&
    r.containerType = .container

def Wanted.matches (wanted : Wanted) (v : Option String) : Bool :=
  match wanted, v with
  | .value v, some v' => v = v'
  | .values vs, some v' => v' ∈ vs
  | _, none => false

/-- `_add_containers_filters`. -/
def addContainersFilters (filters : Column → Option Wanted) (r : Row) : Bool :=
  Column.all.all fun c => ((filters c).map fun wanted => wanted.matches (r.column c)).getD true

/-- `item.partition('=')`: the key, and the value if one is given. -/
def partition (item : String) : String × Option String :=
  match item.toList.span (· ≠ '=') with
  | (key, []) => (String.ofList key, none)
  | (key, _ :: value) => (String.ofList key, some (String.ofList value))

/-- The labels that are asked for.  The last one of a key counts. -/
def wantedLabels (labels : List String) : List (String × Option String) :=
  labels.foldl (fun d item => d.filter (·.1 ≠ (partition item).1) ++ [partition item]) []

/-- `_filter_by_labels`, of one container. -/
def carries (labels : List String) (r : Row) : Bool :=
  (wantedLabels labels).all fun wanted =>
    match r.labels wanted.1 with
    | none => false
    | some has => (wanted.2.map fun value => decide (has = value)).getD true

/-- `sort_keys`: the key, and the id. -/
def sortKeys (sortKey : String) (r : Row) : WithBot κ ×ₗ ℕ :=
  toLex (if sortKey = "id" then ⊥ else (env.value sortKey r : WithBot κ), r.id)

/-- The rows in the order that is asked for. -/
def ordered (sortKey : String) : SortDir → List Row → List Row
  | .asc => sortBy (sortKeys env sortKey)
  | .desc => sortBy fun r => OrderDual.toDual (sortKeys env sortKey r)

/-- What follows a row in it. -/
def following (sortKey : String) : SortDir → Row → List Row → List Row
  | .asc => after (sortKeys env sortKey)
  | .desc => after fun r => OrderDual.toDual (sortKeys env sortKey r)

/-- `_paginate_query`. -/
def paginateQuery (query : List Row) (limit : ℕ+) (marker : Option Row) (sortKey : String) (sortDir : SortDir) :
    List Row :=
  let rows := ordered env sortKey sortDir query
  ((marker.map fun m => following env sortKey sortDir m rows).getD rows).take limit

/-- `list_containers`. -/
def listContainers (q : Query) (marker : Option Row) (limit : ℕ+) : List Row :=
  let query := t.rows.filter fun r => visible env q.allProjects r && addContainersFilters q.filters r
  (paginateQuery env query limit marker q.sortKey q.sortDir).filter (carries q.labels)

/-- `get_container_by_uuid`. -/
def getContainerByUuid (allProjects : Bool) (uuid : Uuid) : Option Row :=
  t.rows.find? fun r => visible env allProjects r && decide (r.uuid = uuid)

/-- `get_next`, as the request that the link is. -/
def getNext (q : Query) (limit : ℕ+) (page : List Row) : Option Query :=
  match page.getLast? with
  | some last =>
      if page.length = limit then
        some { limit := some limit, sortKey := q.sortKey, sortDir := q.sortDir, marker := some last.uuid }
      else none
  | none => none

/-- What is answered: the page, and its `next`.  A marker that is not found is an error. -/
def answer (q : Query) : Option (List Row × Option Query) :=
  let limit := validateLimit env q.limit
  match q.marker with
  | none =>
      let page := listContainers env t q none limit
      some (page, getNext q limit page)
  | some uuid =>
      match getContainerByUuid env t q.allProjects uuid with
      | none => none
      | some m =>
          let page := listContainers env t q (some m) limit
          some (page, getNext q limit page)

/-- The containers of a page and of all that follow it, up to one without `next`. -/
inductive Followed : Query → List Row → Prop where
  | last {q page} : answer env t q = some (page, none) → Followed q page
  | next {q page q' rest} : answer env t q = some (page, some q') → Followed q' rest → Followed q (page ++ rest)

/-! ## What the pages should hold -/

/-- The container matches the request. -/
def Matches (req : Request) (r : Row) : Prop :=
  visible env req.allProjects r = true ∧ addContainersFilters req.filters r = true ∧ carries req.labels r = true

/-- To follow the links ends, with every container that matches once, and no other one. -/
def ListsOnce (req : Request) : Prop :=
  ∃ rows, Followed env t { req with } rows ∧ rows.Nodup ∧ ∀ r, r ∈ rows ↔ r ∈ t.rows ∧ Matches env req r

/-- The rows that the filters of the database leave, in order. -/
def found (req : Request) : List Row :=
  ordered env req.sortKey req.sortDir
    (t.rows.filter fun r => visible env req.allProjects r && addContainersFilters req.filters r)

/-- The first page is short, and there is none that matches behind it. -/
def ShortAlone (req : Request) : Prop :=
  (((found env t req).take (validateLimit env req.limit)).filter (carries req.labels)).length ≠
      validateLimit env req.limit ∧
    ∀ r ∈ (found env t req).drop (validateLimit env req.limit), carries req.labels r = false

/-- The first page is full, and what the caller sees behind it is what matches. -/
def FullAndPlain (req : Request) : Prop :=
  (((found env t req).take (validateLimit env req.limit)).filter (carries req.labels)).length =
      validateLimit env req.limit ∧
    ∃ m, ((found env t req).take (validateLimit env req.limit)).getLast? = some m ∧ visible env false m = true ∧
      ∀ r ∈ following env req.sortKey req.sortDir m t.rows, visible env false r = true ↔ Matches env req r

end

/-! ## Rows and keys -/

section

variable {κ : Type} {env : Env κ} {t : Rows} {l : List Row} {m r : Row} {sortKey : String}

theorem addContainersFilters_none : addContainersFilters (fun _ => none) r = true := by
  simp [addContainersFilters]

theorem carries_nil : carries [] r = true := rfl

theorem validateLimit_again (limit : Option ℕ+) :
    validateLimit env (some (validateLimit env limit)) = validateLimit env limit := by
  cases limit with
  | none => simp [validateLimit]
  | some limit => simp [validateLimit]

theorem getContainerByUuid_eq {allProjects : Bool} (hm : m ∈ t.rows)
    (hvisible : visible env allProjects m = true) : getContainerByUuid env t allProjects m.uuid = some m := by
  rw [getContainerByUuid]
  cases hfound : t.rows.find? fun r => visible env allProjects r && decide (r.uuid = m.uuid) with
  | none =>
      have hnone := List.find?_eq_none.mp hfound m hm
      simp [hvisible] at hnone
  | some r =>
      have hr := List.find?_some hfound
      rw [Bool.and_eq_true, decide_eq_true_eq] at hr
      exact congrArg some (List.inj_on_of_nodup_map t.uuids (List.mem_of_find?_eq_some hfound) hm hr.2)

theorem getContainerByUuid_none {allProjects : Bool} (hm : m ∈ t.rows)
    (hvisible : visible env allProjects m = false) : getContainerByUuid env t allProjects m.uuid = none := by
  rw [getContainerByUuid, List.find?_eq_none]
  intro r hr hboth
  rw [Bool.and_eq_true, decide_eq_true_eq] at hboth
  obtain rfl := List.inj_on_of_nodup_map t.uuids hr hm hboth.2
  rw [hvisible] at hboth
  exact Bool.false_ne_true hboth.1

theorem sortKeys_nodup (hids : (l.map (·.id)).Nodup) : (l.map (sortKeys env sortKey)).Nodup := by
  refine List.Nodup.of_map (fun k => (ofLex k).2) ?_
  rw [List.map_map]
  exact hids

theorem sortKeys_dual_nodup (hids : (l.map (·.id)).Nodup) :
    (l.map fun r => OrderDual.toDual (sortKeys env sortKey r)).Nodup := by
  refine List.Nodup.of_map OrderDual.ofDual ?_
  rw [List.map_map]
  exact sortKeys_nodup hids

end

/-! ## The order -/

section

variable {κ : Type} [LinearOrder κ] {env : Env κ} {t : Rows} {l : List Row} {m m' r : Row} {sortKey : String}
  {sortDir : SortDir}

theorem ordered_perm (l : List Row) : (ordered env sortKey sortDir l).Perm l := by
  cases sortDir with
  | asc => exact (sortBy_ordered _ l).perm
  | desc => exact (sortBy_ordered _ l).perm

/-- The next page begins where the last one ended. -/
theorem following_last (hids : (l.map (·.id)).Nodup) {n : Nat}
    (hlast : ((ordered env sortKey sortDir l).take n).getLast? = some m) :
    following env sortKey sortDir m (ordered env sortKey sortDir l) = (ordered env sortKey sortDir l).drop n := by
  cases sortDir with
  | asc => exact after_last (ascending_sortBy (sortKeys_nodup hids)) hlast
  | desc => exact after_last (ascending_sortBy (sortKeys_dual_nodup hids)) hlast

theorem mem_following : r ∈ following env sortKey sortDir m l ↔ r ∈ l ∧ r ∈ following env sortKey sortDir m [r] := by
  cases sortDir with
  | asc => simp [following, after]
  | desc => simp [following, after]

theorem following_sublist : (following env sortKey sortDir m l).Sublist l := by
  cases sortDir with
  | asc => exact List.filter_sublist
  | desc => exact List.filter_sublist

theorem following_rest (hids : (l.map (·.id)).Nodup) {n : Nat}
    (hlast : ((following env sortKey sortDir m (ordered env sortKey sortDir l)).take n).getLast? = some m') :
    following env sortKey sortDir m' (ordered env sortKey sortDir l) =
      (following env sortKey sortDir m (ordered env sortKey sortDir l)).drop n := by
  have hmem := List.mem_of_mem_take (List.mem_of_getLast? hlast)
  cases sortDir with
  | asc =>
      have hdrop := after_last ((ascending_sortBy (sortKeys_nodup hids)).filter _) hlast
      have hle := (of_decide_eq_true (List.mem_filter.mp hmem).2).le
      exact (after_after (sortKeys env sortKey) hle).symm.trans hdrop
  | desc =>
      have hdrop := after_last ((ascending_sortBy (sortKeys_dual_nodup hids)).filter _) hlast
      have hle := (of_decide_eq_true (List.mem_filter.mp hmem).2).le
      exact (after_after (fun r => OrderDual.toDual (sortKeys env sortKey r)) hle).symm.trans hdrop

theorem mem_following_ordered :
    r ∈ following env sortKey sortDir m (ordered env sortKey sortDir l) ↔ r ∈ following env sortKey sortDir m l := by
  rw [mem_following, mem_following (l := l), (ordered_perm l).mem_iff]

/-! ## The links -/

/-- One answer has one continuation. -/
theorem Followed.unique {q : Query} {rows rows' : List Row} (h : Followed env t q rows)
    (h' : Followed env t q rows') : rows = rows' := by
  induction h generalizing rows' with
  | last hanswer =>
      cases h' with
      | last hanswer' => simpa [hanswer] using hanswer'
      | next hanswer' _ => simp [hanswer] at hanswer'
  | next hanswer _ ih =>
      cases h' with
      | last hanswer' => simp [hanswer] at hanswer'
      | next hanswer' hrest' =>
          obtain ⟨rfl, rfl⟩ : _ ∧ _ := by simpa [hanswer] using hanswer'
          rw [ih hrest']

/-- The link after a page that ends with a container. -/
def nextLink (req : Request) (limit : ℕ+) (m : Row) : Query :=
  { limit := some limit, sortKey := req.sortKey, sortDir := req.sortDir, marker := some m.uuid }

theorem getNext_full {q : Query} {limit : ℕ+} {page : List Row} (hlast : page.getLast? = some m)
    (hfull : page.length = limit) : getNext q limit page = some (nextLink q.toRequest limit m) := by
  simp [getNext, hlast, hfull, nextLink]

theorem getNext_short {q : Query} {limit : ℕ+} {page : List Row} (hshort : page.length ≠ limit) :
    getNext q limit page = none := by
  rw [getNext]
  cases page.getLast? with
  | none => rfl
  | some last => exact if_neg hshort

/-- What the caller sees without filters, in order. -/
def plain (env : Env κ) (t : Rows) (req : Request) : List Row :=
  ordered env req.sortKey req.sortDir (t.rows.filter (visible env false))

theorem filter_ids (p : Row → Bool) : ((t.rows.filter p).map (·.id)).Nodup :=
  t.ids.sublist (List.filter_sublist.map _)

theorem answer_first (env : Env κ) (t : Rows) (req : Request) :
    answer env t { req with } =
      some (((found env t req).take (validateLimit env req.limit)).filter (carries req.labels),
        getNext { req with } (validateLimit env req.limit)
          (((found env t req).take (validateLimit env req.limit)).filter (carries req.labels))) := rfl

theorem answer_link (req : Request) (hm : m ∈ t.rows) (hvisible : visible env false m = true) :
    answer env t (nextLink req (validateLimit env req.limit) m) =
      some ((following env req.sortKey req.sortDir m (plain env t req)).take (validateLimit env req.limit),
        getNext (nextLink req (validateLimit env req.limit) m) (validateLimit env req.limit)
          ((following env req.sortKey req.sortDir m (plain env t req)).take (validateLimit env req.limit))) := by
  have hlist : listContainers env t (nextLink req (validateLimit env req.limit) m) (some m)
      (validateLimit env req.limit) =
        (following env req.sortKey req.sortDir m (plain env t req)).take (validateLimit env req.limit) := by
    simp [listContainers, nextLink, addContainersFilters_none, carries_nil, paginateQuery, plain]
  rw [answer]
  simp only [nextLink, getContainerByUuid_eq hm hvisible, validateLimit_again] at hlist ⊢
  rw [hlist]

/-- The links after a container lead through all that the caller sees behind it. -/
theorem followed_link (req : Request) (hm : m ∈ t.rows) (hvisible : visible env false m = true) :
    Followed env t (nextLink req (validateLimit env req.limit) m)
      (following env req.sortKey req.sortDir m (plain env t req)) := by
  induction hlen : (following env req.sortKey req.sortDir m (plain env t req)).length
    using Nat.strong_induction_on generalizing m with
  | _ n ih =>
      have hanswer := answer_link req hm hvisible
      generalize hrest : following env req.sortKey req.sortDir m (plain env t req) = rest at hlen hanswer ⊢
      by_cases hshort : rest.length < validateLimit env req.limit
      · rw [List.take_of_length_le hshort.le, getNext_short hshort.ne] at hanswer
        exact .last hanswer
      · have hpos := (validateLimit env req.limit).pos
        have hfull : (rest.take (validateLimit env req.limit)).length = validateLimit env req.limit := by
          rw [List.length_take]
          omega
        cases hlast : (rest.take (validateLimit env req.limit)).getLast? with
        | none =>
            rw [List.getLast?_eq_none_iff] at hlast
            rw [hlast, List.length_nil] at hfull
            omega
        | some m' =>
            rw [getNext_full hlast hfull] at hanswer
            have hmem : m' ∈ rest := List.mem_of_mem_take (List.mem_of_getLast? hlast)
            rw [← hrest, plain, mem_following_ordered] at hmem
            have hrow := List.mem_filter.mp (mem_following.mp hmem).1
            rw [← hrest, plain] at hlast
            have hdrop := following_rest (filter_ids _) hlast
            rw [← plain, hrest] at hdrop
            have hrest' := ih (rest.drop (validateLimit env req.limit)).length
              (by rw [List.length_drop]; omega) hrow.1 hrow.2 (by rw [hdrop])
            rw [hdrop] at hrest'
            have hall := Followed.next hanswer hrest'
            rwa [List.take_append_drop] at hall

/-! ## The first page -/

variable {req : Request}

theorem mem_found : r ∈ found env t req ↔
    r ∈ t.rows ∧ visible env req.allProjects r = true ∧ addContainersFilters req.filters r = true := by
  rw [found, (ordered_perm _).mem_iff, List.mem_filter, Bool.and_eq_true]

theorem mem_plain : r ∈ plain env t req ↔ r ∈ t.rows ∧ visible env false r = true := by
  rw [plain, (ordered_perm _).mem_iff, List.mem_filter]

theorem matches_iff (hr : r ∈ t.rows) : Matches env req r ↔ r ∈ found env t req ∧ carries req.labels r = true := by
  rw [mem_found, Matches]
  tauto

theorem found_nodup : (found env t req).Nodup :=
  (ordered_perm _).nodup_iff.mpr (List.Nodup.of_map _ (filter_ids _))

theorem plain_nodup : (plain env t req).Nodup :=
  (ordered_perm _).nodup_iff.mpr (List.Nodup.of_map _ (filter_ids _))

/-- Nothing is on a page and behind it. -/
theorem not_mem_drop {n : Nat} (hr : r ∈ (found env t req).take n) : r ∉ (found env t req).drop n := by
  have hnodup : (found env t req).Nodup := found_nodup
  rw [← List.take_append_drop n (found env t req), List.nodup_append] at hnodup
  exact fun hdrop => hnodup.2.2 r hr r hdrop rfl

theorem mem_found_split (n : Nat) : r ∈ found env t req ↔
    r ∈ (found env t req).take n ∨ r ∈ (found env t req).drop n := by
  rw [← List.mem_append, List.take_append_drop]

/-- A short page is the last one. -/
theorem lists_once_short
    (hshort : (((found env t req).take (validateLimit env req.limit)).filter (carries req.labels)).length ≠
      validateLimit env req.limit) :
    ListsOnce env t req ↔ ∀ r ∈ (found env t req).drop (validateLimit env req.limit), carries req.labels r = false := by
  have hanswer := answer_first env t req
  rw [getNext_short hshort] at hanswer
  constructor
  · rintro ⟨rows, hfollowed, -, hall⟩ r hdrop
    obtain rfl := hfollowed.unique (.last hanswer)
    by_contra hcarries
    rw [Bool.not_eq_false] at hcarries
    have hfound := List.mem_of_mem_drop hdrop
    have hmem := (hall r).mpr ⟨(mem_found.mp hfound).1, (matches_iff (mem_found.mp hfound).1).mpr ⟨hfound, hcarries⟩⟩
    exact not_mem_drop (List.mem_filter.mp hmem).1 hdrop
  · intro hrest
    refine ⟨_, .last hanswer, (found_nodup.sublist (List.take_sublist ..)).filter _, fun r => ?_⟩
    rw [List.mem_filter]
    constructor
    · rintro ⟨htake, hcarries⟩
      have hfound := List.mem_of_mem_take htake
      exact ⟨(mem_found.mp hfound).1, (matches_iff (mem_found.mp hfound).1).mpr ⟨hfound, hcarries⟩⟩
    · rintro ⟨hrow, hmatches⟩
      obtain ⟨hfound, hcarries⟩ := (matches_iff hrow).mp hmatches
      obtain htake | hdrop := (mem_found_split (validateLimit env req.limit)).mp hfound
      · exact ⟨htake, hcarries⟩
      · rw [hrest r hdrop] at hcarries
        exact absurd hcarries Bool.false_ne_true

/-- A full page leads on, if its last container is still found. -/
theorem lists_once_full
    (hfull : (((found env t req).take (validateLimit env req.limit)).filter (carries req.labels)).length =
      validateLimit env req.limit)
    (hlast : ((found env t req).take (validateLimit env req.limit)).getLast? = some m) :
    ListsOnce env t req ↔ visible env false m = true ∧
      ∀ r ∈ following env req.sortKey req.sortDir m t.rows, visible env false r = true ↔ Matches env req r := by
  have hpos := (validateLimit env req.limit).pos
  have hcarries : ∀ r ∈ (found env t req).take (validateLimit env req.limit), carries req.labels r = true := by
    rw [← List.length_filter_eq_length_iff]
    have hle := List.length_filter_le (carries req.labels) ((found env t req).take (validateLimit env req.limit))
    have htake := List.length_take_le (validateLimit env req.limit) (found env t req)
    omega
  have hpage := List.filter_eq_self.mpr hcarries
  have hanswer := answer_first env t req
  rw [hpage] at hfull hanswer
  rw [getNext_full hlast hfull] at hanswer
  have hm : m ∈ t.rows := (mem_found.mp (List.mem_of_mem_take (List.mem_of_getLast? hlast))).1
  have hdrop : following env req.sortKey req.sortDir m (found env t req) =
      (found env t req).drop (validateLimit env req.limit) := following_last (filter_ids _) hlast
  -- what matches is on the first page, or follows its last container
  have hsplit : ∀ r, r ∈ t.rows ∧ Matches env req r ↔ r ∈ (found env t req).take (validateLimit env req.limit) ∨
      r ∈ following env req.sortKey req.sortDir m t.rows ∧ Matches env req r := by
    intro r
    constructor
    · rintro ⟨hrow, hmatches⟩
      obtain htake | hbehind := (mem_found_split (validateLimit env req.limit)).mp ((matches_iff hrow).mp hmatches).1
      · exact .inl htake
      · rw [← hdrop] at hbehind
        exact .inr ⟨mem_following.mpr ⟨hrow, (mem_following.mp hbehind).2⟩, hmatches⟩
    · rintro (htake | ⟨hbehind, hmatches⟩)
      · have hfound := List.mem_of_mem_take htake
        exact ⟨(mem_found.mp hfound).1, (matches_iff (mem_found.mp hfound).1).mpr ⟨hfound, hcarries r htake⟩⟩
      · exact ⟨(mem_following.mp hbehind).1, hmatches⟩
  have hapart : ∀ r ∈ (found env t req).take (validateLimit env req.limit),
      r ∉ following env req.sortKey req.sortDir m t.rows := by
    intro r htake hbehind
    refine not_mem_drop htake ?_
    rw [← hdrop]
    exact mem_following.mpr ⟨List.mem_of_mem_take htake, (mem_following.mp hbehind).2⟩
  have hrest : ∀ r, r ∈ following env req.sortKey req.sortDir m (plain env t req) ↔
      r ∈ following env req.sortKey req.sortDir m t.rows ∧ visible env false r = true := by
    intro r
    rw [mem_following, mem_following (l := t.rows), mem_plain]
    tauto
  cases hvisible : visible env false m with
  | false =>
      -- the link is to a container that is not found
      have hnone : answer env t (nextLink req (validateLimit env req.limit) m) = none := by
        rw [answer]
        simp only [nextLink, getContainerByUuid_none hm hvisible]
      simp only [Bool.false_eq_true, false_and, iff_false]
      rintro ⟨rows, hfollowed, -⟩
      cases hfollowed with
      | last hanswer' => simp [hanswer] at hanswer'
      | next hanswer' hrest' =>
          obtain ⟨-, rfl⟩ : _ ∧ _ := by simpa [hanswer] using hanswer'
          cases hrest' with
          | last hnone' => simp [hnone] at hnone'
          | next hnone' _ => simp [hnone] at hnone'
  | true =>
      have hfollowed := Followed.next hanswer (followed_link req hm hvisible)
      simp only [true_and]
      constructor
      · rintro ⟨rows, hfollowed', -, hall⟩ r hbehind
        obtain rfl := hfollowed'.unique hfollowed
        have hr := hall r
        rw [List.mem_append, hrest, hsplit] at hr
        have hnot : r ∉ (found env t req).take (validateLimit env req.limit) := fun htake => hapart r htake hbehind
        tauto
      · intro hsame
        refine ⟨_, hfollowed, ?_, fun r => ?_⟩
        · rw [List.nodup_append]
          refine ⟨found_nodup.sublist (List.take_sublist ..), ?_, fun r htake r' hbehind heq => ?_⟩
          · exact plain_nodup.sublist following_sublist
          · rw [← heq, hrest] at hbehind
            exact hapart r htake hbehind.1
        · rw [List.mem_append, hrest, hsplit]
          have hr := hsame r
          tauto

end

/-! ## Three containers -/

/-- A container with a status. -/
def withStatus (id : Nat) (status : String) (labels : String → Option String) : Row :=
  { id := id, uuid := id, column := fun c => if c = .status then some status else none, labels := labels }

/-- The second one is stopped, and has a label. -/
def stopped : Row := withStatus 2 "Stopped" fun key => if key = "app" then some "web" else none

def three : Rows where
  rows := [withStatus 1 "Running" fun _ => none, stopped, withStatus 3 "Running" fun _ => none]
  ids := by decide
  uuids := by decide

def caller : Env ℕ := { value := fun _ _ => 0, maxLimit := 1000 }

/-- The running ones, one a page. -/
def running : Request := { filters := fun c => if c = .status then some (.value "Running") else none, limit := some 1 }

/-- Those with the label, one a page. -/
def web : Request := { labels := ["app=web"], limit := some 1 }

end Pages

end Zun
