import Zun.Data.Relations
import Zun.Db.Names
import Zun.Effect.Prog

/-!
# One row at a time

The `destroy_*` and `update_*` of the `Connection` of `zun/db/sqlalchemy/api.py` for containers, resource
providers, resource classes, inventories, allocations and compute nodes.  Each makes a query of its own and
deletes what it selects, or changes the only row that it selects.  A write session rolls back when an exception
leaves it.

The query of `destroy_resource_class` selects every row.  That of `update_resource_class` asks for an id, and
what it is given is a UUID.
-/

namespace Zun

open Effect Prog Relations

namespace Connection

/-! ## The tables -/

/-- The six tables, and those that refer to them or that they refer to. -/
inductive TableName where
  | container | resourceProvider | resourceClass | inventory | allocation | computeNode
  | execInstance | containerActions | containerActionsEvents | volumeMapping | pciDevice | registry
deriving DecidableEq

abbrev Column := String

inductive Cell where
  | int (n : Int)
  | text (s : String)
deriving DecidableEq

abbrev Row := Relations.Row Column Cell
abbrev Store := Relations.Store TableName Column Cell
abbrev Query := Row → Bool
abbrev Values := List (Column × Option Cell)

/-- The primary key and the unique constraints of a table. -/
def keys : TableName → List (List Column)
  | .container | .resourceProvider | .resourceClass | .volumeMapping | .registry => [["id"], ["uuid"]]
  | .inventory => [["id"], ["resource_provider_id", "resource_class_id"]]
  | .allocation | .containerActions | .containerActionsEvents => [["id"]]
  | .computeNode => [["uuid"], ["rp_uuid"]]
  | .execInstance => [["id"], ["container_id", "exec_id"]]
  | .pciDevice => [["id"], ["compute_node_uuid", "address"]]

/-- Of `zun/db/sqlalchemy/models.py`. -/
def schema : Schema TableName Column where
  keys := keys
  foreign :=
    [⟨.container, "capsule_id", .container, "id", true⟩,
      ⟨.container, "registry_id", .registry, "id", false⟩,
      ⟨.volumeMapping, "container_uuid", .container, "uuid", false⟩,
      ⟨.execInstance, "container_id", .container, "id", true⟩,
      ⟨.pciDevice, "compute_node_uuid", .computeNode, "uuid", false⟩,
      ⟨.containerActions, "container_uuid", .container, "uuid", true⟩,
      ⟨.containerActionsEvents, "action_id", .containerActions, "id", true⟩]

/-- A value that rows are identified by, as `is_int_like` and `is_uuid_like` tell them apart. -/
inductive Ident where
  | int (n : Int)
  | uuid (u : String)
  | other (s : String)
deriving DecidableEq

inductive Failure where
  /-- The `NotFound` of a table. -/
  | notFound (t : TableName)
  | invalidIdentity (i : Ident)
  | invalidParameterValue
  | containerAlreadyExists (name : String)
  /-- `None` has no `lower`. -/
  | attributeError
  | multipleResultsFound
  /-- The database refuses. -/
  | dbError
deriving DecidableEq

structure Config where
  /-- `CONF.compute.unique_container_name_scope`. -/
  scope : Names.Scope := .none
  /-- The number that the database takes a text for when it compares it with one. -/
  readsAs : String → Option Int := fun _ => none
  /-- What the database lets a column hold. -/
  fits : TableName → Column → Option Cell → Bool := fun _ _ _ => true

/-! ## Sessions and queries -/

/-- `_session_for_write`. -/
def sessionForWrite {α : Type} (p : Prog Store Failure α) : Prog Store Failure α := fun s =>
  match p s with
  | (.raise e, _) => (.raise e, s)
  | r => r

/-- The rows of a table that a query selects. -/
def only (t : TableName) (q : Query) : Rows TableName Column Cell := fun t' r => t' = t && q r

/-- `query.delete`. -/
def deleteAll (t : TableName) (q : Query) : Prog Store Failure Nat := fun s =>
  match delete schema s (only t q) with
  | some s' => (.ok ((s t).countP q), s')
  | none => (.raise .dbError, s)

/-- `query.with_for_update().one`, with the `NotFound` of the table if there is none. -/
def one (t : TableName) (q : Query) : Prog Store Failure Row := fun s =>
  match (s t).filter q with
  | [] => (.raise (.notFound t), s)
  | [r] => (.ok r, s)
  | _ :: _ :: _ => (.raise .multipleResultsFound, s)

/-- The values are of the columns' types, and the table with them is admitted. -/
def fitsAll (cfg : Config) (t : TableName) (values : Values) : Bool :=
  values.all fun v => cfg.fits t v.1 v.2

/-- `ref.update`, and the end of the session. -/
def flush (cfg : Config) (t : TableName) (q : Query) (values : Values) : Prog Store Failure Unit := fun s =>
  if fitsAll cfg t values && schema.admits (Relations.change s t q (Relations.assign values)) t then
    (.ok (), Relations.change s t q (Relations.assign values))
  else (.raise .dbError, s)

/-- What is common to the `destroy_*`. -/
def destroy (t : TableName) (q : Query) : Prog Store Failure Unit := sessionForWrite do
  let count ← deleteAll t q
  if count = 1 then pure () else raise (.notFound t)

/-- What is common to the `update_*`. -/
def doUpdate (cfg : Config) (t : TableName) (q : Query) (values : Values) : Prog Store Failure Row :=
  sessionForWrite do
    let ref ← one t q
    flush cfg t q values
    pure (Relations.assign values ref)

/-- `filter_by(id=...)`. -/
def byId (cfg : Config) : Ident → Query
  | .int n => fun r => r "id" = some (.int n)
  | .uuid u => fun r => (cfg.readsAs u).any fun n => r "id" = some (.int n)
  | .other s => fun r => (cfg.readsAs s).any fun n => r "id" = some (.int n)

/-- `filter_by(uuid=...)`. -/
def byUuid (u : String) : Query := fun r => r "uuid" = some (.text u)

/-- `add_identity_filter`. -/
def addIdentityFilter (query : Query) : Ident → Except Failure Query
  | .int n => .ok fun r => query r && r "id" = some (.int n)
  | .uuid u => .ok fun r => query r && byUuid u r
  | .other s => .error (.invalidIdentity (.other s))

/-- Run what follows with a query, unless there is none. -/
def withQuery {α : Type} (query : Except Failure Query) (f : Query → Prog Store Failure α) : Prog Store Failure α :=
  match query with
  | .ok q => f q
  | .error e => raise e

/-- The container types, as they are stored. -/
def typeCode : Db.ContainerType → Int
  | .container => 0
  | .capsule => 1
  | .capsuleContainer => 2
  | .capsuleInitContainer => 3

/-- `_add_container_type_filter`.  No type is `TYPE_ANY`. -/
def addContainerTypeFilter : Option Db.ContainerType → Query
  | none => fun _ => true
  | some type => fun r => r "container_type" = some (.int (typeCode type))

/-! ## Containers -/

/-- The row has a name that is equal up to case, in the scope. -/
def bears (cfg : Config) (ctx : Db.Context) (name : String) (r : Row) : Bool :=
  (match r "name" with
    | some (.text n) => n.toLower = name.toLower
    | _ => false) &&
  (match cfg.scope with
    | .project => r "project_id" = ctx.projectId.map .text
    | _ => true)

/-- `_validate_unique_container_name`. -/
def validateUniqueContainerName (cfg : Config) (ctx : Db.Context) (name : Option Cell) :
    Prog Store Failure Unit := fun s =>
  if cfg.scope = .none then (.ok (), s)
  else
    match name with
    | some (.text n) =>
        if (s .container).countP (bears cfg ctx n) > 0 then (.raise (.containerAlreadyExists n.toLower), s)
        else (.ok (), s)
    | _ => (.raise .attributeError, s)

def destroyContainer (type : Option Db.ContainerType) (i : Ident) : Prog Store Failure Unit :=
  withQuery (addIdentityFilter (addContainerTypeFilter type) i) (destroy .container)

/-- `'name' in values`. -/
def whenNamed (cfg : Config) (ctx : Db.Context) (values : Values) : Prog Store Failure Unit :=
  match values.lookup "name" with
  | some name => validateUniqueContainerName cfg ctx name
  | none => pure ()

/-- `'uuid' in values`. -/
def hasUuid (values : Values) : Bool := (values.lookup "uuid").isSome

def updateContainer (cfg : Config) (ctx : Db.Context) (type : Option Db.ContainerType) (i : Ident)
    (values : Values) : Prog Store Failure Row :=
  if hasUuid values then raise .invalidParameterValue
  else do
    whenNamed cfg ctx values
    withQuery (addIdentityFilter (addContainerTypeFilter type) i) fun q => doUpdate cfg .container q values

/-! ## The other tables -/

def destroyResourceProvider (i : Ident) : Prog Store Failure Unit :=
  withQuery (addIdentityFilter (fun _ => true) i) (destroy .resourceProvider)

def updateResourceProvider (cfg : Config) (i : Ident) (values : Values) : Prog Store Failure Row :=
  if hasUuid values then raise .invalidParameterValue
  else withQuery (addIdentityFilter (fun _ => true) i) fun q => doUpdate cfg .resourceProvider q values

/-- The query is that of the whole table. -/
def destroyResourceClass (_ : Ident) : Prog Store Failure Unit := destroy .resourceClass fun _ => true

def updateResourceClass (cfg : Config) (i : Ident) (values : Values) : Prog Store Failure Row :=
  doUpdate cfg .resourceClass (byId cfg i) values

def destroyInventory (cfg : Config) (n : Int) : Prog Store Failure Unit := destroy .inventory (byId cfg (.int n))

def updateInventory (cfg : Config) (n : Int) (values : Values) : Prog Store Failure Row :=
  doUpdate cfg .inventory (byId cfg (.int n)) values

def destroyAllocation (cfg : Config) (n : Int) : Prog Store Failure Unit :=
  destroy .allocation (byId cfg (.int n))

def updateAllocation (cfg : Config) (n : Int) (values : Values) : Prog Store Failure Row :=
  doUpdate cfg .allocation (byId cfg (.int n)) values

def destroyComputeNode (u : String) : Prog Store Failure Unit := destroy .computeNode (byUuid u)

def updateComputeNode (cfg : Config) (u : String) (values : Values) : Prog Store Failure Row :=
  if hasUuid values then raise .invalidParameterValue
  else doUpdate cfg .computeNode (byUuid u) values

/-! ## What is asked of them -/

/-- A call of one of the twelve. -/
inductive Op where
  | destroyContainer (type : Option Db.ContainerType) (i : Ident)
  | updateContainer (ctx : Db.Context) (type : Option Db.ContainerType) (i : Ident) (values : Values)
  | destroyResourceProvider (i : Ident)
  | updateResourceProvider (i : Ident) (values : Values)
  | destroyResourceClass (i : Ident)
  | updateResourceClass (i : Ident) (values : Values)
  | destroyInventory (n : Int)
  | updateInventory (n : Int) (values : Values)
  | destroyAllocation (n : Int)
  | updateAllocation (n : Int) (values : Values)
  | destroyComputeNode (u : String)
  | updateComputeNode (u : String) (values : Values)

/-- A destroy returns nothing. -/
def returningNone (p : Prog Store Failure Unit) : Prog Store Failure (Option Row) := do
  p
  pure none

/-- An update returns the row as it is now. -/
def returningSome (p : Prog Store Failure Row) : Prog Store Failure (Option Row) := do
  let r ← p
  pure (some r)

def Op.run (cfg : Config) : Op → Prog Store Failure (Option Row)
  | .destroyContainer type i => returningNone (Connection.destroyContainer type i)
  | .updateContainer ctx type i values => returningSome (Connection.updateContainer cfg ctx type i values)
  | .destroyResourceProvider i => returningNone (Connection.destroyResourceProvider i)
  | .updateResourceProvider i values => returningSome (Connection.updateResourceProvider cfg i values)
  | .destroyResourceClass i => returningNone (Connection.destroyResourceClass i)
  | .updateResourceClass i values => returningSome (Connection.updateResourceClass cfg i values)
  | .destroyInventory n => returningNone (Connection.destroyInventory cfg n)
  | .updateInventory n values => returningSome (Connection.updateInventory cfg n values)
  | .destroyAllocation n => returningNone (Connection.destroyAllocation cfg n)
  | .updateAllocation n values => returningSome (Connection.updateAllocation cfg n values)
  | .destroyComputeNode u => returningNone (Connection.destroyComputeNode u)
  | .updateComputeNode u values => returningSome (Connection.updateComputeNode cfg u values)

def Op.table : Op → TableName
  | .destroyContainer .. | .updateContainer .. => .container
  | .destroyResourceProvider .. | .updateResourceProvider .. => .resourceProvider
  | .destroyResourceClass .. | .updateResourceClass .. => .resourceClass
  | .destroyInventory .. | .updateInventory .. => .inventory
  | .destroyAllocation .. | .updateAllocation .. => .allocation
  | .destroyComputeNode .. | .updateComputeNode .. => .computeNode

/-- The row has the identifier, in a table with ids and UUIDs. -/
def Ident.names : Ident → Query
  | .int n => fun r => r "id" = some (.int n)
  | .uuid u => byUuid u
  | .other _ => fun _ => false

/-- The row has the identifier, and is of the type asked for. -/
def Op.named : Op → Query
  | .destroyContainer type i | .updateContainer _ type i _ => fun r => addContainerTypeFilter type r && i.names r
  | .destroyResourceProvider i | .updateResourceProvider i _ => i.names
  | .destroyResourceClass i | .updateResourceClass i _ => i.names
  | .destroyInventory n | .updateInventory n _ => (Ident.int n).names
  | .destroyAllocation n | .updateAllocation n _ => (Ident.int n).names
  | .destroyComputeNode u | .updateComputeNode u _ => byUuid u

/-- What is written into the row, unless it is removed. -/
def Op.values : Op → Option Values
  | .destroyContainer .. | .destroyResourceProvider .. | .destroyResourceClass .. | .destroyInventory ..
  | .destroyAllocation .. | .destroyComputeNode .. => none
  | .updateContainer _ _ _ values | .updateResourceProvider _ values | .updateResourceClass _ values
  | .updateInventory _ values | .updateAllocation _ values | .updateComputeNode _ values => some values

/-- The store with one of its tables changed where a row has the identifier. -/
def touched (t : TableName) (named : Query) (values : Option Values) (s : Store) : Store :=
  match values with
  | none => without s (only t named)
  | some values => Relations.change s t named (Relations.assign values)

/-- The call removes or changes the row and returns it, or there is none and it raises the table's `NotFound`. -/
def TouchesOne (t : TableName) (named : Query) (values : Option Values) (s : Store) :
    Result Failure (Option Row) → Store → Prop
  | .ok ref, s' => ∃ r, (s t).filter named = [r] ∧ ref = values.map (fun values => Relations.assign values r) ∧
      s' = touched t named values s
  | .raise e, s' => e = .notFound t ∧ s' = s ∧ ∀ r ∈ s t, named r = false
  | .halt, _ => False

/-- It is an id or a UUID. -/
def Ident.Proper : Ident → Prop
  | .int _ | .uuid _ => True
  | .other _ => False

/-- The table takes the values, where there is a row to give them to. -/
def Takes (cfg : Config) (t : TableName) (named : Query) (values : Values) (s : Store) : Prop :=
  (∃ r ∈ s t, named r = true) →
    fitsAll cfg t values = true ∧ schema.admits (Relations.change s t named (Relations.assign values)) t = true

/-- The name in the values, if one is, is a text, and no container in the scope has it, unless names are free. -/
def NameFree (cfg : Config) (ctx : Db.Context) (values : Values) (s : Store) : Prop :=
  ∀ name, values.lookup "name" = some name → cfg.scope ≠ .none →
    ∃ n, name = some (.text n) ∧ ∀ r ∈ s .container, bears cfg ctx n r = false

/-- When a call meets what is asked of it. -/
def Op.Sound (cfg : Config) (s : Store) : Op → Prop
  | .destroyContainer type i =>
      i.Proper ∧ Unreferenced schema s (only .container (Op.destroyContainer type i).named)
  | .updateContainer ctx type i values =>
      i.Proper ∧ hasUuid values = false ∧ NameFree cfg ctx values s ∧
        Takes cfg .container (Op.updateContainer ctx type i values).named values s
  | .destroyResourceProvider i => i.Proper
  | .updateResourceProvider i values =>
      i.Proper ∧ hasUuid values = false ∧ Takes cfg .resourceProvider i.names values s
  -- It is the only row there is, or it is not there and there is not just one.
  | .destroyResourceClass i => (s .resourceClass).length = 1 ↔ ∃ r ∈ s .resourceClass, i.names r = true
  -- The row with the UUID is the one with the id that the UUID is read as.
  | .updateResourceClass i values =>
      (∀ r ∈ s .resourceClass, i.names r = byId cfg i r) ∧ Takes cfg .resourceClass i.names values s
  | .destroyInventory _ | .destroyAllocation _ => True
  | .updateInventory n values => Takes cfg .inventory (Ident.int n).names values s
  | .updateAllocation n values => Takes cfg .allocation (Ident.int n).names values s
  | .destroyComputeNode u => Unreferenced schema s (only .computeNode (byUuid u))
  | .updateComputeNode u values =>
      hasUuid values = false ∧ Takes cfg .computeNode (byUuid u) values s

/-! ## Runs -/

variable {cfg : Config} {s : Store} {t : TableName} {q named : Query} {values : Values} {i : Ident}

/-- A call ends as it is asked to. -/
def Meets (t : TableName) (named : Query) (values : Option Values) (p : Prog Store Failure (Option Row)) (s : Store) :
    Prop :=
  wp p (TouchesOne t named values s) s

theorem filter_eq_singleton {rows : List Row} (h : rows.countP q = 1) : ∃ r, rows.filter q = [r] :=
  List.length_eq_one_iff.mp (List.countP_eq_length_filter ▸ h)

theorem countP_eq_zero_iff {rows : List Row} : rows.countP q = 0 ↔ ∀ r ∈ rows, q r = false := by
  rw [List.countP_eq_zero]
  exact forall₂_congr fun r _ => Bool.not_eq_true _ |>.to_iff

/-- What has to hold when a session has ended. -/
def sessionPost {α : Type} (s : Store) (Q : Result Failure α → Store → Prop) : Result Failure α → Store → Prop
  | .raise e, _ => Q (.raise e) s
  | r, s' => Q r s'

theorem wp_sessionForWrite {α : Type} {p : Prog Store Failure α} {Q : Result Failure α → Store → Prop} :
    wp (sessionForWrite p) Q s = wp p (sessionPost s Q) s := by
  unfold wp sessionForWrite
  rcases p s with ⟨r, s'⟩
  cases r <;> rfl

/-- The conditions on how a destroy ends, in the order in which it comes to them. -/
theorem meets_destroy : Meets t named none (returningNone (destroy t q)) s ↔
    ∃ s', delete schema s (only t q) = some s' ∧
      if (s t).countP q = 1 then (∃ r, (s t).filter named = [r]) ∧ s' = without s (only t named)
      else ∀ r ∈ s t, named r = false := by
  simp only [Meets, returningNone, destroy, wp_bind, wp_sessionForWrite]
  unfold wp deleteAll
  cases delete schema s (only t q) with
  | none => simp [sessionPost, seqPost, TouchesOne]
  | some s' =>
      simp only [Option.some.injEq, exists_eq_left', seqPost]
      by_cases hcount : (s t).countP q = 1
      · simp [hcount, sessionPost, seqPost, TouchesOne, touched]
      · simp [hcount, sessionPost, seqPost, TouchesOne]

/-- The conditions on how an update ends. -/
theorem meets_doUpdate : Meets t named (some values) (returningSome (doUpdate cfg t q values)) s ↔
    ((s t).filter q = [] ∧ ∀ r ∈ s t, named r = false) ∨
      ∃ r r', (s t).filter q = [r] ∧ (s t).filter named = [r'] ∧ fitsAll cfg t values = true ∧
        schema.admits (Relations.change s t q (Relations.assign values)) t = true ∧
        Relations.assign values r = Relations.assign values r' ∧
        Relations.change s t q (Relations.assign values) = Relations.change s t named (Relations.assign values) := by
  simp only [Meets, returningSome, doUpdate, wp_bind, wp_sessionForWrite]
  unfold wp one
  rcases (s t).filter q with _ | ⟨r, _ | ⟨r₂, rest⟩⟩
  · simp [sessionPost, seqPost, TouchesOne]
  · simp only [seqPost, wp_bind]
    unfold wp flush
    split
    · next hfits =>
      obtain ⟨hfits, hadmits⟩ := Bool.and_eq_true_iff.mp hfits
      simp [sessionPost, seqPost, TouchesOne, touched, hfits, hadmits]
    · next hfits =>
      simp only [sessionPost, seqPost, TouchesOne, reduceCtorEq, false_and, false_iff]
      rintro (h | ⟨r, r', _, _, hfits', hadmits, _⟩)
      · exact h
      · exact hfits (Bool.and_eq_true_iff.mpr ⟨hfits', hadmits⟩)
  · simp [sessionPost, seqPost, TouchesOne]

/-! ## One row -/

/-- The query of a destroy selects the rows with the identifier, of which there is one at most. -/
theorem meets_destroy_iff (hone : (s t).countP q ≤ 1) :
    Meets t q none (returningNone (destroy t q)) s ↔ Unreferenced schema s (only t q) := by
  rw [meets_destroy, ← delete_eq_iff]
  constructor
  · rintro ⟨s', hdelete, h⟩
    split at h
    · rw [hdelete, h.2]
    · refine delete_eq_iff.mpr fun fk hfk c hc r hr hstart _ => ?_
      obtain ⟨ht, hq⟩ := Bool.and_eq_true_iff.mp hstart
      rw [decide_eq_true_eq] at ht
      rw [h r (ht ▸ hr)] at hq
      cases hq
  · intro hdelete
    refine ⟨_, hdelete, ?_⟩
    split
    · next hcount => exact ⟨filter_eq_singleton hcount, rfl⟩
    · next hcount => exact countP_eq_zero_iff.mp (by omega)

theorem meets_doUpdate_iff (hone : (s t).countP q ≤ 1) :
    Meets t q (some values) (returningSome (doUpdate cfg t q values)) s ↔ Takes cfg t q values s := by
  rw [meets_doUpdate]
  constructor
  · rintro (⟨-, hnone⟩ | ⟨r, r', -, -, hfits, hadmits, -⟩) ⟨row, hrow, hq⟩
    · rw [hnone row hrow] at hq
      cases hq
    · exact ⟨hfits, hadmits⟩
  · intro htakes
    by_cases hcount : (s t).countP q = 1
    · obtain ⟨r, hr⟩ := filter_eq_singleton hcount
      obtain ⟨hmem, hq⟩ := List.mem_filter.mp (hr ▸ List.mem_singleton_self r)
      obtain ⟨hfits, hadmits⟩ := htakes ⟨r, hmem, hq⟩
      exact .inr ⟨r, r, hr, hr, hfits, hadmits, rfl, rfl⟩
    · have hnone := countP_eq_zero_iff.mp (show (s t).countP q = 0 by omega)
      exact .inl ⟨List.filter_eq_nil_iff.mpr fun r hr hq => (by rw [hnone r hr] at hq; cases hq), hnone⟩

/-- The rows of a table to which nothing refers are unreferenced. -/
theorem unreferenced_of_not_parent (h : ∀ fk ∈ schema.foreign, fk.parent ≠ t) :
    Unreferenced schema s (only t q) := by
  intro fk hfk c hc r hr hstart _
  obtain ⟨ht, -⟩ := Bool.and_eq_true_iff.mp hstart
  exact absurd (of_decide_eq_true ht) (h fk hfk)

theorem without_congr (h : ∀ r ∈ s t, q r = named r) : without s (only t q) = without s (only t named) := by
  funext t'
  refine List.filter_congr fun r hr => ?_
  by_cases ht : t' = t
  · subst ht
    simp [only, h r hr]
  · simp [only, ht]

/-- A destroy of the whole table removes the row if that is the only one. -/
theorem meets_destroyResourceClass_iff :
    Meets .resourceClass named none (returningNone (destroyResourceClass i)) s ↔
      ((s .resourceClass).length = 1 ↔ ∃ r ∈ s .resourceClass, named r = true) := by
  have hdelete : delete schema s (only .resourceClass fun _ => true) =
      some (without s (only .resourceClass fun _ => true)) :=
    delete_eq_iff.mpr (unreferenced_of_not_parent (by decide))
  rw [destroyResourceClass, meets_destroy, hdelete, List.countP_true]
  simp only [Option.some.injEq, exists_eq_left']
  by_cases hlength : (s .resourceClass).length = 1
  · rw [if_pos hlength, iff_true_left hlength]
    constructor
    · rintro ⟨⟨r, hr⟩, -⟩
      exact ⟨r, List.mem_filter.mp (hr ▸ List.mem_singleton_self r)⟩
    · rintro ⟨r, hr, hnamed⟩
      obtain ⟨r₀, hrows⟩ := List.length_eq_one_iff.mp hlength
      obtain rfl : r = r₀ := List.mem_singleton.mp (hrows ▸ hr)
      refine ⟨⟨r, by simp [hrows, hnamed]⟩, without_congr fun r' hr' => ?_⟩
      obtain rfl := List.mem_singleton.mp (hrows ▸ hr')
      exact hnamed.symm
  · rw [if_neg hlength, iff_false_left hlength]
    simp

theorem change_congr (h : ∀ r ∈ s t, q r = named r) (f : Row → Row) :
    Relations.change s t q f = Relations.change s t named f := by
  rw [Relations.change, Relations.change]
  exact congrArg _ (List.map_congr_left fun r hr => by rw [h r hr])

/-- An update whose query selects one row and that is to change one changes the right one only if it is that. -/
theorem eq_of_change {r r' : Row} {f : Row → Row} (hq : (s t).filter q = [r]) (hnamed : (s t).filter named = [r'])
    (hf : f r = f r') (h : Relations.change s t q f = Relations.change s t named f) : r = r' := by
  by_contra hne
  obtain ⟨hr, hqr⟩ := List.mem_filter.mp (hq ▸ List.mem_singleton_self r)
  obtain ⟨hr', hnr'⟩ := List.mem_filter.mp (hnamed ▸ List.mem_singleton_self r')
  have hrows : (s t).map (fun r => if q r = true then f r else r) =
      (s t).map fun r => if named r = true then f r else r := by
    have := congrFun h t
    rwa [Relations.change, Relations.change, Function.update_self, Function.update_self] at this
  have heach := List.map_inj_left.mp hrows
  have hother : named r ≠ true := fun hn =>
    hne (List.mem_singleton.mp (hnamed ▸ List.mem_filter.mpr ⟨hr, hn⟩))
  have hother' : q r' ≠ true := fun hn =>
    hne (List.mem_singleton.mp (hq ▸ List.mem_filter.mpr ⟨hr', hn⟩)).symm
  have hkept := heach r hr
  have hkept' := heach r' hr'
  rw [if_pos hqr, if_neg hother] at hkept
  rw [if_neg hother', if_pos hnr'] at hkept'
  exact hne (hkept.symm.trans (hf.trans hkept'.symm))

theorem touchesOne_congr {values : Option Values} {r : Result Failure (Option Row)} {s' : Store}
    (h : ∀ r ∈ s t, named r = q r) : TouchesOne t named values s r s' ↔ TouchesOne t q values s r s' := by
  cases r with
  | ok ref =>
      have htouched : touched t named values s = touched t q values s := by
        cases values with
        | none => exact without_congr h
        | some values => exact change_congr h _
      simp only [TouchesOne, List.filter_congr h, htouched]
  | raise e =>
      refine and_congr_right fun _ => and_congr_right fun _ => forall₂_congr fun r hr => ?_
      rw [h r hr]
  | halt => exact Iff.rfl

theorem takes_congr (h : ∀ r ∈ s t, named r = q r) : Takes cfg t named values s ↔ Takes cfg t q values s := by
  rw [Takes, Takes, change_congr h]
  refine imp_congr_left (exists_congr fun r => and_congr_right fun hr => ?_)
  rw [h r hr]

/-- The row that an update selects is the one that it is to change, when it does as it is asked. -/
theorem eq_of_meets (h : Meets t named (some values) (returningSome (doUpdate cfg t q values)) s) :
    ∀ r ∈ s t, named r = q r := by
  rcases meets_doUpdate.mp h with ⟨hq, hnone⟩ | ⟨r, r', hq, hnamed, -, -, hassign, hchange⟩
  · intro r hr
    rw [hnone r hr, eq_comm, Bool.eq_false_iff]
    exact List.filter_eq_nil_iff.mp hq r hr
  · obtain rfl := eq_of_change hq hnamed hassign hchange
    intro r₁ hr₁
    rw [Bool.eq_iff_iff]
    constructor
    · intro h
      obtain rfl := List.mem_singleton.mp (hnamed ▸ List.mem_filter.mpr ⟨hr₁, h⟩)
      exact (List.mem_filter.mp (hq ▸ List.mem_singleton_self _)).2
    · intro h
      obtain rfl := List.mem_singleton.mp (hq ▸ List.mem_filter.mpr ⟨hr₁, h⟩)
      exact (List.mem_filter.mp (hnamed ▸ List.mem_singleton_self _)).2

/-- An update with a query of its own is right where that selects what is named. -/
theorem meets_doUpdate_named_iff (hone : (s t).countP named ≤ 1) :
    Meets t named (some values) (returningSome (doUpdate cfg t q values)) s ↔
      (∀ r ∈ s t, named r = q r) ∧ Takes cfg t named values s := by
  have hcongr (h : ∀ r ∈ s t, named r = q r) :
      Meets t named (some values) (returningSome (doUpdate cfg t q values)) s ↔ Takes cfg t named values s := by
    have hone' : (s t).countP q ≤ 1 := by
      rwa [List.countP_eq_length_filter, ← List.filter_congr h, ← List.countP_eq_length_filter]
    rw [takes_congr h, ← meets_doUpdate_iff hone']
    exact touchesOne_congr h
  constructor
  · exact fun hmeets => ⟨eq_of_meets hmeets, (hcongr (eq_of_meets hmeets)).mp hmeets⟩
  · exact fun h => (hcongr h.1).mpr h.2

/-! ## Every call -/

theorem column_le_one {c : Column} {v : Cell} (h : schema.admits s t = true) (hkey : [c] ∈ keys t)
    (hq : ∀ r, q r = true → r c = some v) : (s t).countP q ≤ 1 := by
  refine countP_le_one (Bool.and_eq_true_iff.mp h).1 hkey fun r r' hr hr' => ?_
  simp [agree, hq r hr, hq r' hr']

/-- No two rows have one identifier. -/
theorem names_le_one (h : schema.admits s t = true) (hid : ["id"] ∈ keys t) (huuid : ["uuid"] ∈ keys t)
    (hq : ∀ r, q r = true → i.names r = true) : (s t).countP q ≤ 1 := by
  cases i with
  | int n => exact column_le_one h hid fun r hr => of_decide_eq_true (hq r hr)
  | uuid u => exact column_le_one h huuid fun r hr => of_decide_eq_true (hq r hr)
  | other s =>
      rw [List.countP_eq_zero.mpr fun r _ hr => by cases hq r hr]
      exact Nat.zero_le 1

theorem int_names_le_one {n : Int} (h : schema.admits s t = true) (hid : ["id"] ∈ keys t) :
    (s t).countP (Ident.int n).names ≤ 1 :=
  column_le_one h hid fun _ hr => of_decide_eq_true hr

theorem uuid_le_one {u : String} (h : schema.admits s t = true) (huuid : ["uuid"] ∈ keys t) :
    (s t).countP (byUuid u) ≤ 1 :=
  column_le_one h huuid fun _ hr => of_decide_eq_true hr

/-- What is refused before the table is asked is no `NotFound`. -/
theorem not_meets_of_raise {values : Option Values} {p : Prog Store Failure (Option Row)} {e : Failure}
    (h : p s = (.raise e, s)) (he : e ≠ .notFound t) : ¬ Meets t named values p s := by
  intro hmeets
  rw [Meets, wp, h] at hmeets
  exact he hmeets.1

theorem addIdentityFilter_of_proper (h : i.Proper) (query : Query) :
    addIdentityFilter query i = .ok fun r => query r && i.names r := by
  cases i with
  | int n => rfl
  | uuid u => rfl
  | other s => cases h

theorem addIdentityFilter_of_not_proper (h : ¬ i.Proper) (query : Query) :
    ∃ e, addIdentityFilter query i = .error e ∧ ∀ t, e ≠ .notFound t := by
  cases i with
  | int n => exact absurd trivial h
  | uuid u => exact absurd trivial h
  | other s => exact ⟨_, rfl, fun t => by simp⟩

/-- A destroy that filters by identity. -/
theorem meets_destroy_identity_iff {query : Query} (hone : (s t).countP (fun r => query r && i.names r) ≤ 1) :
    Meets t (fun r => query r && i.names r) none
        (returningNone (withQuery (addIdentityFilter query i) (destroy t))) s ↔
      i.Proper ∧ Unreferenced schema s (only t fun r => query r && i.names r) := by
  by_cases hproper : i.Proper
  · rw [addIdentityFilter_of_proper hproper, iff_true_intro hproper, true_and]
    exact meets_destroy_iff hone
  · obtain ⟨e, he, hne⟩ := addIdentityFilter_of_not_proper hproper query
    rw [he]
    refine iff_of_false (not_meets_of_raise rfl (hne t)) fun h => hproper h.1

/-- An update that filters by identity. -/
theorem meets_update_identity_iff (cfg : Config) (values : Values) {query : Query}
    (hone : (s t).countP (fun r => query r && i.names r) ≤ 1) :
    Meets t (fun r => query r && i.names r) (some values)
        (returningSome (withQuery (addIdentityFilter query i) fun q => doUpdate cfg t q values)) s ↔
      i.Proper ∧ Takes cfg t (fun r => query r && i.names r) values s := by
  by_cases hproper : i.Proper
  · rw [addIdentityFilter_of_proper hproper, iff_true_intro hproper, true_and]
    exact meets_doUpdate_iff hone
  · obtain ⟨e, he, hne⟩ := addIdentityFilter_of_not_proper hproper query
    rw [he]
    refine iff_of_false (not_meets_of_raise rfl (hne t)) fun h => hproper h.1

/-- A UUID is not to be overwritten. -/
theorem meets_unless_uuid_iff {p : Prog Store Failure Row} :
    Meets t named (some values) (returningSome (if hasUuid values then raise .invalidParameterValue else p)) s ↔
      hasUuid values = false ∧ Meets t named (some values) (returningSome p) s := by
  by_cases huuid : hasUuid values = true
  · rw [if_pos huuid]
    refine iff_of_false (not_meets_of_raise rfl (by simp)) fun h => ?_
    rw [h.1] at huuid
    cases huuid
  · rw [if_neg huuid, iff_true_intro (Bool.eq_false_iff.mpr huuid), true_and]

/-- The name is free, or the call is refused for it. -/
theorem validateUniqueContainerName_run (cfg : Config) (s : Store) (ctx : Db.Context) (name : Option Cell) :
    validateUniqueContainerName cfg ctx name s = (.ok (), s) ∧
        (cfg.scope ≠ .none → ∃ n, name = some (.text n) ∧ ∀ r ∈ s .container, bears cfg ctx n r = false) ∨
      ∃ e, validateUniqueContainerName cfg ctx name s = (.raise e, s) ∧ (∀ t, e ≠ .notFound t) ∧
        cfg.scope ≠ .none ∧ ∀ n, name = some (.text n) → ∃ r ∈ s .container, bears cfg ctx n r = true := by
  unfold validateUniqueContainerName
  split
  · next hscope => exact .inl ⟨rfl, fun h => absurd hscope h⟩
  · next hscope =>
    split
    · next n =>
      split
      · next hcount =>
        refine .inr ⟨_, rfl, by simp, hscope, ?_⟩
        rintro _ ⟨rfl⟩
        obtain ⟨r, hr, hbears⟩ := List.countP_pos_iff.mp hcount
        exact ⟨r, hr, hbears⟩
      · next hcount =>
        exact .inl ⟨rfl, fun _ => ⟨n, rfl, countP_eq_zero_iff.mp (Nat.le_zero.mp (Nat.not_lt.mp hcount))⟩⟩
    · next hname => exact .inr ⟨_, rfl, by simp, hscope, fun n h => absurd h (hname n)⟩

/-- An update goes on as it would have, after a look that is without consequences. -/
theorem meets_after {look : Prog Store Failure Unit} {p : Prog Store Failure Row} (h : look s = (.ok (), s)) :
    Meets t named (some values) (returningSome (look >>= fun _ => p)) s ↔
      Meets t named (some values) (returningSome p) s := by
  simp only [Meets, returningSome, wp_bind]
  unfold wp
  rw [h]
  exact Iff.rfl

theorem not_meets_after {look : Prog Store Failure Unit} {p : Prog Store Failure Row} {e : Failure}
    (h : look s = (.raise e, s)) (he : e ≠ .notFound t) :
    ¬ Meets t named (some values) (returningSome (look >>= fun _ => p)) s := by
  simp only [Meets, returningSome, wp_bind]
  unfold wp
  rw [h]
  exact fun hmeets => he hmeets.1

/-- An update of a container looks at the name first. -/
theorem meets_whenNamed_iff (ctx : Db.Context) {p : Prog Store Failure Row} :
    Meets t named (some values) (returningSome (whenNamed cfg ctx values >>= fun _ => p)) s ↔
      NameFree cfg ctx values s ∧ Meets t named (some values) (returningSome p) s := by
  unfold whenNamed
  cases hname : values.lookup "name" with
  | none =>
      refine (meets_after (rfl : (pure () : Prog Store Failure Unit) s = (.ok (), s))).trans ?_
      refine (and_iff_right fun name h => ?_).symm
      rw [hname] at h
      cases h
  | some name =>
      rcases validateUniqueContainerName_run cfg s ctx name with ⟨hrun, h⟩ | ⟨e, hrun, hne, hscope, h⟩
      · rw [meets_after hrun]
        refine (and_iff_right fun name' hname' => ?_).symm
        rw [hname] at hname'
        cases hname'
        exact h
      · refine iff_of_false (not_meets_after hrun (hne t)) fun hf => ?_
        obtain ⟨n, hn, hnone⟩ := hf.1 name hname hscope
        obtain ⟨r, hr, hbears⟩ := h n hn
        rw [hnone r hr] at hbears
        cases hbears

/-! ## Every call -/

/-- For every content of the database, a call meets what is asked of it exactly when it is sound. -/
theorem touches_one_iff (cfg : Config) (db : Content schema Cell) (op : Op) :
    wp (op.run cfg) (TouchesOne op.table op.named op.values db.rows) db.rows ↔ op.Sound cfg db.rows := by
  have hadmits := db.admitted
  have hidentity (t : TableName) (hid : ["id"] ∈ keys t) (huuid : ["uuid"] ∈ keys t) (query : Query) (i : Ident) :
      (db.rows t).countP (fun r => query r && i.names r) ≤ 1 :=
    names_le_one (hadmits t) hid huuid fun r hr => (Bool.and_eq_true_iff.mp hr).2
  cases op with
  | destroyContainer type i => exact meets_destroy_identity_iff (hidentity .container (by decide) (by decide) _ i)
  | updateContainer ctx type i values =>
      refine meets_unless_uuid_iff.trans ((and_congr_right fun _ => ?_).trans and_left_comm)
      refine (meets_whenNamed_iff ctx).trans ((and_congr_right fun _ => ?_).trans and_left_comm)
      exact meets_update_identity_iff cfg values (hidentity .container (by decide) (by decide) _ i)
  | destroyResourceProvider i =>
      have h := meets_destroy_identity_iff (hidentity .resourceProvider (by decide) (by decide) (fun _ => true) i)
      simp only [Bool.true_and] at h
      exact h.trans (and_iff_left (unreferenced_of_not_parent (by decide)))
  | updateResourceProvider i values =>
      refine meets_unless_uuid_iff.trans ((and_congr_right fun _ => ?_).trans and_left_comm)
      have h := meets_update_identity_iff cfg values
        (hidentity .resourceProvider (by decide) (by decide) (fun _ => true) i)
      simp only [Bool.true_and] at h
      exact h
  | destroyResourceClass i => exact meets_destroyResourceClass_iff
  | updateResourceClass i values =>
      have h := names_le_one (hadmits .resourceClass) (by decide) (by decide) fun r (hr : i.names r = true) => hr
      exact meets_doUpdate_named_iff h
  | destroyInventory n =>
      refine iff_of_true ((meets_destroy_iff ?_).mpr (unreferenced_of_not_parent (by decide))) trivial
      exact int_names_le_one (hadmits .inventory) (by decide)
  | updateInventory n values => exact meets_doUpdate_iff (int_names_le_one (hadmits .inventory) (by decide))
  | destroyAllocation n =>
      refine iff_of_true ((meets_destroy_iff ?_).mpr (unreferenced_of_not_parent (by decide))) trivial
      exact int_names_le_one (hadmits .allocation) (by decide)
  | updateAllocation n values => exact meets_doUpdate_iff (int_names_le_one (hadmits .allocation) (by decide))
  | destroyComputeNode u => exact meets_destroy_iff (uuid_le_one (hadmits .computeNode) (by decide))
  | updateComputeNode u values =>
      have h : (db.rows .computeNode).countP (byUuid u) ≤ 1 := uuid_le_one (hadmits .computeNode) (by decide)
      exact meets_unless_uuid_iff.trans (and_congr_right fun _ => meets_doUpdate_iff h)

/-- A database whose only resource class has the id 1. -/
def loneClass : Content schema Cell where
  rows
    | .resourceClass => [fun c =>
        if c = "id" then some (.int 1)
        else if c = "uuid" then some (.text "9f1e4a3c-0d2b-4c63-9b0e-2f6f1f5c8e11")
        else if c = "name" then some (.text "CPU")
        else none]
    | _ => []
  admitted t := by cases t <;> decide

/-- The destroy of a class that is not there removes the one that is. -/
theorem not_touches_one : ¬ ∀ (cfg : Config) (db : Content schema Cell) (op : Op),
    wp (op.run cfg) (TouchesOne op.table op.named op.values db.rows) db.rows := by
  intro h
  obtain ⟨r, hr, -⟩ := h {} loneClass (.destroyResourceClass (.int 2))
  cases hr

end Connection

end Zun
