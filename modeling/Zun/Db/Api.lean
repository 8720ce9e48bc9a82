import Zun.Data.Table
import Zun.Objects.Container

/-!
# The rows of the database

`zun/db/sqlalchemy/api.py`: which rows of the container table a query answers.  Containers,
capsules and the members of capsules are rows of one table, told apart by their type.  A listing
answers the rows of one type; those of every project only when the context is an
administrator's that asks for all projects.
-/

namespace Zun

namespace Db

/-- `consts.TYPE_*`. -/
inductive ContainerType where
  | container | capsule | capsuleContainer | capsuleInitContainer
deriving DecidableEq

/-- The fields of a `RequestContext` that a query reads. -/
structure Context where
  isAdmin : Bool := false
  allProjects : Bool := false
  projectId : Option String := none
  userId : Option String := none
deriving DecidableEq

/-- `get_admin_context`. -/
def getAdminContext (allProjects : Bool) : Context := { isAdmin := true, allProjects }

/-- A row of the container table. -/
structure Container where
  containerType : ContainerType
  projectId : Option String := none
  userId : Option String := none
  name : Option String := none
  host : Option Host := none
  /-- The capsule that a member belongs to. -/
  capsule : Option Uuid := none
deriving DecidableEq

abbrev Containers := Table Uuid Container

/-- `_add_project_filters`. -/
def addProjectFilters (ctx : Context) (r : Container) : Bool :=
  if ctx.isAdmin && ctx.allProjects then true
  else if ctx.projectId.isSome then r.projectId = ctx.projectId
  else r.userId = ctx.userId

/-- `list_containers`, of one type and with a filter: whether the row of a uuid is answered. -/
def listContainers (ctx : Context) (type : ContainerType) (filters : Container → Bool)
    (t : Containers) : Uuid → Bool :=
  t.has fun r => addProjectFilters ctx r && r.containerType = type && filters r

/-- `list`. -/
def list (ctx : Context) (type : ContainerType) : Containers → Uuid → Bool :=
  listContainers ctx type fun _ => true

/-- `list_by_host`. -/
def listByHost (ctx : Context) (type : ContainerType) (h : Host) : Containers → Uuid → Bool :=
  listContainers ctx type fun r => r.host = some h

variable {t : Containers} {u : Uuid} {r : Container} {type : ContainerType}

theorem list_admin :
    list (getAdminContext true) type t u = t.has (fun r => r.containerType = type) u := by
  simp [list, listContainers, addProjectFilters, getAdminContext]

theorem listByHost_admin {h : Host} :
    listByHost (getAdminContext true) type h t u =
      t.has (fun r => r.containerType = type && r.host = some h) u := by
  simp [listByHost, listContainers, addProjectFilters, getAdminContext]

end Db

end Zun
