import Mathlib.Data.List.AList
import Mathlib.Logic.Function.Basic
import Zun.Effect.Run
import Zun.Objects.Container

/-!
# The state sync of the docker driver

`sync_container_state` of `zun/compute/manager.py` and `update_containers_states`, `list` and
`heal_with_rebuilding_container` of `zun/container/docker/driver.py`, beside the rebuilds, deletes,
starts and stops of the containers.

The sync reads the records of the host, then docker, then the records of the host and of what docker
has, and works from these copies.  An operation is a list of what it does, under the lock of its
container; the sync takes no lock.  A step is one access to the database or to docker.
-/

namespace Zun

open Effect

namespace DockerSync

structure Row where
  status : Status
  taskState : Option TaskState := none
  containerId : Option Nat := none
  host : Option String := none
  autoRemove : Bool := false
  autoHeal : Bool := false
deriving DecidableEq

/-- The word that docker has for the state of a container. -/
inductive DockerState where
  | created | running | paused | restarting | removing | exited | dead
  | other (word : String)
deriving DecidableEq

/-- A container as docker lists it, with the uuid that is in its name. -/
structure Listed where
  id : Nat
  uuid : Uuid
  state : DockerState
deriving DecidableEq

/-! ## Operations -/

inductive Op where
  | rebuild (run : Bool)
  | delete (force : Bool)
  | start
  | stop
deriving DecidableEq

/-- What an operation does. -/
inductive Act where
  /-- The save at the beginning of `_update_task_state`, with the status that the API has left in the
  object. -/
  | take (t : TaskState) (status : Option Status)
  | release
  /-- `docker.remove_container`. -/
  | remove
  /-- `docker.create_container`, and the save of the new id. -/
  | create
  | dockerStart
  | dockerStop
  | settle (status : Status)
  /-- The save of `_fail_container`. -/
  | fail
  | destroy
deriving DecidableEq

def Op.body : Op → List Act
  | .rebuild run =>
      [.remove, .create, .settle .created] ++ if run then [.dockerStart, .settle .running] else []
  | .delete _ => [.remove]
  | .start => [.dockerStart, .settle .running]
  | .stop => [.dockerStop, .settle .stopped]

/-- What the handler does when a call of the body fails. -/
def Op.onFailure : Op → List Act
  | .stop => []
  | _ => [.fail]

def Op.taskState : Op → TaskState
  | .rebuild _ => .containerRebuilding
  | .delete _ => .containerDeleting
  | .start => .containerStarting
  | .stop => .containerStopping

/-- The status that the object brings from the API and that is not saved. -/
def Op.carried : Op → Option Status
  | .delete _ => some .deleting
  | _ => none

/-- What comes after the task state is given back. -/
def Op.after (failed : Bool) : Op → List Act
  | .delete force => if failed = true ∧ force = false then [] else [.destroy]
  | _ => []

/-- A record that has a task state keeps it: `_update_task_state` is then skipped. -/
def Op.script (op : Op) (skip : Bool) : List Act :=
  (if skip then [] else [.take op.taskState op.carried]) ++ op.body ++
    (if skip then [] else [.release]) ++ op.after false

def Op.failing (op : Op) (skip : Bool) : List Act :=
  op.onFailure ++ (if skip then [] else [.release]) ++ op.after true

/-- An operation that has the lock of its container, and what it has still to do. -/
structure Thread where
  op : Op
  skip : Bool
  todo : List Act
deriving DecidableEq

/-- What is saved on the row. -/
def Act.save (id : Nat) (r : Row) : Act → Row
  | .take t status => { r with taskState := some t, status := status.getD r.status }
  | .release => { r with taskState := none }
  | .create => { r with containerId := some id, status := .created }
  | .settle status => { r with status }
  | .fail => { r with status := if r.autoRemove then .deleted else .error }
  | .remove | .dockerStart | .dockerStop | .destroy => r

/-- What is done to the containers of docker. -/
def Act.onDocker (id : Nat) (u : Uuid) (r : Row) (docker : List Listed) : Act → List Listed
  | .remove => docker.filter fun c => ¬ r.containerId = some c.id
  | .create => { id, uuid := u, state := .created } :: docker
  | .dockerStart =>
      docker.map fun c => if r.containerId = some c.id then { c with state := .running } else c
  | .dockerStop =>
      docker.map fun c => if r.containerId = some c.id then { c with state := .exited } else c
  | _ => docker

/-! ## The sync -/

/-- `_populate_container_state`, of a state as docker lists it. -/
def populate (r : Row) (state : DockerState) : Row :=
  if r.taskState.isSome then r
  else
    match state with
    | .created =>
        if r.status = .creating then { r with status := .created }
        else if r.status ∈ [Status.created, .restarting, .error, .rebuilding] then r
        else { r with status := .unknown }
    | .paused => { r with status := .paused }
    | .running => { r with status := .running }
    | .dead => { r with status := .dead }
    | .restarting => { r with status := .restarting }
    | .exited | .removing => { r with status := .stopped }
    | .other _ => { r with status := .unknown }

/-- The statuses that `list` leaves alone. -/
def skipped (status : Status) : Bool := status ∈ [Status.creating, .deleting, .deleted]

/-- `id_to_container_map.get(container_id)`. -/
def inDocker (found : List Listed) (r : Row) : Option Listed :=
  r.containerId.bind fun id => found.find? (·.id = id)

/-- The records that `list` returns. -/
def locals (found : List Listed) (rows : List (Uuid × Row)) : List (Uuid × Row) :=
  rows.map fun x =>
    if skipped x.2.status then x
    else
      match inDocker found x.2 with
      | none => x
      | some c => (x.1, populate x.2 c.state)

/-- The records that `list` finds nothing for. -/
def nonExistent (found : List Listed) (rows : List (Uuid × Row)) : List (Uuid × Row) :=
  rows.filter fun x => skipped x.2.status = false ∧ inDocker found x.2 = none

/-- A map from container ids: of two records with one id it has the later one. -/
def byId (rows : List (Uuid × Row)) (id : Nat) : Option (Uuid × Row) :=
  rows.reverse.find? fun x => x.2.containerId = some id

def ids (rows : List (Uuid × Row)) : List Nat := rows.filterMap (·.2.containerId)

/-- Where the sync is. -/
inductive Pass where
  | idle
  /-- It has the records of the host. -/
  | listed (containers : List (Uuid × Row))
  /-- It has the containers of docker. -/
  | found (containers : List (Uuid × Row)) (docker : List Listed)
  /-- It has the uuids whose records it reads again. -/
  | named (containers : List (Uuid × Row)) (docker : List Listed) (uuids : List Uuid)
  /-- In the loop over the ids that both maps have, in any order. -/
  | syncing (containers localContainers : List (Uuid × Row)) (ids : List Nat)
      (missing : List (Uuid × Row))
  /-- In the loop over the records that docker has nothing for. -/
  | healing (missing : List (Uuid × Row))
deriving DecidableEq

structure State where
  rows : AList fun _ : Uuid => Row := ∅
  docker : List Listed := []
  /-- The operations that wait for the lock of their container. -/
  queue : List (Uuid × Op) := []
  threads : Uuid → Option Thread := fun _ => none
  pass : Pass := .idle

def State.setThread (s : State) (u : Uuid) (t : Option Thread) : State :=
  { s with threads := Function.update s.threads u t }

/-- The records of some rows. -/
def State.list (s : State) (p : Uuid → Row → Bool) : List (Uuid × Row) :=
  (s.rows.entries.filter fun x => p x.1 x.2).map fun x => (x.1, x.2)

inductive Event where
  /-- The API takes a request, and casts it to the host. -/
  | accept (u : Uuid) (op : Op)
  /-- The operation gets the lock, and `_caught_up` reads the record. -/
  | begin (u : Uuid) (op : Op)
  /-- The next act of an operation.  A container that it makes has the id. -/
  | work (u : Uuid) (ok : Bool) (id : Nat)
  /-- A container of docker changes by itself, or is removed by hand. -/
  | dockerChanges (id : Nat) (state : DockerState)
  | dockerGone (id : Nat)
  /-- `Container.list_by_host`, in the manager. -/
  | listByHost
  | listDocker
  /-- `Container.list_by_host`, in the driver. -/
  | listUuids
  /-- `Container.list`, and all that is worked out of it. -/
  | listLocal
  | sync (id : Nat)
  | synced
  | heal
deriving DecidableEq

/-- `heal_with_rebuilding_container`.  The rebuild is called without its last argument, and the
`TypeError` is caught. -/
def healed (s : State) (u : Uuid) (r : Row) : State :=
  if r.containerId = none then s
  else if r.autoHeal = true ∧ r.status ∈ validStates .rebuild then s
  else
    match s.rows.lookup u with
    | none => s
    | some row => { s with rows := s.rows.insert u { row with status := .error } }

/-- The call that was to be made has failed: the handler comes next, and then what is in a `finally`.
The first save is outside of both. -/
def Thread.afterFailure (t : Thread) (todo : List Act) : Act → Option Thread
  | .take _ _ | .release | .destroy => none
  | .fail => some { t with todo }
  | _ => some { t with todo := t.op.failing t.skip }

def stepWork (s : State) (u : Uuid) (ok : Bool) (id : Nat) (t : Thread) : State :=
  match t.todo with
  | [] => s.setThread u none
  | a :: todo =>
      match s.rows.lookup u with
      -- The record is gone, and nothing can be saved any more.
      | none => s.setThread u none
      | some r =>
          if ok = false then s.setThread u (t.afterFailure todo a)
          else
            { s with
              rows := if a = Act.destroy then s.rows.erase u else s.rows.insert u (a.save id r),
              docker := a.onDocker id u r s.docker }.setThread u (some { t with todo })

section

variable (host : String)

def stepSync (s : State) (id : Nat) (containers localContainers : List (Uuid × Row)) (ids : List Nat)
    (missing : List (Uuid × Row)) : State :=
  let rest := Pass.syncing containers localContainers (ids.erase id) missing
  match byId containers id, byId localContainers id with
  | some c, some l =>
      if c.2.status = l.2.status then { s with pass := rest }
      else
        match s.rows.lookup c.1 with
        -- `ContainerNotFound` ends the sync.
        | none => { s with pass := .idle }
        | some row =>
            { s with rows := s.rows.insert c.1 { row with status := l.2.status }, pass := rest }
  | _, _ => { s with pass := rest }

def stepHeal (s : State) (u : Uuid) (r : Row) (missing : List (Uuid × Row)) : State :=
  if r.host ≠ some host then { s with pass := .healing missing }
  else if r.autoRemove = true then
    match s.rows.lookup u with
    | none => { s with pass := .idle }
    | some row =>
        { s with rows := s.rows.insert u { row with status := .deleted }, pass := .healing missing }
  else { healed s u r with pass := .healing missing }

def stepLocal (s : State) (containers : List (Uuid × Row)) (found : List Listed) (uuids : List Uuid) :
    State :=
  let rows := s.list fun u _ => u ∈ uuids
  if rows = [] then { s with pass := .idle }
  else
    let localContainers := locals found rows
    let both := (ids containers).dedup.filter (· ∈ ids localContainers)
    { s with pass := .syncing containers localContainers both (nonExistent found rows) }

def step : Event → State → State
  | .accept u op, s =>
      match op, s.rows.lookup u with
      | .rebuild _, some r =>
          { s with rows := s.rows.insert u { r with status := .rebuilding },
                   queue := s.queue ++ [(u, op)] }
      | _, _ => { s with queue := s.queue ++ [(u, op)] }
  | .begin u op, s =>
      match s.rows.lookup u with
      | none => { s with queue := s.queue.erase (u, op) }
      | some r =>
          { s with queue := s.queue.erase (u, op) }.setThread u
            (some { op, skip := r.taskState.isSome, todo := op.script r.taskState.isSome })
  | .work u ok id, s =>
      match s.threads u with
      | none => s
      | some t => stepWork s u ok id t
  | .dockerChanges id state, s =>
      { s with docker := s.docker.map fun c => if c.id = id then { c with state } else c }
  | .dockerGone id, s => { s with docker := s.docker.filter fun c => ¬ c.id = id }
  | .listByHost, s => { s with pass := .listed (s.list fun _ r => r.host = some host) }
  | .listDocker, s =>
      match s.pass with
      | .listed containers => { s with pass := .found containers s.docker }
      | _ => s
  | .listUuids, s =>
      match s.pass with
      | .found containers docker =>
          let uuids := docker.map (·.uuid) ++ (s.list fun _ r => r.host = some host).map (·.1)
          { s with pass := .named containers docker uuids }
      | _ => s
  | .listLocal, s =>
      match s.pass with
      | .named containers docker uuids => stepLocal s containers docker uuids
      | _ => s
  | .sync id, s =>
      match s.pass with
      | .syncing containers localContainers ids missing =>
          stepSync s id containers localContainers ids missing
      | _ => s
  | .synced, s =>
      match s.pass with
      | .syncing _ _ _ missing => { s with pass := .healing missing }
      | _ => s
  | .heal, s =>
      match s.pass with
      | .healing [] => { s with pass := .idle }
      | .healing ((u, r) :: missing) => stepHeal host s u r missing
      | _ => s

end

/-- An operation owns the container. -/
def Row.Owned (r : Row) : Prop :=
  r.taskState ≠ none ∨ r.status ∈ [Status.creating, .rebuilding, .deleting]

instance : DecidablePred Row.Owned := fun r =>
  inferInstanceAs (Decidable (r.taskState ≠ none ∨ r.status ∈ [Status.creating, .rebuilding, .deleting]))

/-- The container whose status the sync writes, or that it heals. -/
def touches (host : String) : Event → State → Option Uuid
  | .sync id, s =>
      match s.pass with
      | .syncing containers localContainers _ _ =>
          match byId containers id, byId localContainers id with
          | some c, some l => if c.2.status = l.2.status then none else some c.1
          | _, _ => none
      | _ => none
  | .heal, s =>
      match s.pass with
      | .healing ((u, r) :: _) =>
          if r.host = some host ∧ (r.autoRemove = true ∨ r.containerId ≠ none) then some u else none
      | _ => none
  | _, _ => none

/-- The sync leaves operations alone. -/
def LeavesAlone (host : String) (e : Event) (s : State) : Prop :=
  ∀ u r, touches host e s = some u → s.rows.lookup u = some r → ¬ r.Owned

/-- What can happen. -/
def Possible (host : String) : Event → State → Prop
  | .accept u op, s => ∃ r, s.rows.lookup u = some r ∧ r.host = some host ∧
      ∀ run, op = .rebuild run → r.status ∈ validStates .rebuild
  | .begin u op, s => (u, op) ∈ s.queue ∧ s.threads u = none
  -- Docker gives no id twice.
  | .work u _ id, s => s.threads u ≠ none ∧ ∀ v r, s.rows.lookup v = some r → r.containerId ≠ some id
  | .dockerChanges _ _, _ | .dockerGone _, _ => True
  | .listByHost, s => s.pass = .idle
  | .listDocker, s => ∃ containers, s.pass = .listed containers
  | .listUuids, s => ∃ containers docker, s.pass = .found containers docker
  | .listLocal, s => ∃ containers docker uuids, s.pass = .named containers docker uuids
  | .sync id, s => ∃ containers localContainers ids missing,
      s.pass = .syncing containers localContainers ids missing ∧ id ∈ ids
  | .synced, s => ∃ containers localContainers missing,
      s.pass = .syncing containers localContainers [] missing
  | .heal, s => ∃ missing, s.pass = .healing missing

/-- No two records have one container id. -/
def Distinct (s : State) : Prop :=
  ∀ u v r r' id, s.rows.lookup u = some r → s.rows.lookup v = some r' →
    r.containerId = some id → r'.containerId = some id → u = v

/-- No sync and no operation is under way. -/
structure Begun (s : State) : Prop where
  pass : s.pass = .idle
  threads : ∀ u, s.threads u = none
  queue : s.queue = []
  distinct : Distinct s

/-- The statuses of an operation that `list` leaves alone. -/
def settling : List Status := [.creating, .deleting]

/-- An act that leaves what the sync looks at as it is: it does not save anything, or the container is
being created or deleted and stays so. -/
def Act.Harmless (a : Act) (id : Nat) (r : Row) : Prop :=
  a = .dockerStart ∨ a = .dockerStop ∨
    (r.status ∈ settling ∧ (a.save id r).status = r.status ∧
      (a.save id r).containerId = r.containerId)

/-- A sync begins when every container of the host that an operation owns is being created or
deleted, or has its task state set and is in docker.  Until it is over no rebuild is taken, the
operations do only what is harmless, and nobody removes a container of theirs by hand before docker
is listed. -/
def Undisturbed (host : String) : Event → State → Prop
  | .listByHost, s => ∀ u r, s.rows.lookup u = some r → r.host = some host → r.Owned →
      r.status ∈ settling ∨ (r.taskState ≠ none ∧ ∃ c ∈ s.docker, r.containerId = some c.id)
  | .accept _ op, s => s.pass ≠ .idle → ∀ run, op ≠ .rebuild run
  | .work u ok id, s => s.pass ≠ .idle → ok = true → ∀ r t a todo, s.rows.lookup u = some r →
      s.threads u = some t → t.todo = a :: todo → a.Harmless id r
  | .dockerGone id, s => ∀ containers, s.pass = .listed containers → ∀ u r,
      s.rows.lookup u = some r → r.containerId = some id → r.Owned → r.status ∈ settling
  | _, _ => True

/-! ## What the copies say of the records -/

abbrev Rows := AList fun _ : Uuid => Row

variable {host : String} {s : State} {rows rows' : Rows}

/-- Every container of the host that an operation owns is being created or deleted, or has its task
state set and an id that `known` has. -/
def OwnedIn (host : String) (rows : Rows) (known : List Listed) : Prop :=
  ∀ u r, rows.lookup u = some r → r.host = some host → r.Owned →
    r.status ∈ settling ∨ (r.taskState ≠ none ∧ ∃ c ∈ known, r.containerId = some c.id)

/-- The copies that were read first. -/
def Copied (host : String) (rows : Rows) (containers : List (Uuid × Row)) : Prop :=
  ∀ x ∈ containers, ∀ r, rows.lookup x.1 = some r →
    r.host = some host ∧ r.containerId = x.2.containerId ∧ (r.Owned → x.2.status = r.status)

/-- The copies that were read last, and populated. -/
def Populated (host : String) (rows : Rows) (localContainers : List (Uuid × Row)) : Prop :=
  ∀ x ∈ localContainers, ∀ u r id, rows.lookup u = some r → r.host = some host →
    x.2.containerId = some id → r.containerId = some id →
      (r.Owned → x.2.status = r.status) ∧ (¬ r.Owned → x.2.status ∉ [Status.creating, .rebuilding, .deleting])

/-- The records that docker has nothing for. -/
def Free (host : String) (rows : Rows) (missing : List (Uuid × Row)) : Prop :=
  ∀ x ∈ missing, ∀ r, rows.lookup x.1 = some r → x.2.host = some host → ¬ r.Owned

/-- By where the sync is. -/
def Watching (host : String) (s : State) : Prop :=
  match s.pass with
  | .idle => True
  | .listed containers => OwnedIn host s.rows s.docker ∧ Copied host s.rows containers
  | .found containers docker | .named containers docker _ =>
      OwnedIn host s.rows docker ∧ Copied host s.rows containers
  | .syncing containers localContainers _ missing =>
      Copied host s.rows containers ∧ Populated host s.rows localContainers ∧ Free host s.rows missing
  | .healing missing => Free host s.rows missing

/-- A row after a step that the sync allows, of the row before it. -/
structure Row.Evolves (r r' : Row) : Prop where
  host : r'.host = r.host
  containerId : r'.containerId = r.containerId
  owned : r'.Owned ↔ r.Owned
  status : r.Owned → r'.status = r.status
  taskState : r.Owned → r.status ∈ settling ∨ r'.taskState = r.taskState

theorem Row.Evolves.refl (r : Row) : r.Evolves r := ⟨rfl, rfl, .rfl, fun _ => rfl, fun _ => .inr rfl⟩

/-- Every row is one that was there, evolved. -/
def Evolves (rows rows' : Rows) : Prop :=
  ∀ u r', rows'.lookup u = some r' → ∃ r, rows.lookup u = some r ∧ r.Evolves r'

theorem Evolves.refl (rows : Rows) : Evolves rows rows := fun _ r' hr => ⟨r', hr, .refl r'⟩

theorem Evolves.insert {u : Uuid} {r r' : Row} (hr : rows.lookup u = some r) (h : r.Evolves r') :
    Evolves rows (rows.insert u r') := by
  intro v r'' hv
  by_cases hvu : v = u
  · subst hvu
    rw [AList.lookup_insert] at hv
    cases hv
    exact ⟨r, hr, h⟩
  · rw [AList.lookup_insert_ne hvu] at hv
    exact ⟨r'', hv, .refl r''⟩

theorem Evolves.erase (rows : Rows) (u : Uuid) : Evolves rows (rows.erase u) := by
  intro v r' hv
  by_cases hvu : v = u
  · subst hvu
    rw [AList.lookup_erase] at hv
    cases hv
  · rw [AList.lookup_erase_ne hvu] at hv
    exact ⟨r', hv, .refl r'⟩

theorem OwnedIn.evolves {known : List Listed} (h : OwnedIn host rows known) (he : Evolves rows rows') :
    OwnedIn host rows' known := by
  intro u r' hr' hhost howned
  obtain ⟨r, hr, hev⟩ := he u r' hr'
  have hold := hev.owned.mp howned
  rw [hev.status hold, hev.containerId]
  rcases h u r hr (hev.host ▸ hhost) hold with hsettling | ⟨htask, hknown⟩
  · exact .inl hsettling
  · rcases hev.taskState hold with hsettling | hsame
    · exact .inl hsettling
    · exact .inr ⟨hsame ▸ htask, hknown⟩

theorem Copied.evolves {containers : List (Uuid × Row)} (h : Copied host rows containers)
    (he : Evolves rows rows') : Copied host rows' containers := by
  intro x hx r' hr'
  obtain ⟨r, hr, hev⟩ := he x.1 r' hr'
  obtain ⟨hhost, hid, hstatus⟩ := h x hx r hr
  refine ⟨hev.host.trans hhost, hev.containerId.trans hid, fun howned => ?_⟩
  have hold := hev.owned.mp howned
  exact (hstatus hold).trans (hev.status hold).symm

theorem Populated.evolves {localContainers : List (Uuid × Row)} (h : Populated host rows localContainers)
    (he : Evolves rows rows') : Populated host rows' localContainers := by
  intro x hx u r' id hr' hhost hxid hid
  obtain ⟨r, hr, hev⟩ := he u r' hr'
  have hold := h x hx u r id hr (hev.host ▸ hhost) hxid (hev.containerId ▸ hid)
  refine ⟨fun howned => ?_, fun hnot => hold.2 fun howned => hnot (hev.owned.mpr howned)⟩
  have howned' := hev.owned.mp howned
  exact (hold.1 howned').trans (hev.status howned').symm

theorem Free.evolves {missing : List (Uuid × Row)} (h : Free host rows missing)
    (he : Evolves rows rows') : Free host rows' missing := by
  intro x hx r' hr' hhost howned
  obtain ⟨r, hr, hev⟩ := he x.1 r' hr'
  exact h x hx r hr hhost (hev.owned.mp howned)

/-- A step that leaves the sync where it is, and every row as the sync allows. -/
theorem Watching.evolves {s' : State} (h : Watching host s) (hpass : s'.pass = s.pass)
    (he : Evolves s.rows s'.rows)
    (hdocker : ∀ containers, s.pass = .listed containers → OwnedIn host s'.rows s'.docker) :
    Watching host s' := by
  unfold Watching at h ⊢
  rw [hpass]
  cases hp : s.pass <;> simp only [hp] at h ⊢
  case listed containers => exact ⟨hdocker containers hp, h.2.evolves he⟩
  case found containers docker => exact ⟨h.1.evolves he, h.2.evolves he⟩
  case named containers docker uuids => exact ⟨h.1.evolves he, h.2.evolves he⟩
  case syncing containers localContainers ids missing =>
    exact ⟨h.1.evolves he, h.2.1.evolves he, h.2.2.evolves he⟩
  case healing missing => exact h.evolves he

/-! ## Container ids -/

/-- Every id of a row is one that the row of its container had. -/
theorem Distinct.of_ids {s' : State} (h : Distinct s)
    (hids : ∀ u r' id, s'.rows.lookup u = some r' → r'.containerId = some id →
      ∃ r, s.rows.lookup u = some r ∧ r.containerId = some id) : Distinct s' := by
  intro u v r r' id hr hr' hid hid'
  obtain ⟨r₀, hr₀, hid₀⟩ := hids u r id hr hid
  obtain ⟨r₁, hr₁, hid₁⟩ := hids v r' id hr' hid'
  exact h u v r₀ r₁ id hr₀ hr₁ hid₀ hid₁

theorem Distinct.evolves {s' : State} (h : Distinct s) (he : Evolves s.rows s'.rows) : Distinct s' := by
  refine h.of_ids fun u r' id hr' hid => ?_
  obtain ⟨r, hr, hev⟩ := he u r' hr'
  exact ⟨r, hr, hev.containerId ▸ hid⟩

theorem lookup_insert_cases {u v : Uuid} {r r' : Row} (h : (rows.insert u r).lookup v = some r') :
    (v = u ∧ r' = r) ∨ (v ≠ u ∧ rows.lookup v = some r') := by
  by_cases hvu : v = u
  · subst hvu
    rw [AList.lookup_insert] at h
    cases h
    exact .inl ⟨rfl, rfl⟩
  · rw [AList.lookup_insert_ne hvu] at h
    exact .inr ⟨hvu, h⟩

/-- A row that keeps its id, or gets one that no row has. -/
theorem Distinct.insert {s' : State} {u : Uuid} {r : Row} (h : Distinct s) (r' : Row)
    (hr : s.rows.lookup u = some r) (hrows : s'.rows = s.rows.insert u r')
    (hid : r'.containerId = r.containerId ∨
      ∀ v r₀, s.rows.lookup v = some r₀ → r₀.containerId ≠ r'.containerId) : Distinct s' := by
  have hold : ∀ v r₀ id, v ≠ u → s.rows.lookup v = some r₀ → r₀.containerId = some id →
      r'.containerId = some id → v = u := by
    intro v r₀ id hvu hv hid₀ hid'
    rcases hid with hsame | hfresh
    · exact h v u r₀ r id hv hr hid₀ (hsame ▸ hid')
    · exact absurd (hid₀.trans hid'.symm) (hfresh v r₀ hv)
  intro v w r₀ r₁ id hv hw hidv hidw
  rw [hrows] at hv hw
  rcases lookup_insert_cases hv with ⟨rfl, rfl⟩ | ⟨hvu, hv'⟩
  · rcases lookup_insert_cases hw with ⟨rfl, rfl⟩ | ⟨hwu, hw'⟩
    · rfl
    · exact (hold w r₁ id hwu hw' hidw hidv).symm
  · rcases lookup_insert_cases hw with ⟨rfl, rfl⟩ | ⟨hwu, hw'⟩
    · exact hold v r₀ id hvu hv' hidv hidw
    · exact h v w r₀ r₁ id hv' hw' hidv hidw

/-- What an act saves keeps the id, or is the new one. -/
theorem Act.save_containerId (a : Act) (id : Nat) (r : Row) :
    (a.save id r).containerId = r.containerId ∨ (a.save id r).containerId = some id := by
  cases a <;> simp [Act.save]

theorem distinct_work {u : Uuid} {ok : Bool} {id : Nat} {t : Thread} (h : Distinct s)
    (hfresh : ∀ v r, s.rows.lookup v = some r → r.containerId ≠ some id) :
    Distinct (stepWork s u ok id t) := by
  unfold stepWork
  split
  · exact h
  case h_2 a todo htodo =>
    split
    · exact h
    case h_2 r hr =>
      split
      · exact h
      · by_cases hdestroy : a = Act.destroy
        · refine h.evolves ?_
          simp only [hdestroy, if_true]
          exact Evolves.erase s.rows u
        · refine h.insert (a.save id r) hr (by simp only [if_neg hdestroy]; rfl) ?_
          rcases a.save_containerId id r with hsame | hnew
          · exact .inl hsame
          · exact .inr fun v r₀ hv => hnew ▸ hfresh v r₀ hv

/-! ## Acts of the operations -/

/-- The act leaves the row in a state that the sync allows. -/
theorem Act.Harmless.evolves {a : Act} {id : Nat} {r : Row} (h : a.Harmless id r)
    (hhost : (a.save id r).host = r.host) : r.Evolves (a.save id r) := by
  rcases h with rfl | rfl | ⟨hsettling, hstatus, hid⟩
  · exact .refl r
  · exact .refl r
  · have howned : r.status ∈ [Status.creating, .rebuilding, .deleting] := by
      simp only [settling, List.mem_cons, List.not_mem_nil, or_false] at hsettling ⊢
      rcases hsettling with h | h
      · exact .inl h
      · exact .inr (.inr h)
    refine ⟨hhost, hid, ⟨fun _ => .inr howned, fun _ => .inr (hstatus ▸ howned)⟩, fun _ => hstatus,
      fun _ => .inl hsettling⟩

theorem Act.save_host (a : Act) (id : Nat) (r : Row) : (a.save id r).host = r.host := by
  cases a <;> rfl

/-- The act leaves in docker every container but that of a row that is being created or deleted. -/
theorem OwnedIn.onDocker {a : Act} {id : Nat} {u : Uuid} {r : Row}
    (h : OwnedIn host s.rows s.docker) (hdistinct : Distinct s) (hr : s.rows.lookup u = some r)
    (hharmless : a.Harmless id r) : OwnedIn host s.rows (a.onDocker id u r s.docker) := by
  intro v r' hr' hhost howned
  rcases h v r' hr' hhost howned with hsettling | ⟨htask, c, hc, hid⟩
  · exact .inl hsettling
  · by_cases hremove : a = Act.remove
    · subst hremove
      by_cases hsame : r.containerId = some c.id
      · have huv := hdistinct u v r r' c.id hr hr' hsame hid
        subst huv
        cases hr.symm.trans hr'
        rcases hharmless with hno | hno | hsettling
        · cases hno
        · cases hno
        · exact .inl hsettling.1
      · exact .inr ⟨htask, c, List.mem_filter.mpr ⟨hc, by simpa using hsame⟩, hid⟩
    · refine .inr ⟨htask, ?_⟩
      have hmap : ∀ state, ∃ c' ∈ s.docker.map fun c => if r.containerId = some c.id
          then { c with state } else c, r'.containerId = some c'.id := by
        intro state
        refine ⟨_, List.mem_map_of_mem hc, ?_⟩
        split <;> exact hid
      cases a with
      | remove => exact absurd rfl hremove
      | create => exact ⟨c, List.mem_cons_of_mem _ hc, hid⟩
      | dockerStart => exact hmap .running
      | dockerStop => exact hmap .exited
      | take t status => exact ⟨c, hc, hid⟩
      | release => exact ⟨c, hc, hid⟩
      | settle status => exact ⟨c, hc, hid⟩
      | fail => exact ⟨c, hc, hid⟩
      | destroy => exact ⟨c, hc, hid⟩

theorem Watching.of_idle (h : s.pass = .idle) : Watching host s := by
  unfold Watching
  rw [h]
  trivial

/-- What an operation does besides. -/
theorem Watching.setThread {u : Uuid} {t : Option Thread} (h : Watching host s) :
    Watching host (s.setThread u t) := h

theorem Watching.ownedIn {containers : List (Uuid × Row)} (h : Watching host s)
    (hpass : s.pass = .listed containers) : OwnedIn host s.rows s.docker := by
  unfold Watching at h
  rw [hpass] at h
  exact h.1

theorem watching_work {u : Uuid} {ok : Bool} {id : Nat} {t : Thread} (h : Watching host s)
    (hdistinct : Distinct s) (ht : s.threads u = some t)
    (hundisturbed : Undisturbed host (.work u ok id) s) : Watching host (stepWork s u ok id t) := by
  unfold stepWork
  split
  · exact h
  case h_2 a todo htodo =>
    split
    · exact h
    case h_2 r hr =>
      split
      · exact h
      case isFalse hok =>
        by_cases hidle : s.pass = .idle
        · exact Watching.of_idle hidle
        · have hharmless := hundisturbed hidle (by simpa using hok) r t a todo hr ht htodo
          have he : Evolves s.rows
              (if a = Act.destroy then s.rows.erase u else s.rows.insert u (a.save id r)) := by
            split
            · exact Evolves.erase s.rows u
            · exact Evolves.insert hr (hharmless.evolves (a.save_host id r))
          refine Watching.setThread (h.evolves rfl he fun containers hpass => ?_)
          exact ((h.ownedIn hpass).onDocker hdistinct hr hharmless).evolves he

/-! ## What the sync reads and writes -/

theorem mem_list {p : Uuid → Row → Bool} {x : Uuid × Row} :
    x ∈ s.list p ↔ s.rows.lookup x.1 = some x.2 ∧ p x.1 x.2 = true := by
  unfold State.list
  rw [List.mem_map]
  constructor
  · rintro ⟨y, hy, rfl⟩
    obtain ⟨hmem, hp⟩ := List.mem_filter.mp hy
    exact ⟨AList.mem_lookup_iff.mpr hmem, hp⟩
  · rintro ⟨hlookup, hp⟩
    exact ⟨⟨x.1, x.2⟩, List.mem_filter.mpr ⟨AList.mem_lookup_iff.mp hlookup, hp⟩, rfl⟩

theorem copied_list : Copied host s.rows (s.list fun _ r => r.host = some host) := by
  intro x hx r hr
  obtain ⟨hlookup, hhost⟩ := mem_list.mp hx
  cases hlookup.symm.trans hr
  exact ⟨by simpa using hhost, rfl, fun _ => rfl⟩

theorem mem_of_byId {l : List (Uuid × Row)} {id : Nat} {x : Uuid × Row} (h : byId l id = some x) :
    x ∈ l ∧ x.2.containerId = some id :=
  ⟨List.mem_reverse.mp (List.mem_of_find?_eq_some h), by simpa using List.find?_some h⟩

/-- A container that no operation owns is not taken for one that an operation owns. -/
theorem populate_free {r : Row} (h : ¬ r.Owned) (state : DockerState) :
    (populate r state).status ∉ [Status.creating, .rebuilding, .deleting] := by
  have hstatus : r.status ∉ [Status.creating, .rebuilding, .deleting] := fun hmem => h (.inr hmem)
  unfold populate
  split
  · exact hstatus
  · cases state with
    | created =>
        simp only
        split
        · simp
        · split
          · exact hstatus
          · simp
    | _ => simp

theorem populate_of_taskState {r : Row} (h : r.taskState ≠ none) (state : DockerState) :
    populate r state = r := by
  unfold populate
  rw [if_pos (Option.isSome_iff_ne_none.mpr h)]

theorem populate_containerId (r : Row) (state : DockerState) :
    (populate r state).containerId = r.containerId := by
  unfold populate
  split
  · rfl
  · cases state with
    | created =>
        simp only
        split
        · rfl
        · split <;> rfl
    | _ => rfl

theorem skipped_of_settling {status : Status} (h : status ∈ settling) : skipped status = true := by
  simp only [settling, List.mem_cons, List.not_mem_nil, or_false] at h
  rcases h with rfl | rfl <;> rfl

/-- What `list` makes of a record. -/
theorem populated_locals {found : List Listed} {p : Uuid → Row → Bool}
    (howned : OwnedIn host s.rows found) (hdistinct : Distinct s) :
    Populated host s.rows (locals found (s.list p)) := by
  intro y hy u r id hr hhost hyid hid
  obtain ⟨x, hx, hxy⟩ := List.mem_map.mp hy
  obtain ⟨hlookup, -⟩ := mem_list.mp hx
  have hxid : x.2.containerId = y.2.containerId := by
    rw [← hxy]
    split
    · rfl
    · split
      · rfl
      · exact (populate_containerId _ _).symm
  have hux : u = x.1 := hdistinct u x.1 r x.2 id hr hlookup hid (hxid.trans hyid)
  subst hux
  cases hlookup.symm.trans hr
  refine ⟨fun hown => ?_, fun hfree => ?_⟩
  · rw [← hxy]
    split
    · rfl
    case isFalse hskip =>
      rcases howned _ _ hr hhost hown with hsettling | ⟨htask, -⟩
      · exact absurd (skipped_of_settling hsettling) hskip
      · split
        · rfl
        · rw [populate_of_taskState htask]
  · have hstatus : x.2.status ∉ [Status.creating, .rebuilding, .deleting] := fun hmem => hfree (.inr hmem)
    rw [← hxy]
    split
    · exact hstatus
    · split
      · exact hstatus
      · exact populate_free hfree _

theorem free_nonExistent {found : List Listed} {p : Uuid → Row → Bool}
    (howned : OwnedIn host s.rows found) : Free host s.rows (nonExistent found (s.list p)) := by
  intro x hx r hr hhost hown
  obtain ⟨hmem, hcond⟩ := List.mem_filter.mp hx
  obtain ⟨hlookup, -⟩ := mem_list.mp hmem
  cases hlookup.symm.trans hr
  simp only [decide_eq_true_eq] at hcond
  obtain ⟨hskip, hnone⟩ := hcond
  rcases howned _ _ hr hhost hown with hsettling | ⟨-, c, hc, hid⟩
  · cases hskip.symm.trans (skipped_of_settling hsettling)
  · simp only [inDocker, hid, Option.bind_some, List.find?_eq_none] at hnone
    simpa using hnone c hc

/-- A status that is written on a row that no operation owns. -/
theorem Row.Evolves.setStatus {r : Row} {status : Status} (h : ¬ r.Owned)
    (hstatus : status ∉ [Status.creating, .rebuilding, .deleting]) : r.Evolves { r with status } := by
  refine ⟨rfl, rfl, ⟨fun howned => ?_, fun howned => absurd howned h⟩, fun howned => absurd howned h,
    fun howned => absurd howned h⟩
  rcases howned with htask | hmem
  · exact .inl htask
  · exact absurd hmem hstatus

/-- What the sync writes over a record that was read in two copies: the copies differ only when no
operation owns it. -/
theorem free_of_differ {containers localContainers : List (Uuid × Row)} {id : Nat} {c l : Uuid × Row}
    {r : Row} (hcopied : Copied host rows containers) (hpopulated : Populated host rows localContainers)
    (hc : byId containers id = some c) (hl : byId localContainers id = some l)
    (hne : c.2.status ≠ l.2.status) (hr : rows.lookup c.1 = some r) :
    ¬ r.Owned ∧ l.2.status ∉ [Status.creating, .rebuilding, .deleting] := by
  obtain ⟨hcmem, hcid⟩ := mem_of_byId hc
  obtain ⟨hlmem, hlid⟩ := mem_of_byId hl
  obtain ⟨hhost, hid, hsame⟩ := hcopied c hcmem r hr
  obtain ⟨howned, hfree⟩ := hpopulated l hlmem c.1 r id hr hhost hlid (hid.trans hcid)
  have hnot : ¬ r.Owned := fun hown => hne ((hsame hown).trans (howned hown).symm)
  exact ⟨hnot, hfree hnot⟩

/-! ## Runs -/

structure Kept (host : String) (s : State) : Prop where
  distinct : Distinct s
  watching : Watching host s

theorem Free.tail {x : Uuid × Row} {missing : List (Uuid × Row)} (h : Free host rows (x :: missing)) :
    Free host rows missing := fun y hy => h y (List.mem_cons_of_mem x hy)

theorem kept_sync {id : Nat} {containers localContainers : List (Uuid × Row)} {ids : List Nat}
    {missing : List (Uuid × Row)} (h : Kept host s)
    (hpass : s.pass = .syncing containers localContainers ids missing) :
    Kept host (stepSync s id containers localContainers ids missing) := by
  have hw := h.watching
  simp only [Watching, hpass] at hw
  obtain ⟨hcopied, hpopulated, hfree⟩ := hw
  unfold stepSync
  simp only
  split
  case h_1 c l hc hl =>
    split
    · exact ⟨h.distinct, hcopied, hpopulated, hfree⟩
    case isFalse hne =>
      split
      · exact ⟨h.distinct, trivial⟩
      case h_2 row hrow =>
        obtain ⟨hnot, hstatus⟩ := free_of_differ hcopied hpopulated hc hl hne hrow
        have he : Evolves s.rows (s.rows.insert c.1 { row with status := l.2.status }) :=
          Evolves.insert hrow (.setStatus hnot hstatus)
        exact ⟨h.distinct.evolves he, hcopied.evolves he, hpopulated.evolves he, hfree.evolves he⟩
  case h_2 => exact ⟨h.distinct, hcopied, hpopulated, hfree⟩

theorem kept_heal {u : Uuid} {r : Row} {missing : List (Uuid × Row)} (h : Kept host s)
    (hpass : s.pass = .healing ((u, r) :: missing)) : Kept host (stepHeal host s u r missing) := by
  have hfree : Free host s.rows ((u, r) :: missing) := by
    have hw := h.watching
    simp only [Watching, hpass] at hw
    exact hw
  have hevolves : ∀ row status, r.host = some host → s.rows.lookup u = some row →
      status ∉ [Status.creating, .rebuilding, .deleting] →
      Evolves s.rows (s.rows.insert u { row with status }) := by
    intro row status hhost hrow hstatus
    exact Evolves.insert hrow (.setStatus (hfree _ List.mem_cons_self row hrow hhost) hstatus)
  unfold stepHeal
  split
  · exact ⟨h.distinct, hfree.tail⟩
  case isFalse hhost =>
    have hhost : r.host = some host := by simpa using hhost
    split
    · split
      · exact ⟨h.distinct, trivial⟩
      case h_2 row hrow =>
        have he := hevolves row .deleted hhost hrow (by simp)
        exact ⟨h.distinct.evolves he, hfree.tail.evolves he⟩
    · unfold healed
      split
      · exact ⟨h.distinct, hfree.tail⟩
      · split
        · exact ⟨h.distinct, hfree.tail⟩
        · split
          · exact ⟨h.distinct, hfree.tail⟩
          case h_2 row hrow =>
            have he := hevolves row .error hhost hrow (by simp)
            exact ⟨h.distinct.evolves he, hfree.tail.evolves he⟩

theorem kept_local {containers : List (Uuid × Row)} {found : List Listed} {uuids : List Uuid}
    (h : Kept host s) (hpass : s.pass = .named containers found uuids) :
    Kept host (stepLocal s containers found uuids) := by
  have hw := h.watching
  simp only [Watching, hpass] at hw
  unfold stepLocal
  simp only
  split
  · exact ⟨h.distinct, trivial⟩
  · exact ⟨h.distinct, hw.2, populated_locals hw.1 h.distinct, free_nonExistent hw.1⟩

theorem kept_accept {u : Uuid} {op : Op} (h : Kept host s)
    (hundisturbed : Undisturbed host (.accept u op) s) : Kept host (step host (.accept u op) s) := by
  simp only [step]
  split
  case h_1 run r hr =>
    have hidle : s.pass = .idle := by
      by_contra hbusy
      exact hundisturbed hbusy run rfl
    exact ⟨h.distinct.insert _ hr rfl (.inl rfl), Watching.of_idle hidle⟩
  case h_2 => exact ⟨h.distinct, h.watching⟩

theorem kept_step (e : Event) (h : Kept host s) (hpossible : Possible host e s)
    (hundisturbed : Undisturbed host e s) : Kept host (step host e s) := by
  have hw := h.watching
  cases e with
  | accept u op => exact kept_accept h hundisturbed
  | begin u op =>
      simp only [step]
      split
      · exact ⟨h.distinct, h.watching⟩
      · exact ⟨h.distinct, h.watching⟩
  | work u ok id =>
      obtain ⟨hthread, hfresh⟩ := hpossible
      simp only [step]
      split
      · exact h
      case h_2 t ht => exact ⟨distinct_work h.distinct hfresh, watching_work hw h.distinct ht hundisturbed⟩
  | dockerChanges id state =>
      refine ⟨h.distinct, hw.evolves rfl (.refl _) fun containers hpass => ?_⟩
      intro u r hr hhost howned
      rcases hw.ownedIn hpass u r hr hhost howned with hsettling | ⟨htask, c, hc, hid⟩
      · exact .inl hsettling
      · refine .inr ⟨htask, _, List.mem_map_of_mem hc, ?_⟩
        split <;> exact hid
  | dockerGone id =>
      refine ⟨h.distinct, hw.evolves rfl (.refl _) fun containers hpass => ?_⟩
      intro u r hr hhost howned
      rcases hw.ownedIn hpass u r hr hhost howned with hsettling | ⟨htask, c, hc, hid⟩
      · exact .inl hsettling
      · by_cases hgone : c.id = id
        · exact .inl (hundisturbed containers hpass u r hr (hgone ▸ hid) howned)
        · exact .inr ⟨htask, c, List.mem_filter.mpr ⟨hc, by simpa using hgone⟩, hid⟩
  | listByHost => exact ⟨h.distinct, hundisturbed, copied_list⟩
  | listDocker =>
      obtain ⟨containers, hpass⟩ := hpossible
      simp only [Watching, hpass] at hw
      simp only [step, hpass]
      exact ⟨h.distinct, hw⟩
  | listUuids =>
      obtain ⟨containers, docker, hpass⟩ := hpossible
      simp only [Watching, hpass] at hw
      simp only [step, hpass]
      exact ⟨h.distinct, hw⟩
  | listLocal =>
      obtain ⟨containers, docker, uuids, hpass⟩ := hpossible
      simp only [step, hpass]
      exact kept_local h hpass
  | sync id =>
      obtain ⟨containers, localContainers, ids, missing, hpass, -⟩ := hpossible
      simp only [step, hpass]
      exact kept_sync h hpass
  | synced =>
      obtain ⟨containers, localContainers, missing, hpass⟩ := hpossible
      simp only [Watching, hpass] at hw
      simp only [step, hpass]
      exact ⟨h.distinct, hw.2.2⟩
  | heal =>
      obtain ⟨missing, hpass⟩ := hpossible
      cases missing with
      | nil =>
          simp only [step, hpass]
          exact ⟨h.distinct, trivial⟩
      | cons x missing =>
          simp only [step, hpass]
          exact kept_heal h hpass

theorem Kept.leavesAlone (h : Kept host s) (e : Event) : LeavesAlone host e s := by
  have hw := h.watching
  intro u r htouches hr
  unfold touches at htouches
  split at htouches
  case h_1 id =>
    split at htouches
    case h_1 containers localContainers ids missing hpass =>
      simp only [Watching, hpass] at hw
      split at htouches
      case h_1 c l hc hl =>
        split at htouches
        · cases htouches
        case isFalse hne =>
          cases htouches
          exact (free_of_differ hw.1 hw.2.1 hc hl hne hr).1
      · cases htouches
    · cases htouches
  case h_2 =>
    split at htouches
    case h_1 v copy missing hpass =>
      simp only [Watching, hpass] at hw
      split at htouches
      case isTrue hcond =>
        cases htouches
        exact hw _ List.mem_cons_self r hr hcond.1
      · cases htouches
    · cases htouches
  · cases htouches

/-- In every run whose syncs are undisturbed, the sync writes the status of no container that an
operation owns, and heals none. -/
theorem leavesAlone_of_undisturbed (host : String) (s : State) (e : Event)
    (h : Reached Begun (step host) (fun e s => Possible host e s ∧ Undisturbed host e s) s) :
    LeavesAlone host e s := by
  have hkept : Kept host s :=
    h.invariant (fun _ hs => ⟨hs.distinct, Watching.of_idle hs.pass⟩)
      fun e s hok hs => kept_step e hs hok.1 hok.2
  exact hkept.leavesAlone e

/-- A container that has exited, and one whose delete has just removed it. -/
def exited : State :=
  { rows := ((∅ : Rows).insert 1 { status := .running, containerId := some 10, host := some "node" }).insert
      2 { status := .deleting, taskState := some .containerDeleting, containerId := some 20,
          host := some "node" },
    docker := [{ id := 10, uuid := 1, state := .exited }] }

/-- The reads of a sync. -/
def reads : List Event := [.listByHost, .listDocker, .listUuids, .listLocal]

theorem leavesAlone_exited :
    LeavesAlone "node" (.sync 10) (steps (step "node") reads exited) ∧
      touches "node" (.sync 10) (steps (step "node") reads exited) = some 1 := by
  have hrows : ∀ u r, exited.rows.lookup u = some r →
      (u = 2 ∧ r.status = .deleting ∧ r.containerId = some 20) ∨
        (u = 1 ∧ r.taskState = none ∧ r.status = .running ∧ r.containerId = some 10) := by
    intro u r hr
    rcases lookup_insert_cases hr with ⟨rfl, rfl⟩ | ⟨-, hr'⟩
    · exact .inl ⟨rfl, rfl, rfl⟩
    · rcases lookup_insert_cases hr' with ⟨rfl, rfl⟩ | ⟨-, hr''⟩
      · exact .inr ⟨rfl, rfl, rfl, rfl⟩
      · cases hr''
  have hbegun : Begun exited := by
    refine ⟨rfl, fun _ => rfl, rfl, fun u v r r' id hr hr' hid hid' => ?_⟩
    rcases hrows u r hr with ⟨rfl, -, h⟩ | ⟨rfl, -, -, h⟩ <;>
      rcases hrows v r' hr' with ⟨rfl, -, h'⟩ | ⟨rfl, -, -, h'⟩
    · rfl
    · cases (h.symm.trans hid).trans (hid'.symm.trans h')
    · cases (h.symm.trans hid).trans (hid'.symm.trans h')
    · rfl
  refine ⟨leavesAlone_of_undisturbed "node" _ _ (.steps (.init hbegun) ?_), by decide +kernel⟩
  refine ⟨⟨rfl, fun u r hr _ howned => ?_⟩, ⟨⟨_, rfl⟩, trivial⟩, ⟨⟨_, _, rfl⟩, trivial⟩,
    ⟨⟨_, _, _, rfl⟩, trivial⟩, trivial⟩
  rcases hrows u r hr with ⟨-, hstatus, -⟩ | ⟨-, htask, hstatus, -⟩
  · exact .inl (by rw [hstatus]; decide)
  · rcases howned with h | h
    · exact absurd htask h
    · rw [hstatus] at h
      exact absurd h (by decide)

def running : State :=
  { rows := (∅ : Rows).insert 1 { status := .running, containerId := some 10, host := some "node" },
    docker := [{ id := 10, uuid := 1, state := .running }] }

/-- A sync falls between the two halves of a rebuild. -/
def rebuildGap : List Event :=
  [.accept 1 (.rebuild true), .begin 1 (.rebuild true), .work 1 true 11, .work 1 true 11] ++ reads ++
    [.sync 10, .synced]

theorem rebuild_gap_marked_error :
    Reached Begun (step "node") (Possible "node") (steps (step "node") rebuildGap running) ∧
      Possible "node" .heal (steps (step "node") rebuildGap running) ∧
      ¬ LeavesAlone "node" .heal (steps (step "node") rebuildGap running) := by
  have hbegun : Begun running := by
    refine ⟨rfl, fun _ => rfl, rfl, fun u v r r' id hr hr' _ _ => ?_⟩
    rcases lookup_insert_cases hr with ⟨rfl, -⟩ | ⟨-, hno⟩
    · rcases lookup_insert_cases hr' with ⟨rfl, -⟩ | ⟨-, hno⟩
      · rfl
      · cases hno
    · cases hno
  have hrow : (steps (step "node") rebuildGap running).rows.lookup 1 =
      some { status := .rebuilding, taskState := some .containerRebuilding, containerId := some 10,
             host := some "node" } := by decide +kernel
  have htouches : touches "node" .heal (steps (step "node") rebuildGap running) = some 1 := by
    decide +kernel
  refine ⟨.steps (.init hbegun) ⟨⟨_, rfl, rfl, fun _ _ => by decide⟩, ⟨by decide, rfl⟩,
    ⟨nofun, fun v r hr => ?_⟩, ⟨nofun, fun v r hr => ?_⟩, rfl, ⟨_, rfl⟩, ⟨_, _, rfl⟩, ⟨_, _, _, rfl⟩,
    ⟨_, _, _, _, rfl, by decide +kernel⟩, ⟨_, _, _, rfl⟩, trivial⟩, ⟨_, rfl⟩, fun h => h 1 _ htouches hrow (.inl nofun)⟩
  · rcases lookup_insert_cases hr with ⟨-, rfl⟩ | ⟨hv, hr'⟩
    · nofun
    · rcases lookup_insert_cases hr' with ⟨hv', -⟩ | ⟨-, hno⟩
      · exact absurd hv' hv
      · cases hno
  · rcases lookup_insert_cases hr with ⟨-, rfl⟩ | ⟨hv, hr'⟩
    · nofun
    · rcases lookup_insert_cases hr' with ⟨hv', -⟩ | ⟨-, hr''⟩
      · exact absurd hv' hv
      · rcases lookup_insert_cases hr'' with ⟨hv', -⟩ | ⟨-, hno⟩
        · exact absurd hv' hv
        · cases hno

end DockerSync

end Zun
