import Mathlib.Data.List.Nodup

/-!
# Container actions

`action_start`, `action_finish`, `action_event_start` and `action_event_finish` of
`zun/db/sqlalchemy/api.py`, with what `ContainerAction` and `ContainerActionEvent` of
`zun/objects/container_action.py` hand to them.  A start inserts a row.  A finish updates the rows of
the container, the request and the action, and fails unless there is exactly one.  An event belongs
to the action of the container and the request; where there is none, a context without a project is
given the last action of the container.  The rows of a container go with it.
-/

namespace Zun

namespace Actions

/-- The context of a request, or of the service itself. -/
structure Context where
  requestId : String
  projectId : Option String := none
deriving DecidableEq

/-- `not context.project_id`. -/
def Context.unscoped (context : Context) : Bool := context.projectId.getD "" = ""

structure ContainerAction where
  id : Nat
  action : String
  containerUuid : String
  requestId : String
  finishTime : Option Nat := none
  message : Option String := none
deriving DecidableEq

structure ContainerActionEvent where
  id : Nat
  actionId : Nat
  event : String
  finishTime : Option Nat := none
  result : Option String := none
deriving DecidableEq

/-- What is raised. -/
inductive Raised where
  /-- By the operation itself. -/
  | operation (message : String)
  | containerActionNotFound (requestId containerUuid : String)
  | containerActionEventNotFound (actionId : Nat) (event : String)
  /-- By the database, when it cannot be reached or refuses. -/
  | dbError
deriving DecidableEq

structure Db where
  containers : List String := []
  /-- The uuids of the containers that were there once.  They are not given again. -/
  destroyed : List String := []
  /-- In the order they were created in. -/
  actions : List ContainerAction := []
  events : List ContainerActionEvent := []
  nextAction : Nat := 1
  nextEvent : Nat := 1
deriving DecidableEq

/-- What an update or a lookup of one action goes by. -/
structure Key where
  containerUuid : String
  requestId : String
  action : String
deriving DecidableEq

def ContainerAction.key (a : ContainerAction) : Key := ⟨a.containerUuid, a.requestId, a.action⟩

/-- `pack_action_finish`, put into the row. -/
def ContainerAction.finish (a : ContainerAction) (now : Nat) (exc : Option Raised) :
    ContainerAction :=
  { a with
    finishTime := some now
    message := if exc.isSome = true then some "Error" else a.message }

/-- `pack_action_event_finish`, put into the row. -/
def ContainerActionEvent.finish (e : ContainerActionEvent) (now : Nat) (exc : Option Raised) :
    ContainerActionEvent :=
  { e with
    finishTime := some now
    result := some (if exc.isSome = true then "Error" else "Success") }

namespace Db

variable (db : Db)

/-- A container is recorded under a uuid of its own. -/
def create (uuid : String) : Db :=
  if uuid ∈ db.containers ∨ uuid ∈ db.destroyed then db
  else { db with containers := uuid :: db.containers }

/-- The container's row goes, and its actions with their events go with it. -/
def destroy (uuid : String) : Db :=
  { db with
    containers := db.containers.filter (· ≠ uuid)
    destroyed := uuid :: db.destroyed
    actions := db.actions.filter (·.containerUuid ≠ uuid)
    events := db.events.filter fun e =>
      ∀ a ∈ db.actions, a.containerUuid = uuid → a.id ≠ e.actionId }

/-- `action_start`.  The container is a foreign key. -/
def actionStart (context : Context) (containerUuid action : String) : Except Raised Db :=
  if containerUuid ∈ db.containers then
    .ok { db with
      actions := db.actions ++
        [{ id := db.nextAction, action, containerUuid, requestId := context.requestId }]
      nextAction := db.nextAction + 1 }
  else .error .dbError

/-- Update the rows of an action. -/
def update (k : Key) (now : Nat) (exc : Option Raised) : Db :=
  { db with actions := db.actions.map fun a => if a.key = k then a.finish now exc else a }

/-- `action_finish`. -/
def actionFinish (context : Context) (containerUuid action : String) (now : Nat)
    (exc : Option Raised) : Except Raised Db :=
  let k : Key := ⟨containerUuid, context.requestId, action⟩
  if db.actions.countP (·.key == k) = 1 then .ok (db.update k now exc)
  else .error (.containerActionNotFound context.requestId containerUuid)

/-- `_action_get_by_request_id`. -/
def actionGetByRequestId (containerUuid requestId : String) : Option ContainerAction :=
  db.actions.find? fun a => a.containerUuid = containerUuid ∧ a.requestId = requestId

/-- `_action_get_last_created_by_container_uuid`. -/
def actionGetLastCreated (containerUuid : String) : Option ContainerAction :=
  (db.actions.filter (·.containerUuid = containerUuid)).getLast?

/-- The action that an event belongs to. -/
def actionOfEvent (context : Context) (containerUuid : String) : Option ContainerAction :=
  match db.actionGetByRequestId containerUuid context.requestId with
  | some a => some a
  | none => if context.unscoped = true then db.actionGetLastCreated containerUuid else none

/-- `action_event_start`. -/
def actionEventStart (context : Context) (containerUuid event : String) : Except Raised Db :=
  match db.actionOfEvent context containerUuid with
  | none => .error (.containerActionNotFound context.requestId containerUuid)
  | some a => .ok { db with
      events := db.events ++ [{ id := db.nextEvent, actionId := a.id, event }]
      nextEvent := db.nextEvent + 1 }

/-- `action_event_finish`. -/
def actionEventFinish (context : Context) (containerUuid event : String) (now : Nat)
    (exc : Option Raised) : Except Raised Db :=
  match db.actionOfEvent context containerUuid with
  | none => .error (.containerActionNotFound context.requestId containerUuid)
  | some a =>
    match db.events.find? fun e => e.actionId = a.id ∧ e.event = event with
    | none => .error (.containerActionEventNotFound a.id event)
    | some e => .ok { db with
        events := db.events.map fun e' => if e'.id = e.id then e'.finish now exc else e' }

/-! ## What a recorded action needs -/

/-- The rows are those of containers, with ids of their own, and no two of them are of one container,
request and action. -/
structure Wf : Prop where
  ids : (db.actions.map (·.id)).Nodup
  lt : ∀ a ∈ db.actions, a.id < db.nextAction
  keys : (db.actions.map (·.key)).Nodup
  owner : ∀ a ∈ db.actions, a.containerUuid ∈ db.containers
  destroyed : ∀ uuid ∈ db.destroyed, uuid ∉ db.containers

/-- The action has its row, and nothing was said of how it went. -/
def Pending (id : Nat) (k : Key) : Prop :=
  ∃ a ∈ db.actions, a.id = id ∧ a.key = k ∧ a.message = none

/-- The action has a finish time, and the message `Error` exactly if something was raised. -/
def Finished (id : Nat) (containerUuid : String) (exc : Option Raised) : Prop :=
  ∃ a ∈ db.actions, a.id = id ∧ a.containerUuid = containerUuid ∧ a.finishTime.isSome = true ∧
    (a.message = some "Error" ↔ exc.isSome = true)

/-- The events have been started, each under the action of the container and the request. -/
def Reported (containerUuid requestId : String) (names : List String) : Prop :=
  ∀ n ∈ names, ∃ a, db.actionGetByRequestId containerUuid requestId = some a ∧
    ∃ e ∈ db.events, e.actionId = a.id ∧ e.event = n

/-- The second state has what the first has of an action of a container. -/
structure Keeps (db db' : Db) (id : Nat) (containerUuid : String) : Prop where
  rows : ∀ a ∈ db.actions, a.id = id → a ∈ db'.actions
  first : ∀ requestId a, db.actionGetByRequestId containerUuid requestId = some a →
    ∃ a', db'.actionGetByRequestId containerUuid requestId = some a' ∧ a'.id = a.id
  events : ∀ requestId a, db.actionGetByRequestId containerUuid requestId = some a →
    ∀ e ∈ db.events, e.actionId = a.id → ∃ e' ∈ db'.events, e'.actionId = e.actionId ∧
      e'.event = e.event
  destroyed : containerUuid ∈ db.destroyed → containerUuid ∈ db'.destroyed

end Db

variable {db db' : Db} {context : Context} {uuid name : String} {id now : Nat} {k : Key}
  {exc : Option Raised}

theorem Db.Pending.keeps (h : db.Pending id k) (hk : db.Keeps db' id k.containerUuid) :
    db'.Pending id k := by
  obtain ⟨a, ha, hid, hkey, hm⟩ := h
  exact ⟨a, hk.rows a ha hid, hid, hkey, hm⟩

theorem Db.Finished.keeps (h : db.Finished id uuid exc) (hk : db.Keeps db' id uuid) :
    db'.Finished id uuid exc := by
  obtain ⟨a, ha, hid, hf⟩ := h
  exact ⟨a, hk.rows a ha hid, hid, hf⟩

theorem Db.Reported.keeps {requestId : String} {names : List String}
    (h : db.Reported uuid requestId names) (hk : db.Keeps db' id uuid) :
    db'.Reported uuid requestId names := by
  intro n hn
  obtain ⟨a, ha, e, he, hid, hevent⟩ := h n hn
  obtain ⟨a', ha', haid⟩ := hk.first requestId a ha
  obtain ⟨e', he', hid', hevent'⟩ := hk.events requestId a ha e he hid
  exact ⟨a', ha', e', he', by rw [hid', hid, haid], hevent'.trans hevent⟩

/-- No row but one is of a key. -/
theorem Db.Wf.eq_of_key (hw : db.Wf) {a b : ContainerAction} (ha : a ∈ db.actions)
    (hb : b ∈ db.actions) (h : a.key = b.key) : a = b :=
  List.inj_on_of_nodup_map hw.keys ha hb h

theorem Db.Wf.eq_of_id (hw : db.Wf) {a b : ContainerAction} (ha : a ∈ db.actions)
    (hb : b ∈ db.actions) (h : a.id = b.id) : a = b :=
  List.inj_on_of_nodup_map hw.ids ha hb h

/-! ## Containers -/

theorem Db.Wf.create (hw : db.Wf) : (db.create uuid).Wf := by
  unfold Db.create
  split
  · exact hw
  · rename_i hnew
    refine ⟨hw.ids, hw.lt, hw.keys, fun a ha => List.mem_cons_of_mem _ (hw.owner a ha), ?_⟩
    intro c hc hmem
    rcases List.mem_cons.mp hmem with rfl | hmem
    · exact hnew (.inr hc)
    · exact hw.destroyed c hc hmem

theorem Db.Keeps.refl : db.Keeps db id uuid where
  rows _ ha _ := ha
  first _ a ha := ⟨a, ha, rfl⟩
  events _ _ _ e he _ := ⟨e, he, rfl, rfl⟩
  destroyed h := h

theorem Db.keeps_create {uuid' : String} : db.Keeps (db.create uuid') id uuid := by
  unfold Db.create
  split
  · exact .refl
  · exact ⟨fun _ ha _ => ha, fun _ a ha => ⟨a, ha, rfl⟩, fun _ _ _ e he _ => ⟨e, he, rfl, rfl⟩,
      fun h => h⟩

theorem Db.Wf.destroy (hw : db.Wf) : (db.destroy uuid).Wf where
  ids := hw.ids.sublist (List.filter_sublist.map _)
  lt a ha := hw.lt a (List.mem_filter.mp ha).1
  keys := hw.keys.sublist (List.filter_sublist.map _)
  owner a ha := by
    obtain ⟨ha, hne⟩ := List.mem_filter.mp ha
    exact List.mem_filter.mpr ⟨hw.owner a ha, hne⟩
  destroyed c hc hmem := by
    obtain ⟨hmem, hne⟩ := List.mem_filter.mp hmem
    rcases List.mem_cons.mp hc with rfl | hc
    · simp at hne
    · exact hw.destroyed c hc hmem

theorem Db.destroyed_destroy : uuid ∈ (db.destroy uuid).destroyed := List.mem_cons_self

/-- The actions of the other containers stay, with their events. -/
theorem Db.Wf.keeps_destroy (hw : db.Wf) {uuid' : String} (hne : uuid ≠ uuid')
    (hid : ∃ a ∈ db.actions, a.id = id ∧ a.containerUuid = uuid) :
    db.Keeps (db.destroy uuid') id uuid where
  rows a ha haid := by
    obtain ⟨b, hb, hbid, rfl⟩ := hid
    obtain rfl := hw.eq_of_id ha hb (haid.trans hbid.symm)
    exact List.mem_filter.mpr ⟨ha, by simpa using hne⟩
  first requestId a ha := by
    refine ⟨a, ?_, rfl⟩
    rw [Db.actionGetByRequestId] at ha
    rw [Db.actionGetByRequestId, Db.destroy, List.find?_filter, ← ha]
    congr 1
    funext b
    by_cases hb : b.containerUuid = uuid
    · simp [hb, hne]
    · simp [hb]
  events requestId a ha e he heid := by
    refine ⟨e, List.mem_filter.mpr ⟨he, ?_⟩, rfl, rfl⟩
    have hamem := List.mem_of_find?_eq_some ha
    rw [Db.actionGetByRequestId] at ha
    have hauuid : a.containerUuid = uuid := by
      have hfound := List.find?_some ha
      exact (of_decide_eq_true hfound).1
    simp only [decide_eq_true_eq]
    intro b hb hbuuid hbid
    rw [hw.eq_of_id hb hamem (hbid.trans heid)] at hbuuid
    exact hne (hauuid.symm.trans hbuuid)
  destroyed h := List.mem_cons_of_mem _ h

/-! ## Actions -/

/-- A started action is pending. -/
theorem Db.actionStart_ok (h : db.actionStart context uuid name = .ok db') :
    uuid ∈ db.containers ∧ db' = { db with
      actions := db.actions ++
        [{ id := db.nextAction, action := name, containerUuid := uuid,
           requestId := context.requestId }]
      nextAction := db.nextAction + 1 } := by
  unfold Db.actionStart at h
  split at h
  · exact ⟨by assumption, by cases h; rfl⟩
  · cases h

theorem Db.pending_actionStart (h : db.actionStart context uuid name = .ok db') :
    db'.Pending db.nextAction ⟨uuid, context.requestId, name⟩ := by
  obtain ⟨-, rfl⟩ := Db.actionStart_ok h
  exact ⟨_, List.mem_append_right _ List.mem_cons_self, rfl, rfl, rfl⟩

theorem Db.Wf.actionStart (hw : db.Wf) (h : db.actionStart context uuid name = .ok db')
    (hnew : ∀ a ∈ db.actions, a.key ≠ ⟨uuid, context.requestId, name⟩) : db'.Wf := by
  obtain ⟨huuid, rfl⟩ := Db.actionStart_ok h
  constructor
  · simp only [List.map_append, List.map_cons, List.map_nil, List.nodup_append]
    refine ⟨hw.ids, by simp, ?_⟩
    intro n hn m hm hnm
    obtain ⟨a, ha, rfl⟩ := List.mem_map.mp hn
    have := hw.lt a ha
    simp only [List.mem_singleton] at hm
    omega
  · intro a ha
    rcases List.mem_append.mp ha with ha | ha
    · exact Nat.lt_succ_of_lt (hw.lt a ha)
    · rw [List.mem_singleton.mp ha]
      exact Nat.lt_succ_self _
  · simp only [List.map_append, List.map_cons, List.map_nil, List.nodup_append]
    refine ⟨hw.keys, by simp, ?_⟩
    intro n hn m hm hnm
    obtain ⟨a, ha, rfl⟩ := List.mem_map.mp hn
    exact hnew a ha (hnm.trans (List.mem_singleton.mp hm))
  · intro a ha
    rcases List.mem_append.mp ha with ha | ha
    · exact hw.owner a ha
    · rw [List.mem_singleton.mp ha]
      exact huuid
  · exact hw.destroyed

theorem Db.keeps_actionStart {uuid' : String} (h : db.actionStart context uuid' name = .ok db') :
    db.Keeps db' id uuid := by
  obtain ⟨-, rfl⟩ := Db.actionStart_ok h
  refine ⟨fun a ha _ => List.mem_append_left _ ha, ?_, fun _ _ _ e he _ => ⟨e, he, rfl, rfl⟩,
    fun h => h⟩
  intro requestId a ha
  refine ⟨a, ?_, rfl⟩
  rw [Db.actionGetByRequestId] at ha
  rw [Db.actionGetByRequestId, List.find?_append, ha, Option.some_or]

/-- The row of a pending action is the only one that is updated. -/
theorem Db.Wf.actionFinish (hw : db.Wf) (h : db.Pending id ⟨uuid, context.requestId, name⟩) :
    db.actionFinish context uuid name now exc =
      .ok (db.update ⟨uuid, context.requestId, name⟩ now exc) := by
  obtain ⟨a, ha, -, hkey, -⟩ := h
  have hcount : db.actions.countP (·.key == ⟨uuid, context.requestId, name⟩) = 1 := by
    have hone := List.count_eq_one_of_mem hw.keys (List.mem_map.mpr ⟨a, ha, rfl⟩)
    rwa [List.count, List.countP_map, hkey] at hone
  exact if_pos hcount

theorem Db.finished_update (h : db.Pending id k) :
    (db.update k now exc).Finished id k.containerUuid exc := by
  obtain ⟨a, ha, hid, rfl, hm⟩ := h
  refine ⟨a.finish now exc, List.mem_map.mpr ⟨a, ha, if_pos rfl⟩, hid, rfl, rfl, ?_⟩
  cases exc with
  | none => simp [ContainerAction.finish, hm]
  | some e => simp [ContainerAction.finish]

theorem Db.Wf.update (hw : db.Wf) : (db.update k now exc).Wf := by
  have hcols {α : Type} (f : ContainerAction → α) (hf : ∀ a, f (a.finish now exc) = f a) :
      (db.update k now exc).actions.map f = db.actions.map f := by
    rw [Db.update, List.map_map]
    apply List.map_congr_left
    intro a _
    simp only [Function.comp_apply]
    split
    · exact hf a
    · rfl
  have hrow : ∀ a ∈ (db.update k now exc).actions, ∃ b ∈ db.actions, b.id = a.id ∧
      b.containerUuid = a.containerUuid := by
    intro a ha
    obtain ⟨b, hb, rfl⟩ := List.mem_map.mp ha
    refine ⟨b, hb, ?_⟩
    split <;> exact ⟨rfl, rfl⟩
  constructor
  · rw [hcols _ fun _ => rfl]
    exact hw.ids
  · intro a ha
    obtain ⟨b, hb, hid, -⟩ := hrow a ha
    exact hid ▸ hw.lt b hb
  · rw [hcols _ fun _ => rfl]
    exact hw.keys
  · intro a ha
    obtain ⟨b, hb, -, huuid⟩ := hrow a ha
    exact huuid ▸ hw.owner b hb
  · exact hw.destroyed

/-- The update of a key leaves the action alone that has another row. -/
theorem Db.keeps_update (hid : ∀ a ∈ db.actions, a.id = id → a.key ≠ k) :
    db.Keeps (db.update k now exc) id uuid where
  rows a ha haid := List.mem_map.mpr ⟨a, ha, if_neg (hid a ha haid)⟩
  first requestId a ha := by
    rw [Db.actionGetByRequestId] at ha
    refine ⟨if a.key = k then a.finish now exc else a, ?_, by split <;> rfl⟩
    rw [Db.actionGetByRequestId, Db.update, List.find?_map]
    have hpred : (fun b : ContainerAction => decide (b.containerUuid = uuid ∧
        b.requestId = requestId)) ∘ (fun b => if b.key = k then b.finish now exc else b) =
          fun b => decide (b.containerUuid = uuid ∧ b.requestId = requestId) := by
      funext b
      simp only [Function.comp_apply]
      split <;> rfl
    rw [hpred, ha, Option.map_some]
  events _ _ _ e he _ := ⟨e, he, rfl, rfl⟩
  destroyed h := h

/-! ## Events -/

/-- The rows of the actions and of the containers are as they were. -/
theorem Db.Wf.of_events (hw : db.Wf) {events : List ContainerActionEvent} {n : Nat} :
    ({ db with events, nextEvent := n } : Db).Wf :=
  ⟨hw.ids, hw.lt, hw.keys, hw.owner, hw.destroyed⟩

/-- The container and the request have an action. -/
theorem Db.Pending.getByRequestId (h : db.Pending id ⟨uuid, context.requestId, name⟩) :
    ∃ a, db.actionGetByRequestId uuid context.requestId = some a := by
  obtain ⟨a, ha, -, hkey, -⟩ := h
  have hsome : (db.actionGetByRequestId uuid context.requestId).isSome = true := by
    rw [Db.actionGetByRequestId, List.find?_isSome]
    simp only [ContainerAction.key, Key.mk.injEq] at hkey
    exact ⟨a, ha, by simp [hkey]⟩
  exact Option.isSome_iff_exists.mp hsome

theorem Db.actionOfEvent_eq {a : ContainerAction}
    (h : db.actionGetByRequestId uuid context.requestId = some a) :
    db.actionOfEvent context uuid = some a := by
  rw [Db.actionOfEvent, h]

theorem Db.Pending.actionEventStart (h : db.Pending id ⟨uuid, context.requestId, name⟩)
    (event : String) : ∃ db', db.actionEventStart context uuid event = .ok db' := by
  obtain ⟨a, ha⟩ := h.getByRequestId
  exact ⟨_, by rw [Db.actionEventStart, Db.actionOfEvent_eq ha]⟩

theorem Db.actionEventStart_ok {event : String}
    (h : db.actionEventStart context uuid event = .ok db') :
    ∃ a, db.actionOfEvent context uuid = some a ∧ db' = { db with
      events := db.events ++ [{ id := db.nextEvent, actionId := a.id, event }]
      nextEvent := db.nextEvent + 1 } := by
  unfold Db.actionEventStart at h
  split at h
  · cases h
  · rename_i a ha
    exact ⟨a, ha, by cases h; rfl⟩

theorem Db.Wf.actionEventStart (hw : db.Wf) {event : String}
    (h : db.actionEventStart context uuid event = .ok db') : db'.Wf := by
  obtain ⟨a, -, rfl⟩ := Db.actionEventStart_ok h
  exact hw.of_events

theorem Db.keeps_actionEventStart {uuid' event : String}
    (h : db.actionEventStart context uuid' event = .ok db') : db.Keeps db' id uuid := by
  obtain ⟨a, -, rfl⟩ := Db.actionEventStart_ok h
  exact ⟨fun _ ha _ => ha, fun _ a ha => ⟨a, ha, rfl⟩,
    fun _ _ _ e he _ => ⟨e, List.mem_append_left _ he, rfl, rfl⟩, fun h => h⟩

theorem Db.nextAction_actionEventStart {event : String}
    (h : db.actionEventStart context uuid event = .ok db') : db'.nextAction = db.nextAction := by
  obtain ⟨a, -, rfl⟩ := Db.actionEventStart_ok h
  rfl

/-- The event is among those that have been started. -/
theorem Db.Reported.actionEventStart {event : String} {names : List String}
    (h : db.Reported uuid context.requestId names)
    (hp : db.Pending id ⟨uuid, context.requestId, name⟩)
    (hs : db.actionEventStart context uuid event = .ok db') :
    db'.Reported uuid context.requestId (event :: names) := by
  intro n hn
  rcases List.mem_cons.mp hn with rfl | hn
  · obtain ⟨a, ha⟩ := hp.getByRequestId
    obtain ⟨a', ha', rfl⟩ := Db.actionEventStart_ok hs
    rw [Db.actionOfEvent_eq ha] at ha'
    cases ha'
    exact ⟨a, ha, _, List.mem_append_right _ List.mem_cons_self, rfl, rfl⟩
  · have hkeeps : db.Keeps db' id uuid := Db.keeps_actionEventStart hs
    exact h.keeps hkeeps n hn

/-- An event that has been started can be finished. -/
theorem Db.Reported.actionEventFinish {event : String} {names : List String}
    (h : db.Reported uuid context.requestId (event :: names)) (now : Nat) (exc : Option Raised) :
    ∃ db', db.actionEventFinish context uuid event now exc = .ok db' := by
  obtain ⟨a, ha, e, he, hid, hevent⟩ := h event List.mem_cons_self
  have hsome : (db.events.find? fun e => e.actionId = a.id ∧ e.event = event).isSome = true := by
    rw [List.find?_isSome]
    exact ⟨e, he, by simp [hid, hevent]⟩
  obtain ⟨e', he'⟩ := Option.isSome_iff_exists.mp hsome
  refine ⟨{ db with events := db.events.map fun e => if e.id = e'.id then e.finish now exc else e }, ?_⟩
  rw [Db.actionEventFinish, Db.actionOfEvent_eq ha]
  simp only [he']

theorem Db.actionEventFinish_ok {event : String}
    (h : db.actionEventFinish context uuid event now exc = .ok db') :
    ∃ n, db' = { db with
      events := db.events.map fun e => if e.id = n then e.finish now exc else e } := by
  unfold Db.actionEventFinish at h
  split at h
  · cases h
  · split at h
    · cases h
    · rename_i e _
      exact ⟨e.id, by cases h; rfl⟩

theorem Db.Wf.actionEventFinish (hw : db.Wf) {event : String}
    (h : db.actionEventFinish context uuid event now exc = .ok db') : db'.Wf := by
  obtain ⟨n, rfl⟩ := Db.actionEventFinish_ok h
  exact hw.of_events

theorem Db.nextAction_actionEventFinish {event : String}
    (h : db.actionEventFinish context uuid event now exc = .ok db') :
    db'.nextAction = db.nextAction := by
  obtain ⟨n, rfl⟩ := Db.actionEventFinish_ok h
  rfl

theorem Db.keeps_actionEventFinish {uuid' event : String}
    (h : db.actionEventFinish context uuid' event now exc = .ok db') : db.Keeps db' id uuid := by
  obtain ⟨n, rfl⟩ := Db.actionEventFinish_ok h
  refine ⟨fun _ ha _ => ha, fun _ a ha => ⟨a, ha, rfl⟩, ?_, fun h => h⟩
  intro _ _ _ e he _
  refine ⟨_, List.mem_map.mpr ⟨e, he, rfl⟩, ?_⟩
  split <;> exact ⟨rfl, rfl⟩

end Actions

end Zun
