import Mathlib.Logic.Function.Basic
import Zun.Db.Actions
import Zun.Effect.Run

/-!
# Recorded actions

The API records an operation on a container as an action and hands it to `zun-compute`, whose thread
finishes the action: `FinishAction`, `EventReporter` and `wrap_container_event` of
`zun/common/utils.py`, around the operations of `zun/compute/manager.py`.  Both are context managers
that let every exception through and ask the database on their way out.

A service that starts again resumes what was under way (`_init_container`), under a context of its
own.  An event of such an operation falls back on the last action of the container.  A finish does
not: it asks for the action of a request that recorded none, and raises.
-/

namespace Zun

open Effect

namespace Actions

/-! ## The operations -/

/-- A context manager of a thread. -/
inductive Manager where
  | finishAction (action : String)
  | eventReporter (event : String)
deriving DecidableEq

/-- A stretch of an operation. -/
inductive Code where
  /-- What is not told apart here, and may raise. -/
  | work
  /-- `_caught_up`. -/
  | catchUp
  | enter (m : Manager)
  | leave
deriving DecidableEq

/-- The operations that the API records and a thread of the compute service finishes. -/
inductive Operation where
  | create (run : Bool)
  | start | stop | reboot | pause | unpause | kill
  | rebuild (run : Bool)
  /-- To a registry, or to the image service. -/
  | commit (registry : Bool)
  | networkAttach | networkDetach | addSecurityGroup | removeSecurityGroup
deriving DecidableEq

/-- `container_actions`. -/
def Operation.action : Operation → String
  | .create _ => "create"
  | .start => "start"
  | .stop => "stop"
  | .reboot => "reboot"
  | .pause => "pause"
  | .unpause => "unpause"
  | .kill => "kill"
  | .rebuild _ => "rebuild"
  | .commit _ => "commit"
  | .networkAttach => "network_attach"
  | .networkDetach => "network_detach"
  | .addSecurityGroup => "add_security_group"
  | .removeSecurityGroup => "remove_security_group"

/-- A `with` statement. -/
def within (m : Manager) (body : List Code) : List Code := .enter m :: body ++ [.leave]

/-- `event_name` of `wrap_container_event`. -/
def eventName (function : String) : String := "compute_" ++ function

/-- `wrap_container_event(prefix='compute')`. -/
def reporting (function : String) (body : List Code) : List Code :=
  within (.eventReporter (eventName function)) body

/-- `wrap_container_event(prefix='compute', finish_action=action)`. -/
def finishing (action function : String) (body : List Code) : List Code :=
  within (.finishAction action) (reporting function body)

def doContainerStart : List Code := reporting "_do_container_start" [.work]

def startIf (run : Bool) : List Code := if run = true then doContainerStart else []

/-- What the thread of an operation runs. -/
def Operation.code : Operation → List Code
  -- Volumes and disk quota come first.
  | .create run => within (.finishAction "create")
      (.work :: (reporting "_do_container_create" [.work] ++ startIf run))
  | .start => .catchUp :: within (.finishAction "start") doContainerStart
  | .stop => .catchUp :: finishing "stop" "_do_container_stop" [.work]
  | .reboot => .catchUp :: finishing "reboot" "_do_container_reboot" [.work]
  | .pause => .catchUp :: finishing "pause" "_do_container_pause" [.work]
  | .unpause => .catchUp :: finishing "unpause" "_do_container_unpause" [.work]
  | .kill => .catchUp :: finishing "kill" "_do_container_kill" [.work]
  -- The task state is given up at the end.
  | .rebuild run => .catchUp :: finishing "rebuild" "_do_container_rebuild"
      (.work :: (startIf run ++ [.work]))
  -- `_commit_to_registry` is not wrapped.
  | .commit true => [.work]
  -- The image is created by the call itself, before the thread.
  | .commit false => .work :: .catchUp :: finishing "commit" "_do_container_commit" [.work]
  | .networkAttach => .catchUp :: finishing "network_attach" "_do_network_attach" [.work]
  | .networkDetach => .catchUp :: finishing "network_detach" "_do_network_detach" [.work]
  | .addSecurityGroup => .catchUp :: finishing "add_security_group" "_add_security_group" [.work]
  | .removeSecurityGroup =>
      .catchUp :: finishing "remove_security_group" "_remove_security_group" [.work]

/-! ## The threads -/

structure Thread where
  op : Operation
  containerUuid : String
  context : Context
  /-- The id of the action that was started for the operation. -/
  action : Nat
  todo : List Code
  /-- The context managers that it is in, the innermost first. -/
  frames : List Manager := []
  /-- The exception that is on its way out. -/
  exc : Option Raised := none
  /-- What the operation has raised. -/
  raised : Option Raised := none
  /-- It went with its service. -/
  dead : Bool := false
deriving DecidableEq

/-- The action that the thread's own context managers ask for. -/
def Thread.key (th : Thread) : Key := ⟨th.containerUuid, th.context.requestId, th.op.action⟩

/-- The thread has ended, by itself. -/
def Thread.Ended (th : Thread) : Prop :=
  th.dead = false ∧ th.frames = [] ∧ (th.exc = none → th.todo = [])

/-- An exception: nothing more is run but the exits. -/
def Thread.raise (th : Thread) (e : Raised) : Thread := { th with todo := [], exc := some e }

/-- An exception of the operation. -/
def Thread.fail (th : Thread) (e : Raised) : Thread := { th.raise e with raised := some e }

/-- The operation that `_init_container` begins for a thread that was cut short, by the task state
that the thread has left.  A `start` within a rebuild leaves the rebuild's. -/
def Thread.resumesAs (th : Thread) : Option Operation :=
  match th.todo, th.op with
  | .work :: _, .reboot => some .reboot
  | .work :: _, .stop => some .stop
  | .work :: _, .start => some .start
  | .work :: _, .pause => some .pause
  | .work :: _, .unpause => some .unpause
  | .work :: _, .create _ =>
      if th.frames.head? = some (.eventReporter (eventName "_do_container_start")) then some .start
      else none
  -- `container_kill` is called without its signal, which raises.
  | _, _ => none

structure State where
  db : Db := {}
  threads : Nat → Option Thread := fun _ => none

inductive Event where
  | createContainer (uuid : String)
  | destroyContainer (uuid : String)
  /-- `_record_action_start`, then the call or cast to the service. -/
  | accept (t : Nat) (op : Operation) (context : Context) (uuid : String) (sent : Bool)
  | work (t : Nat) (raised : Option String)
  | catchUp (t : Nat) (ok : Bool)
  | enter (t : Nat) (ok : Bool)
  | leave (t now : Nat) (ok : Bool)
  /-- The service stops. -/
  | die (t : Nat)
  /-- A service that starts again resumes what thread `t` was at, as thread `t'`. -/
  | resume (t t' : Nat) (requestId : String)
deriving DecidableEq

/-- The database answers, or cannot be reached. -/
def answered (ok : Bool) (r : Except Raised Db) : Except Raised Db :=
  if ok = true then r else .error .dbError

/-- `__enter__`. -/
def Manager.enter (db : Db) (context : Context) (uuid : String) (ok : Bool) :
    Manager → Except Raised Db
  | .finishAction _ => .ok db
  | .eventReporter event => answered ok (db.actionEventStart context uuid event)

/-- `__exit__`. -/
def Manager.exit (db : Db) (context : Context) (uuid : String) (now : Nat) (exc : Option Raised)
    (ok : Bool) : Manager → Except Raised Db
  | .finishAction action => answered ok (db.actionFinish context uuid action now exc)
  | .eventReporter event => answered ok (db.actionEventFinish context uuid event now exc)

def State.setThread (s : State) (t : Nat) (th : Thread) : State :=
  { s with threads := Function.update s.threads t (some th) }

section

variable (s : State) (t : Nat) (th : Thread)

/-- What an exit has come to. -/
def State.record (r : Except Raised Db) (next : Thread) : State :=
  match r with
  | .ok db => { s with db }.setThread t next
  | .error e => s.setThread t (next.raise e)

def stepWork (raised : Option String) : State :=
  match th.exc, th.todo, raised with
  | none, .work :: todo, none => s.setThread t { th with todo }
  | none, .work :: _, some message => s.setThread t (th.fail (.operation message))
  | _, _, _ => s

def stepCatchUp (ok : Bool) : State :=
  match th.exc, th.todo, ok with
  | none, .catchUp :: todo, true =>
      s.setThread t { th with
        todo := if th.containerUuid ∈ s.db.containers then todo else [] }
  | none, .catchUp :: _, false => s.setThread t (th.fail .dbError)
  | _, _, _ => s

/-- An exception from `__enter__` comes from outside the manager. -/
def stepEnter (ok : Bool) : State :=
  match th.exc, th.todo with
  | none, .enter m :: todo =>
      match m.enter s.db th.context th.containerUuid ok with
      | .ok db => { s with db }.setThread t { th with todo, frames := m :: th.frames }
      | .error e => s.setThread t (th.raise e)
  | _, _ => s

/-- A body that has come to its end, or an exception on its way. -/
def stepLeave (now : Nat) (ok : Bool) : State :=
  match th.exc, th.todo, th.frames with
  | none, .leave :: todo, m :: frames =>
      s.record t (m.exit s.db th.context th.containerUuid now th.exc ok)
        { th with todo, frames }
  | some _, _, m :: frames =>
      s.record t (m.exit s.db th.context th.containerUuid now th.exc ok)
        { th with frames }
  | _, _, _ => s

end

def stepAccept (s : State) (t : Nat) (op : Operation) (context : Context) (uuid : String)
    (sent : Bool) : State :=
  match s.threads t, s.db.actionStart context uuid op.action with
  | none, .ok db =>
      if sent = true then
        { s with db }.setThread t
          { op, context, containerUuid := uuid, action := s.db.nextAction, todo := op.code }
      else { s with db }
  | _, _ => s

/-- The thread does something, unless it is dead. -/
def State.withThread (s : State) (t : Nat) (f : Thread → State) : State :=
  match s.threads t with
  | none => s
  | some th => if th.dead = true then s else f th

def stepResume (s : State) (t t' : Nat) (requestId : String) : State :=
  match s.threads t, s.threads t' with
  | some th, none =>
      match th.dead, th.resumesAs with
      | true, some op =>
          s.setThread t'
            { op, context := { requestId }, containerUuid := th.containerUuid,
              action := th.action, todo := op.code }
      | _, _ => s
  | _, _ => s

def step : Event → State → State
  | .createContainer uuid, s => { s with db := s.db.create uuid }
  | .destroyContainer uuid, s => { s with db := s.db.destroy uuid }
  | .accept t op context uuid sent, s => stepAccept s t op context uuid sent
  | .work t raised, s => s.withThread t fun th => stepWork s t th raised
  | .catchUp t ok, s => s.withThread t fun th => stepCatchUp s t th ok
  | .enter t ok, s => s.withThread t fun th => stepEnter s t th ok
  | .leave t now ok, s => s.withThread t fun th => stepLeave s t th now ok
  | .die t, s => s.withThread t fun th => s.setThread t { th with dead := true }
  | .resume t t' requestId, s => stepResume s t t' requestId

/-! ## What is recorded -/

/-- The action of the thread is finished, with the message `Error` exactly if the operation raised,
unless it went with its container; and what leaves the thread is what the operation raised. -/
def State.Recorded (s : State) (th : Thread) : Prop :=
  (th.containerUuid ∈ s.db.destroyed ∨ s.db.Finished th.action th.containerUuid th.raised) ∧
    th.exc = th.raised

/-- Every action whose thread has ended is finished. -/
def EachFinished (s : State) : Prop :=
  ∀ t th, s.threads t = some th → th.Ended → s.Recorded th

/-- The thread has not yet looked whether its container is there. -/
def Thread.Queued (th : Thread) : Prop := th.frames = [] ∧ .catchUp ∈ th.todo

/-- The database answers when a thread asks it, a commit goes to the image service, a request records
an action of a container once, nothing raises before the action's own context manager, no container
goes while a thread is at work on it, and nothing is resumed. -/
def Steady : Event → State → Prop
  | .accept _ op context uuid _, s => op ≠ .commit true ∧
      ∀ a ∈ s.db.actions, a.key ≠ ⟨uuid, context.requestId, op.action⟩
  | .work t raised, s => ∀ th, s.threads t = some th → th.frames = [] → raised = none
  | .catchUp _ ok, _ | .enter _ ok, _ | .leave _ _ ok, _ => ok = true
  | .destroyContainer uuid, s => ∀ t th, s.threads t = some th → th.containerUuid = uuid →
      th.dead = false → th.Ended ∨ th.Queued
  | .resume _ _ _, _ => False
  | _, _ => True

/-- Nothing has happened yet. -/
def Initial (s : State) : Prop := s.db = {} ∧ s.threads = fun _ => none

/-! ## A steady run -/

variable {s : State} {t now : Nat} {th : Thread} {db : Db}

/-- The rest of a body, within so many events and the action's own context manager. -/
inductive Inside : List Code → Nat → Prop where
  | last : Inside [.leave] 0
  | leave {todo : List Code} {n : Nat} : Inside todo n → Inside (.leave :: todo) (n + 1)
  | work {todo : List Code} {n : Nat} : Inside todo n → Inside (.work :: todo) n
  | enter {todo : List Code} {n : Nat} (event : String) : Inside todo (n + 1) →
      Inside (.enter (.eventReporter event) :: todo) n

/-- The action's own context manager is still to be entered. -/
inductive Before (action : String) : List Code → Prop where
  | work {todo : List Code} : Before action todo → Before action (.work :: todo)
  | catchUp {todo : List Code} : Before action todo → Before action (.catchUp :: todo)
  | enter {todo : List Code} : Inside todo 0 →
      Before action (.enter (.finishAction action) :: todo)

theorem Inside.catchUp_not_mem {todo : List Code} {n : Nat} (h : Inside todo n) :
    .catchUp ∉ todo := by
  induction h with
  | last => simp
  | leave _ ih => simpa using ih
  | work _ ih => simpa using ih
  | enter _ _ ih => simpa using ih

theorem Inside.reporting {todo : List Code} {n : Nat} (h : Inside todo n) (function : String) :
    Inside (reporting function [.work] ++ todo) n :=
  .enter _ (.work (.leave h))

theorem Inside.startIf {todo : List Code} {n : Nat} (h : Inside todo n) (run : Bool) :
    Inside (startIf run ++ todo) n := by
  cases run with
  | false => exact h
  | true => exact h.reporting _

theorem before_finishing (action function : String) :
    Before action (finishing action function [.work]) :=
  .enter (Inside.last.reporting _)

/-- Everything but a commit to a registry is run within the action's own context manager. -/
theorem before_code (op : Operation) (h : op ≠ .commit true) : Before op.action op.code := by
  cases op with
  | create run =>
    have hbody := (Inside.last.startIf run).reporting "_do_container_create"
    rw [← List.append_assoc] at hbody
    exact .enter (.work hbody)
  | start => exact .catchUp (.enter (Inside.last.reporting _))
  | rebuild run =>
    have hbody := Inside.startIf (.work (.leave .last)) run
    rw [List.append_cons, List.append_cons] at hbody
    exact .catchUp (.enter (.enter _ (.work hbody)))
  | commit registry =>
    cases registry with
    | true => exact absurd rfl h
    | false => exact .work (.catchUp (before_finishing _ _))
  | stop | reboot | pause | unpause | kill => exact .catchUp (before_finishing _ _)
  | networkAttach | networkDetach | addSecurityGroup | removeSecurityGroup =>
    exact .catchUp (before_finishing _ _)

/-- Where a thread is, and what the database has of it there. -/
inductive Good (db : Db) (th : Thread) : Prop where
  | before (hframes : th.frames = []) (hexc : th.exc = none) (hraised : th.raised = none)
      (htodo : Before th.op.action th.todo)
      (hdb : db.Pending th.action th.key ∨ th.containerUuid ∈ db.destroyed ∧ .catchUp ∈ th.todo)
  | inside (names : List String)
      (hframes : th.frames = names.map .eventReporter ++ [.finishAction th.op.action])
      (hexc : th.exc = th.raised) (htodo : th.exc = none → Inside th.todo names.length)
      (hpending : db.Pending th.action th.key)
      (hreported : db.Reported th.containerUuid th.context.requestId names)
  | done (hframes : th.frames = []) (hexc : th.exc = th.raised) (htodo : th.exc = none → th.todo = [])
      (hdb : th.containerUuid ∈ db.destroyed ∨ db.Finished th.action th.containerUuid th.raised)

theorem Good.keeps {db' : Db} (h : Good db th)
    (hk : db.Keeps db' th.action th.containerUuid) : Good db' th := by
  cases h with
  | before hframes hexc hraised htodo hdb =>
    refine .before hframes hexc hraised htodo (hdb.imp (fun h => h.keeps hk) ?_)
    exact fun h => ⟨hk.destroyed h.1, h.2⟩
  | inside names hframes hexc htodo hpending hreported =>
    exact .inside names hframes hexc htodo (hpending.keeps hk) (hreported.keeps hk)
  | done hframes hexc htodo hdb =>
    exact .done hframes hexc htodo (hdb.imp hk.destroyed fun h => h.keeps hk)

structure Inv (s : State) : Prop where
  wf : s.db.Wf
  good : ∀ t th, s.threads t = some th → th.dead = false → Good s.db th
  lt : ∀ t th, s.threads t = some th → th.action < s.db.nextAction
  inj : ∀ t t' th th', s.threads t = some th → s.threads t' = some th' → th.action = th'.action →
    t = t'

theorem of_setThread {t' : Nat} {th' : Thread} (h : (s.setThread t th).threads t' = some th') :
    t' = t ∧ th' = th ∨ t' ≠ t ∧ s.threads t' = some th' := by
  by_cases ht : t' = t
  · subst ht
    simp only [State.setThread, Function.update_self, Option.some.injEq] at h
    exact .inl ⟨rfl, h.symm⟩
  · simp only [State.setThread, Function.update_of_ne ht] at h
    exact .inr ⟨ht, h⟩

/-- A thread does something that leaves the actions of the others alone. -/
theorem Inv.setThread (h : Inv s) (hth : s.threads t = some th) {next : Thread}
    (hwf : db.Wf) (hdb : db.nextAction = s.db.nextAction) (haction : next.action = th.action)
    (hgood : next.dead = false → Good db next)
    (hkeeps : ∀ t' th', s.threads t' = some th' → t' ≠ t →
      s.db.Keeps db th'.action th'.containerUuid) :
    Inv ({ s with db }.setThread t next) := by
  have hact : ∀ t' th', ({ s with db }.setThread t next).threads t' = some th' →
      ∃ th₀, s.threads t' = some th₀ ∧ th₀.action = th'.action := by
    intro t' th' h'
    rcases of_setThread h' with ⟨rfl, rfl⟩ | ⟨-, h'⟩
    · exact ⟨th, hth, haction.symm⟩
    · exact ⟨th', h', rfl⟩
  constructor
  · exact hwf
  · intro t' th' h' hdead
    rcases of_setThread h' with ⟨rfl, rfl⟩ | ⟨hne, h'⟩
    · exact hgood hdead
    · exact (h.good t' th' h' hdead).keeps (hkeeps t' th' h' hne)
  · intro t' th' h'
    obtain ⟨th₀, h₀, hact⟩ := hact t' th' h'
    exact hact ▸ hdb ▸ h.lt t' th₀ h₀
  · intro t₁ t₂ th₁ th₂ h₁ h₂ heq
    obtain ⟨th₁', h₁', hact₁⟩ := hact t₁ th₁ h₁
    obtain ⟨th₂', h₂', hact₂⟩ := hact t₂ th₂ h₂
    exact h.inj t₁ t₂ th₁' th₂' h₁' h₂' (by rw [hact₁, hact₂, heq])

/-- A thread does something that the database does not see. -/
theorem Inv.goOn (h : Inv s) (hth : s.threads t = some th) {next : Thread}
    (haction : next.action = th.action) (hgood : next.dead = false → Good s.db next) :
    Inv (s.setThread t next) :=
  h.setThread hth h.wf rfl haction hgood fun _ _ _ _ => .refl

theorem inv_stepWork {raised : Option String} (h : Inv s) (hth : s.threads t = some th)
    (hg : Good s.db th) (hok : th.frames = [] → raised = none) : Inv (stepWork s t th raised) := by
  unfold stepWork
  split
  · rename_i todo hexc htodo
    refine h.goOn hth rfl fun _ => ?_
    cases hg with
    | before hframes hexc hraised hbefore hdb =>
      rw [htodo] at hbefore hdb
      cases hbefore with
      | work hbefore =>
        refine .before hframes hexc hraised hbefore (hdb.imp_right fun hgone => ⟨hgone.1, ?_⟩)
        simpa using hgone.2
    | inside names hframes hraised hinside hpending hreported =>
      have hinside := hinside hexc
      rw [htodo] at hinside
      cases hinside with
      | work hinside => exact .inside names hframes hraised (fun _ => hinside) hpending hreported
    | done _ _ hover _ =>
      rw [hover hexc] at htodo
      cases htodo
  · rename_i todo message hexc htodo
    refine h.goOn hth rfl fun _ => ?_
    cases hg with
    | before hframes => cases hok hframes
    | inside names hframes hraised hinside hpending hreported =>
      refine .inside names hframes rfl ?_ hpending hreported
      rintro ⟨⟩
    | done _ _ hover _ =>
      rw [hover hexc] at htodo
      cases htodo
  · exact h

theorem inv_stepCatchUp (h : Inv s) (hth : s.threads t = some th) (hg : Good s.db th) :
    Inv (stepCatchUp s t th true) := by
  unfold stepCatchUp
  split
  · rename_i hexc htodo _
    refine h.goOn hth rfl fun _ => ?_
    cases hg with
    | before hframes hexc hraised hbefore hdb =>
      rw [htodo] at hbefore
      cases hbefore with
      | catchUp hbefore =>
        split
        · rename_i hmem
          have hpending := hdb.resolve_right fun hgone => h.wf.destroyed _ hgone.1 hmem
          exact .before hframes hexc hraised hbefore (.inl hpending)
        · rename_i hmem
          have hgone := hdb.resolve_left fun hpending => by
            obtain ⟨a, ha, -, hkey, -⟩ := hpending
            have howner := h.wf.owner a ha
            rw [show a.containerUuid = th.containerUuid from congrArg Key.containerUuid hkey]
              at howner
            exact hmem howner
          exact .done hframes (hexc.trans hraised.symm) (fun _ => rfl) (.inl hgone.1)
    | inside names _ _ hinside _ _ =>
      have hinside := hinside hexc
      rw [htodo] at hinside
      cases hinside
    | done _ _ hover _ =>
      rw [hover hexc] at htodo
      cases htodo
  · contradiction
  · exact h

/-- A thread leaves its innermost context manager, which finishes the event or the action. -/
theorem inv_exit (h : Inv s) (hth : s.threads t = some th) (hg : Good s.db th) {m : Manager}
    {frames : List Manager} (hm : th.frames = m :: frames) {todo : List Code}
    (htodo : th.exc = none → th.todo = .leave :: todo) :
    Inv (s.record t (m.exit s.db th.context th.containerUuid now th.exc true)
      { th with todo, frames }) := by
  cases hg with
  | before hframes =>
    rw [hframes] at hm
    cases hm
  | done hframes =>
    rw [hframes] at hm
    cases hm
  | inside names hframes hraised hinside hpending hreported =>
    have hrest (he : th.exc = none) : Inside (.leave :: todo) names.length := htodo he ▸ hinside he
    rw [hframes] at hm
    cases names with
    | nil =>
      obtain ⟨rfl, rfl⟩ : Manager.finishAction th.op.action = m ∧ [] = frames := by
        simpa using hm
      rw [Manager.exit, answered, if_pos rfl, h.wf.actionFinish hpending, State.record]
      refine h.setThread hth h.wf.update rfl rfl (fun _ => ?_) fun t' th' h' hne =>
        Db.keeps_update ?_
      · refine .done rfl hraised (fun he => ?_) (.inr (hraised ▸ Db.finished_update hpending))
        cases hrest he with
        | last => rfl
      · intro a ha hid hkey
        obtain ⟨b, hb, hbid, hbkey, -⟩ := hpending
        obtain rfl := h.wf.eq_of_key ha hb (hkey.trans hbkey.symm)
        exact hne (h.inj t' t th' th h' hth (hid.symm.trans hbid))
    | cons event names =>
      obtain ⟨rfl, rfl⟩ : Manager.eventReporter event = m ∧
          names.map .eventReporter ++ [.finishAction th.op.action] = frames := by
        simpa using hm
      obtain ⟨db, hdb⟩ := hreported.actionEventFinish now th.exc
      rw [Manager.exit, answered, if_pos rfl, hdb, State.record]
      have hkeeps {id : Nat} {uuid : String} : s.db.Keeps db id uuid :=
        Db.keeps_actionEventFinish hdb
      refine h.setThread hth (h.wf.actionEventFinish hdb) (Db.nextAction_actionEventFinish hdb) rfl
        (fun _ => ?_) fun _ _ _ _ => hkeeps
      refine .inside names rfl hraised (fun he => ?_) (hpending.keeps hkeeps) ?_
      · cases hrest he with
        | leave hinside => exact hinside
      · have hkept := hreported.keeps (hkeeps : s.db.Keeps db th.action _)
        exact fun n hn => hkept n (List.mem_cons_of_mem _ hn)

theorem inv_stepEnter (h : Inv s) (hth : s.threads t = some th) (hg : Good s.db th) :
    Inv (stepEnter s t th true) := by
  unfold stepEnter
  split
  · rename_i m todo hexc htodo
    cases hg with
    | before hframes _ hraised hbefore hdb =>
      rw [htodo] at hbefore hdb
      cases hbefore with
      | enter hinside =>
        have hpending := hdb.resolve_right fun hgone =>
          hinside.catchUp_not_mem (by simpa using hgone.2)
        refine h.goOn hth rfl fun _ => .inside [] ?_ (hexc.trans hraised.symm) (fun _ => hinside)
          hpending fun _ hn => by cases hn
        rw [hframes]
        rfl
    | inside names hframes hraised hinside hpending hreported =>
      have hinside := hinside hexc
      rw [htodo] at hinside
      cases hinside with
      | enter event hinside =>
        obtain ⟨db, hdb⟩ := hpending.actionEventStart event
        have hkeeps {id : Nat} {uuid : String} : s.db.Keeps db id uuid :=
          Db.keeps_actionEventStart hdb
        simp only [Manager.enter, answered, if_pos, hdb]
        refine h.setThread hth (h.wf.actionEventStart hdb) (Db.nextAction_actionEventStart hdb) rfl
          (fun _ => ?_) fun _ _ _ _ => hkeeps
        refine .inside (event :: names) ?_ hraised (fun _ => hinside) (hpending.keeps hkeeps)
          (hreported.actionEventStart hpending hdb)
        rw [hframes]
        rfl
    | done _ _ hover _ =>
      rw [hover hexc] at htodo
      cases htodo
  · exact h

theorem inv_stepLeave (h : Inv s) (hth : s.threads t = some th) (hg : Good s.db th) :
    Inv (stepLeave s t th now true) := by
  unfold stepLeave
  split
  · rename_i todo m frames hexc htodo hframes
    exact inv_exit h hth hg hframes fun _ => htodo
  · rename_i e m frames hexc hframes
    refine inv_exit h hth hg hframes fun he => ?_
    rw [hexc] at he
    cases he
  · exact h

theorem Inv.withThread (h : Inv s) {f : Thread → State}
    (hf : ∀ th, s.threads t = some th → th.dead = false → Inv (f th)) :
    Inv (s.withThread t f) := by
  unfold State.withThread
  split
  · exact h
  · rename_i th hth
    split
    · exact h
    · rename_i hdead
      exact hf th hth (Bool.eq_false_iff.mpr hdead)

/-- The database goes on without the threads. -/
theorem Inv.of_db (h : Inv s) (hwf : db.Wf) (hdb : s.db.nextAction ≤ db.nextAction)
    (hgood : ∀ t th, s.threads t = some th → th.dead = false → Good db th) : Inv { s with db } where
  wf := hwf
  good := hgood
  lt t th hth := Nat.lt_of_lt_of_le (h.lt t th hth) hdb
  inj := h.inj

theorem inv_create (h : Inv s) (uuid : String) : Inv { s with db := s.db.create uuid } := by
  refine h.of_db h.wf.create ?_ fun t th hth hdead => (h.good t th hth hdead).keeps Db.keeps_create
  rw [Db.create]
  split <;> exact Nat.le_refl _

/-- The container of a thread goes that has not begun or is over. -/
theorem Good.destroy (h : Good db th) (hq : th.Ended ∨ th.Queued) :
    Good (db.destroy th.containerUuid) th := by
  cases h with
  | before hframes hexc hraised hbefore hdb =>
    refine .before hframes hexc hraised hbefore (.inr ⟨Db.destroyed_destroy, ?_⟩)
    rcases hq with hended | hqueued
    · rw [hended.2.2 hexc] at hbefore
      cases hbefore
    · exact hqueued.2
  | inside names hframes =>
    have hnil : th.frames = [] := hq.elim (fun h => h.2.1) fun h => h.1
    rw [hnil] at hframes
    cases names <;> cases hframes
  | done hframes hexc htodo => exact .done hframes hexc htodo (.inl Db.destroyed_destroy)

/-- Another container goes. -/
theorem Good.destroy_other (h : Good db th) (hw : db.Wf) {uuid : String}
    (hne : th.containerUuid ≠ uuid) : Good (db.destroy uuid) th := by
  have hkeeps (hrow : ∃ a ∈ db.actions, a.id = th.action ∧ a.containerUuid = th.containerUuid) :
      db.Keeps (db.destroy uuid) th.action th.containerUuid := hw.keeps_destroy hne hrow
  have hpending (hp : db.Pending th.action th.key) :
      ∃ a ∈ db.actions, a.id = th.action ∧ a.containerUuid = th.containerUuid := by
    obtain ⟨a, ha, hid, hkey, -⟩ := hp
    exact ⟨a, ha, hid, congrArg Key.containerUuid hkey⟩
  cases h with
  | before hframes hexc hraised hbefore hdb =>
    refine .before hframes hexc hraised hbefore (hdb.imp (fun h => h.keeps (hkeeps (hpending h))) ?_)
    exact fun h => ⟨List.mem_cons_of_mem _ h.1, h.2⟩
  | inside names hframes hexc htodo hp hreported =>
    have hkeeps := hkeeps (hpending hp)
    exact .inside names hframes hexc htodo (hp.keeps hkeeps) (hreported.keeps hkeeps)
  | done hframes hexc htodo hdb =>
    refine .done hframes hexc htodo (hdb.imp (List.mem_cons_of_mem _) fun h => h.keeps (hkeeps ?_))
    obtain ⟨a, ha, hid, huuid, -⟩ := h
    exact ⟨a, ha, hid, huuid⟩

theorem inv_destroy (h : Inv s) {uuid : String}
    (hq : ∀ t th, s.threads t = some th → th.containerUuid = uuid → th.dead = false →
      th.Ended ∨ th.Queued) : Inv { s with db := s.db.destroy uuid } := by
  refine h.of_db h.wf.destroy (Nat.le_refl _) fun t th hth hdead => ?_
  have hg := h.good t th hth hdead
  by_cases huuid : th.containerUuid = uuid
  · exact huuid ▸ hg.destroy (hq t th hth huuid hdead)
  · exact hg.destroy_other h.wf huuid

/-- A thread begins, for an action of its own. -/
theorem Inv.begin (h : Inv s) (hgood : Good s.db th) (hlt : th.action < s.db.nextAction)
    (hnew : ∀ t' th', s.threads t' = some th' → th'.action ≠ th.action) :
    Inv (s.setThread t th) := by
  constructor
  · exact h.wf
  · intro t' th' h' hdead
    rcases of_setThread h' with ⟨-, rfl⟩ | ⟨-, h'⟩
    · exact hgood
    · exact h.good t' th' h' hdead
  · intro t' th' h'
    rcases of_setThread h' with ⟨-, rfl⟩ | ⟨-, h'⟩
    · exact hlt
    · exact h.lt t' th' h'
  · intro t₁ t₂ th₁ th₂ h₁ h₂ heq
    rcases of_setThread h₁ with ⟨rfl, rfl⟩ | ⟨-, hold₁⟩
    · rcases of_setThread h₂ with ⟨rfl, -⟩ | ⟨-, hold₂⟩
      · rfl
      · exact absurd heq.symm (hnew t₂ th₂ hold₂)
    · rcases of_setThread h₂ with ⟨rfl, rfl⟩ | ⟨-, hold₂⟩
      · exact absurd heq (hnew t₁ th₁ hold₁)
      · exact h.inj t₁ t₂ th₁ th₂ hold₁ hold₂ heq

theorem inv_stepAccept (h : Inv s) {op : Operation} {context : Context} {uuid : String}
    {sent : Bool} (hop : op ≠ .commit true)
    (hnew : ∀ a ∈ s.db.actions, a.key ≠ ⟨uuid, context.requestId, op.action⟩) :
    Inv (stepAccept s t op context uuid sent) := by
  unfold stepAccept
  split
  · rename_i db hnone hdb
    have hnext : db.nextAction = s.db.nextAction + 1 := by
      obtain ⟨-, rfl⟩ := Db.actionStart_ok hdb
      rfl
    have hrecorded : Inv { s with db } := h.of_db (h.wf.actionStart hdb hnew) (by omega)
      fun t th hth hdead => (h.good t th hth hdead).keeps (Db.keeps_actionStart hdb)
    split
    · refine hrecorded.begin ?_ ?_ fun t' th' h' => Nat.ne_of_lt (h.lt t' th' h')
      · exact .before rfl rfl rfl (before_code op hop) (.inl (Db.pending_actionStart hdb))
      · exact hnext ▸ Nat.lt_succ_self _
    · exact hrecorded
  · exact h

theorem inv_step (e : Event) (h : Inv s) (he : Steady e s) : Inv (step e s) := by
  cases e with
  | createContainer uuid => exact inv_create h uuid
  | destroyContainer uuid => exact inv_destroy h he
  | accept t op context uuid sent => exact inv_stepAccept h he.1 he.2
  | work t raised =>
    exact h.withThread fun th hth hdead => inv_stepWork h hth (h.good t th hth hdead) (he th hth)
  | catchUp t ok =>
    obtain rfl : ok = true := he
    exact h.withThread fun th hth hdead => inv_stepCatchUp h hth (h.good t th hth hdead)
  | enter t ok =>
    obtain rfl : ok = true := he
    exact h.withThread fun th hth hdead => inv_stepEnter h hth (h.good t th hth hdead)
  | leave t now ok =>
    obtain rfl : ok = true := he
    exact h.withThread fun th hth hdead => inv_stepLeave h hth (h.good t th hth hdead)
  | die t =>
    exact h.withThread fun th hth _ => h.goOn hth rfl fun hdead => by cases hdead
  | resume t t' requestId => cases he

theorem inv_initial (h : Initial s) : Inv s := by
  obtain ⟨hdb, hthreads⟩ := h
  have hnone {t : Nat} {th : Thread} : s.threads t ≠ some th := by
    rw [hthreads]
    rintro ⟨⟩
  constructor
  · rw [hdb]
    constructor <;> simp
  · exact fun t th hth => absurd hth hnone
  · exact fun t th hth => absurd hth hnone
  · exact fun t _ th _ hth => absurd hth hnone

theorem inv_run (h : Reached Initial step Steady s) : Inv s :=
  h.invariant (fun _ => inv_initial) fun e _ he hs => inv_step e hs he

/-- Where a thread has ended, its action is recorded. -/
theorem Good.recorded (h : Good s.db th) (hended : th.Ended) : s.Recorded th := by
  obtain ⟨-, hnil, hdone⟩ := hended
  cases h with
  | before hframes hexc hraised hbefore =>
    rw [hdone hexc] at hbefore
    cases hbefore
  | inside names hframes =>
    rw [hnil] at hframes
    cases names <;> cases hframes
  | done hframes hexc htodo hdb => exact ⟨hdb, hexc⟩

/-- In a run without what goes wrong, every action whose thread has ended is finished. -/
theorem each_finished (h : Reached Initial step Steady s) : EachFinished s :=
  fun t th hth hended => ((inv_run h).good t th hth hended.1).recorded hended

/-! ### Two operations end, one of them by an exception -/

def oneContext : Context := { requestId := "req-1", projectId := some "demo" }

/-- A stop and a start of one container take turns. -/
def stopAndStart : List Event :=
  [.createContainer "web", .accept 1 .stop oneContext "web" true,
    .accept 2 .start { oneContext with requestId := "req-2" } "web" true,
    .catchUp 1 true, .enter 1 true, .enter 1 true, .catchUp 2 true, .work 1 none, .leave 1 10 true,
    .enter 2 true, .enter 2 true, .leave 1 11 true, .work 2 (some "no such container"),
    .leave 2 12 true, .leave 2 13 true]

theorem stopAndStart_steady : Allowed step Steady stopAndStart {} := by
  refine ⟨trivial, ⟨by decide, by decide⟩, ⟨by decide, by decide⟩, rfl, rfl, rfl, rfl,
    fun _ _ _ => rfl, rfl, rfl, rfl, rfl, ?_, rfl, rfl, trivial⟩
  rintro _ ⟨⟩ ⟨⟩

theorem each_finished_stopAndStart : EachFinished (steps step stopAndStart {}) :=
  each_finished ((Reached.init ⟨rfl, rfl⟩).steps stopAndStart_steady)

/-! ### A stop is resumed -/

/-- The service stops while the runtime stops the container, starts again, and goes on. -/
def resumedStop : List Event :=
  [.createContainer "web", .accept 1 .stop oneContext "web" true, .catchUp 1 true, .enter 1 true,
    .enter 1 true, .die 1, .resume 1 2 "req-9", .catchUp 2 true, .enter 2 true, .enter 2 true,
    .work 2 none, .leave 2 10 true, .leave 2 11 true]

theorem resumedStop_thread : (steps step resumedStop {}).threads 2 = some
    { op := .stop, containerUuid := "web", context := { requestId := "req-9" }, action := 1,
      todo := [], exc := some (.containerActionNotFound "req-9" "web") } := rfl

/-- The stop has done its work, and what leaves its thread is that its action was not found. -/
theorem not_each_finished : ¬ ∀ s, Reached Initial step (fun _ _ => True) s → EachFinished s := by
  intro h
  have hbegun : Reached Initial step (fun _ _ => True) {} := .init ⟨rfl, rfl⟩
  have hfinished := h _ (hbegun.steps (allowed_true step resumedStop {})) 2 _ resumedStop_thread
  have hexc := (hfinished ⟨rfl, rfl, fun hnone => by cases hnone⟩).2
  cases hexc

end Actions

end Zun
