import Mathlib.Data.List.Dedup
import Zun.Effect.Traced
import Zun.Network.SecurityGroups
import Zun.Objects.Container

/-!
# Security groups on the ports of a container

A group is added to a container, or removed from it, on each of its ports in Neutron and then in its record:
`_add_security_group` and `_remove_security_group` of `zun/compute/manager.py`.  The Docker driver goes through
kuryr, which lists the ports of the caller's project and edits those of them that the record names.  The CRI
driver asks for every port that the record names.
-/

namespace Zun

open Effect Prog

namespace GroupChanges

/-! ## The model -/

inductive Change where
  | add | remove
deriving DecidableEq

inductive Driver where
  | docker | cri
deriving DecidableEq

/-- A port in Neutron. -/
structure Port where
  id : PortId
  tenantId : String
  /-- Neutron shows it to the caller. -/
  shown : Bool := true
deriving DecidableEq

structure State where
  /-- What Neutron has on each port. -/
  portGroups : PortId → List String
  /-- `container.security_groups`. -/
  securityGroups : Option (List String)
  /-- The same in the database. -/
  record : Option (List String)

structure Container where
  addresses : Option (List (NetId × List Addr))
  taskState : Option TaskState := none
deriving DecidableEq

inductive Call where
  | dockerClient
  | listSecurityGroups
  | listPorts
  | showPort (p : PortId)
  | updatePort (p : PortId) (securityGroups : List String)
  | save
deriving DecidableEq

inductive Failure where
  | typeError
  | attributeError
  | valueError
  | indexError
  | noPort
  | portNotFound (p : PortId)
  | conflict
  | resolution (e : SecurityGroups.Error)
  /-- `NeutronClientException`. -/
  | neutron (statusCode : Nat)
  /-- `SecurityGroupCannotBeApplied`. -/
  | cannotBeApplied
  /-- `SecurityGroupCannotBeRemoved`. -/
  | cannotBeRemoved
  | other (code : Nat)
deriving DecidableEq

structure Env where
  /-- The project of the caller. -/
  projectId : String
  /-- The ports of Neutron, as it lists them. -/
  ports : List Port
  ids : (ports.map (·.id)).Nodup
  /-- The groups of the container's project that the caller is shown. -/
  project : SecurityGroups.Project
  /-- The order of a set of ports. -/
  portOrder : List PortId → List PortId := id
  portOrder_perm : ∀ l, (portOrder l).Perm l := by exact fun l => List.Perm.refl l
  /-- The order of a set of groups. -/
  groupOrder : List String → List String := id
  groupOrder_perm : ∀ l, (groupOrder l).Perm l := by exact fun l => List.Perm.refl l

abbrev Run (α : Type) := Prog (Log State Call Failure) Failure α

/-- The calls that are answered with an exception. -/
abbrev Refusals := Nat → Call → Option Failure

variable (env : Env) (refuse : Refusals) (c : Container) (securityGroup : String)

def ask (call : Call) : Run Unit := consult refuse call id

def save : Run Unit := consult refuse .save fun s => { s with record := s.securityGroups }

def updatePort (p : PortId) (securityGroups : List String) : Run Unit :=
  consult refuse (.updatePort p securityGroups) fun s =>
    { s with portGroups := Function.update s.portGroups p securityGroups }

/-- A value, or an exception. -/
def lift {α : Type} : Except Failure α → Run α
  | .ok a => pure a
  | .error e => raise e

/-- The ports that a record names. -/
def Container.portIds : List PortId := (c.addresses.getD []).flatMap fun entry => entry.2.map (·.port)

/-! ### Docker -/

/-- What `list_ports` answers for the project of the caller. -/
def Env.listPorts : List Port :=
  env.ports.filter fun port => port.tenantId = env.projectId ∧ port.shown = true

/-- The ports of a container that are edited through kuryr. -/
def neutronPorts : List Port := env.listPorts.filter fun port => port.id ∈ c.portIds

/-- The loop of the two functions below. -/
def onListedPorts (edit : List String → Except Failure (List String)) (badRequest : Failure) : Run Unit :=
  match c.addresses with
  | none => raise .attributeError
  | some _ => do
      ask refuse .listPorts
      let portGroups ← look (·.portGroups)
      forEach (neutronPorts env c) fun port => do
        let securityGroups ← lift (edit (portGroups port.id))
        tryExcept (updatePort refuse port.id securityGroups) fun e =>
          if e = .neutron 400 then raise badRequest else raise e

/-- `add_security_groups_to_ports`. -/
def addSecurityGroupsToPorts (securityGroupIds : List String) : Run Unit :=
  onListedPorts env refuse c (fun groups => .ok (groups ++ securityGroupIds)) .cannotBeApplied

/-- `port['security_groups'].remove(security_group_ids[0])`. -/
def removeFirst : List String → List String → Except Failure (List String)
  | [], _ => .error .indexError
  | id :: _, groups => if id ∈ groups then .ok (groups.erase id) else .error .valueError

/-- `remove_security_groups_from_ports`. -/
def removeSecurityGroupsFromPorts (securityGroupIds : List String) : Run Unit :=
  onListedPorts env refuse c (removeFirst securityGroupIds) .cannotBeRemoved

/-- `DockerDriver.add_security_group` and `DockerDriver.remove_security_group`. -/
def dockerChange : Change → Run Unit
  | .add => do
      ask refuse .dockerClient
      addSecurityGroupsToPorts env refuse c [securityGroup]
  | .remove => do
      ask refuse .dockerClient
      removeSecurityGroupsFromPorts env refuse c [securityGroup]

/-! ### CRI -/

/-- What the loop over the ids does to the groups of a port. -/
def editGroups (change : Change) (groupIds groups : List String) : List String :=
  groupIds.foldl (fun groups id =>
    match change with
    | .add => if id ∈ groups then groups else groups ++ [id]
    | .remove => if id ∈ groups then groups.erase id else groups) groups

/-- `get_neutron_port`. -/
def getNeutronPort (p : PortId) : Run Unit := do
  ask refuse (.showPort p)
  match env.ports.filter fun port => port.id = p ∧ port.shown = true with
  | [] => raise (.portNotFound p)
  | [_] => pure ()
  | _ :: _ :: _ => raise .conflict

/-- `_ports_of`. -/
def portsOf : List PortId := env.portOrder c.portIds.dedup

/-- What the loop of the CRI driver does with a port. -/
def changePort (change : Change) (groupIds : List String) (p : PortId) : Run Unit := do
  getNeutronPort env refuse p
  let groups ← look fun s => s.portGroups p
  updatePort refuse p (editGroups change groupIds groups)

/-- `_change_security_groups`. -/
def criChange (change : Change) : Run Unit :=
  match portsOf env c with
  | [] => raise .noPort
  | wanted => do
      ask refuse .listSecurityGroups
      let groupIds ← lift ((SecurityGroups.getSecurityGroupIds env.project (some [securityGroup])).mapError .resolution)
      forEach wanted (changePort env refuse change (groupIds.getD []))

/-! ### The manager -/

/-- What a driver does for a change. -/
def Driver.run (change : Change) : Driver → Run Unit
  | .docker => dockerChange env refuse c securityGroup change
  | .cri => criChange env refuse c securityGroup change

/-- `_update_task_state`. -/
def updateTaskState (body : Run Unit) : Run Unit :=
  if c.taskState.isSome then body
  else do
    save refuse
    tryFinally body (save refuse)

/-- What the two functions below share. -/
def changeSecurityGroup (driver : Run Unit) (update : List String → List String) : Run Unit :=
  updateTaskState refuse c do
    driver
    match ← look (·.securityGroups) with
    | none => raise .typeError
    | some securityGroups => do
        change fun s => { s with securityGroups := some (update securityGroups) }
        save refuse

/-- `_add_security_group`. -/
def addSecurityGroup (driver : Driver) : Run Unit :=
  changeSecurityGroup refuse c (driver.run env refuse c securityGroup .add) (· ++ [securityGroup])

/-- `_remove_security_group`. -/
def removeSecurityGroup (driver : Driver) : Run Unit :=
  changeSecurityGroup refuse c (driver.run env refuse c securityGroup .remove) fun securityGroups =>
    env.groupOrder (securityGroups.dedup.filter (· ≠ securityGroup))

def manager (driver : Driver) : Change → Run Unit
  | .add => addSecurityGroup env refuse c securityGroup driver
  | .remove => removeSecurityGroup env refuse c securityGroup driver

/-! ## What is asked of a change -/

/-- How often a port has the group after the change. -/
def Change.times : Change → Nat
  | .add => 1
  | .remove => 0

/-- What a list has after the change. -/
def Change.keeps (change : Change) (securityGroups : List String) (x : String) : Prop :=
  match change with
  | .add => x ∈ securityGroups ∨ x = securityGroup
  | .remove => x ∈ securityGroups ∧ x ≠ securityGroup

/-- The group is on the port once or not at all, and the others are on it as they were. -/
structure Changed (change : Change) (before after : List String) : Prop where
  group : after.count securityGroup = change.times
  others : ∀ x, x ≠ securityGroup → after.count x = before.count x

/-- A record that was just read. -/
def State.fresh (portGroups : PortId → List String) (record : Option (List String)) : State :=
  ⟨portGroups, record, record⟩

/-- The state in which the driver is called. -/
def begun (s : State) : Log State Call Failure :=
  if c.taskState.isSome then ⟨s, []⟩ else (save refuse ⟨s, []⟩).2

/-- A change that succeeds is one on every port and in the record, and one that fails on a port leaves the record
as it was. -/
structure Meets (driver : Driver) (change : Change) (s : State) : Prop where
  ports : (manager env refuse c securityGroup driver change ⟨s, []⟩).1 = .ok () →
    ∀ port ∈ env.ports, port.id ∈ c.portIds → Changed securityGroup change (s.portGroups port.id)
      ((manager env refuse c securityGroup driver change ⟨s, []⟩).2.state.portGroups port.id)
  record : (manager env refuse c securityGroup driver change ⟨s, []⟩).1 = .ok () →
    ∃ before after, s.record = some before ∧
      (manager env refuse c securityGroup driver change ⟨s, []⟩).2.state.record = some after ∧
      ∀ x, x ∈ after ↔ change.keeps securityGroup before x
  kept : ∀ e, (driver.run env refuse c securityGroup change (begun refuse c s)).1 = .raise e →
    (manager env refuse c securityGroup driver change ⟨s, []⟩).2.state.record = s.record

/-! ## What a driver does to the ports -/

/-- Some ports have been edited, and the others have not. -/
structure Edited (edit : List String → Except Failure (List String)) (l : List PortId)
    (before after : PortId → List String) : Prop where
  inside : ∀ p ∈ l, edit (before p) = .ok (after p)
  outside : ∀ p, p ∉ l → after p = before p

/-- A run that edits ports, and comes to its end if `quiet` holds. -/
def Edits (quiet : Prop) (edit : List String → Except Failure (List String)) (l : List PortId) (s : State)
    (r : Result Failure Unit) (w : Log State Call Failure) : Prop :=
  (quiet → r = .ok ()) ∧ (r = .ok () → Edited edit l s.portGroups w.state.portGroups)

variable {env refuse c securityGroup} {edit : List String → Except Failure (List String)} {quiet : Prop}

theorem edits_raise {l : List PortId} {s : State} {e : Failure} {w : Log State Call Failure} (h : ¬ quiet) :
    Edits quiet edit l s (.raise e) w := ⟨fun hquiet => absurd hquiet h, fun hok => by cases hok⟩

theorem Edited.nil (portGroups : PortId → List String) : Edited edit [] portGroups portGroups :=
  ⟨fun _ hp => absurd hp List.not_mem_nil, fun _ _ => rfl⟩

/-- One port, and then some others. -/
theorem Edited.cons {p : PortId} {l : List PortId} {f f' f'' : PortId → List String} (hp : p ∉ l)
    (h : Edited edit [p] f f') (h' : Edited edit l f' f'') : Edited edit (p :: l) f f'' where
  inside := by
    intro q hq
    rcases List.mem_cons.mp hq with rfl | hq
    · rw [h'.outside q hp]
      exact h.inside q (List.mem_singleton_self q)
    · have hne : q ∉ [p] := fun h => hp (List.mem_singleton.mp h ▸ hq)
      rw [← h.outside q hne]
      exact h'.inside q hq
  outside := by
    intro q hq
    rw [List.mem_cons, not_or] at hq
    rw [h'.outside q hq.2]
    exact h.outside q (by simpa using hq.1)

/-- A loop over ports that are all different. -/
theorem wp_forEach_edits {β : Type} {key : β → PortId} {start : PortId → List String} {body : β → Run Unit} :
    ∀ {l : List β}, (l.map key).Nodup →
      (∀ b ∈ l, ∀ w : Log State Call Failure, w.state.portGroups (key b) = start (key b) →
        wp (body b) (Edits quiet edit [key b] w.state) w) →
      ∀ w : Log State Call Failure, (∀ b ∈ l, w.state.portGroups (key b) = start (key b)) →
        wp (forEach l body) (Edits quiet edit (l.map key) w.state) w
  | [], _, _, w, _ => ⟨fun _ => rfl, fun _ => Edited.nil _⟩
  | b :: l, hnodup, hbody, w, hw => by
      obtain ⟨hb, hnodup⟩ := List.nodup_cons.mp hnodup
      show wp (andThen (body b) fun _ => forEach l body) _ w
      rw [wp_andThen]
      refine wp_mono (hbody b (List.mem_cons_self ..) w (hw b (List.mem_cons_self ..))) fun r w' hr => ?_
      cases r with
      | ok u =>
          have hfirst := hr.2 rfl
          have hw' : ∀ b' ∈ l, w'.state.portGroups (key b') = start (key b') := by
            intro b' hb'
            have hne : key b' ∉ [key b] := fun h => hb (List.mem_singleton.mp h ▸ List.mem_map_of_mem hb')
            rw [hfirst.outside _ hne]
            exact hw b' (List.mem_cons_of_mem _ hb')
          have hrest := wp_forEach_edits hnodup (fun b' hb' => hbody b' (List.mem_cons_of_mem _ hb')) w' hw'
          rw [seqPost_ok]
          exact wp_mono hrest fun r w'' h => ⟨h.1, fun hok => hfirst.cons hb (h.2 hok)⟩
      | raise e => exact edits_raise fun hquiet => by cases hr.1 hquiet
      | halt => exact ⟨fun hquiet => (by cases hr.1 hquiet), fun hok => by cases hok⟩

/-- Nothing is answered with an exception. -/
def Quiet (refuse : Refusals) : Prop := ∀ n call, refuse n call = none

theorem edited_update {p : PortId} {portGroups : PortId → List String} {securityGroups : List String}
    (h : edit (portGroups p) = .ok securityGroups) :
    Edited edit [p] portGroups (Function.update portGroups p securityGroups) where
  inside := by
    intro q hq
    obtain rfl := List.mem_singleton.mp hq
    rw [h, Function.update_self]
  outside := fun q hq => Function.update_of_ne (by simpa using hq) _ _

theorem wp_updatePort {p : PortId} {securityGroups : List String} {w : Log State Call Failure}
    (hquiet : quiet → Quiet refuse) (h : edit (w.state.portGroups p) = .ok securityGroups) :
    wp (updatePort refuse p securityGroups) (Edits quiet edit [p] w.state) w := by
  unfold updatePort
  cases hrefuse : refuse w.log.length (.updatePort p securityGroups) with
  | none => exact wp_of_run (consult_none hrefuse) ⟨fun _ => rfl, fun _ => edited_update h⟩
  | some e =>
      refine wp_of_run (consult_some hrefuse) (edits_raise fun h => ?_)
      rw [hquiet h] at hrefuse
      cases hrefuse

/-- A call that changes nothing. -/
theorem wp_ask {call : Call} {w : Log State Call Failure} {Q : Result Failure Unit → Log State Call Failure → Prop}
    (hok : ∀ w', w'.state = w.state → Q (.ok ()) w')
    (hraise : ∀ e w', w'.state = w.state → ¬ Quiet refuse → Q (.raise e) w') :
    wp (ask refuse call) Q w := by
  unfold ask
  cases hrefuse : refuse w.log.length call with
  | none => exact wp_of_run (consult_none hrefuse) (hok _ rfl)
  | some e =>
      refine wp_of_run (consult_some hrefuse) (hraise e _ rfl fun hquiet => ?_)
      rw [hquiet] at hrefuse
      cases hrefuse

/-! ## The two drivers -/

/-- What is done to each port, and which ports it is done to. -/
structure Plan where
  edit : List String → Except Failure (List String)
  ports : List PortId

/-- What kuryr does to the groups of a port. -/
def dockerEdit (securityGroup : String) : Change → List String → Except Failure (List String)
  | .add => fun groups => .ok (groups ++ [securityGroup])
  | .remove => removeFirst [securityGroup]

def Change.badRequest : Change → Failure
  | .add => .cannotBeApplied
  | .remove => .cannotBeRemoved

/-- What the Docker driver comes to, if it comes to anything. -/
def dockerPlan (env : Env) (c : Container) (securityGroup : String) (change : Change) : Option Plan :=
  if c.addresses.isSome then
    some ⟨dockerEdit securityGroup change, (neutronPorts env c).map (·.id)⟩
  else none

/-- The ports of a container are all shown to the caller. -/
def AllShown (env : Env) (c : Container) : Prop :=
  ∀ p ∈ c.portIds, ∃ port ∈ env.ports, port.id = p ∧ port.shown = true

instance (env : Env) (c : Container) : Decidable (AllShown env c) :=
  inferInstanceAs (Decidable (∀ p ∈ c.portIds, ∃ port ∈ env.ports, port.id = p ∧ port.shown = true))

/-- What the CRI driver comes to. -/
def criPlan (env : Env) (c : Container) (securityGroup : String) (change : Change) : Option Plan :=
  if c.portIds = [] then none
  else
    match SecurityGroups.getSecurityGroupIds env.project (some [securityGroup]) with
    | .error _ => none
    | .ok groupIds =>
        if AllShown env c then
          some ⟨fun groups => .ok (editGroups change (groupIds.getD []) groups), portsOf env c⟩
        else none

def Driver.plan (env : Env) (c : Container) (securityGroup : String) (change : Change) : Driver → Option Plan
  | .docker => dockerPlan env c securityGroup change
  | .cri => criPlan env c securityGroup change

/-- What the plan edits can all be edited. -/
def Plan.Feasible (plan : Plan) (portGroups : PortId → List String) : Prop :=
  ∀ p ∈ plan.ports, ∃ groups, plan.edit (portGroups p) = .ok groups

/-- A driver carries its plan out, if it returns, and returns if nothing stands in its way. -/
def Carries (refuse : Refusals) (plan : Option Plan) (s : State) (r : Result Failure Unit)
    (w : Log State Call Failure) : Prop :=
  (∀ p, plan = some p → p.Feasible s.portGroups → Quiet refuse → r = .ok ()) ∧
    (r = .ok () → ∃ p, plan = some p ∧ Edited p.edit p.ports s.portGroups w.state.portGroups)

theorem not_carries_ok {plan : Option Plan} {s : State} {e : Failure} {w : Log State Call Failure}
    (h : ¬ Quiet refuse) : Carries refuse plan s (.raise e) w :=
  ⟨fun _ _ _ hquiet => absurd hquiet h, fun h => by cases h⟩

theorem neutronPorts_nodup : ((neutronPorts env c).map (·.id)).Nodup :=
  env.ids.sublist ((List.filter_sublist.trans List.filter_sublist).map _)

theorem carries_of_edits (plan : Plan) {s : State} {r : Result Failure Unit} {w : Log State Call Failure}
    (h : Edits (Quiet refuse ∧ plan.Feasible s.portGroups) plan.edit plan.ports s r w) :
    Carries refuse (some plan) s r w := by
  refine ⟨?_, fun hok => ⟨_, rfl, h.2 hok⟩⟩
  intro p hp hfeasible hquiet
  cases hp
  exact h.1 ⟨hquiet, hfeasible⟩

/-- One port of a listing. -/
theorem wp_editPort {badRequest : Failure} {p : PortId} {groups : List String} {w : Log State Call Failure}
    (hquiet : quiet → Quiet refuse ∧ ∃ groups', edit groups = .ok groups') (hw : w.state.portGroups p = groups) :
    wp (do
      let securityGroups ← lift (edit groups)
      tryExcept (updatePort refuse p securityGroups) fun e =>
        if e = .neutron 400 then raise badRequest else raise e) (Edits quiet edit [p] w.state) w := by
  rw [wp_bind]
  cases hedit : edit groups with
  | error e =>
      refine edits_raise fun h => ?_
      obtain ⟨groups', hgroups'⟩ := (hquiet h).2
      rw [hgroups'] at hedit
      cases hedit
  | ok groups' =>
      rw [lift, wp_pure, seqPost_ok, wp_tryExcept]
      refine wp_mono (wp_updatePort (fun h => (hquiet h).1) (hw ▸ hedit)) fun r w' hr => ?_
      cases r with
      | ok u => exact hr
      | halt => exact hr
      | raise e =>
          have hloud : ¬ quiet := fun h => by cases hr.1 h
          rw [exceptPost_raise, wp_ite]
          split
          · exact edits_raise hloud
          · exact edits_raise hloud

theorem wp_onListedPorts {badRequest : Failure} (hsome : c.addresses.isSome = true) (w : Log State Call Failure) :
    wp (onListedPorts env refuse c edit badRequest)
      (Carries refuse (some ⟨edit, (neutronPorts env c).map (·.id)⟩) w.state) w := by
  obtain ⟨addresses, haddresses⟩ := Option.isSome_iff_exists.mp hsome
  unfold onListedPorts
  rw [haddresses, wp_bind]
  refine wp_ask (fun w' hw' => ?_) fun e w' _ hloud => not_carries_ok hloud
  rw [← hw', seqPost_ok, wp_bind, wp_look, seqPost_ok]
  refine wp_mono (wp_forEach_edits neutronPorts_nodup (fun port hport w'' hw'' => ?_) w' fun _ _ => rfl)
    fun r w'' => carries_of_edits ⟨edit, (neutronPorts env c).map (·.id)⟩
  exact wp_editPort (fun h => ⟨h.1, h.2 port.id (List.mem_map_of_mem hport)⟩) hw''

theorem wp_dockerChange (change : Change) (w : Log State Call Failure) :
    wp (dockerChange env refuse c securityGroup change)
      (Carries refuse (dockerPlan env c securityGroup change) w.state) w := by
  have hchange : dockerChange env refuse c securityGroup change = (do
      ask refuse .dockerClient
      onListedPorts env refuse c (dockerEdit securityGroup change) change.badRequest) := by
    cases change with
    | add => rfl
    | remove => rfl
  rw [hchange, wp_bind]
  refine wp_ask (fun w' hw' => ?_) fun e w' _ hloud => not_carries_ok hloud
  rw [← hw', seqPost_ok]
  unfold dockerPlan
  cases haddresses : c.addresses with
  | none =>
      unfold onListedPorts
      rw [haddresses]
      exact ⟨fun _ h => (by cases h), fun h => by cases h⟩
  | some addresses => exact wp_onListedPorts (by rw [haddresses]; rfl) w'

theorem mem_portsOf {p : PortId} : p ∈ portsOf env c ↔ p ∈ c.portIds := by
  unfold portsOf
  rw [(env.portOrder_perm _).mem_iff, List.mem_dedup]

theorem portsOf_nodup : (portsOf env c).Nodup := (env.portOrder_perm _).nodup_iff.mpr (List.nodup_dedup _)

/-- A port that is shown is found, and no other one. -/
theorem wp_getNeutronPort {p : PortId} {w : Log State Call Failure}
    {Q : Result Failure Unit → Log State Call Failure → Prop}
    (hok : (∃ port ∈ env.ports, port.id = p ∧ port.shown = true) → ∀ w', w'.state = w.state → Q (.ok ()) w')
    (hraise : ∀ e w', ¬ (Quiet refuse ∧ ∃ port ∈ env.ports, port.id = p ∧ port.shown = true) → Q (.raise e) w') :
    wp (getNeutronPort env refuse p) Q w := by
  unfold getNeutronPort
  rw [wp_bind]
  refine wp_ask (fun w' hw' => ?_) fun e w' _ hloud => hraise e w' fun h => hloud h.1
  have hmem : ∀ port, port ∈ env.ports.filter (fun port => port.id = p ∧ port.shown = true) ↔
      port ∈ env.ports ∧ port.id = p ∧ port.shown = true := fun port => by
    rw [List.mem_filter, decide_eq_true_eq]
  have hnodup : ((env.ports.filter fun port => port.id = p ∧ port.shown = true).map (·.id)).Nodup :=
    env.ids.sublist (List.filter_sublist.map _)
  rw [seqPost_ok]
  cases hfound : env.ports.filter fun port => port.id = p ∧ port.shown = true with
  | nil =>
      refine hraise _ w' ?_
      rintro ⟨-, port, hport⟩
      exact List.not_mem_nil (hfound ▸ (hmem port).mpr hport)
  | cons port rest =>
      have hport := (hmem port).mp (hfound ▸ List.mem_cons_self ..)
      cases rest with
      | nil => exact hok ⟨port, hport⟩ w' hw'
      | cons port' rest =>
          have hport' := (hmem port').mp (hfound ▸ List.mem_cons_of_mem _ (List.mem_cons_self ..))
          rw [hfound, List.map_cons, List.map_cons, List.nodup_cons] at hnodup
          exact absurd (by rw [hport.2.1, hport'.2.1]; exact List.mem_cons_self ..) hnodup.1

theorem wp_changePort {change : Change} {groupIds : List String} {p : PortId} {w : Log State Call Failure}
    (hquiet : quiet → Quiet refuse ∧ ∃ port ∈ env.ports, port.id = p ∧ port.shown = true) :
    wp (changePort env refuse change groupIds p)
      (fun r w' => Edits quiet (fun groups => .ok (editGroups change groupIds groups)) [p] w.state r w' ∧
        (r = .ok () → ∃ port ∈ env.ports, port.id = p ∧ port.shown = true)) w := by
  unfold changePort
  rw [wp_bind]
  refine wp_getNeutronPort (fun hshown w' hw' => ?_) fun e w' hloud => ?_
  · rw [seqPost_ok, wp_bind, wp_look, seqPost_ok, ← hw']
    exact wp_mono (wp_updatePort (fun h => (hquiet h).1) rfl) fun r w'' hr => ⟨hr, fun _ => hshown⟩
  · exact ⟨edits_raise fun h => hloud (hquiet h), fun hok => by cases hok⟩

/-- The loop of the CRI driver. -/
theorem wp_changePorts {change : Change} {groupIds : List String} {l : List PortId} (hl : ∀ p, p ∈ l ↔ p ∈ c.portIds)
    (hnodup : l.Nodup) (w : Log State Call Failure) :
    wp (forEach l (changePort env refuse change groupIds))
      (Carries refuse (if AllShown env c then
        some ⟨fun groups => .ok (editGroups change groupIds groups), l⟩ else none) w.state) w := by
  have hquiet : ∀ p ∈ l, Quiet refuse ∧ AllShown env c →
      Quiet refuse ∧ ∃ port ∈ env.ports, port.id = p ∧ port.shown = true :=
    fun p hp h => ⟨h.1, h.2 p ((hl p).mp hp)⟩
  have hedits : wp (forEach l (changePort env refuse change groupIds))
      (Edits (Quiet refuse ∧ AllShown env c) (fun groups => .ok (editGroups change groupIds groups)) (l.map id)
        w.state) w :=
    wp_forEach_edits (l.map_id.symm ▸ hnodup)
      (fun p hp w' _ => wp_mono (wp_changePort (hquiet p hp)) fun r w'' hr => hr.1) w fun _ _ => rfl
  have hshown : wp (forEach l (changePort env refuse change groupIds))
      (fun r _ => r = .ok () → ∀ p ∈ l, ∃ port ∈ env.ports, port.id = p ∧ port.shown = true) w :=
    wp_forEach_each (fun p hp w' => wp_mono (wp_changePort (hquiet p hp)) fun r w'' hr => hr.2)
      (fun _ _ _ _ h => h) w
  rw [l.map_id] at hedits
  refine wp_mono (wp_and hedits hshown) fun r w' hr => ?_
  by_cases hall : AllShown env c
  · rw [if_pos hall]
    exact carries_of_edits ⟨_, l⟩ ⟨fun h => hr.1.1 ⟨h.1, hall⟩, hr.1.2⟩
  · rw [if_neg hall]
    refine ⟨fun _ h => (by cases h), fun hok => ?_⟩
    exact absurd (fun p hp => hr.2 hok p ((hl p).mpr hp)) hall

theorem wp_criChange (change : Change) (w : Log State Call Failure) :
    wp (criChange env refuse c securityGroup change)
      (Carries refuse (criPlan env c securityGroup change) w.state) w := by
  unfold criChange criPlan
  cases hports : portsOf env c with
  | nil =>
      have hnil : c.portIds = [] :=
        List.eq_nil_iff_forall_not_mem.mpr fun p hp => List.not_mem_nil (hports ▸ mem_portsOf.mpr hp)
      rw [if_pos hnil]
      exact ⟨fun _ h => (by cases h), fun h => by cases h⟩
  | cons p ps =>
      have hcons : c.portIds ≠ [] := by
        intro hnil
        have hp : p ∈ c.portIds := mem_portsOf.mp (hports ▸ List.mem_cons_self ..)
        rw [hnil] at hp
        exact List.not_mem_nil hp
      rw [if_neg hcons, wp_bind]
      refine wp_ask (fun w' hw' => ?_) fun e w' _ hloud => not_carries_ok hloud
      rw [seqPost_ok, wp_bind, ← hw']
      cases SecurityGroups.getSecurityGroupIds env.project (some [securityGroup]) with
      | error e => exact ⟨fun _ h => (by cases h), fun h => by cases h⟩
      | ok groupIds =>
          refine wp_changePorts (fun q => ?_) (hports ▸ portsOf_nodup) w'
          rw [← hports]
          exact mem_portsOf

theorem wp_driver (driver : Driver) (change : Change) (w : Log State Call Failure) :
    wp (driver.run env refuse c securityGroup change)
      (Carries refuse (driver.plan env c securityGroup change) w.state) w := by
  cases driver with
  | docker => exact wp_dockerChange change w
  | cri => exact wp_criChange change w

/-! ## The record -/

/-- Neither the object nor the record has changed. -/
def Aside (w w' : Log State Call Failure) : Prop :=
  w'.state.securityGroups = w.state.securityGroups ∧ w'.state.record = w.state.record

instance : IsPreorder (Log State Call Failure) Aside where
  refl _ := ⟨rfl, rfl⟩
  trans _ _ _ h h' := ⟨h'.1.trans h.1, h'.2.trans h.2⟩

theorem aside_consult {call : Call} {effect : State → State}
    (h : ∀ s, (effect s).securityGroups = s.securityGroups ∧ (effect s).record = s.record) :
    Within Aside (consult refuse call effect) := by
  intro w
  cases hrefuse : refuse w.log.length call with
  | none =>
      rw [consult_none hrefuse]
      exact h w.state
  | some e =>
      rw [consult_some hrefuse]
      exact ⟨rfl, rfl⟩

theorem aside_ask (call : Call) : Within Aside (ask refuse call) := aside_consult fun _ => ⟨rfl, rfl⟩

theorem aside_updatePort (p : PortId) (securityGroups : List String) :
    Within Aside (updatePort refuse p securityGroups) := aside_consult fun _ => ⟨rfl, rfl⟩

theorem aside_lift {α : Type} (x : Except Failure α) : Within Aside (lift x) := by
  cases x with
  | ok a => exact within_pure a
  | error e => exact within_raise e

theorem aside_onListedPorts (badRequest : Failure) : Within Aside (onListedPorts env refuse c edit badRequest) := by
  unfold onListedPorts
  cases c.addresses with
  | none => exact within_raise _
  | some addresses =>
      refine (aside_ask _).bind fun _ => Within.bind (within_read _) fun portGroups => ?_
      refine within_forEach fun port _ => (aside_lift _).bind fun groups => ?_
      exact (aside_updatePort _ _).tryExcept fun e => within_ite (within_raise _) (within_raise _)

theorem aside_getNeutronPort (p : PortId) : Within Aside (getNeutronPort env refuse p) := by
  refine (aside_ask _).bind fun _ => ?_
  split
  · exact within_raise _
  · exact within_pure _
  · exact within_raise _

theorem aside_driver (driver : Driver) (change : Change) :
    Within Aside (driver.run env refuse c securityGroup change) := by
  cases driver with
  | docker =>
      cases change with
      | add => exact (aside_ask _).bind fun _ => aside_onListedPorts _
      | remove => exact (aside_ask _).bind fun _ => aside_onListedPorts _
  | cri =>
      change Within Aside (criChange env refuse c securityGroup change)
      unfold criChange
      cases portsOf env c with
      | nil => exact within_raise _
      | cons p ps =>
          refine (aside_ask _).bind fun _ => (aside_lift _).bind fun groupIds => within_forEach fun q _ => ?_
          refine (aside_getNeutronPort q).bind fun _ => Within.bind (within_read _) fun groups => ?_
          exact aside_updatePort _ _

/-! ## The manager -/

/-- What becomes of the list of a record. -/
def Change.updated (env : Env) (securityGroup : String) : Change → List String → List String
  | .add => fun securityGroups => securityGroups ++ [securityGroup]
  | .remove => fun securityGroups => env.groupOrder (securityGroups.dedup.filter (· ≠ securityGroup))

/-- The driver's part of a change and the record's. -/
def changeBoth (refuse : Refusals) (driver : Run Unit) (update : List String → List String) : Run Unit := do
  driver
  match ← look (·.securityGroups) with
  | none => raise .typeError
  | some securityGroups => do
      change fun s => { s with securityGroups := some (update securityGroups) }
      save refuse

theorem manager_eq (driver : Driver) (change : Change) : manager env refuse c securityGroup driver change =
    updateTaskState refuse c (changeBoth refuse (driver.run env refuse c securityGroup change)
      (change.updated env securityGroup)) := by
  cases change with
  | add => rfl
  | remove => rfl

/-- A plan has been carried out, and the record says so. -/
structure Done (plan : Option Plan) (update : List String → List String) (s s' : State) : Prop where
  ports : ∃ p, plan = some p ∧ Edited p.edit p.ports s.portGroups s'.portGroups
  record : ∃ l, s.record = some l ∧ s'.record = some (update l) ∧ s'.securityGroups = some (update l)

def Ends (refuse : Refusals) (plan : Option Plan) (update : List String → List String) (s : State)
    (r : Result Failure Unit) (w : Log State Call Failure) : Prop :=
  (∀ p, plan = some p → p.Feasible s.portGroups → s.record ≠ none → Quiet refuse → r = .ok ()) ∧
    (r = .ok () → Done plan update s w.state)

variable {plan : Option Plan} {update : List String → List String} {driver : Run Unit}

theorem wp_save {w : Log State Call Failure} {Q : Result Failure Unit → Log State Call Failure → Prop}
    (hok : ∀ log, Q (.ok ()) ⟨{ w.state with record := w.state.securityGroups }, log⟩)
    (hraise : ∀ e log, ¬ Quiet refuse → Q (.raise e) ⟨w.state, log⟩) : wp (save refuse) Q w := by
  unfold save
  cases hrefuse : refuse w.log.length .save with
  | none => exact wp_of_run (consult_none hrefuse) (hok _)
  | some e =>
      refine wp_of_run (consult_some hrefuse) (hraise e _ fun hquiet => ?_)
      rw [hquiet] at hrefuse
      cases hrefuse

theorem not_ends_ok {s : State} {r : Result Failure Unit} {w : Log State Call Failure} (hr : r ≠ .ok ())
    (h : ∀ p, plan = some p → p.Feasible s.portGroups → s.record ≠ none → ¬ Quiet refuse) :
    Ends refuse plan update s r w :=
  ⟨fun p hp hf hs hquiet => absurd hquiet (h p hp hf hs), fun hok => absurd hok hr⟩

theorem wp_changeBoth (hdriver : ∀ w, wp driver (Carries refuse plan w.state) w) (hside : Within Aside driver)
    {w : Log State Call Failure} (hfresh : w.state.securityGroups = w.state.record) :
    wp (changeBoth refuse driver update) (Ends refuse plan update w.state) w := by
  unfold changeBoth
  rw [wp_bind]
  refine wp_mono (wp_and (hdriver w) (hside.wp w)) fun r w' hr => ?_
  obtain ⟨⟨hquiet, hcarried⟩, hgroups, hrecord⟩ := hr
  cases r with
  | raise e =>
      exact not_ends_ok (fun h => by cases h) fun p hp hf _ hq => by cases hquiet p hp hf hq
  | halt =>
      exact not_ends_ok (fun h => by cases h) fun p hp hf _ hq => by cases hquiet p hp hf hq
  | ok u =>
      rw [seqPost_ok, wp_bind, wp_look, seqPost_ok, hgroups, hfresh]
      cases hl : w.state.record with
      | none => exact not_ends_ok (fun h => by cases h) fun _ _ _ hs => absurd hl hs
      | some l =>
          show wp (Prog.change _ >>= fun _ => save refuse) _ w'
          rw [wp_bind, wp_change, seqPost_ok]
          refine wp_save (fun log => ⟨fun _ _ _ _ _ => rfl, fun _ => ?_⟩) fun e log hloud => ?_
          · exact ⟨hcarried rfl, l, hl, rfl, rfl⟩
          · exact not_ends_ok (fun h => by cases h) fun _ _ _ _ => hloud

theorem wp_updateTaskState {body : Run Unit} {s : State} (hfresh : s.securityGroups = s.record)
    (hbody : ∀ log, wp body (Ends refuse plan update s) ⟨s, log⟩) :
    wp (updateTaskState refuse c body) (Ends refuse plan update s) ⟨s, []⟩ := by
  have hsaved : ({ s with record := s.securityGroups } : State) = s := by
    cases s
    cases hfresh
    rfl
  unfold updateTaskState
  cases c.taskState.isSome with
  | true => exact hbody []
  | false =>
      rw [if_neg Bool.false_ne_true, wp_bind]
      refine wp_save (fun log => ?_) fun e log hloud => not_ends_ok (fun h => by cases h) fun _ _ _ _ => hloud
      rw [seqPost_ok, wp_tryFinally]
      change wp body _ ⟨{ s with record := s.securityGroups }, log⟩
      rw [hsaved]
      refine wp_mono (hbody log) fun r w hr => ?_
      cases r with
      | halt => exact hr
      | raise e =>
          have hloud := fun p hp hf hs hq => (by cases hr.1 p hp hf hs hq : False)
          rw [finallyPost_raise]
          refine wp_save (fun log => ?_) fun e log _ => ?_
          · exact not_ends_ok (fun h => by cases h) hloud
          · exact not_ends_ok (fun h => by cases h) hloud
      | ok u =>
          obtain ⟨hports, l, hl, -, hgroups⟩ := hr.2 rfl
          rw [finallyPost_ok]
          refine wp_save (fun log => ⟨fun _ _ _ _ _ => rfl, fun _ => ⟨hports, l, hl, hgroups, hgroups⟩⟩)
            fun e log hloud => ?_
          exact not_ends_ok (fun h => by cases h) fun _ _ _ _ => hloud

/-- How a change ends. -/
theorem ends_manager (driver : Driver) (change : Change) {s : State} (hfresh : s.securityGroups = s.record) :
    wp (manager env refuse c securityGroup driver change)
      (Ends refuse (driver.plan env c securityGroup change) (change.updated env securityGroup) s) ⟨s, []⟩ := by
  rw [manager_eq]
  refine wp_updateTaskState hfresh fun log => ?_
  exact wp_changeBoth (w := ⟨s, log⟩) (wp_driver driver change) (aside_driver driver change) hfresh

/-- A driver that raises leaves both as they are. -/
theorem wp_changeBoth_kept (hside : Within Aside driver) {w : Log State Call Failure} {e : Failure}
    (hraise : (driver w).1 = .raise e) {Q : Result Failure Unit → Log State Call Failure → Prop}
    (hQ : ∀ w', Aside w w' → Q (.raise e) w') : wp (changeBoth refuse driver update) Q w := by
  unfold changeBoth
  rw [wp_bind]
  have hrun : driver w = (.raise e, (driver w).2) := Prod.ext hraise rfl
  exact wp_of_run hrun (hQ _ (hside.wp w))

theorem kept_manager (driver : Driver) (change : Change) {s : State} (hfresh : s.securityGroups = s.record)
    {e : Failure} (hraise : (driver.run env refuse c securityGroup change (begun refuse c s)).1 = .raise e) :
    (manager env refuse c securityGroup driver change ⟨s, []⟩).2.state.record = s.record := by
  rw [manager_eq]
  have hside : Within Aside (driver.run env refuse c securityGroup change) := aside_driver driver change
  have hsaved : ({ s with record := s.securityGroups } : State) = s := by
    cases s
    cases hfresh
    rfl
  show wp (updateTaskState refuse c _) (fun _ (w : Log State Call Failure) => w.state.record = s.record) ⟨s, []⟩
  unfold begun at hraise
  unfold updateTaskState
  cases htask : c.taskState.isSome with
  | true =>
      rw [htask] at hraise
      exact wp_changeBoth_kept hside hraise fun w' hw' => hw'.2
  | false =>
      rw [htask, if_neg Bool.false_ne_true] at hraise
      rw [if_neg Bool.false_ne_true, wp_bind]
      unfold save at hraise ⊢
      cases hrefuse : refuse 0 .save with
      | some e' => exact wp_of_run (consult_some hrefuse) rfl
      | none =>
          refine wp_of_run (consult_none hrefuse) ?_
          rw [consult_none hrefuse] at hraise
          rw [seqPost_ok, wp_tryFinally]
          refine wp_changeBoth_kept hside hraise fun w' hw' => ?_
          rw [finallyPost_raise]
          have hgroups : w'.state.securityGroups = s.record := hw'.1.trans hfresh
          have hrecord : w'.state.record = s.record := hw'.2.trans hfresh
          exact wp_save (fun log => hgroups) fun e' log _ => hrecord

/-! ## What a plan comes to -/

theorem mem_updated {change : Change} {securityGroups : List String} {x : String} :
    x ∈ change.updated env securityGroup securityGroups ↔ change.keeps securityGroup securityGroups x := by
  cases change with
  | add => simp [Change.updated, Change.keeps]
  | remove =>
      unfold Change.updated Change.keeps
      rw [(env.groupOrder_perm _).mem_iff, List.mem_filter, List.mem_dedup, decide_eq_true_eq]

/-- What a port has after a plan. -/
def Plan.Outcome (plan : Plan) (p : PortId) (before after : List String) : Prop :=
  if p ∈ plan.ports then plan.edit before = .ok after else after = before

theorem Plan.outcome_inside {plan : Plan} {p : PortId} {before after : List String} (hp : p ∈ plan.ports)
    (h : plan.edit before = .ok after) : plan.Outcome p before after := by
  unfold Plan.Outcome
  rwa [if_pos hp]

theorem Plan.outcome_outside {plan : Plan} {p : PortId} {before : List String} (hp : p ∉ plan.ports) :
    plan.Outcome p before before := by
  unfold Plan.Outcome
  rw [if_neg hp]

theorem Edited.outcome {plan : Plan} {f f' : PortId → List String} (h : Edited plan.edit plan.ports f f')
    (p : PortId) : plan.Outcome p (f p) (f' p) := by
  unfold Plan.Outcome
  split
  · exact h.inside p ‹_›
  · exact h.outside p ‹_›

theorem Plan.Outcome.unique {plan : Plan} {p : PortId} {before after after' : List String}
    (h : plan.Outcome p before after) (h' : plan.Outcome p before after') : after = after' := by
  unfold Plan.Outcome at h h'
  split at h
  · rw [if_pos ‹_›, h] at h'
    exact Except.ok.inj h'
  · rw [if_neg ‹_›] at h'
    rw [h, h']

/-- Every way in which a change goes is right if the plan is right for every port that exists. -/
theorem meets_iff (driver : Driver) (change : Change) (portGroups : PortId → List String)
    (record : Option (List String)) :
    (∀ refuse, Meets env refuse c securityGroup driver change (.fresh portGroups record)) ↔
      ∀ p, driver.plan env c securityGroup change = some p → p.Feasible portGroups → record ≠ none →
        ∀ port ∈ env.ports, port.id ∈ c.portIds → ∀ after, p.Outcome port.id (portGroups port.id) after →
          Changed securityGroup change (portGroups port.id) after := by
  have hends : ∀ refuse, Ends refuse (driver.plan env c securityGroup change) (change.updated env securityGroup)
      (.fresh portGroups record) (manager env refuse c securityGroup driver change ⟨.fresh portGroups record, []⟩).1
      (manager env refuse c securityGroup driver change ⟨.fresh portGroups record, []⟩).2 :=
    fun refuse => ends_manager driver change rfl
  constructor
  · intro h p hp hfeasible hrecord port hport hmem after hafter
    have hquiet := hends (fun _ _ => none)
    have hok := hquiet.1 p hp hfeasible hrecord fun _ _ => rfl
    obtain ⟨p', hp', hedited⟩ := (hquiet.2 hok).ports
    obtain rfl : p = p' := Option.some.inj (hp.symm.trans hp')
    rw [hafter.unique (hedited.outcome port.id)]
    exact (h fun _ _ => none).ports hok port hport hmem
  · intro h refuse
    refine ⟨fun hok port hport hmem => ?_, fun hok => ?_, fun e he => kept_manager driver change rfl he⟩
    · obtain ⟨⟨p, hp, hedited⟩, l, hl, -⟩ := (hends refuse).2 hok
      have hsome : record ≠ none := fun hnone => by cases hnone.symm.trans hl
      exact h p hp (fun q hq => ⟨_, hedited.inside q hq⟩) hsome port hport hmem _ (hedited.outcome port.id)
    · obtain ⟨l, hl, hrecord, -⟩ := ((hends refuse).2 hok).record
      exact ⟨l, _, hl, hrecord, fun x => mem_updated⟩

/-! ## When a change is right -/

/-- A change through Docker that only an exception from outside keeps from succeeding. -/
structure DockerComes (env : Env) (c : Container) (securityGroup : String) (change : Change)
    (portGroups : PortId → List String) (record : Option (List String)) : Prop where
  addresses : c.addresses ≠ none
  record : record ≠ none
  present : change = .remove → ∀ port ∈ neutronPorts env c, securityGroup ∈ portGroups port.id

/-- A port of the caller's project must not have the group yet, or have it once; what another port has must be
right already. -/
def DockerFits (env : Env) (securityGroup : String) (port : Port) (groups : List String) : Change → Prop
  | .add => if port ∈ env.listPorts then securityGroup ∉ groups else groups.count securityGroup = 1
  | .remove => if port ∈ env.listPorts then groups.count securityGroup = 1 else securityGroup ∉ groups

/-- The same for a change through CRI. -/
structure CriComes (env : Env) (c : Container) (securityGroup : String) (record : Option (List String))
    (groupIds : List String) : Prop where
  ports : c.portIds ≠ []
  resolved : SecurityGroups.getSecurityGroupIds env.project (some [securityGroup]) = .ok (some groupIds)
  shown : AllShown env c
  record : record ≠ none

/-- What else the group resolves to makes no difference to the port, and the group is on it once or not at all. -/
def CriFits (securityGroup : String) (groupIds groups : List String) : Change → Prop
  | .add => (∀ id ∈ groupIds, id ≠ securityGroup → id ∈ groups) ∧
      (groups.count securityGroup = 1 ∨ securityGroup ∈ groupIds ∧ securityGroup ∉ groups)
  | .remove => (∀ id ∈ groupIds, id ≠ securityGroup → id ∉ groups) ∧
      (securityGroup ∉ groups ∨ securityGroup ∈ groupIds ∧ groups.count securityGroup = 1)

/-- Every port that exists is one on which the change can be right. -/
def Fits (env : Env) (c : Container) (securityGroup : String) (change : Change) (portGroups : PortId → List String)
    (record : Option (List String)) : Driver → Prop
  | .docker => DockerComes env c securityGroup change portGroups record →
      ∀ port ∈ env.ports, port.id ∈ c.portIds → DockerFits env securityGroup port (portGroups port.id) change
  | .cri => ∀ groupIds, CriComes env c securityGroup record groupIds →
      ∀ port ∈ env.ports, port.id ∈ c.portIds → CriFits securityGroup groupIds (portGroups port.id) change

/-! ### One port -/

section OnePort

variable {groups : List String}

theorem changed_self {change : Change} :
    Changed securityGroup change groups groups ↔ groups.count securityGroup = change.times :=
  ⟨fun h => h.group, fun h => ⟨h, fun _ _ => rfl⟩⟩

theorem changed_append : Changed securityGroup .add groups (groups ++ [securityGroup]) ↔ securityGroup ∉ groups := by
  constructor
  · intro h
    have hone := h.group
    rw [List.count_append, List.count_singleton_self] at hone
    exact List.count_eq_zero.mp (Nat.add_right_cancel hone)
  · intro h
    refine ⟨?_, fun x hx => ?_⟩
    · rw [List.count_append, List.count_singleton_self, List.count_eq_zero.mpr h]
      rfl
    · rw [List.count_append, List.count_singleton, if_neg (by simpa using hx.symm)]
      rfl

theorem changed_erase (hmem : securityGroup ∈ groups) :
    Changed securityGroup .remove groups (groups.erase securityGroup) ↔ groups.count securityGroup = 1 := by
  have hpos := List.count_pos_iff.mpr hmem
  constructor
  · intro h
    have hnone := h.group
    rw [List.count_erase_self] at hnone
    change groups.count securityGroup - 1 = 0 at hnone
    omega
  · intro h
    refine ⟨?_, fun x hx => List.count_erase_of_ne hx⟩
    rw [List.count_erase_self, h]
    rfl

theorem count_add (groupIds : List String) (x : String) : ∀ groups : List String,
    (editGroups .add groupIds groups).count x = if x ∈ groupIds ∧ x ∉ groups then 1 else groups.count x := by
  induction groupIds with
  | nil => simp [editGroups]
  | cons id ids ih =>
      intro groups
      change (editGroups .add ids (if id ∈ groups then groups else groups ++ [id])).count x = _
      rw [ih]
      by_cases hid : id ∈ groups
      · rw [if_pos hid]
        grind
      · rw [if_neg hid]
        by_cases hx : x = id
        · subst hx
          have hzero := List.count_eq_zero.mpr hid
          simp [hid, hzero]
        · have hcount : (groups ++ [id]).count x = groups.count x := by
            rw [List.count_append, List.count_singleton, if_neg (by simpa using Ne.symm hx)]
            rfl
          simp [hx, hcount]

theorem count_remove (x : String) : ∀ {groupIds : List String}, groupIds.Nodup → ∀ groups : List String,
    (editGroups .remove groupIds groups).count x = if x ∈ groupIds then groups.count x - 1 else groups.count x
  | [], _, groups => by simp [editGroups]
  | id :: ids, hnodup, groups => by
      obtain ⟨hid, hnodup⟩ := List.nodup_cons.mp hnodup
      have hstep : (if id ∈ groups then groups.erase id else groups) = groups.erase id := by
        split
        · rfl
        · exact (List.erase_of_not_mem ‹_›).symm
      change (editGroups .remove ids (if id ∈ groups then groups.erase id else groups)).count x = _
      rw [hstep, count_remove x hnodup]
      by_cases hx : x = id
      · subst hx
        rw [if_neg hid, if_pos (List.mem_cons_self ..), List.count_erase_self]
      · have hmem : x ∈ id :: ids ↔ x ∈ ids := by simp [hx]
        rw [List.count_erase_of_ne hx]
        simp only [hmem]

theorem changed_add {groupIds : List String} :
    Changed securityGroup .add groups (editGroups .add groupIds groups) ↔
      CriFits securityGroup groupIds groups .add := by
  constructor
  · intro h
    refine ⟨fun id hid hne => ?_, ?_⟩
    · by_contra hnot
      have hothers := h.others id hne
      rw [count_add, if_pos ⟨hid, hnot⟩, List.count_eq_zero.mpr hnot] at hothers
      cases hothers
    · have hgroup := h.group
      rw [count_add] at hgroup
      split at hgroup
      · exact .inr ‹_›
      · exact .inl hgroup
  · rintro ⟨hothers, hgroup⟩
    refine ⟨?_, fun x hx => ?_⟩
    · rw [count_add]
      split
      · rfl
      · exact hgroup.resolve_right ‹_›
    · rw [count_add, if_neg fun h => h.2 (hothers x h.1 hx)]

theorem changed_remove {groupIds : List String} (hnodup : groupIds.Nodup) :
    Changed securityGroup .remove groups (editGroups .remove groupIds groups) ↔
      CriFits securityGroup groupIds groups .remove := by
  constructor
  · intro h
    refine ⟨fun id hid hne hmem => ?_, ?_⟩
    · have hothers := h.others id hne
      rw [count_remove id hnodup, if_pos hid] at hothers
      have hpos := List.count_pos_iff.mpr hmem
      omega
    · have hgroup := h.group
      rw [count_remove _ hnodup] at hgroup
      change (if securityGroup ∈ groupIds then _ else _) = 0 at hgroup
      by_cases hmem : securityGroup ∈ groups
      · have hpos := List.count_pos_iff.mpr hmem
        split at hgroup
        · exact .inr ⟨‹_›, by omega⟩
        · omega
      · exact .inl hmem
  · rintro ⟨hothers, hgroup⟩
    refine ⟨?_, fun x hx => ?_⟩
    · rw [count_remove _ hnodup]
      change (if securityGroup ∈ groupIds then _ else _) = 0
      rcases hgroup with hnot | ⟨hid, hone⟩
      · rw [List.count_eq_zero.mpr hnot, ite_self]
      · rw [if_pos hid, hone]
    · rw [count_remove x hnodup]
      split
      · rw [List.count_eq_zero.mpr (hothers x ‹_› hx)]
      · rfl

end OnePort

/-! ### The drivers -/

theorem mem_neutronPorts_map {port : Port} (hport : port ∈ env.ports) (hmem : port.id ∈ c.portIds) :
    port.id ∈ (neutronPorts env c).map (·.id) ↔ port ∈ env.listPorts := by
  constructor
  · intro h
    obtain ⟨port', hport', hid⟩ := List.mem_map.mp h
    have hlisted := List.mem_of_mem_filter hport'
    rwa [List.inj_on_of_nodup_map env.ids (List.mem_of_mem_filter hlisted) hport hid] at hlisted
  · intro h
    exact List.mem_map_of_mem (List.mem_filter.mpr ⟨h, decide_eq_true hmem⟩)

/-- What a plan does to a port is one thing. -/
theorem forall_outcome {plan : Plan} {p : PortId} {before after : List String} {P : List String → Prop}
    (h : plan.Outcome p before after) : (∀ after, plan.Outcome p before after → P after) ↔ P after :=
  ⟨fun hall => hall after h, fun hP _ h' => h.unique h' ▸ hP⟩

/-- What kuryr does to a port. -/
theorem docker_port {change : Change} {port : Port} {groups : List String} (hport : port ∈ env.ports)
    (hmem : port.id ∈ c.portIds)
    (hpresent : change = .remove → port ∈ env.listPorts → securityGroup ∈ groups) :
    (∀ after, Plan.Outcome ⟨dockerEdit securityGroup change, (neutronPorts env c).map (·.id)⟩ port.id groups after →
      Changed securityGroup change groups after) ↔ DockerFits env securityGroup port groups change := by
  by_cases hlisted : port ∈ env.listPorts
  · have hin := (mem_neutronPorts_map hport hmem).mpr hlisted
    cases change with
    | add =>
        have hedit : dockerEdit securityGroup .add groups = .ok (groups ++ [securityGroup]) := rfl
        rw [forall_outcome (Plan.outcome_inside hin hedit), changed_append, DockerFits, if_pos hlisted]
    | remove =>
        have hgroup := hpresent rfl hlisted
        have hedit : dockerEdit securityGroup .remove groups = .ok (groups.erase securityGroup) := if_pos hgroup
        rw [forall_outcome (Plan.outcome_inside hin hedit), changed_erase hgroup, DockerFits, if_pos hlisted]
  · have hout : port.id ∉ (neutronPorts env c).map (·.id) := fun h =>
      hlisted ((mem_neutronPorts_map hport hmem).mp h)
    rw [forall_outcome (Plan.outcome_outside hout), changed_self]
    cases change with
    | add => rw [DockerFits, if_neg hlisted]; rfl
    | remove =>
        rw [DockerFits, if_neg hlisted]
        exact List.count_eq_zero

theorem docker_iff {change : Change} {portGroups : PortId → List String} {record : Option (List String)} :
    (∀ p, dockerPlan env c securityGroup change = some p → p.Feasible portGroups → record ≠ none →
      ∀ port ∈ env.ports, port.id ∈ c.portIds → ∀ after, p.Outcome port.id (portGroups port.id) after →
        Changed securityGroup change (portGroups port.id) after) ↔
      Fits env c securityGroup change portGroups record .docker := by
  unfold dockerPlan
  constructor
  · intro h hcomes port hport hmem
    have hlisted : port ∈ env.listPorts → port ∈ neutronPorts env c := fun hlisted =>
      List.mem_filter.mpr ⟨hlisted, decide_eq_true hmem⟩
    rw [← docker_port hport hmem fun hremove hl => hcomes.present hremove port (hlisted hl)]
    refine h _ (if_pos (Option.isSome_iff_ne_none.mpr hcomes.addresses)) ?_ hcomes.record port hport hmem
    intro p hp
    obtain ⟨port', hport', rfl⟩ := List.mem_map.mp hp
    cases change with
    | add => exact ⟨_, rfl⟩
    | remove => exact ⟨_, if_pos (hcomes.present rfl port' hport')⟩
  · intro h p hp hfeasible hrecord port hport hmem
    split at hp
    · obtain rfl := Option.some.inj hp
      have hpresent : change = .remove → ∀ port ∈ neutronPorts env c, securityGroup ∈ portGroups port.id := by
        rintro rfl port' hport'
        obtain ⟨groups, hgroups⟩ := hfeasible port'.id (List.mem_map_of_mem hport')
        by_contra hnot
        change (if securityGroup ∈ portGroups port'.id then _ else _) = _ at hgroups
        rw [if_neg hnot] at hgroups
        cases hgroups
      rw [docker_port hport hmem fun hremove hlisted =>
        hpresent hremove port (List.mem_filter.mpr ⟨hlisted, decide_eq_true hmem⟩)]
      exact h ⟨Option.isSome_iff_ne_none.mp ‹_›, hrecord, hpresent⟩ port hport hmem
    · cases hp

theorem cri_port (env : Env) {change : Change} {groupIds groups : List String} {p : PortId} (hp : p ∈ c.portIds)
    (hnodup : groupIds.Nodup) :
    (∀ after, Plan.Outcome ⟨fun groups => .ok (editGroups change groupIds groups), portsOf env c⟩ p groups after →
      Changed securityGroup change groups after) ↔ CriFits securityGroup groupIds groups change := by
  rw [forall_outcome (Plan.outcome_inside (mem_portsOf.mpr hp) rfl)]
  cases change with
  | add => exact changed_add
  | remove => exact changed_remove hnodup

theorem cri_iff {change : Change} {portGroups : PortId → List String} {record : Option (List String)} :
    (∀ p, criPlan env c securityGroup change = some p → p.Feasible portGroups → record ≠ none →
      ∀ port ∈ env.ports, port.id ∈ c.portIds → ∀ after, p.Outcome port.id (portGroups port.id) after →
        Changed securityGroup change (portGroups port.id) after) ↔
      Fits env c securityGroup change portGroups record .cri := by
  unfold criPlan
  constructor
  · intro h groupIds hcomes port hport hmem
    rw [if_neg hcomes.ports, hcomes.resolved] at h
    refine (cri_port env hmem (SecurityGroups.ids_nodup hcomes.resolved)).mp ?_
    exact h _ (if_pos hcomes.shown) (fun q _ => ⟨_, rfl⟩) hcomes.record port hport hmem
  · intro h p hp hfeasible hrecord port hport hmem
    split at hp
    · cases hp
    · cases hresolved : SecurityGroups.getSecurityGroupIds env.project (some [securityGroup]) with
      | error e =>
          rw [hresolved] at hp
          cases hp
      | ok resolved =>
          obtain ⟨groupIds, rfl⟩ := SecurityGroups.exists_ids hresolved
          rw [hresolved] at hp
          change (if AllShown env c then _ else _) = _ at hp
          split at hp
          · obtain rfl := Option.some.inj hp
            exact (cri_port env hmem (SecurityGroups.ids_nodup hresolved)).mpr
              (h groupIds ⟨‹_›, hresolved, ‹_›, hrecord⟩ port hport hmem)
          · cases hp

/-- A change is right in every way it can go if and only if the ports are such that it can be. -/
theorem changes_iff (env : Env) (c : Container) (securityGroup : String) (driver : Driver) (change : Change)
    (portGroups : PortId → List String) (record : Option (List String)) :
    (∀ refuse, Meets env refuse c securityGroup driver change (.fresh portGroups record)) ↔
      Fits env c securityGroup change portGroups record driver := by
  rw [meets_iff]
  cases driver with
  | docker => exact docker_iff
  | cri => exact cri_iff

/-! ## An administrator's change -/

namespace Administered

/-- A port of a tenant, shown to an administrator of another project. -/
def world : Env where
  projectId := "admin"
  ports := [{ id := 1, tenantId := "tenant" }]
  ids := List.nodup_singleton 1
  project := ⟨[⟨"web", "web-servers"⟩], List.nodup_singleton "web"⟩

def container : Container where
  addresses := some [(7, [{ addr := "10.0.0.2", port := 1, preserveOnDelete := false }])]

end Administered

/-- The change succeeds and the record has the group, which is on no port. -/
theorem not_meets : ¬ Meets Administered.world (fun _ _ => none) Administered.container "web" .docker .add
    (.fresh (fun _ => []) (some [])) := by
  intro h
  have hgroup := (h.ports rfl ⟨1, "tenant", true⟩ (List.mem_singleton_self _) (List.mem_singleton_self _)).group
  change (0 : Nat) = 1 at hgroup
  cases hgroup

end GroupChanges

end Zun
