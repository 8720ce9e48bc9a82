import Zun.Effect.Traced
import Zun.Network.Neutron

/-!
# What a delete leaves behind

`DockerDriver.delete` with the network driver and `delete_or_unbind_ports` under it, over what docker and Neutron
have at the time: the container, the networks it is connected to, and its ports.  The networks are left one after
the other, and the first error of docker's ends that.  An error whose text has a 404 in it, or says that the
container is not connected, is then taken for a delete that was done before.
-/

namespace Zun

open Effect Prog

namespace DockerDelete

/-! ## The model -/

abbrev ContainerId := String

structure DockerContainer where
  running : Bool
  /-- The networks that it is connected to. -/
  networks : List NetId
deriving DecidableEq

/-- A port in Neutron. -/
structure Port where
  deviceId : String
  deviceOwner : String
  bindingHost : Option Host
  bindingProfile : List (String × String) := []
deriving DecidableEq

structure State where
  containers : ContainerId → Option DockerContainer
  /-- The networks that docker has. -/
  networks : NetId → Bool
  ports : PortId → Option Port

/-- The record. -/
structure Container where
  containerId : Option ContainerId
  addresses : List (NetId × List Addr)
  nets : (addresses.map (·.1)).Nodup

inductive Call where
  | dockerClient
  | networkDriver
  | disconnect (id : ContainerId) (net : NetId)
  | removeContainer (id : ContainerId)
  | deletePort (p : PortId)
  | listPorts (p : PortId)
  | updatePort (p : PortId)
  | releaseNetworks
deriving DecidableEq

inductive Failure where
  /-- `errors.APIError`, with its text. -/
  | api (text : String)
  | portNotFound
  | portNotFoundClient
  | other (code : Nat)
deriving DecidableEq

/-- The calls on docker whose errors `delete` looks at. -/
def Call.ofDocker : Call → Bool
  | .disconnect _ _ | .removeContainer _ => true
  | _ => false

structure Env where
  /-- Neutron shows the port to the caller. -/
  shown : PortId → Bool := fun _ => true
  /-- The exceptions that a call may be answered with whatever there is. -/
  may : Call → Failure → Prop
  plain : ∀ call f, may call f → call.ofDocker = false → ∃ code, f = .other code
  refusable : ∀ p, ∃ f, may (.updatePort p) f

abbrev Run (α : Type) := Prog (Log State Call Failure) Failure α

abbrev Refusals := Nat → Call → Option Failure

variable (env : Env) (refuse : Refusals) (c : Container)

def ask (call : Call) : Run Unit := consult refuse call id

/-- A call that is answered by what there is, if it is not refused. -/
def act (call : Call) (answer : State → Option Failure) (effect : State → State) : Run Unit := do
  ask refuse call
  match ← look answer with
  | some f => raise f
  | none => change effect

/-! ### Neutron -/

def Port.isStale (key : String) : Bool := key = "pci_vendor_info" || key = "pci_slot"

/-- What `_unbind_port` sends for a profile, if anything. -/
def staleProfile (profile : List (String × String)) : Option (List (String × String)) :=
  if profile.any (Port.isStale ·.1) then some (profile.filter (!Port.isStale ·.1)) else none

/-- The port once its binding is cleared. -/
def Port.unbind (profile : List (String × String)) (port : Port) : Port where
  deviceId := ""
  deviceOwner := ""
  bindingHost := none
  bindingProfile := (staleProfile profile).getD port.bindingProfile

def State.unbindPort (p : PortId) (profile : List (String × String)) (s : State) : State :=
  { s with ports := Function.update s.ports p ((s.ports p).map (·.unbind profile)) }

def State.deletePort (p : PortId) (s : State) : State := { s with ports := Function.update s.ports p none }

/-- What `_unbind_port` takes for the profile of a port that it cannot read. -/
def unreadProfile : Failure → Run (Option (List (String × String)))
  | .portNotFound => pure none
  | _ => pure (some [])

/-- `get_neutron_port`, and the profile that `_unbind_port` takes from it. -/
def profileOf (p : PortId) : Run (Option (List (String × String))) :=
  tryExcept (do
    act refuse (.listPorts p) (fun s => if (s.ports p).isSome && env.shown p then none else some .portNotFound) id
    let port ← look (·.ports p)
    pure (some ((port.map (·.bindingProfile)).getD []))) unreadProfile

/-- `_unbind_port`. -/
def unbindPort (p : PortId) : Run Unit := do
  match ← profileOf env refuse p with
  | none => pure ()
  | some profile =>
      swallow (act refuse (.updatePort p)
        (fun s => if (s.ports p).isSome then none else some .portNotFoundClient) (State.unbindPort p profile))

/-- One turn of `delete_or_unbind_ports`. -/
def deleteOrUnbindPort (toDelete : List PortId) (p : PortId) : Run Unit :=
  tryExcept
    (if p ∈ toDelete then
      act refuse (.deletePort p) (fun s => if (s.ports p).isSome then none else some .portNotFoundClient)
        (State.deletePort p)
    else unbindPort env refuse p)
    fun f => if f = .portNotFoundClient then pure () else raise f

/-- `delete_or_unbind_ports`. -/
def deleteOrUnbindPorts (ports toDelete : List PortId) : Run Unit :=
  forEach ports (deleteOrUnbindPort env refuse toDelete)

/-! ### Docker -/

def noContainer (id : ContainerId) : String := "404 Client Error: Not Found (\"No such container: " ++ id ++ "\")"

def noNetwork (net : NetId) : String :=
  "404 Client Error: Not Found (\"network " ++ toString net ++ " not found\")"

def notConnected (id : ContainerId) (net : NetId) : String :=
  "500 Server Error: Internal Server Error (\"container " ++ id ++ " is not connected to the network " ++
    toString net ++ "\")"

def stillRunning (id : ContainerId) : String :=
  "409 Client Error: Conflict (\"You cannot remove a running container " ++ id ++
    ". Stop the container before attempting removal or force remove\")"

/-- What docker says to a disconnect that it cannot do. -/
def State.refusesDisconnect (s : State) (id : ContainerId) (net : NetId) : Option Failure :=
  match s.containers id with
  | none => some (.api (noContainer id))
  | some docker =>
      if s.networks net = false then some (.api (noNetwork net))
      else if net ∈ docker.networks then none
      else some (.api (notConnected id net))

/-- What docker says to a removal that it cannot do. -/
def State.refusesRemoval (s : State) (id : ContainerId) (force : Bool) : Option Failure :=
  match s.containers id with
  | none => some (.api (noContainer id))
  | some docker => if docker.running && !force then some (.api (stillRunning id)) else none

def State.disconnect (id : ContainerId) (net : NetId) (s : State) : State :=
  { s with containers := Function.update s.containers id ((s.containers id).map fun docker =>
      { docker with networks := docker.networks.filter (· ≠ net) }) }

def State.remove (id : ContainerId) (s : State) : State :=
  { s with containers := Function.update s.containers id none }

/-- `_disconnect_container_from_network`. -/
def disconnectContainerFromNetwork (entry : NetId × List Addr) : Run Unit :=
  tryFinally
    (match c.containerId with
    | none => pure ()
    | some id =>
        act refuse (.disconnect id entry.1) (fun s => s.refusesDisconnect id entry.1) (State.disconnect id entry.1))
    (deleteOrUnbindPorts env refuse (Neutron.allPorts entry.2) (Neutron.ownPorts entry.2))

/-- `_cleanup_network_for_container`, whose decorator handles no error that is raised here. -/
def cleanupNetworkForContainer : Run Unit :=
  forEach c.addresses (disconnectContainerFromNetwork env refuse c)

/-- `docker.remove_container`, of a container that was made. -/
def removeContainer (force : Bool) : Run Unit :=
  match c.containerId with
  | none => pure ()
  | some id => act refuse (.removeContainer id) (fun s => s.refusesRemoval id force) (State.remove id)

/-- `is_not_found`. -/
def isNotFound (text : String) : Prop := "404".toList <:+: text.toList

/-- `is_not_connected`. -/
def isNotConnected (text : String) : Prop := " is not connected to the network ".toList <:+: text.toList

instance (text : String) : Decidable (isNotFound text) := inferInstanceAs (Decidable (_ <:+: _))

instance (text : String) : Decidable (isNotConnected text) := inferInstanceAs (Decidable (_ <:+: _))

/-- What `delete` makes of an exception: whether the networks are to be released. -/
def answerTo : Failure → Run Bool
  | .api text =>
      if isNotFound text then pure true else if isNotConnected text then pure false else raise (.api text)
  | f => raise f

/-- `delete`. -/
def delete (force : Bool) : Run Unit := do
  ask refuse .dockerClient
  let release ← tryExcept (do
    ask refuse .networkDriver
    cleanupNetworkForContainer env refuse c
    removeContainer refuse c force
    pure true) answerTo
  onlyIf (release = true) (ask refuse .releaseNetworks)

/-! ## What is asked of a delete -/

def Port.Unbound (port : Port) : Prop := port.deviceId = "" ∧ port.deviceOwner = "" ∧ port.bindingHost = none

/-- The ports that the record names. -/
def Container.portIds : List PortId := c.addresses.flatMap fun entry => Neutron.allPorts entry.2

/-- The ports of them that Zun made. -/
def Container.ownPorts : List PortId := c.addresses.flatMap fun entry => Neutron.ownPorts entry.2

/-- Nothing of the container is left. -/
structure Complete (s : State) : Prop where
  container : ∀ id, c.containerId = some id → s.containers id = none
  own : ∀ p ∈ c.ownPorts, s.ports p = none
  others : ∀ p ∈ c.portIds, p ∉ c.ownPorts → ∀ port, s.ports p = some port → port.Unbound

/-- The calls are answered with exceptions that they may be answered with. -/
def Possible (refuse : Refusals) : Prop := ∀ n call f, refuse n call = some f → env.may call f

/-- Every delete that succeeds is complete. -/
def Finishes (force : Bool) (s : State) : Prop :=
  ∀ refuse, Possible env refuse → (delete env refuse c force ⟨s, []⟩).1 = .ok () →
    Complete c (delete env refuse c force ⟨s, []⟩).2.state

/-! ## When that is so -/

/-- The text is taken for one of a delete that was done before. -/
def Taken (text : String) : Prop := isNotFound text ∨ isNotConnected text

/-- A call that may be answered with such a text. -/
def Misread (call : Call) : Prop := ∃ text, env.may call (.api text) ∧ Taken text

/-- The delete may stop at a network. -/
def MayStop (s : State) (entry : NetId × List Addr) : Prop :=
  ∃ id, c.containerId = some id ∧ (s.refusesDisconnect id entry.1 ≠ none ∨ Misread env (.disconnect id entry.1))

/-- No delete stops before a network of the list. -/
def Reached (s : State) (entries : List (NetId × List Addr)) (entry : NetId × List Addr) : Prop :=
  ∃ before after, entries = before ++ entry :: after ∧ ∀ e ∈ before, ¬ MayStop env c s e

/-- The container is running and its removal is not forced. -/
def State.held (s : State) (id : ContainerId) (force : Bool) : Bool := (s.containers id).any (·.running) && !force

/-- The removal of the container may end the delete with the container in place. -/
def Spares (force : Bool) (s : State) (id : ContainerId) : Prop :=
  Misread env (.removeContainer id) ∨ s.held id force = true ∧ Taken (stillRunning id)

/-- Every delete raises: there is nothing to stop it before the container, which is running. -/
structure Stuck (force : Bool) (s : State) (id : ContainerId) : Prop where
  made : c.containerId = some id
  running : s.held id force = true
  plain : ¬ Taken (stillRunning id)
  honest : ¬ Misread env (.removeContainer id)
  passes : ∀ entry ∈ c.addresses, ¬ MayStop env c s entry

/-- What a delete may leave is not there to begin with. -/
structure Settled (force : Bool) (s : State) : Prop where
  container : ∀ id, c.containerId = some id →
    (∃ entry ∈ c.addresses, MayStop env c s entry) ∨ Spares env force s id → s.containers id = none
  own : ∀ p ∈ c.ownPorts, s.ports p = none ∨
    ∃ entry, Reached env c s c.addresses entry ∧ p ∈ Neutron.ownPorts entry.2
  others : ∀ p ∈ c.portIds, p ∉ c.ownPorts → ∀ port, s.ports p = some port → port.Unbound

variable {env refuse c} {force : Bool} {s : State}

/-! ### Texts -/

theorem taken_of_start {start rest : String} (h : isNotFound start) : Taken (start ++ rest) := by
  refine .inl ?_
  unfold isNotFound at h ⊢
  rw [String.toList_append]
  exact h.trans (List.prefix_append _ _).isInfix

theorem taken_noContainer (id : ContainerId) : Taken (noContainer id) := by
  unfold noContainer
  rw [String.append_assoc]
  exact taken_of_start ⟨[], " Client Error: Not Found (\"No such container: ".toList, rfl⟩

theorem taken_noNetwork (net : NetId) : Taken (noNetwork net) := by
  unfold noNetwork
  rw [String.append_assoc]
  exact taken_of_start ⟨[], " Client Error: Not Found (\"network ".toList, rfl⟩

theorem taken_notConnected (id : ContainerId) (net : NetId) : Taken (notConnected id net) := by
  refine .inr ⟨("500 Server Error: Internal Server Error (\"container " ++ id).toList,
    (toString net ++ "\")").toList, ?_⟩
  unfold notConnected
  simp only [String.toList_append, List.append_assoc]

/-- Docker refuses to disconnect what is not connected, and that is taken for a delete that was done. -/
theorem taken_refusesDisconnect {id : ContainerId} {net : NetId} {f : Failure}
    (h : s.refusesDisconnect id net = some f) : ∃ text, f = .api text ∧ Taken text := by
  unfold State.refusesDisconnect at h
  cases hdocker : s.containers id with
  | none =>
      rw [hdocker] at h
      exact ⟨_, (Option.some.inj h).symm, taken_noContainer id⟩
  | some docker =>
      rw [hdocker] at h
      change (if s.networks net = false then _ else _) = _ at h
      split at h
      · exact ⟨_, (Option.some.inj h).symm, taken_noNetwork net⟩
      · split at h
        · cases h
        · exact ⟨_, (Option.some.inj h).symm, taken_notConnected id net⟩

theorem refusesRemoval_cases {id : ContainerId} {f : Failure} (h : s.refusesRemoval id force = some f) :
    s.containers id = none ∨ s.held id force = true ∧ f = .api (stillRunning id) := by
  unfold State.refusesRemoval at h
  cases hdocker : s.containers id with
  | none => exact .inl rfl
  | some docker =>
      rw [hdocker] at h
      change (if (docker.running && !force) = true then _ else _) = _ at h
      split at h
      · refine .inr ⟨?_, (Option.some.inj h).symm⟩
        unfold State.held
        rwa [hdocker]
      · cases h

theorem not_held {id : ContainerId} (h : s.refusesRemoval id force = none) : s.held id force = false := by
  unfold State.refusesRemoval at h
  unfold State.held
  cases hdocker : s.containers id with
  | none => rfl
  | some docker =>
      rw [hdocker] at h
      change (if (docker.running && !force) = true then _ else _) = _ at h
      split at h
      · cases h
      · exact Bool.eq_false_iff.mpr ‹_›

theorem refusesRemoval_of_held {id : ContainerId} (h : s.held id force = true) :
    s.refusesRemoval id force = some (.api (stillRunning id)) := by
  unfold State.held at h
  unfold State.refusesRemoval
  cases hdocker : s.containers id with
  | none =>
      rw [hdocker] at h
      cases h
  | some docker =>
      rw [hdocker] at h
      exact if_pos h

/-! ### One call -/

theorem wp_ask {call : Call} {w : Log State Call Failure}
    {Q : Result Failure Unit → Log State Call Failure → Prop}
    (hrefuse : ∀ f w', refuse w.log.length call = some f → w'.state = w.state → Q (.raise f) w')
    (hok : ∀ w', refuse w.log.length call = none → w'.state = w.state → Q (.ok ()) w') :
    wp (ask refuse call) Q w := by
  unfold ask
  cases hcall : refuse w.log.length call with
  | some f => exact wp_of_run (consult_some hcall) (hrefuse f _ hcall rfl)
  | none => exact wp_of_run (consult_none hcall) (hok _ hcall rfl)

theorem wp_act {call : Call} {answer : State → Option Failure} {effect : State → State}
    {w : Log State Call Failure} {Q : Result Failure Unit → Log State Call Failure → Prop}
    (hrefuse : ∀ f w', refuse w.log.length call = some f → w'.state = w.state → Q (.raise f) w')
    (hanswer : ∀ f w', refuse w.log.length call = none → answer w.state = some f → w'.state = w.state →
      Q (.raise f) w')
    (hok : ∀ w', refuse w.log.length call = none → answer w.state = none → w'.state = effect w.state →
      Q (.ok ()) w') : wp (act refuse call answer effect) Q w := by
  unfold act
  rw [wp_bind]
  refine wp_ask (fun f w' hcall hw' => hrefuse f w' hcall hw') fun w' hcall hw' => ?_
  rw [seqPost_ok, wp_bind, wp_look, seqPost_ok]
  cases hstate : answer w.state with
  | some f =>
      rw [hw', hstate]
      exact hanswer f w' hcall hstate hw'
  | none =>
      rw [hw', hstate]
      exact hok _ hcall hstate (congrArg effect hw')

/-- What is gone stays gone, and what is unbound stays unbound. -/
structure Mono (s s' : State) : Prop where
  containers : ∀ id, s.containers id = none → s'.containers id = none
  ports : ∀ p, s.ports p = none → s'.ports p = none
  unbound : ∀ p, (∀ port, s.ports p = some port → port.Unbound) → ∀ port, s'.ports p = some port → port.Unbound

theorem Mono.refl (s : State) : Mono s s := ⟨fun _ h => h, fun _ h => h, fun _ h => h⟩

/-- Along a run nothing comes back. -/
def Onward (w w' : Log State Call Failure) : Prop := Mono w.state w'.state

instance : IsPreorder (Log State Call Failure) Onward where
  refl w := Mono.refl w.state
  trans _ _ _ h h' :=
    { containers := fun id hid => h'.containers id (h.containers id hid)
      ports := fun p hp => h'.ports p (h.ports p hp)
      unbound := fun p hp => h'.unbound p (h.unbound p hp) }

section Act

variable {R : Log State Call Failure → Log State Call Failure → Prop}
  (hlog : ∀ w w' : Log State Call Failure, w'.state = w.state → R w w')

include hlog

theorem within_act {call : Call} {answer : State → Option Failure} {effect : State → State}
    (heffect : ∀ w w' : Log State Call Failure, w'.state = effect w.state → R w w') :
    Within R (act refuse call answer effect) :=
  within_of_wp fun w => wp_act (fun _ w' _ => hlog w w') (fun _ w' _ _ => hlog w w') fun w' _ _ => heffect w w'

variable [IsPreorder _ R]

theorem within_profileOf (p : PortId) : Within R (profileOf env refuse p) := by
  refine Within.tryExcept (Within.bind (within_act hlog hlog) fun _ => ?_) fun f => ?_
  · exact Within.bind (within_read _) fun _ => within_pure _
  · cases f with
    | portNotFound => exact within_pure _
    | api | portNotFoundClient | other => exact within_pure _

variable (hdelete : ∀ p (w w' : Log State Call Failure), w'.state = State.deletePort p w.state → R w w')
  (hunbind : ∀ p profile (w w' : Log State Call Failure), w'.state = State.unbindPort p profile w.state → R w w')

include hunbind

theorem within_unbindPort (p : PortId) : Within R (unbindPort env refuse p) := by
  refine (within_profileOf hlog p).bind fun profile => ?_
  cases profile with
  | none => exact within_pure _
  | some profile => exact Within.swallow (within_act hlog (hunbind p profile))

include hdelete

theorem within_deleteOrUnbindPort (toDelete : List PortId) (p : PortId) :
    Within R (deleteOrUnbindPort env refuse toDelete p) := by
  refine Within.tryExcept (within_ite (within_act hlog (hdelete p)) (within_unbindPort hlog hunbind p)) fun f => ?_
  exact within_ite (within_pure _) (within_raise _)

theorem within_deleteOrUnbindPorts (ports toDelete : List PortId) :
    Within R (deleteOrUnbindPorts env refuse ports toDelete) :=
  within_forEach fun p _ => within_deleteOrUnbindPort hlog hdelete hunbind toDelete p

end Act

/-! ### What the ports keep -/

theorem onward_of_eq {w w' : Log State Call Failure} (h : w'.state = w.state) : Onward w w' := by
  unfold Onward
  rw [h]
  exact Mono.refl w.state

section Ports

variable {p q : PortId} {profile : List (String × String)}

@[simp] theorem ports_deletePort_self : (s.deletePort p).ports p = none := Function.update_self ..

theorem ports_deletePort_of_ne (h : q ≠ p) : (s.deletePort p).ports q = s.ports q := Function.update_of_ne h _ _

@[simp] theorem ports_unbindPort_self : (s.unbindPort p profile).ports p = (s.ports p).map (·.unbind profile) :=
  Function.update_self ..

theorem ports_unbindPort_of_ne (h : q ≠ p) : (s.unbindPort p profile).ports q = s.ports q :=
  Function.update_of_ne h _ _

end Ports

theorem mono_deletePort (p : PortId) (s : State) : Mono s (s.deletePort p) where
  containers _ h := h
  ports := by
    intro q hq
    by_cases hqp : q = p
    · rw [hqp, ports_deletePort_self]
    · rwa [ports_deletePort_of_ne hqp]
  unbound := by
    intro q hq port hport
    by_cases hqp : q = p
    · rw [hqp, ports_deletePort_self] at hport
      cases hport
    · rw [ports_deletePort_of_ne hqp] at hport
      exact hq port hport

theorem mono_unbindPort (p : PortId) (profile : List (String × String)) (s : State) :
    Mono s (s.unbindPort p profile) where
  containers _ h := h
  ports := by
    intro q hq
    by_cases hqp : q = p
    · subst hqp
      rw [ports_unbindPort_self, hq]
      rfl
    · rwa [ports_unbindPort_of_ne hqp]
  unbound := by
    intro q hq port hport
    by_cases hqp : q = p
    · rw [hqp, ports_unbindPort_self] at hport
      obtain ⟨port', -, rfl⟩ := Option.map_eq_some_iff.mp hport
      exact ⟨rfl, rfl, rfl⟩
    · rw [ports_unbindPort_of_ne hqp] at hport
      exact hq port hport

theorem onward_deleteOrUnbindPorts (ports toDelete : List PortId) :
    Within Onward (deleteOrUnbindPorts env refuse ports toDelete) :=
  within_deleteOrUnbindPorts (fun _ _ => onward_of_eq)
    (fun p w w' h => by unfold Onward; rw [h]; exact mono_deletePort p w.state)
    (fun p profile w w' h => by unfold Onward; rw [h]; exact mono_unbindPort p profile w.state) ports toDelete

/-- Docker has what it had. -/
def Ashore (w w' : Log State Call Failure) : Prop :=
  w'.state.containers = w.state.containers ∧ w'.state.networks = w.state.networks

instance : IsPreorder (Log State Call Failure) Ashore where
  refl _ := ⟨rfl, rfl⟩
  trans _ _ _ h h' := ⟨h'.1.trans h.1, h'.2.trans h.2⟩

theorem ashore_deleteOrUnbindPorts (ports toDelete : List PortId) :
    Within Ashore (deleteOrUnbindPorts env refuse ports toDelete) :=
  within_deleteOrUnbindPorts (fun w w' h => by unfold Ashore; rw [h]; exact ⟨rfl, rfl⟩)
    (fun p w w' h => by unfold Ashore; rw [h]; exact ⟨rfl, rfl⟩)
    (fun p profile w w' h => by unfold Ashore; rw [h]; exact ⟨rfl, rfl⟩) ports toDelete

/-! ### One network -/

/-- Docker answers about other networks, and about the removal, as it did. -/
def Beside (net : NetId) (w w' : Log State Call Failure) : Prop :=
  (∀ id net', net' ≠ net → w'.state.refusesDisconnect id net' = w.state.refusesDisconnect id net') ∧
    ∀ id, w'.state.held id = w.state.held id

instance (net : NetId) : IsPreorder (Log State Call Failure) (Beside net) where
  refl _ := ⟨fun _ _ _ => rfl, fun _ => rfl⟩
  trans _ _ _ h h' :=
    ⟨fun id net' hne => (h'.1 id net' hne).trans (h.1 id net' hne), fun id => (h'.2 id).trans (h.2 id)⟩

theorem Ashore.beside {net : NetId} {w w' : Log State Call Failure} (h : Ashore w w') : Beside net w w' := by
  constructor
  · intro id net' _
    unfold State.refusesDisconnect
    rw [h.1, h.2]
  · intro id
    unfold State.held
    rw [h.1]

theorem containers_disconnect_self {id : ContainerId} {net : NetId} : (s.disconnect id net).containers id =
    (s.containers id).map fun docker => { docker with networks := docker.networks.filter (· ≠ net) } :=
  Function.update_self ..

theorem containers_disconnect_of_ne {id id' : ContainerId} {net : NetId} (h : id' ≠ id) :
    (s.disconnect id net).containers id' = s.containers id' := Function.update_of_ne h _ _

theorem mono_disconnect (id : ContainerId) (net : NetId) (s : State) : Mono s (s.disconnect id net) where
  containers := by
    intro id' hid'
    by_cases hne : id' = id
    · subst hne
      rw [containers_disconnect_self, hid']
      rfl
    · rwa [containers_disconnect_of_ne hne]
  ports _ h := h
  unbound _ h := h

theorem refusesDisconnect_disconnect {id id' : ContainerId} {net net' : NetId} (h : net' ≠ net) :
    (s.disconnect id net).refusesDisconnect id' net' = s.refusesDisconnect id' net' := by
  unfold State.refusesDisconnect
  by_cases hid : id' = id
  · subst hid
    rw [containers_disconnect_self]
    cases s.containers id' with
    | none => rfl
    | some docker =>
        change (if s.networks net' = false then _ else if net' ∈ docker.networks.filter (· ≠ net) then _ else _) = _
        have hmem : net' ∈ docker.networks.filter (· ≠ net) ↔ net' ∈ docker.networks := by simp [h]
        simp only [hmem]
  · rw [containers_disconnect_of_ne hid]
    rfl

theorem held_disconnect {id id' : ContainerId} {net : NetId} : (s.disconnect id net).held id' = s.held id' := by
  unfold State.held
  by_cases hid : id' = id
  · subst hid
    rw [containers_disconnect_self]
    cases s.containers id' with
    | none => rfl
    | some docker => rfl
  · rw [containers_disconnect_of_ne hid]

theorem beside_disconnectContainerFromNetwork (entry : NetId × List Addr) :
    Within (Beside entry.1) (disconnectContainerFromNetwork env refuse c entry) := by
  refine Within.tryFinally ?_ (fun w => (ashore_deleteOrUnbindPorts _ _ w).beside)
  cases c.containerId with
  | none => exact within_pure _
  | some id =>
      refine within_act (fun w w' h => ?_) fun w w' h => ?_
      · unfold Beside
        rw [h]
        exact ⟨fun _ _ _ => rfl, fun _ => rfl⟩
      · unfold Beside
        rw [h]
        exact ⟨fun _ _ hne => refusesDisconnect_disconnect hne, fun _ => held_disconnect⟩

theorem onward_disconnectContainerFromNetwork (entry : NetId × List Addr) :
    Within Onward (disconnectContainerFromNetwork env refuse c entry) := by
  refine Within.tryFinally ?_ (onward_deleteOrUnbindPorts _ _)
  cases c.containerId with
  | none => exact within_pure _
  | some id =>
      refine within_act (fun _ _ => onward_of_eq) fun w w' h => ?_
      unfold Onward
      rw [h]
      exact mono_disconnect id entry.1 w.state

/-- The run has not failed, for all that `delete` can tell. -/
def Quietly {α : Type} (r : Result Failure α) : Prop :=
  (∃ a, r = .ok a) ∨ ∃ text, r = .raise (.api text) ∧ Taken text

theorem may_plain (hpossible : Possible env refuse) {n : Nat} {call : Call} {f : Failure}
    (h : refuse n call = some f) (hcall : call.ofDocker = false) : ∃ code, f = .other code :=
  env.plain call f (hpossible n call f h) hcall

theorem wp_profileOf {p : PortId} {w : Log State Call Failure}
    {Q : Result Failure (Option (List (String × String))) → Log State Call Failure → Prop}
    (h : ∀ profile w', w'.state = w.state → Q (.ok profile) w') : wp (profileOf env refuse p) Q w := by
  unfold profileOf
  rw [wp_tryExcept, wp_bind]
  have hraise : ∀ f w', w'.state = w.state → exceptPost unreadProfile Q (.raise f) w' := by
    intro f w' hw'
    cases f with
    | portNotFound => exact h _ w' hw'
    | api | portNotFoundClient | other => exact h _ w' hw'
  exact wp_act (fun f w' _ hw' => hraise f w' hw') (fun f w' _ _ hw' => hraise f w' hw') fun w' _ _ hw' => h _ w' hw'

/-- `_unbind_port` does not raise. -/
theorem wp_unbindPort {p : PortId} {w : Log State Call Failure}
    {Q : Result Failure Unit → Log State Call Failure → Prop} (hstay : ∀ w', w'.state = w.state → Q (.ok ()) w')
    (hunbound : ∀ n profile w', refuse n (.updatePort p) = none → w'.state = w.state.unbindPort p profile →
      Q (.ok ()) w') : wp (unbindPort env refuse p) Q w := by
  unfold unbindPort
  rw [wp_bind]
  refine wp_profileOf fun profile w' hw' => ?_
  rw [seqPost_ok]
  cases profile with
  | none => exact hstay w' hw'
  | some profile =>
      rw [wp_swallow]
      exact wp_act (fun _ w'' _ h => hstay w'' (h.trans hw')) (fun _ w'' _ _ h => hstay w'' (h.trans hw'))
        fun w'' hcall _ h => hunbound _ profile w'' hcall (hw' ▸ h)

/-- A port that is to be deleted is gone, and what is raised is no error of docker's. -/
theorem wp_deleteOrUnbindPort (hpossible : Possible env refuse) (toDelete : List PortId) (p : PortId)
    (w : Log State Call Failure) : wp (deleteOrUnbindPort env refuse toDelete p) (fun r w' =>
      (r = .ok () → p ∈ toDelete → w'.state.ports p = none) ∧ ∀ text, r ≠ .raise (.api text)) w := by
  unfold deleteOrUnbindPort
  rw [wp_tryExcept]
  by_cases hp : p ∈ toDelete
  · rw [if_pos hp]
    refine wp_act (fun f w' hf _ => ?_) (fun f w' _ hf hw' => ?_) fun w' _ _ hw' => ?_
    · obtain ⟨code, rfl⟩ := may_plain hpossible hf rfl
      exact ⟨fun h => (by cases h), fun _ h => by cases h⟩
    · split at hf
      · cases hf
      · obtain rfl := Option.some.inj hf
        rw [exceptPost_raise, if_pos rfl, wp_pure]
        refine ⟨fun _ _ => ?_, fun _ h => by cases h⟩
        rw [hw']
        exact Option.not_isSome_iff_eq_none.mp ‹_›
    · refine ⟨fun _ _ => ?_, fun _ h => by cases h⟩
      rw [hw', ports_deletePort_self]
  · rw [if_neg hp]
    exact wp_unbindPort (fun w' _ => ⟨fun _ h => absurd h hp, fun _ h => by cases h⟩)
      fun _ _ w' _ _ => ⟨fun _ h => absurd h hp, fun _ h => by cases h⟩

theorem kept_of_onward {p : PortId} {f : Run Unit} (h : Within Onward f) :
    Within (Kept fun w => w.state.ports p = none) f := fun w hw => (h w).ports p hw

theorem onward_deleteOrUnbindPort (toDelete : List PortId) (p : PortId) :
    Within Onward (deleteOrUnbindPort env refuse toDelete p) :=
  within_deleteOrUnbindPort (fun _ _ => onward_of_eq)
    (fun p w w' h => by unfold Onward; rw [h]; exact mono_deletePort p w.state)
    (fun p profile w w' h => by unfold Onward; rw [h]; exact mono_unbindPort p profile w.state) toDelete p

theorem wp_deleteOrUnbindPorts (hpossible : Possible env refuse) {ports toDelete : List PortId}
    (hsub : toDelete ⊆ ports) (w : Log State Call Failure) :
    wp (deleteOrUnbindPorts env refuse ports toDelete) (fun r w' =>
      (r = .ok () → ∀ p ∈ toDelete, w'.state.ports p = none) ∧ ∀ text, r ≠ .raise (.api text)) w := by
  have hgone : wp (deleteOrUnbindPorts env refuse ports toDelete) (fun r w' =>
      r = .ok () → ∀ p ∈ ports, p ∈ toDelete → w'.state.ports p = none) w := by
    refine wp_forEach_each (fun p _ w => wp_mono (wp_deleteOrUnbindPort hpossible toDelete p w) fun _ _ h => h.1)
      (fun p p' _ w hw hp => ?_) w
    exact kept_of_onward (onward_deleteOrUnbindPort toDelete p') w (hw hp)
  have hplain : wp (deleteOrUnbindPorts env refuse ports toDelete) (fun r _ => ∀ text, r ≠ .raise (.api text)) w := by
    refine wp_forEach (fun _ h => by cases h) fun p _ w' _ => ?_
    exact wp_mono (wp_deleteOrUnbindPort hpossible toDelete p w') fun _ _ h => h.2
  exact wp_mono (wp_and hgone hplain) fun r w' h => ⟨fun hok p hp => h.1 hok p (hsub hp) hp, h.2⟩

theorem ownPorts_subset (addrs : List Addr) : Neutron.ownPorts addrs ⊆ Neutron.allPorts addrs := by
  intro p hp
  unfold Neutron.ownPorts at hp
  unfold Neutron.allPorts
  rw [List.mem_dedup, List.mem_map] at hp ⊢
  obtain ⟨addr, haddr, rfl⟩ := hp
  exact ⟨addr, List.mem_of_mem_filter haddr, rfl⟩

theorem quietly_ok {α : Type} {a : α} : Quietly (.ok a) := .inl ⟨a, rfl⟩

theorem not_quietly_halt {α : Type} : ¬ Quietly (.halt : Result Failure α) := by
  rintro (⟨_, h⟩ | ⟨_, h, -⟩)
  · cases h
  · cases h

theorem taken_of_quietly {α : Type} {f : Failure} (h : Quietly (.raise f : Result Failure α)) :
    ∃ text, f = .api text ∧ Taken text := by
  rcases h with ⟨a, ha⟩ | ⟨text, htext, htaken⟩
  · cases ha
  · cases htext
    exact ⟨text, rfl, htaken⟩

theorem not_quietly {r : Result Failure Unit} (hok : r ≠ .ok ()) (hapi : ∀ text, r ≠ .raise (.api text)) :
    ¬ Quietly r := by
  rintro (⟨_, h⟩ | ⟨text, h, -⟩)
  · exact hok h
  · exact hapi text h

/-- A network has been left: if the delete goes on, or stops quietly, then the ports that Zun made on it are gone. -/
structure LeftBehind (env : Env) (c : Container) (s : State) (entry : NetId × List Addr) (r : Result Failure Unit)
    (w : Log State Call Failure) : Prop where
  ports : Quietly r → ∀ p ∈ Neutron.ownPorts entry.2, w.state.ports p = none
  stop : ∀ text, r = .raise (.api text) → Taken text → MayStop env c s entry

/-- The ports are handled whatever docker said. -/
theorem finallyPost_ports (hpossible : Possible env refuse) {entry : NetId × List Addr} {r : Result Failure Unit}
    (hhalt : r ≠ .halt) (hr : ∀ text, r = .raise (.api text) → Taken text → MayStop env c s entry)
    (w : Log State Call Failure) :
    finallyPost (deleteOrUnbindPorts env refuse (Neutron.allPorts entry.2) (Neutron.ownPorts entry.2))
      (LeftBehind env c s entry) r w := by
  have hports := wp_deleteOrUnbindPorts hpossible (ownPorts_subset entry.2) w
  have hloud : ∀ {r' : Result Failure Unit} {w'}, r' ≠ .ok () → (∀ text, r' ≠ .raise (.api text)) →
      LeftBehind env c s entry r' w' := fun hok hapi =>
    ⟨fun hq => absurd hq (not_quietly hok hapi), fun text htext => absurd htext (hapi text)⟩
  cases r with
  | halt => exact absurd rfl hhalt
  | ok u =>
      rw [finallyPost_ok]
      refine wp_mono hports fun r' w' h => ?_
      cases r' with
      | ok u => exact ⟨fun _ => h.1 rfl, hr⟩
      | halt => exact hloud (fun h => by cases h) fun _ h => by cases h
      | raise f => exact hloud (fun h => by cases h) h.2
  | raise f =>
      rw [finallyPost_raise]
      refine wp_mono hports fun r' w' h => ?_
      cases r' with
      | ok u => exact ⟨fun _ => h.1 rfl, hr⟩
      | halt => exact hloud (fun h => by cases h) fun _ h => by cases h
      | raise f => exact hloud (fun h => by cases h) h.2

theorem wp_disconnectContainerFromNetwork (hpossible : Possible env refuse) (entry : NetId × List Addr)
    (w : Log State Call Failure) : wp (disconnectContainerFromNetwork env refuse c entry)
      (LeftBehind env c w.state entry) w := by
  unfold disconnectContainerFromNetwork
  rw [wp_tryFinally]
  cases hid : c.containerId with
  | none => exact finallyPost_ports hpossible (fun h => by cases h) (fun _ h => by cases h) w
  | some id =>
      refine wp_act (fun f w' hf _ => ?_) (fun f w' _ hf _ => ?_) fun w' _ _ _ => ?_
      · refine finallyPost_ports hpossible (fun h => by cases h) ?_ w'
        rintro text ⟨⟩ htaken
        exact ⟨id, hid, .inr ⟨text, hpossible _ _ _ hf, htaken⟩⟩
      · refine finallyPost_ports hpossible (fun h => by cases h) ?_ w'
        rintro text ⟨⟩ -
        exact ⟨id, hid, .inl fun hnone => by cases hnone.symm.trans hf⟩
      · exact finallyPost_ports hpossible (fun h => by cases h) (fun _ h => by cases h) w'

/-! ### The networks -/

theorem mayStop_iff {net : NetId} {w w' : Log State Call Failure} (h : Beside net w w') {entry : NetId × List Addr}
    (hne : entry.1 ≠ net) : MayStop env c w'.state entry ↔ MayStop env c w.state entry := by
  unfold MayStop
  simp only [h.1 _ _ hne]

theorem not_reached_nil {entry : NetId × List Addr} : ¬ Reached env c s [] entry := by
  rintro ⟨before, after, h, -⟩
  cases before with
  | nil => cases h
  | cons e es => cases h

/-- A network is reached at the head of a list, or after one at which no delete stops. -/
theorem reached_cons {e entry : NetId × List Addr} {entries : List (NetId × List Addr)} :
    Reached env c s (e :: entries) entry ↔
      entry = e ∨ ¬ MayStop env c s e ∧ Reached env c s entries entry := by
  constructor
  · rintro ⟨before, after, h, hpass⟩
    cases before with
    | nil => exact .inl (List.cons.inj h).1.symm
    | cons e' before =>
        obtain ⟨rfl, hrest⟩ := List.cons.inj h
        exact .inr ⟨hpass _ (List.mem_cons_self ..), before, after, hrest,
          fun x hx => hpass x (List.mem_cons_of_mem _ hx)⟩
  · rintro (rfl | ⟨he, before, after, h, hpass⟩)
    · exact ⟨[], entries, rfl, fun _ h => absurd h List.not_mem_nil⟩
    · exact ⟨e :: before, after, congrArg _ h, List.forall_mem_cons.mpr ⟨he, hpass⟩⟩

theorem reached_congr {s' : State} {entries : List (NetId × List Addr)} {entry : NetId × List Addr}
    (h : ∀ e ∈ entries, MayStop env c s' e ↔ MayStop env c s e) (hreached : Reached env c s entries entry) :
    Reached env c s' entries entry := by
  obtain ⟨before, after, rfl, hpass⟩ := hreached
  exact ⟨before, after, rfl, fun e he hstop => hpass e he ((h e (List.mem_append_left _ he)).mp hstop)⟩

/-- What the networks have come to when the loop over them ends. -/
structure Swept (env : Env) (c : Container) (entries : List (NetId × List Addr)) (s : State)
    (r : Result Failure Unit) (w : Log State Call Failure) : Prop where
  ports : Quietly r → ∀ entry, Reached env c s entries entry →
    ∀ p ∈ Neutron.ownPorts entry.2, w.state.ports p = none
  stop : ∀ text, r = .raise (.api text) → Taken text → ∃ entry ∈ entries, MayStop env c s entry

theorem wp_networks (hpossible : Possible env refuse) : ∀ {entries : List (NetId × List Addr)},
    (entries.map (·.1)).Nodup → ∀ w : Log State Call Failure,
      wp (forEach entries (disconnectContainerFromNetwork env refuse c)) (Swept env c entries w.state) w
  | [], _, w => ⟨fun _ _ h => absurd h not_reached_nil, fun _ h => by cases h⟩
  | e :: entries, hnodup, w => by
      obtain ⟨he, hnodup⟩ := List.nodup_cons.mp hnodup
      show wp (andThen (disconnectContainerFromNetwork env refuse c e) fun _ => forEach entries _) _ w
      rw [wp_andThen]
      have hbeside : wp (disconnectContainerFromNetwork env refuse c e) (fun _ => Beside e.1 w) w :=
        (beside_disconnectContainerFromNetwork e).wp w
      refine wp_mono (wp_and (wp_disconnectContainerFromNetwork hpossible e w) hbeside) fun r w' hr => ?_
      have hsame : ∀ e' ∈ entries, MayStop env c w'.state e' ↔ MayStop env c w.state e' := fun e' he' =>
        mayStop_iff hr.2 fun heq => he (List.mem_map.mpr ⟨e', he', heq⟩)
      have hfirst : ∀ entry, Reached env c w.state (e :: entries) entry → MayStop env c w.state e → entry = e :=
        fun entry hentry hstop => (reached_cons.mp hentry).resolve_right fun h => h.1 hstop
      cases r with
      | halt => exact ⟨fun hq => absurd hq not_quietly_halt, fun _ h => by cases h⟩
      | raise f =>
          refine ⟨fun hq entry hentry => ?_, fun text htext htaken => ?_⟩
          · obtain ⟨text, rfl, htaken⟩ := taken_of_quietly hq
            rw [hfirst entry hentry (hr.1.stop text rfl htaken)]
            exact hr.1.ports hq
          · exact ⟨e, List.mem_cons_self .., hr.1.stop text htext htaken⟩
      | ok u =>
          have honward : Within Onward (forEach entries (disconnectContainerFromNetwork env refuse c)) :=
            within_forEach fun e' _ => onward_disconnectContainerFromNetwork e'
          have hgone := hr.1.ports quietly_ok
          rw [seqPost_ok]
          refine wp_mono (wp_and (wp_networks hpossible hnodup w') (honward.wp w')) fun r w'' hrest => ?_
          refine ⟨fun hq entry hentry p hp => ?_, fun text htext htaken => ?_⟩
          · rcases reached_cons.mp hentry with rfl | ⟨-, hlater⟩
            · exact hrest.2.ports p (hgone p hp)
            · exact hrest.1.ports hq entry (reached_congr hsame hlater) p hp
          · obtain ⟨entry, hentry, hstop⟩ := hrest.1.stop text htext htaken
            exact ⟨entry, List.mem_cons_of_mem _ hentry, (hsame entry hentry).mp hstop⟩

/-! ### The container -/

/-- Docker answers about the removal as it did. -/
def SameHeld (w w' : Log State Call Failure) : Prop := ∀ id, w'.state.held id = w.state.held id

instance : IsPreorder (Log State Call Failure) SameHeld where
  refl _ _ := rfl
  trans _ _ _ h h' id := (h' id).trans (h id)

theorem sameHeld_cleanup : Within SameHeld (cleanupNetworkForContainer env refuse c) :=
  within_forEach fun e _ w => (beside_disconnectContainerFromNetwork e w).2

theorem onward_cleanup : Within Onward (cleanupNetworkForContainer env refuse c) :=
  within_forEach fun e _ => onward_disconnectContainerFromNetwork e

theorem mono_remove (id : ContainerId) (s : State) : Mono s (s.remove id) where
  containers := by
    intro id' hid'
    by_cases hne : id' = id
    · subst hne
      exact Function.update_self ..
    · exact (Function.update_of_ne hne _ _).trans hid'
  ports _ h := h
  unbound _ h := h

theorem onward_removeContainer : Within Onward (removeContainer refuse c force) := by
  unfold removeContainer
  cases c.containerId with
  | none => exact within_pure _
  | some id =>
      refine within_act (fun _ _ => onward_of_eq) fun w w' h => ?_
      unfold Onward
      rw [h]
      exact mono_remove id w.state

/-- The containers of docker stay. -/
def Standing (w w' : Log State Call Failure) : Prop :=
  ∀ id, w.state.containers id ≠ none → w'.state.containers id ≠ none

instance : IsPreorder (Log State Call Failure) Standing where
  refl _ _ h := h
  trans _ _ _ h h' id hid := h' id (h id hid)

theorem standing_cleanup : Within Standing (cleanupNetworkForContainer env refuse c) := by
  refine within_forEach fun e _ => Within.tryFinally ?_ fun w id hid => ?_
  · cases c.containerId with
    | none => exact within_pure _
    | some id =>
        refine within_act (fun w w' h id' hid' => by rwa [h]) fun w w' h id' hid' => ?_
        rw [h]
        by_cases hne : id' = id
        · subst hne
          rw [containers_disconnect_self]
          exact fun hnone => hid' (Option.map_eq_none_iff.mp hnone)
        · rwa [containers_disconnect_of_ne hne]
  · rwa [(ashore_deleteOrUnbindPorts _ _ w).1]

/-- What a delete that has not failed by now has come to. -/
structure Stripped (env : Env) (c : Container) (force : Bool) (s s' : State) : Prop where
  ports : ∀ entry, Reached env c s c.addresses entry → ∀ p ∈ Neutron.ownPorts entry.2, s'.ports p = none
  container : ∀ id, c.containerId = some id → (∃ entry ∈ c.addresses, MayStop env c s entry) ∨
    Spares env force s id ∨ s'.containers id = none ∧ s.held id force = false

theorem wp_removeContainer (hpossible : Possible env refuse) (w : Log State Call Failure) :
    wp (removeContainer refuse c force) (fun r w' => Quietly r → ∀ id, c.containerId = some id →
      Spares env force w.state id ∨ w'.state.containers id = none ∧ w.state.held id force = false) w := by
  unfold removeContainer
  cases hid : c.containerId with
  | none => exact fun _ id h => by cases h
  | some id =>
      refine wp_act (fun f w' hf _ hq => ?_) (fun f w' _ hf hw' hq => ?_) fun w' _ hanswer hw' _ => ?_
      · obtain ⟨text, rfl, htaken⟩ := taken_of_quietly hq
        rintro id' ⟨⟩
        exact .inl (.inl ⟨text, hpossible _ _ _ hf, htaken⟩)
      · obtain ⟨text, rfl, htaken⟩ := taken_of_quietly hq
        rintro id' ⟨⟩
        rcases refusesRemoval_cases hf with hnone | ⟨hheld, htext⟩
        · refine .inr ⟨by rw [hw']; exact hnone, ?_⟩
          unfold State.held
          rw [hnone]
          rfl
        · cases htext
          exact .inl (.inr ⟨hheld, htaken⟩)
      · rintro id' ⟨⟩
        refine .inr ⟨?_, not_held hanswer⟩
        rw [hw']
        exact Function.update_self ..

/-- The part of `delete` whose errors are looked at. -/
theorem wp_body (hpossible : Possible env refuse) (w : Log State Call Failure) :
    wp (do
      ask refuse .networkDriver
      cleanupNetworkForContainer env refuse c
      removeContainer refuse c force
      pure true)
      (fun r w' => Quietly r → Stripped env c force w.state w'.state) w := by
  rw [wp_bind]
  refine wp_ask (fun f w₁ hcall _ hq => ?_) fun w₁ _ hw₁ => ?_
  · obtain ⟨code, rfl⟩ := may_plain hpossible hcall rfl
    obtain ⟨text, htext, -⟩ := taken_of_quietly hq
    cases htext
  · rw [seqPost_ok, wp_bind, ← hw₁]
    have hheld : wp (cleanupNetworkForContainer env refuse c) (fun _ => SameHeld w₁) w₁ := sameHeld_cleanup.wp w₁
    refine wp_mono (wp_and (wp_networks hpossible c.nets w₁) hheld) fun r w₂ hswept => ?_
    cases r with
    | halt => exact fun hq => absurd hq not_quietly_halt
    | raise f =>
        intro hq
        obtain ⟨text, rfl, htaken⟩ := taken_of_quietly hq
        exact ⟨hswept.1.ports (.inr ⟨text, rfl, htaken⟩), fun id _ => .inl (hswept.1.stop text rfl htaken)⟩
    | ok u =>
        rw [seqPost_ok, wp_bind]
        have hstripped : ∀ w₃ : Log State Call Failure, Onward w₂ w₃ → (∀ id, c.containerId = some id →
            Spares env force w₂.state id ∨ w₃.state.containers id = none ∧ w₂.state.held id force = false) →
            Stripped env c force w₁.state w₃.state := by
          intro w₃ honward hcontainer
          refine ⟨fun entry hentry p hp => ?_, fun id hid => .inr ?_⟩
          · exact honward.ports p (hswept.1.ports quietly_ok entry hentry p hp)
          · have hcase := hcontainer id hid
            unfold Spares at hcase ⊢
            rwa [hswept.2 id] at hcase
        refine wp_mono (wp_and (wp_removeContainer hpossible w₂) (onward_removeContainer.wp w₂)) fun r w₃ hr => ?_
        cases r with
        | halt => exact fun hq => absurd hq not_quietly_halt
        | ok u => exact fun _ => hstripped w₃ hr.2 (hr.1 quietly_ok)
        | raise f =>
            intro hq
            obtain ⟨text, rfl, htaken⟩ := taken_of_quietly hq
            exact hstripped w₃ hr.2 (hr.1 (.inr ⟨text, rfl, htaken⟩))

/-- A delete that succeeds has come as far as it can. -/
theorem wp_delete (hpossible : Possible env refuse) (w : Log State Call Failure) :
    wp (delete env refuse c force) (fun r w' => r = .ok () → Stripped env c force w.state w'.state) w := by
  unfold delete
  rw [wp_bind]
  refine wp_ask (fun f w' _ _ hok => by cases hok) fun w₁ _ hw₁ => ?_
  rw [seqPost_ok, wp_bind, wp_tryExcept, ← hw₁]
  have hrelease : ∀ (release : Bool) (w₂ : Log State Call Failure), Stripped env c force w₁.state w₂.state →
      wp (onlyIf (release = true) (ask refuse .releaseNetworks))
        (fun r w' => r = .ok () → Stripped env c force w₁.state w'.state) w₂ := by
    intro release w₂ hstripped
    refine wp_onlyIf (fun _ => wp_ask (fun f w' _ _ hok => by cases hok) fun w' _ hw' _ => ?_) fun _ _ => hstripped
    rwa [hw']
  refine wp_mono (wp_body hpossible w₁) fun r w₂ hr => ?_
  cases r with
  | halt => exact fun hok => by cases hok
  | ok release => exact hrelease release w₂ (hr quietly_ok)
  | raise f =>
      rw [exceptPost_raise]
      cases f with
      | portNotFound | portNotFoundClient | other => exact fun hok => by cases hok
      | api text =>
          unfold answerTo
          change wp (if isNotFound text then pure true else if isNotConnected text then pure false else
            raise (Failure.api text)) _ w₂
          split
          · exact hrelease true w₂ (hr (.inr ⟨text, rfl, .inl ‹_›⟩))
          · split
            · exact hrelease false w₂ (hr (.inr ⟨text, rfl, .inr ‹_›⟩))
            · exact fun hok => by cases hok

theorem onward_delete : Within Onward (delete env refuse c force) := by
  have hask : ∀ call, Within Onward (ask refuse call) := fun call =>
    within_of_wp fun w => wp_ask (fun _ _ _ h => onward_of_eq h) fun _ _ h => onward_of_eq h
  refine (hask _).bind fun _ => Within.bind (Within.tryExcept ?_ fun f => ?_) fun release => (hask _).onlyIf
  · refine (hask _).bind fun _ => onward_cleanup.bind fun _ => ?_
    exact onward_removeContainer.bind fun _ => within_pure _
  · cases f with
    | portNotFound | portNotFoundClient | other => exact within_raise _
    | api text => exact within_ite (within_pure _) (within_ite (within_pure _) (within_raise _))

theorem finishes_of_settled (h : Settled env c force s) : Finishes env c force s := by
  intro refuse hpossible hok
  have hstripped : Stripped env c force s (delete env refuse c force ⟨s, []⟩).2.state :=
    wp_delete hpossible ⟨s, []⟩ hok
  have hmono : Mono s (delete env refuse c force ⟨s, []⟩).2.state := onward_delete ⟨s, []⟩
  refine ⟨fun id hid => ?_, fun p hp => ?_, fun p hp hother => hmono.unbound p (h.others p hp hother)⟩
  · rcases hstripped.container id hid with hstop | hspares | hgone
    · exact hmono.containers id (h.container id hid (.inl hstop))
    · exact hmono.containers id (h.container id hid (.inr hspares))
    · exact hgone.1
  · rcases h.own p hp with hnone | ⟨entry, hreached, hmem⟩
    · exact hmono.ports p hnone
    · exact hstripped.ports entry hreached p hmem

theorem finishes_of_stuck {id : ContainerId} (h : Stuck env c force s id) : Finishes env c force s := by
  intro refuse hpossible hok
  have hstripped : Stripped env c force s (delete env refuse c force ⟨s, []⟩).2.state :=
    wp_delete hpossible ⟨s, []⟩ hok
  rcases hstripped.container id h.made with ⟨entry, hentry, hstop⟩ | (hmisread | ⟨-, htaken⟩) | ⟨-, hheld⟩
  · exact absurd hstop (h.passes entry hentry)
  · exact absurd hmisread h.honest
  · exact absurd htaken h.plain
  · cases hheld.symm.trans h.running

/-! ### The worst that can be answered -/

/-- Every call on docker that may be misread is, and no port is unbound. -/
structure Worst (env : Env) (refuse : Refusals) : Prop where
  possible : Possible env refuse
  misread : ∀ n call, Misread env call → ∃ text, refuse n call = some (.api text) ∧ Taken text
  update : ∀ n p, refuse n (.updatePort p) ≠ none
  rest : ∀ n call, ¬ Misread env call → (∀ p, call ≠ .updatePort p) → refuse n call = none

theorem exists_worst (env : Env) : ∃ refuse, Worst env refuse := by
  classical
  refine ⟨fun _ call => if h : Misread env call then some (.api h.choose) else
    if h : ∃ f, (∃ p, call = .updatePort p) ∧ env.may call f then some h.choose else none, ?_, ?_, ?_, ?_⟩
  · intro n call f hf
    dsimp only at hf
    split at hf
    · rename_i h
      obtain rfl := Option.some.inj hf
      exact h.choose_spec.1
    · split at hf
      · rename_i h
        obtain rfl := Option.some.inj hf
        exact h.choose_spec.2
      · cases hf
  · intro n call h
    exact ⟨h.choose, dif_pos h, h.choose_spec.2⟩
  · intro n p h
    split at h
    · cases h
    · obtain ⟨f, hf⟩ := env.refusable p
      rw [dif_pos ⟨f, ⟨p, rfl⟩, hf⟩] at h
      cases h
  · intro n call h hupdate
    rw [dif_neg h, dif_neg]
    rintro ⟨f, ⟨p, hp⟩, -⟩
    exact hupdate p hp

theorem not_misread {call : Call} (h : call.ofDocker = false) : ¬ Misread env call := by
  rintro ⟨text, hmay, -⟩
  obtain ⟨code, hcode⟩ := env.plain call _ hmay h
  cases hcode

section Worst

variable (hworst : Worst env refuse)

include hworst

theorem not_refused {n : Nat} {call : Call} (h : call.ofDocker = false) (hupdate : ∀ p, call ≠ .updatePort p) :
    refuse n call = none := hworst.rest n call (not_misread h) hupdate

/-- Ports are deleted, and nothing else is done to any. -/
theorem wp_deleteOrUnbindPort_worst (toDelete : List PortId) (p : PortId) (w : Log State Call Failure) :
    wp (deleteOrUnbindPort env refuse toDelete p) (fun r w' => r = .ok () ∧
      ∀ q, q ∉ toDelete → w'.state.ports q = w.state.ports q) w := by
  unfold deleteOrUnbindPort
  rw [wp_tryExcept]
  by_cases hp : p ∈ toDelete
  · rw [if_pos hp]
    refine wp_act (fun f w' hf _ => ?_) (fun f w' _ hf hw' => ?_) fun w' _ _ hw' => ⟨rfl, fun q hq => ?_⟩
    · cases (not_refused hworst rfl (fun _ h => by cases h)).symm.trans hf
    · split at hf
      · cases hf
      · obtain rfl := Option.some.inj hf
        rw [exceptPost_raise, if_pos rfl, wp_pure]
        exact ⟨rfl, fun q _ => by rw [hw']⟩
    · have hne : q ≠ p := fun h => hq (h ▸ hp)
      rw [hw', ports_deletePort_of_ne hne]
  · rw [if_neg hp]
    refine wp_unbindPort (fun w' hw' => ⟨rfl, fun q _ => by rw [hw']⟩) fun n profile w' hcall _ => ?_
    exact absurd hcall (hworst.update n p)

theorem wp_deleteOrUnbindPorts_worst (ports toDelete : List PortId) (w : Log State Call Failure) :
    wp (deleteOrUnbindPorts env refuse ports toDelete) (fun r w' => r = .ok () ∧
      ∀ q, q ∉ toDelete → w'.state.ports q = w.state.ports q) w := by
  refine wp_forEach ⟨rfl, fun _ _ => rfl⟩ fun p _ w' hw' => ?_
  refine wp_mono (wp_deleteOrUnbindPort_worst hworst toDelete p w') fun r w'' h => ⟨h.1, fun q hq => ?_⟩
  exact (h.2 q hq).trans (hw'.2 q hq)

/-- One network. -/
theorem wp_disconnect_worst (entry : NetId × List Addr) (w : Log State Call Failure) :
    wp (disconnectContainerFromNetwork env refuse c entry) (fun r w' =>
      ((MayStop env c w.state entry → ∃ text, r = .raise (.api text) ∧ Taken text) ∧
        (¬ MayStop env c w.state entry → r = .ok ())) ∧
      ∀ p, p ∉ Neutron.ownPorts entry.2 → w'.state.ports p = w.state.ports p) w := by
  unfold disconnectContainerFromNetwork
  rw [wp_tryFinally]
  have hports := fun w' => wp_deleteOrUnbindPorts_worst hworst (Neutron.allPorts entry.2) (Neutron.ownPorts entry.2) w'
  cases hid : c.containerId with
  | none =>
      rw [wp_pure, finallyPost_ok]
      refine wp_mono (hports w) fun r w' h => ?_
      obtain ⟨rfl, h⟩ := h
      refine ⟨⟨?_, fun _ => rfl⟩, h⟩
      rintro ⟨id, hsome, -⟩
      cases hid.symm.trans hsome
  | some id =>
      have hstop : ∀ {f : Failure} {w'}, w'.state.ports = w.state.ports → MayStop env c w.state entry →
          (∃ text, f = .api text ∧ Taken text) →
          finallyPost (deleteOrUnbindPorts env refuse (Neutron.allPorts entry.2) (Neutron.ownPorts entry.2))
            (fun (r : Result Failure Unit) (w' : Log State Call Failure) =>
              ((MayStop env c w.state entry → ∃ text, r = .raise (.api text) ∧ Taken text) ∧
                (¬ MayStop env c w.state entry → r = .ok ())) ∧
              ∀ p, p ∉ Neutron.ownPorts entry.2 → w'.state.ports p = w.state.ports p) (.raise f) w' := by
        rintro f w' hw' hmay ⟨text, rfl, htaken⟩
        rw [finallyPost_raise]
        refine wp_mono (hports w') fun r w'' h => ?_
        obtain ⟨rfl, h⟩ := h
        refine ⟨⟨fun _ => ⟨text, rfl, htaken⟩, fun hnot => absurd hmay hnot⟩, fun p hp => ?_⟩
        rw [← hw']
        exact h p hp
      refine wp_act (fun f w' hf hw' => ?_) (fun f w' _ hf hw' => ?_) fun w' hcall hanswer hw' => ?_
      · by_cases hmis : Misread env (.disconnect id entry.1)
        · obtain ⟨text, htext, htaken⟩ := hworst.misread w.log.length _ hmis
          obtain rfl := Option.some.inj (hf.symm.trans htext)
          exact hstop (by rw [hw']) ⟨id, hid, .inr hmis⟩ ⟨text, rfl, htaken⟩
        · cases (hworst.rest _ _ hmis fun _ h => by cases h).symm.trans hf
      · have hne : w.state.refusesDisconnect id entry.1 ≠ none := fun hnone => by cases hnone.symm.trans hf
        exact hstop (by rw [hw']) ⟨id, hid, .inl hne⟩ (taken_refusesDisconnect hf)
      · rw [finallyPost_ok]
        refine wp_mono (hports w') fun r w'' h => ?_
        obtain ⟨rfl, h⟩ := h
        refine ⟨⟨?_, fun _ => rfl⟩, fun p hp => ?_⟩
        · rintro ⟨id', hid', hne | hmis⟩
          · obtain rfl := Option.some.inj (hid.symm.trans hid')
            exact absurd hanswer hne
          · obtain rfl := Option.some.inj (hid.symm.trans hid')
            obtain ⟨text, htext, -⟩ := hworst.misread w.log.length _ hmis
            cases hcall.symm.trans htext
        · exact (h p hp).trans (by rw [hw']; rfl)

/-- The networks. -/
theorem wp_networks_worst : ∀ {entries : List (NetId × List Addr)}, (entries.map (·.1)).Nodup →
    ∀ w : Log State Call Failure, wp (forEach entries (disconnectContainerFromNetwork env refuse c)) (fun r w' =>
      (((∃ entry ∈ entries, MayStop env c w.state entry) → ∃ text, r = .raise (.api text) ∧ Taken text) ∧
        ((∀ entry ∈ entries, ¬ MayStop env c w.state entry) → r = .ok ())) ∧
      ∀ p, (∀ entry, Reached env c w.state entries entry → p ∉ Neutron.ownPorts entry.2) →
        w'.state.ports p = w.state.ports p) w
  | [], _, w => by
      refine ⟨⟨?_, fun _ => rfl⟩, fun _ _ => rfl⟩
      rintro ⟨entry, hentry, -⟩
      exact absurd hentry List.not_mem_nil
  | e :: entries, hnodup, w => by
      obtain ⟨he, hnodup⟩ := List.nodup_cons.mp hnodup
      show wp (andThen (disconnectContainerFromNetwork env refuse c e) fun _ => forEach entries _) _ w
      rw [wp_andThen]
      have hbeside : wp (disconnectContainerFromNetwork env refuse c e) (fun _ => Beside e.1 w) w :=
        (beside_disconnectContainerFromNetwork e).wp w
      refine wp_mono (wp_and (wp_disconnect_worst hworst e w) hbeside) fun r w' hr => ?_
      have hsame : ∀ e' ∈ entries, MayStop env c w'.state e' ↔ MayStop env c w.state e' := fun e' he' =>
        mayStop_iff hr.2 fun heq => he (List.mem_map.mpr ⟨e', he', heq⟩)
      by_cases hstop : MayStop env c w.state e
      · obtain ⟨text, rfl, htaken⟩ := hr.1.1.1 hstop
        refine ⟨⟨fun _ => ⟨text, rfl, htaken⟩, fun h => absurd hstop (h e (List.mem_cons_self ..))⟩, fun p hp => ?_⟩
        exact hr.1.2 p (hp e (reached_cons.mpr (.inl rfl)))
      · obtain rfl := hr.1.1.2 hstop
        rw [seqPost_ok]
        refine wp_mono (wp_networks_worst hnodup w') fun r w'' hrest => ⟨⟨?_, fun h => ?_⟩, fun p hp => ?_⟩
        · rintro ⟨entry, hentry, hmay⟩
          rcases List.mem_cons.mp hentry with rfl | hentry
          · exact absurd hmay hstop
          · exact hrest.1.1 ⟨entry, hentry, (hsame entry hentry).mpr hmay⟩
        · exact hrest.1.2 fun entry hentry hmay =>
            h entry (List.mem_cons_of_mem _ hentry) ((hsame entry hentry).mp hmay)
        · rw [hrest.2 p fun entry hentry => hp entry (reached_cons.mpr (.inr ⟨hstop, ?_⟩))]
          · exact hr.1.2 p (hp e (reached_cons.mpr (.inl rfl)))
          · exact reached_congr (fun e' he' => (hsame e' he').symm) hentry

/-- The removal of the container. -/
theorem wp_removeContainer_worst (w : Log State Call Failure) :
    wp (removeContainer refuse c force) (fun r w' =>
      ((∀ id, c.containerId = some id → w.state.held id force = true → ¬ Misread env (.removeContainer id) →
        Taken (stillRunning id)) → Quietly r) ∧
      (∀ id, c.containerId = some id → Spares env force w.state id → w'.state.containers id = w.state.containers id) ∧
      w'.state.ports = w.state.ports) w := by
  unfold removeContainer
  cases hid : c.containerId with
  | none => exact ⟨fun _ => quietly_ok, fun id h => (by cases h), rfl⟩
  | some id =>
      refine wp_act (fun f w' hf hw' => ⟨fun _ => ?_, ?_, by rw [hw']⟩)
        (fun f w' hcall hf hw' => ⟨fun hheld => ?_, ?_, by rw [hw']⟩) fun w' hcall hanswer hw' =>
          ⟨fun _ => quietly_ok, ?_, by rw [hw']; rfl⟩
      · by_cases hmis : Misread env (.removeContainer id)
        · obtain ⟨text, htext, htaken⟩ := hworst.misread w.log.length _ hmis
          obtain rfl := Option.some.inj (hf.symm.trans htext)
          exact .inr ⟨text, rfl, htaken⟩
        · cases (hworst.rest _ _ hmis fun _ h => by cases h).symm.trans hf
      · rintro id' ⟨⟩ -
        rw [hw']
      · have hmis : ¬ Misread env (.removeContainer id) := by
          intro hmis
          obtain ⟨text, htext, -⟩ := hworst.misread w.log.length _ hmis
          cases hcall.symm.trans htext
        rcases refusesRemoval_cases hf with hnone | ⟨hrunning, rfl⟩
        · unfold State.refusesRemoval at hf
          rw [hnone] at hf
          obtain rfl := Option.some.inj hf
          exact .inr ⟨_, rfl, taken_noContainer id⟩
        · exact .inr ⟨_, rfl, hheld id rfl hrunning hmis⟩
      · rintro id' ⟨⟩ -
        rw [hw']
      · rintro id' ⟨⟩ (hmis | ⟨hheld, -⟩)
        · obtain ⟨text, htext, -⟩ := hworst.misread w.log.length _ hmis
          cases hcall.symm.trans htext
        · cases (refusesRemoval_of_held hheld).symm.trans hanswer

/-- What the worst delete leaves. -/
structure Leaves (env : Env) (c : Container) (force : Bool) (s s' : State) : Prop where
  ports : ∀ p, (∀ entry, Reached env c s c.addresses entry → p ∉ Neutron.ownPorts entry.2) → s'.ports p = s.ports p
  container : ∀ id, c.containerId = some id →
    (∃ entry ∈ c.addresses, MayStop env c s entry) ∨ Spares env force s id → s.containers id ≠ none →
      s'.containers id ≠ none

/-- The part of `delete` whose errors are looked at does not fail for all that `delete` can tell. -/
theorem wp_body_worst {w : Log State Call Failure} (hstuck : ∀ id, ¬ Stuck env c force w.state id) :
    wp (do
      ask refuse .networkDriver
      cleanupNetworkForContainer env refuse c
      removeContainer refuse c force
      pure true)
      (fun r w' => Quietly r ∧ Leaves env c force w.state w'.state) w := by
  rw [wp_bind]
  refine wp_ask (fun f w₁ hcall _ => ?_) fun w₁ _ hw₁ => ?_
  · cases (not_refused hworst rfl fun _ h => by cases h).symm.trans hcall
  rw [seqPost_ok, wp_bind]
  rw [← hw₁] at hstuck ⊢
  have hframe : wp (cleanupNetworkForContainer env refuse c) (fun _ w' => SameHeld w₁ w' ∧ Standing w₁ w') w₁ :=
    wp_and (sameHeld_cleanup.wp w₁) (standing_cleanup.wp w₁)
  refine wp_mono (wp_and (wp_networks_worst hworst c.nets w₁) hframe) fun r w₂ hr => ?_
  obtain ⟨⟨⟨hmay, hpass⟩, hports⟩, hheld, hstanding⟩ := hr
  by_cases hstop : ∃ entry ∈ c.addresses, MayStop env c w₁.state entry
  · obtain ⟨text, rfl, htaken⟩ := hmay hstop
    exact ⟨.inr ⟨text, rfl, htaken⟩, hports, fun id _ _ => hstanding id⟩
  · have hnone : ∀ entry ∈ c.addresses, ¬ MayStop env c w₁.state entry := fun entry hentry h =>
      hstop ⟨entry, hentry, h⟩
    obtain rfl := hpass hnone
    rw [seqPost_ok, wp_bind]
    refine wp_mono (wp_removeContainer_worst hworst w₂) fun r w₃ hr => ?_
    obtain ⟨hquiet, hcontainer, hsame⟩ := hr
    have hquietly : Quietly r := by
      refine hquiet fun id hid hrunning hmis => ?_
      by_contra hplain
      exact hstuck id ⟨hid, (hheld id) ▸ hrunning, hplain, hmis, hnone⟩
    have hleaves : Leaves env c force w₁.state w₃.state := by
      refine ⟨fun p hp => ?_, fun id hid hcase hthere => ?_⟩
      · rw [hsame]
        exact hports p hp
      · have hspares : Spares env force w₂.state id := by
          unfold Spares
          rw [hheld id]
          exact hcase.resolve_left hstop
        rw [hcontainer id hid hspares]
        exact hstanding id hthere
    cases r with
    | halt => exact absurd hquietly not_quietly_halt
    | ok u => exact ⟨quietly_ok, hleaves⟩
    | raise f =>
        obtain ⟨text, rfl, htaken⟩ := taken_of_quietly hquietly
        exact ⟨.inr ⟨text, rfl, htaken⟩, hleaves⟩

theorem wp_delete_worst {w : Log State Call Failure} (hstuck : ∀ id, ¬ Stuck env c force w.state id) :
    wp (delete env refuse c force) (fun r w' => r = .ok () ∧ Leaves env c force w.state w'.state) w := by
  have hask : ∀ {call : Call} {w' : Log State Call Failure} {Q : Result Failure Unit → Log State Call Failure → Prop},
      call.ofDocker = false → (∀ p, call ≠ .updatePort p) → (∀ w'', w''.state = w'.state → Q (.ok ()) w'') →
        wp (ask refuse call) Q w' := fun hcall hupdate hok =>
    wp_ask (fun f _ hf _ => by cases (not_refused hworst hcall hupdate).symm.trans hf) fun w'' _ h => hok w'' h
  unfold delete
  rw [wp_bind]
  refine hask rfl (fun _ h => by cases h) fun w₁ hw₁ => ?_
  rw [seqPost_ok, wp_bind, wp_tryExcept]
  rw [← hw₁] at hstuck ⊢
  have hrelease : ∀ (release : Bool) (w₂ : Log State Call Failure), Leaves env c force w₁.state w₂.state →
      wp (onlyIf (release = true) (ask refuse .releaseNetworks))
        (fun r w' => r = .ok () ∧ Leaves env c force w₁.state w'.state) w₂ := by
    intro release w₂ hleaves
    refine wp_onlyIf (fun _ => hask rfl (fun _ h => by cases h) fun w' hw' => ⟨rfl, ?_⟩) fun _ => ⟨rfl, hleaves⟩
    rwa [hw']
  refine wp_mono (wp_body_worst hworst hstuck) fun r w₂ hr => ?_
  cases r with
  | halt => exact absurd hr.1 not_quietly_halt
  | ok release => exact hrelease release w₂ hr.2
  | raise f =>
      obtain ⟨text, rfl, htaken⟩ := taken_of_quietly hr.1
      rw [exceptPost_raise]
      change wp (if isNotFound text then pure true else if isNotConnected text then pure false else
        raise (Failure.api text)) _ w₂
      split
      · exact hrelease true w₂ hr.2
      · rw [if_pos (htaken.resolve_left ‹_›)]
        exact hrelease false w₂ hr.2

end Worst

/-- Every delete that succeeds is complete if and only if every one raises, or what one may leave is not there. -/
theorem finishes_iff (env : Env) (c : Container) (force : Bool) (s : State) :
    Finishes env c force s ↔ (∃ id, Stuck env c force s id) ∨ Settled env c force s := by
  constructor
  · intro h
    by_cases hstuck : ∃ id, Stuck env c force s id
    · exact .inl hstuck
    · obtain ⟨refuse, hworst⟩ := exists_worst env
      have hworse : (delete env refuse c force ⟨s, []⟩).1 = .ok () ∧
          Leaves env c force s (delete env refuse c force ⟨s, []⟩).2.state :=
        wp_delete_worst hworst (w := ⟨s, []⟩) fun id hid => hstuck ⟨id, hid⟩
      obtain ⟨hok, hleaves⟩ := hworse
      have hcomplete := h refuse hworst.possible hok
      refine .inr ⟨fun id hid hcase => ?_, fun p hp => ?_, fun p hp hother port hport => ?_⟩
      · by_contra hthere
        exact hleaves.container id hid hcase hthere (hcomplete.container id hid)
      · by_contra hnot
        rw [not_or] at hnot
        have hsame := hleaves.ports p fun entry hentry hmem => hnot.2 ⟨entry, hentry, hmem⟩
        exact hnot.1 (hsame.symm.trans (hcomplete.own p hp))
      · have hsame := hleaves.ports p fun entry hentry hmem => hother ?_
        · exact hcomplete.others p hp hother port (hsame.trans hport)
        · obtain ⟨before, after, heq, -⟩ := hentry
          refine List.mem_flatMap.mpr ⟨entry, ?_, hmem⟩
          rw [heq]
          exact List.mem_append_right _ (List.mem_cons_self ..)
  · rintro (⟨id, hid⟩ | h)
    · exact finishes_of_stuck hid
    · exact finishes_of_settled h

/-! ## A container that is gone -/

namespace Gone

/-- Any call may fail, with no error of docker's. -/
def world : Env where
  may _ f := ∃ code, f = .other code
  plain _ _ h _ := h
  refusable _ := ⟨.other 0, 0, rfl⟩

/-- It was on two networks, with a port that Zun made on each. -/
def record : Container where
  containerId := some "c1"
  addresses := [(1, [{ addr := "10.0.1.2", port := 11, preserveOnDelete := false }]),
    (2, [{ addr := "10.0.2.2", port := 12, preserveOnDelete := false }])]
  nets := by decide

def state : State where
  containers _ := none
  networks _ := true
  ports _ := some { deviceId := "c1", deviceOwner := "compute:kuryr", bindingHost := some "compute-1" }

end Gone

/-- The delete succeeds, and the port on the second network is still there. -/
theorem not_finishes : ¬ Finishes Gone.world Gone.record true Gone.state := by
  intro h
  have hcomplete := h (fun _ _ => none) (fun _ _ _ hf => by cases hf) (by decide)
  have hport := hcomplete.own 12 (by decide)
  revert hport
  decide

end DockerDelete

end Zun
