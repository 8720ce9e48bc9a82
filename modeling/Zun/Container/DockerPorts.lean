import Zun.Api.Containers
import Zun.Compute.Protocol
import Zun.Effect.Run
import Zun.Effect.Unless

/-!
# The ports of a docker container

A container on a docker host has its ports in Neutron, and their addresses in its record.  Its
operations are run one after the other under its lock: the create, attaches and detaches of networks,
rebuilds, and the delete.  `Agrees` says that the two views agree when none is running.

A call may fail anywhere.  What follows depends on where: most failures leave both views as they were,
and some are noticed when a port is there already that no saved record names, or is gone that one
names.  `harmful` is the list of these, in terms of the calls that were made before.
-/

namespace Zun

open Effect Prog World

/-! ## The operations -/

namespace Manager

variable (env : Env)

/-- `_do_network_attach`. -/
def doNetworkAttach (u : Uuid) (net : RequestedNetwork) : Prog World Exn Unit :=
  updateTaskState env u .networkAttaching (Docker.networkAttach env u net)

/-- `_do_network_detach`. -/
def doNetworkDetach (u : Uuid) (net : NetId) : Prog World Exn Unit :=
  updateTaskState env u .networkDetaching (Docker.networkDetach env u net)

end Manager

namespace DockerPorts

/-- What is asked of a container. -/
inductive Request where
  | create (nets : List RequestedNetwork) (vols : RequestedVolumes) (pci run : Bool)
  | attach (net : RequestedNetwork)
  | detach (net : NetId)
  | rebuild
  | delete (force : Bool)

/-- A request that is carried out, with the record as it was read for it. -/
structure Event where
  env : Env
  sent : Record
  request : Request

/-- The thread of a request. -/
def perform (u : Uuid) (e : Event) : Prog World Exn Unit :=
  match e.request with
  | .create nets vols pci run => do
      Api.hand u (Obj.of e.sent)
      Manager.containerCreate e.env (defaultDrivers e.env) (.container u) nets vols pci run
  | .attach net => do
      Api.hand u (Obj.of e.sent)
      Manager.whenCaughtUp e.env u (Manager.doNetworkAttach e.env u net)
  | .detach net => do
      Api.hand u (Obj.of e.sent)
      Manager.whenCaughtUp e.env u (Manager.doNetworkDetach e.env u net)
  | .rebuild => Api.rebuild e.env (defaultDrivers e.env) u e.sent
  | .delete force => Api.delete e.env (defaultDrivers e.env) u force e.sent

/-- The world when a request was carried out. -/
def step (u : Uuid) (e : Event) (s : World) : World := (perform u e s).2

end DockerPorts

/-! ## The two views -/

/-- The ports that a record names. -/
def Record.portIds (r : Record) : List PortId := r.addresses.flatMap fun entry => entry.2.map (·.port)

namespace DockerPorts

/-- Neutron and the record agree. -/
structure Agrees (u : Uuid) (s : World) : Prop where
  /-- A port that was made for the container is named in its record. -/
  named : ∀ p ∈ s.ports, p.zunMade = true → ∃ r, s.db u = some r ∧ p.id ∈ r.portIds
  /-- The record names no port that was deleted. -/
  there : ∀ r, s.db u = some r → ∀ id ∈ r.portIds, ∃ p ∈ s.ports, p.id = id
  /-- A record without a host names none, and docker has no container for it. -/
  bare : ∀ r, s.db u = some r → r.host = none → r.addresses = [] ∧ s.dockerContainers = []

/-- The record was just made, and nothing was done for it yet.  Its host is set by the claim. -/
structure Fresh (u : Uuid) (r : Record) (s : World) : Prop where
  row : s.db u = some r
  host : r.host = none
  /-- The API gives every container a memory limit. -/
  memory : r.memory ≠ 0
  addresses : r.addresses = []
  ports : ∀ p ∈ s.ports, p.zunMade = false
  docker : s.dockerContainers = []

/-- What `build_requested_networks` makes: a network for which a port is to be made, or a port that
is there, with its network. -/
def Asks (ports : List Port) (net : RequestedNetwork) : Prop :=
  (net.port = none ∧ net.preserveOnDelete = false) ∨
    ∃ p ∈ ports, net.port = some p.id ∧ p.network = net.network ∧ net.preserveOnDelete = true

/-- The thread ends, and what it was given is what the API and Neutron give. -/
structure Possible (u : Uuid) (e : Event) (s : World) : Prop where
  ends : (perform u e s).1 ≠ .halt
  /-- Every port gets an address. -/
  addressed : ∀ n, e.env.fixedIps n ≠ []
  create : ∀ nets vols pci run, e.request = .create nets vols pci run →
    Fresh u e.sent s ∧ ∀ net ∈ nets, Asks s.ports net
  attach : ∀ net, e.request = .attach net → Asks s.ports net
  /-- A record without a host is deleted by the API, right when it has read it. -/
  delete : ∀ force, e.request = .delete force → e.sent.host = none → s.db u = some e.sent

/-! ## What must not fail -/

/-- The calls that make, bind or delete a port. -/
def movesPort : Call → Bool
  | .createPort _ _ | .updatePort _ | .deletePort _ => true
  | _ => false

/-- The calls of a rebuild that build the container anew. -/
def builds : Call → Bool
  | .readTarImage _ | .securityGroups _ | .createPort _ _ | .updatePort _ => true
  | .docker verb _ => verb == .provisionNetwork || verb == .prepare || verb == .create
      || verb == .connect || verb == .inspect
  | _ => false

def isSave : Call → Bool
  | .save _ _ => true
  | _ => false

/-- A port was made, bound or deleted since the record was last written, in a list of calls with
their answers, newest first. -/
def unrecorded : List (Call × Answer) → Bool
  | [] => false
  | (c, a) :: calls =>
      if a = .ok ∧ isSave c then false else (a == .ok && movesPort c) || unrecorded calls

/-- A call of this kind succeeded. -/
def did (kind : Call → Bool) (calls : List (Call × Answer)) : Prop :=
  ∃ c, (c, Answer.ok) ∈ calls ∧ kind c = true

/-- The call that takes a container off a network. -/
def disconnects : Call → Bool
  | .docker verb _ => verb == .disconnect
  | _ => false

def dropsPort : Call → Bool
  | .deletePort _ => true
  | _ => false

/-- The calls of a delete whose failure is only logged. -/
def onlyLogged (force : Bool) : Call → Bool
  | .removeUsage _ | .deleteAllocation _ | .showPort _ | .unbindPort _ => true
  | .detachVolume _ => force
  | _ => false

/-- An entry of the addresses is on a port that goes with the container. -/
def owned (entry : NetId × List Addr) : Prop := ∃ a ∈ entry.2, a.preserveOnDelete = false

/-- What was raised is of this class. -/
def raised (cls : ExnClass) (a : Answer) : Prop := ∃ e, a = .raise e ∧ e.cls = cls

/-- A call that failed when it must not, given the calls that the operation had made before, and the
record it began with. -/
def harmful (r : Record) (q : Request) (x : Call × Answer) (before : List (Call × Answer)) : Prop :=
  x.2 ≠ .ok ∧ match q with
    | .create _ _ _ _ => unrecorded before = true ∨
        (did movesPort before ∧ raised .resourcesUnavailable x.2)
    | .attach net => net.port = none ∧ unrecorded before = true
    | .detach net => unrecorded before = true ∨
        ((disconnects x.1 = true ∨ (dropsPort x.1 = true ∧ raised .portNotFound x.2)) ∧
          ∃ entry ∈ r.addresses, entry.1 = net ∧ owned entry)
    | .rebuild => unrecorded before = true ∨ builds x.1 = true
    | .delete force => (did dropsPort before ∧ onlyLogged force x.1 = false) ∨
        ((disconnects x.1 = true ∨ dropsPort x.1 = true) ∧ ∃ entry ∈ r.addresses, owned entry)

/-- A harmful failure is among the calls that were made since `calls`. -/
def Spoiled (bad : Call × Answer → List (Call × Answer) → Prop) (calls : List (Call × Answer))
    (s : World) : Prop :=
  ∃ after x before, s.log = after ++ x :: (before ++ calls) ∧ bad x before

/-- A wait for so many volumes to be deleted is never given up. -/
def Prompt (env : Env) (k : Nat) : Prop :=
  ∀ vs : List VolMap, vs.length ≤ k → ∀ s,
    wp (Manager.pollDeleted env env.polls vs) (fun res _ => res ≠ .ok false) s

/-- How many volumes the container may have in an operation. -/
def volumesOf (u : Uuid) (q : Request) (s : World) : Nat :=
  match q with
  | .create _ vols _ _ => Manager.held u s + (vols.of u).length
  | _ => Manager.held u s

/-- No call fails harmfully, no wait for volumes is given up, and nothing is asked of a container that
it is not ready for: an attach needs a host, and a rebuild a network and the record as it is. -/
structure Sound (u : Uuid) (e : Event) (s : World) : Prop where
  calls : ∀ r, s.db u = some r → ¬ Spoiled (harmful r e.request) s.log (step u e s)
  volumes : Prompt e.env (volumesOf u e.request s)
  attach : ∀ net r, e.request = .attach net → s.db u = some r → r.host.isSome
  rebuild : ∀ r, e.request = .rebuild → s.db u = some r →
    (r.addresses ≠ [] ∨ s.dockerContainers = []) ∧
    (r.taskState = none ∨ e.sent.addresses = r.addresses)

end DockerPorts

/-! ## Ports and addresses -/

/-- A port without what it is bound to. -/
def Port.unplugged (p : Port) : Port := { p with device := none }

@[simp] theorem Port.unplugged_id (p : Port) : p.unplugged.id = p.id := rfl

@[simp] theorem Port.unplugged_zunMade (p : Port) : p.unplugged.zunMade = p.zunMade := rfl
@[simp] theorem Port.unplugged_network (p : Port) : p.unplugged.network = p.network := rfl
@[simp] theorem Port.unplugged_fixedIps (p : Port) : p.unplugged.fixedIps = p.fixedIps := rfl

theorem addressesOf_unplugged (keep : Bool) (p : Port) :
    Neutron.addressesOf keep p.unplugged = Neutron.addressesOf keep p := rfl

/-- The ports of Neutron, whatever they are bound to. -/
def World.wires (s : World) : List Port := s.ports.map Port.unplugged

section Wires

variable {s : World}

theorem mem_wires {p : Port} (h : p ∈ s.ports) : p.unplugged ∈ s.wires := List.mem_map_of_mem h

theorem of_mem_wires {p : Port} (h : p ∈ s.wires) : ∃ q ∈ s.ports, q.unplugged = p :=
  List.mem_map.mp h

theorem wires_setDevice (p : PortId) (device : Option Uuid) :
    (Neutron.setDevice p device s).wires = s.wires := by
  show (s.ports.map _).map Port.unplugged = s.ports.map Port.unplugged
  rw [List.map_map]
  refine List.map_congr_left fun q _ => ?_
  show Port.unplugged (if q.id = p then { q with device } else q) = q.unplugged
  split <;> rfl

theorem wires_addPort (p : Port) : (Neutron.addPort p s).wires = p.unplugged :: s.wires := rfl

theorem wires_dropPort (p : PortId) :
    (Neutron.dropPort p s).wires = s.wires.filter (·.id ≠ p) := by
  show (s.ports.filter _).map Port.unplugged = (s.ports.map Port.unplugged).filter _
  rw [List.filter_map]
  rfl

end Wires

namespace DockerPorts

/-- What Neutron makes sure of, given the next id. -/
structure Wired (wires : List Port) (next : Nat) : Prop where
  ids : (wires.map (·.id)).Nodup
  used : ∀ p ∈ wires, p.id < next
  addressed : ∀ p ∈ wires, p.zunMade = true → p.fixedIps ≠ []

/-- A port of a rebuild whose turn is still to come. -/
def Awaited (addresses : List (NetId × List Addr)) (rest : List RequestedNetwork) (p : Port) : Prop :=
  (rest.map (·.network)).Nodup ∧ p.network ∉ addresses.map (·.1) ∧
    ∃ net ∈ rest, net.network = p.network ∧ net.port = some p.id

/-- Some addresses are on ports that are there, one a network, and have every port that was made but
for those whose turn is still to come. -/
structure Placed (wires : List Port) (addresses : List (NetId × List Addr))
    (rest : List RequestedNetwork) : Prop where
  nets : (addresses.map (·.1)).Nodup
  entries : ∀ entry ∈ addresses, ∃ p ∈ wires, p.network = entry.1 ∧
    entry.2 = Neutron.addressesOf (!p.zunMade) p
  made : ∀ p ∈ wires, p.zunMade = true →
    (p.network, Neutron.addressesOf false p) ∈ addresses ∨ Awaited addresses rest p

/-- What an operation is asked of a network, for the ports there are. -/
def Asked (wires : List Port) (net : RequestedNetwork) : Prop :=
  (net.port = none ∧ net.preserveOnDelete = false) ∨
    ∃ p ∈ wires, net.port = some p.id ∧ p.network = net.network ∧ net.preserveOnDelete = !p.zunMade

section Placed

variable {wires : List Port} {addresses : List (NetId × List Addr)} {rest : List RequestedNetwork}
  {net : RequestedNetwork} {p q : Port} {next : Nat}

theorem Wired.eq_of_id (h : Wired wires next) (hp : p ∈ wires) (hq : q ∈ wires) (hid : p.id = q.id) :
    p = q := List.inj_on_of_nodup_map h.ids hp hq hid

theorem Wired.mono (h : Wired wires next) {next' : Nat} (hle : next ≤ next') : Wired wires next' :=
  ⟨h.ids, fun p hp => Nat.lt_of_lt_of_le (h.used p hp) hle, h.addressed⟩

theorem Wired.add (h : Wired wires next) (hid : p.id = next) (hips : p.fixedIps ≠ []) :
    Wired (p :: wires) (next + 1) where
  ids := by
    rw [List.map_cons, List.nodup_cons]
    refine ⟨fun hmem => ?_, h.ids⟩
    obtain ⟨q, hq, heq⟩ := List.mem_map.mp hmem
    exact Nat.lt_irrefl _ ((heq.trans hid) ▸ h.used q hq)
  used q hq := by
    rcases List.mem_cons.mp hq with rfl | hq
    · exact hid ▸ Nat.lt_succ_self _
    · exact Nat.lt_succ_of_lt (h.used q hq)
  addressed q hq hmade := by
    rcases List.mem_cons.mp hq with rfl | hq
    · exact hips
    · exact h.addressed q hq hmade

theorem Wired.drop (h : Wired wires next) (id : PortId) : Wired (wires.filter (·.id ≠ id)) next where
  ids := h.ids.sublist (List.filter_sublist.map _)
  used p hp := h.used p (List.mem_of_mem_filter hp)
  addressed p hp := h.addressed p (List.mem_of_mem_filter hp)

/-- A port's addresses say whether it is kept, if it has any. -/
theorem addressesOf_ne (hips : p.fixedIps ≠ []) :
    Neutron.addressesOf false p ≠ Neutron.addressesOf true q := by
  unfold Neutron.addressesOf
  cases hp : p.fixedIps with
  | nil => exact absurd hp hips
  | cons ip ips =>
      cases hq : q.fixedIps with
      | nil => simp
      | cons ip' ips' => simp

/-- A network has one entry. -/
theorem entry_unique {n m : NetId} {a b : List Addr} (h : (addresses.map (·.1)).Nodup)
    (ha : (n, a) ∈ addresses) (hb : (m, b) ∈ addresses) (hnm : n = m) : a = b := by
  have heq := List.inj_on_of_nodup_map h ha hb hnm
  exact congrArg Prod.snd heq

theorem mem_ports_addressesOf {keep : Bool} (hips : p.fixedIps ≠ []) :
    p.id ∈ (Neutron.addressesOf keep p).map (·.port) := by
  rw [Neutron.ports_addressesOf]
  exact List.mem_replicate.mpr ⟨by simpa using hips, rfl⟩

/-- A network that is passed over has its port already. -/
theorem Placed.skip (h : Placed wires addresses (net :: rest))
    (hnet : net.network ∈ addresses.map (·.1)) : Placed wires addresses rest where
  nets := h.nets
  entries := h.entries
  made p hp hmade := by
    rcases h.made p hp hmade with hin | ⟨hnodup, hout, net', hmem, hnet', hport⟩
    · exact .inl hin
    · refine .inr ⟨(List.nodup_cons.mp hnodup).2, hout, net', ?_, hnet', hport⟩
      rcases List.mem_cons.mp hmem with rfl | hmem
      · rw [hnet'] at hnet
        exact absurd hnet hout
      · exact hmem

theorem Placed.nodup_add (h : Placed wires addresses rest) {n : NetId}
    (hnew : n ∉ addresses.map (·.1)) (addrs : List Addr) :
    ((addresses ++ [(n, addrs)]).map (·.1)).Nodup := by
  rw [List.map_append, List.map_singleton]
  refine List.Nodup.append h.nets (List.nodup_singleton _) fun m hm hm' => ?_
  rw [List.mem_singleton.mp hm'] at hm
  exact hnew hm

/-- A port whose turn was to come and is still. -/
theorem Awaited.tail (h : Awaited addresses (net :: rest) p) (hport : net.port ≠ some p.id)
    (addrs : List Addr) : Awaited (addresses ++ [(net.network, addrs)]) rest p := by
  obtain ⟨hnodup, hout, net', hmem, hnet', hport'⟩ := h
  rw [List.map_cons, List.nodup_cons] at hnodup
  rcases List.mem_cons.mp hmem with rfl | hmem
  · exact absurd hport' hport
  refine ⟨hnodup.2, fun hin => ?_, net', hmem, hnet', hport'⟩
  rw [List.map_append, List.mem_append, List.map_singleton, List.mem_singleton] at hin
  rcases hin with hin | hin
  · exact hout hin
  · exact hnodup.1 (List.mem_map.mpr ⟨net', hmem, hnet'.trans hin⟩)

/-- A port that is there is put in the addresses. -/
theorem Placed.bind (h : Placed wires addresses (net :: rest)) (hwired : Wired wires next)
    (hp : p ∈ wires) (hport : net.port = some p.id) (hnet : p.network = net.network)
    (hnew : net.network ∉ addresses.map (·.1)) :
    Placed wires (addresses ++ [(net.network, Neutron.addressesOf (!p.zunMade) p)]) rest where
  nets := h.nodup_add hnew _
  entries entry hentry := by
    rcases List.mem_append.mp hentry with hentry | hentry
    · exact h.entries entry hentry
    · rw [List.mem_singleton.mp hentry]
      exact ⟨p, hp, hnet, rfl⟩
  made q hq hmade := by
    rcases h.made q hq hmade with hin | hawaited
    · exact .inl (List.mem_append_left _ hin)
    · by_cases hqp : net.port = some q.id
      · have heq : q = p := hwired.eq_of_id hq hp (Option.some.inj (hqp.symm.trans hport))
        subst heq
        refine .inl (List.mem_append_right _ (List.mem_singleton.mpr ?_))
        rw [hmade, hnet]
        rfl
      · exact .inr (hawaited.tail hqp _)

/-- A port is made and put in the addresses. -/
theorem Placed.make (h : Placed wires addresses (net :: rest)) (hport : net.port = none)
    (hmade : p.zunMade = true) (hnet : p.network = net.network)
    (hnew : net.network ∉ addresses.map (·.1)) :
    Placed (p :: wires) (addresses ++ [(net.network, Neutron.addressesOf false p)]) rest where
  nets := h.nodup_add hnew _
  entries entry hentry := by
    rcases List.mem_append.mp hentry with hentry | hentry
    · obtain ⟨q, hq, hrest⟩ := h.entries entry hentry
      exact ⟨q, List.mem_cons_of_mem _ hq, hrest⟩
    · rw [List.mem_singleton.mp hentry]
      exact ⟨p, List.mem_cons_self, hnet, by rw [hmade]; rfl⟩
  made q hq hqmade := by
    rcases List.mem_cons.mp hq with rfl | hq
    · exact .inl (List.mem_append_right _ (List.mem_singleton.mpr (by rw [hnet])))
    · rcases h.made q hq hqmade with hin | hawaited
      · exact .inl (List.mem_append_left _ hin)
      · exact .inr (hawaited.tail (by rw [hport]; nofun) _)

/-- An entry is put off, when its port is none of those that were made or has gone with it. -/
theorem Placed.without (h : Placed wires addresses []) (hwired : Wired wires next) (hp : p ∈ wires)
    (hmem : (p.network, Neutron.addressesOf (!p.zunMade) p) ∈ addresses) (gone : Bool)
    (hgone : p.zunMade = true → gone = true) :
    Placed (if gone then wires.filter (·.id ≠ p.id) else wires)
      (addresses.filter (·.1 ≠ p.network)) [] := by
  have hthere (q : Port) (hq : q ∈ wires) (hqn : q.network ≠ p.network) :
      q ∈ if gone then wires.filter (·.id ≠ p.id) else wires := by
    split
    · refine List.mem_filter.mpr ⟨hq, decide_eq_true fun hid => hqn ?_⟩
      rw [hwired.eq_of_id hq hp hid]
    · exact hq
  have hold (q : Port) (hq : q ∈ if gone then wires.filter (·.id ≠ p.id) else wires) : q ∈ wires := by
    split at hq
    · exact List.mem_of_mem_filter hq
    · exact hq
  refine ⟨h.nets.sublist (List.filter_sublist.map _), fun entry hentry => ?_, fun q hq hmade => ?_⟩
  · obtain ⟨hentry, hne⟩ := List.mem_filter.mp hentry
    obtain ⟨q, hq, hqnet, haddrs⟩ := h.entries entry hentry
    exact ⟨q, hthere q hq (by rw [hqnet]; exact of_decide_eq_true hne), hqnet, haddrs⟩
  · have hqw := hold q hq
    have hin : (q.network, Neutron.addressesOf false q) ∈ addresses := by
      rcases h.made q hqw hmade with hin | ⟨-, -, net, hmem, -⟩
      · exact hin
      · cases hmem
    refine .inl (List.mem_filter.mpr ⟨hin, decide_eq_true fun hqn => ?_⟩)
    -- The only port of this network that was made is the one that is put off.
    have heq := entry_unique h.nets hin hmem hqn
    cases hpmade : p.zunMade with
    | false =>
        rw [hpmade] at heq
        exact addressesOf_ne (hwired.addressed q hqw hmade) heq
    | true =>
        rw [hpmade] at heq
        have hid : q.id ∈ (Neutron.addressesOf false p).map (·.port) := by
          rw [← show Neutron.addressesOf false q = Neutron.addressesOf false p from heq]
          exact mem_ports_addressesOf (hwired.addressed q hqw hmade)
        rw [Neutron.ports_addressesOf] at hid
        rw [if_pos (hgone hpmade)] at hq
        exact of_decide_eq_true (List.mem_filter.mp hq).2 (List.eq_of_mem_replicate hid)

end Placed

/-! ## The states of an operation -/

variable {u : Uuid} {k : Nat} {calls : List (Call × Answer)} {Q : List Port → Prop}
  {strict clean : Bool} {s s' : World}

/-- Neither what Neutron has nor what the record says of it changed, nor the object in memory. -/
structure Level (u : Uuid) (s s' : World) : Prop where
  wires : s'.wires = s.wires
  next : s.nextId ≤ s'.nextId
  row : s'.db u = s.db u
  docker : s.dockerContainers = [] → s'.dockerContainers = []
  host : (s'.mem u).val.host = (s.mem u).val.host
  addresses : (s'.mem u).val.addresses = (s.mem u).val.addresses
  changed : (s'.mem u).changed.addresses = (s.mem u).changed.addresses
  memory : (s'.mem u).val.memory = (s.mem u).val.memory
  maps : s'.volmaps.Sublist s.volmaps
  log : s.log <:+ s'.log

theorem level_turn (env : Env) (c : Call) (s : World) : Level u s (s.turn env c) :=
  ⟨rfl, Nat.le_refl _, rfl, id, rfl, rfl, rfl, rfl, List.Sublist.refl _, List.suffix_cons ..⟩

theorem level_setDevice (p : PortId) (device : Option Uuid) (s : World) :
    Level u s (Neutron.setDevice p device s) :=
  ⟨wires_setDevice p device, Nat.le_refl _, rfl, id, rfl, rfl, rfl, rfl, List.Sublist.refl _,
    List.suffix_refl _⟩

theorem level_undock (f : RuntimeId → Bool) (s : World) :
    Level u s { s with dockerContainers := s.dockerContainers.filter f } :=
  ⟨rfl, Nat.le_refl _, rfl, fun h => by rw [h]; rfl, rfl, rfl, rfl, rfl, List.Sublist.refl _,
    List.suffix_refl _⟩

theorem level_moved {maps : List VolMap} (conn : List Nat) (h : maps.Sublist s.volmaps) :
    Level u s { s with volmaps := maps, connected := conn } :=
  ⟨rfl, Nat.le_refl _, rfl, id, rfl, rfl, rfl, rfl, h, List.suffix_refl _⟩

theorem level_freed (v : Uuid) (s : World) :
    Level u s { s with allocations := Function.update s.allocations v false } :=
  ⟨rfl, Nat.le_refl _, rfl, id, rfl, rfl, rfl, rfl, List.Sublist.refl _, List.suffix_refl _⟩

/-- An assignment to other fields. -/
theorem level_setMem {v : Uuid} {f : Obj → Obj} (hhost : ∀ o, (f o).val.host = o.val.host)
    (haddr : ∀ o, (f o).val.addresses = o.val.addresses)
    (hchanged : ∀ o, (f o).changed.addresses = o.changed.addresses)
    (hmemory : ∀ o, (f o).val.memory = o.val.memory) (s : World) : Level u s (s.setMem v f) := by
  by_cases hv : u = v
  · subst hv
    refine ⟨rfl, Nat.le_refl _, rfl, id, ?_, ?_, ?_, ?_, List.Sublist.refl _, List.suffix_refl _⟩
    all_goals rw [setMem_mem_self]
    · exact hhost _
    · exact haddr _
    · exact hchanged _
    · exact hmemory _
  · refine ⟨rfl, Nat.le_refl _, rfl, id, ?_, ?_, ?_, ?_, List.Sublist.refl _, List.suffix_refl _⟩
    all_goals rw [setMem_mem_of_ne hv]

/-- A record of another row is saved. -/
theorem level_saved_of_ne {v : Uuid} (hv : u ≠ v) (row : Record) (s : World) :
    Level u s (s.saved v row) := by
  refine ⟨rfl, Nat.le_refl _, saved_db_of_ne hv row, id, ?_, ?_, ?_, ?_, List.Sublist.refl _,
    List.suffix_refl _⟩
  all_goals rw [saved_mem_of_ne hv]

theorem held_mono (h : s'.volmaps.Sublist s.volmaps) : Manager.held u s' ≤ Manager.held u s :=
  h.countP_le

/-- What is so between two operations. -/
structure Rests (u : Uuid) (s : World) : Prop where
  wired : Wired s.wires s.nextId
  gone : s.db u = none → ∀ p ∈ s.wires, p.zunMade = false
  placed : ∀ r, s.db u = some r → Placed s.wires r.addresses []
  bare : ∀ r, s.db u = some r → r.host = none → r.addresses = [] ∧ s.dockerContainers = []

/-- What is so in an operation when it is not about ports: the row is as it should be, and so is the
object, or at least what it would write.  A host may be missing only where there is nothing else. -/
structure Settled (u : Uuid) (k : Nat) (calls : List (Call × Answer)) (Q : List Port → Prop)
    (strict clean : Bool) (s : World) : Prop where
  wired : Wired s.wires s.nextId
  row : ∃ r, s.db u = some r ∧ Placed s.wires r.addresses [] ∧
    (r.host = none ∨ (s.mem u).val.host = none →
      r.addresses = [] ∧ (s.mem u).val.addresses = [] ∧ s.dockerContainers = [])
  obj : strict = true ∨ (s.mem u).changed.addresses = true →
    Placed s.wires (s.mem u).val.addresses []
  clean : clean = true → (s.mem u).changed.addresses = false
  ports : Q s.wires
  few : Manager.held u s ≤ k
  since : calls <:+ s.log

/-- Nothing was made for the container so far. -/
structure Unmade (u : Uuid) (calls : List (Call × Answer)) (s : World) : Prop where
  wired : Wired s.wires s.nextId
  row : ∃ r, s.db u = some r ∧ r.addresses = []
  obj : (s.mem u).val.addresses = []
  ports : ∀ p ∈ s.wires, p.zunMade = false
  docker : s.dockerContainers = []
  since : calls <:+ s.log

theorem Rests.congr (h : Rests u s) (hs : Level u s s') : Rests u s' where
  wired := by
    rw [hs.wires]
    exact h.wired.mono hs.next
  gone hnone := by
    rw [hs.wires]
    exact h.gone (hs.row ▸ hnone)
  placed r hr := by
    rw [hs.wires]
    exact h.placed r (hs.row ▸ hr)
  bare r hr hhost := by
    obtain ⟨haddr, hdocker⟩ := h.bare r (hs.row ▸ hr) hhost
    exact ⟨haddr, hs.docker hdocker⟩

theorem Settled.congr (h : Settled u k calls Q strict clean s) (hs : Level u s s') :
    Settled u k calls Q strict clean s' where
  wired := by
    rw [hs.wires]
    exact h.wired.mono hs.next
  row := by
    obtain ⟨r, hr, hplaced, hbare⟩ := h.row
    refine ⟨r, hs.row.trans hr, by rw [hs.wires]; exact hplaced, fun hhost => ?_⟩
    rw [hs.host] at hhost
    obtain ⟨haddr, hobj, hdocker⟩ := hbare hhost
    exact ⟨haddr, hs.addresses.trans hobj, hs.docker hdocker⟩
  obj hwrite := by
    rw [hs.changed] at hwrite
    rw [hs.wires, hs.addresses]
    exact h.obj hwrite
  clean hclean := hs.changed.trans (h.clean hclean)
  ports := by
    rw [hs.wires]
    exact h.ports
  few := Nat.le_trans (held_mono hs.maps) h.few
  since := h.since.trans hs.log

theorem Unmade.congr (h : Unmade u calls s) (hs : Level u s s') : Unmade u calls s' where
  wired := by
    rw [hs.wires]
    exact h.wired.mono hs.next
  row := by
    obtain ⟨r, hr, haddr⟩ := h.row
    exact ⟨r, hs.row.trans hr, haddr⟩
  obj := hs.addresses.trans h.obj
  ports := by
    rw [hs.wires]
    exact h.ports
  docker := hs.docker h.docker
  since := h.since.trans hs.log

/-- A set of worlds that is left only by what changes one of the two views. -/
class Leveled (u : outParam Uuid) (I : World → Prop) : Prop where
  congr {s s' : World} : I s → Level u s s' → I s'

instance : Leveled u (Rests u) := ⟨Rests.congr⟩
instance : Leveled u (Settled u k calls Q strict clean) := ⟨Settled.congr⟩
instance : Leveled u (Unmade u calls) := ⟨Unmade.congr⟩

section Leveled

variable {I : World → Prop} {env : Env}

theorem leveled_turn [Leveled u I] (c : Call) (h : I s) : I (s.turn env c) := Leveled.congr h (level_turn env c s)

instance [Leveled u I] : Bystander env (Kept I) where
  turned c _ _ h := leveled_turn c h

instance [Leveled u I] : Mobile (Kept I) where
  moved _ conn hmaps h := Leveled.congr h (level_moved conn hmaps)

instance [Leveled u I] : Freeing (Kept I) where
  freed v h := Leveled.congr h (level_freed v _)

/-- A call that moves nothing but what Neutron's ports are bound to, or that takes a container of
docker's away. -/
theorem leveled_call [Leveled u I] {c : Call} {effect : World → World} (h : ∀ s, Level u s (effect s)) :
    Within (Kept I) (call env c effect) :=
  within_call (fun _ hs => leveled_turn c hs) fun _ hs => Leveled.congr (leveled_turn c hs) (h _)

theorem leveled_assign [Leveled u I] {v : Uuid} {f : Obj → Obj} (hhost : ∀ o, (f o).val.host = o.val.host)
    (haddr : ∀ o, (f o).val.addresses = o.val.addresses)
    (hchanged : ∀ o, (f o).changed.addresses = o.changed.addresses)
    (hmemory : ∀ o, (f o).val.memory = o.val.memory) : Within (Kept I) (assign v f) :=
  within_modify fun s hs => Leveled.congr hs (level_setMem hhost haddr hchanged hmemory s)

end Leveled

/-! ### Saves -/

theorem merged_addresses (row : Record) : (s.merged u row).addresses =
    if (s.mem u).changed.addresses then (s.mem u).val.addresses else row.addresses := rfl

theorem Settled.saved (h : Settled u k calls Q strict clean s) {row : Record} {clean' : Bool}
    (hrow : s.db u = some row) : Settled u k calls Q strict clean' (s.saved u row) where
  wired := h.wired
  row := by
    obtain ⟨r, hr, hplaced, hbare⟩ := h.row
    cases hrow.symm.trans hr
    refine ⟨_, saved_db_self row, ?_, fun hhost => ?_⟩
    · show Placed s.wires _ []
      rw [merged_addresses]
      split
      case isTrue hchanged => exact h.obj (.inr hchanged)
      case isFalse => exact hplaced
    · rw [saved_val] at hhost
      have hbare' : row.host = none ∨ (s.mem u).val.host = none := by
        rcases hhost with hhost | hhost
        · rcases merged_host (s := s) (u := u) row with heq | heq
          · exact .inr (heq.symm.trans hhost)
          · exact .inl (heq.symm.trans hhost)
        · exact .inr hhost
      obtain ⟨haddr, hobj, hdocker⟩ := hbare hbare'
      refine ⟨?_, ?_, hdocker⟩
      · rw [merged_addresses, haddr, hobj]
        split <;> rfl
      · rw [saved_val]
        exact hobj
  obj hwrite := by
    rw [saved_mem_self] at hwrite ⊢
    rcases hwrite with hstrict | hchanged
    · exact h.obj (.inl hstrict)
    · cases hchanged
  clean _ := by
    rw [saved_mem_self]
    rfl
  ports := h.ports
  few := h.few
  since := h.since

theorem Settled.row_isSome (h : Settled u k calls Q strict clean s) : ∃ row, s.db u = some row := by
  obtain ⟨r, hr, -⟩ := h.row
  exact ⟨r, hr⟩

theorem Settled.rests (h : Settled u k calls Q strict clean s) : Rests u s where
  wired := h.wired
  gone hnone := by
    obtain ⟨r, hr, -⟩ := h.row
    cases hnone.symm.trans hr
  placed r hr := by
    obtain ⟨r', hr', hplaced, -⟩ := h.row
    cases hr.symm.trans hr'
    exact hplaced
  bare r hr hhost := by
    obtain ⟨r', hr', -, hbare⟩ := h.row
    cases hr.symm.trans hr'
    obtain ⟨haddr, -, hdocker⟩ := hbare (.inl hhost)
    exact ⟨haddr, hdocker⟩

/-- What is known less of. -/
theorem Settled.weaken (h : Settled u k calls Q strict clean s) {Q' : List Port → Prop}
    (hQ : ∀ wires, Q wires → Q' wires) : Settled u k calls Q' false false s :=
  ⟨h.wired, h.row, fun hwrite => h.obj (hwrite.elim nofun .inr), nofun, hQ _ h.ports, h.few, h.since⟩

instance : Lenient (Kept (Settled u k calls Q strict clean)) where
  assign hf h := h.congr (level_setMem hf.sameHost hf.addresses hf.addressesChanged hf.memory _)
  save {s v row} hrow h := by
    by_cases hv : u = v
    · subst hv
      exact h.saved hrow
    · exact h.congr (level_saved_of_ne hv row s)

theorem Unmade.saved (h : Unmade u calls s) {row : Record} (hrow : s.db u = some row) :
    Unmade u calls (s.saved u row) where
  wired := h.wired
  row := by
    obtain ⟨r, hr, haddr⟩ := h.row
    cases hrow.symm.trans hr
    refine ⟨_, saved_db_self row, ?_⟩
    rw [merged_addresses, haddr, h.obj]
    split <;> rfl
  obj := by
    rw [saved_val]
    exact h.obj
  ports := h.ports
  docker := h.docker
  since := h.since

theorem Unmade.setMem (h : Unmade u calls s) {v : Uuid} {f : Obj → Obj}
    (haddr : ∀ o, (f o).val.addresses = o.val.addresses) : Unmade u calls (s.setMem v f) where
  wired := h.wired
  row := h.row
  obj := by
    by_cases hv : u = v
    · subst hv
      rw [setMem_mem_self, haddr]
      exact h.obj
    · rw [setMem_mem_of_ne hv]
      exact h.obj
  ports := h.ports
  docker := h.docker
  since := h.since

theorem placed_nil {wires : List Port} (h : ∀ p ∈ wires, p.zunMade = false) : Placed wires [] [] :=
  ⟨List.nodup_nil, fun _ hmem => absurd hmem List.not_mem_nil,
    fun p hp hmade => absurd (hmade.symm.trans (h p hp)) nofun⟩

theorem Unmade.rests (h : Unmade u calls s) : Rests u s where
  wired := h.wired
  gone _ := h.ports
  placed r hr := by
    obtain ⟨r', hr', haddr⟩ := h.row
    cases hr.symm.trans hr'
    rw [haddr]
    exact placed_nil h.ports
  bare r hr _ := by
    obtain ⟨r', hr', haddr⟩ := h.row
    cases hr.symm.trans hr'
    exact ⟨haddr, h.docker⟩

instance : Easy (Kept (Unmade u calls)) where
  assign hf h := h.setMem hf.addresses
  save {s v row} hrow h := by
    by_cases hv : u = v
    · subst hv
      exact h.saved hrow
    · exact h.congr (level_saved_of_ne hv row s)

/-! ## What has gone wrong stays wrong -/

section Spoiled

variable {bad : Call × Answer → List (Call × Answer) → Prop} {I : World → Prop}
  {J : Unit → World → Prop} {E : Exn → World → Prop} {env : Env}

theorem Spoiled.mono (h : Spoiled bad calls s) (hlog : s.log <:+ s'.log) : Spoiled bad calls s' := by
  obtain ⟨after, x, before, hs, hbad⟩ := h
  obtain ⟨more, hmore⟩ := hlog
  exact ⟨more ++ after, x, before, by rw [← hmore, hs, List.append_assoc], hbad⟩

instance : Loose (Kept (Spoiled bad calls)) := Loose.of fun _ _ hs h => h.mono hs.log

instance : Tolerant (Kept (Spoiled bad calls)) where
  assign _ h := h
  save _ h := h

theorem spoiled_turn {c : Call} {e : Exn} {before : List (Call × Answer)}
    (hlog : s.log = before ++ calls) (hanswer : env.answer s.tick c = .raise e)
    (hbad : bad (c, .raise e) before) : Spoiled bad calls (s.turn env c) := by
  refine ⟨[], (c, .raise e), before, ?_, hbad⟩
  show (c, env.answer s.tick c) :: s.log = _
  rw [hanswer, hlog]
  rfl

/-- The rule for a call. -/
theorem unless_call {c : Call} {effect : World → World} (hlog : ∀ s, (effect s).log = s.log)
    (hok : ∀ s, I s → env.answer s.tick c = .ok → J () (effect (s.turn env c)))
    (hraise : ∀ s e, I s → env.answer s.tick c = .raise e →
      Spoiled bad calls (s.turn env c) ∨ E e (s.turn env c)) :
    Unless (Spoiled bad calls) I J E (call env c effect) where
  kept := within_call (fun s h => h.mono (List.suffix_cons ..)) fun s h => h.mono (by
    rw [hlog]
    exact List.suffix_cons ..)
  ends s hs := by
    refine wp_call (fun hanswer => .inr (hok s hs hanswer)) (fun e hanswer => ?_) fun _ => .inr trivial
    rcases hraise s e hs hanswer with hbad | hend
    · exact .inl hbad
    · exact .inr hend

/-- The rule for a `save` of a record that is there. -/
theorem unless_save {v : Uuid} (hthere : ∀ s, I s → ∃ row, s.db v = some row)
    (hok : ∀ s row, I s → s.db v = some row → env.answer s.tick (.save v (s.merged v row)) = .ok →
      J () ((s.turn env (.save v (s.merged v row))).saved v row))
    (hraise : ∀ s row e, I s → s.db v = some row →
      env.answer s.tick (.save v (s.merged v row)) = .raise e →
      Spoiled bad calls (s.turn env (.save v (s.merged v row))) ∨
        E e (s.turn env (.save v (s.merged v row)))) :
    Unless (Spoiled bad calls) I J E (save env v) where
  kept := within_save v
  ends s hs := by
    obtain ⟨row₀, hrow₀⟩ := hthere s hs
    refine wp_save (fun hnone => ?_) (fun row hrow hanswer => ?_) (fun row e hrow hanswer => ?_)
      fun _ _ _ => .inr trivial
    · cases hnone.symm.trans hrow₀
    · exact .inr (hok s row hs hrow hanswer)
    · rcases hraise s row e hs hrow hanswer with hbad | hend
      · exact .inl hbad
      · exact .inr hend

/-- An assignment. -/
theorem unless_assign {v : Uuid} {f : Obj → Obj} (h : ∀ s, I s → J () (s.setMem v f)) :
    Unless (Spoiled bad calls) I J E (assign v f) :=
  unless_modify (fun _ hs => hs) h

/-- A part that reads the world, and goes on with what it has read. -/
theorem unless_look {α β : Type} {f : World → α} {g : α → Prog World Exn β} {K : β → World → Prop}
    (h : ∀ a, Unless (Spoiled bad calls) (fun s => I s ∧ f s = a) K E (g a)) :
    Unless (Spoiled bad calls) I K E (read f >>= g) :=
  (unless_read (J := fun a s => I s ∧ f s = a) f fun _ hs => ⟨hs, rfl⟩).bind h

end Spoiled

end DockerPorts

end Zun
