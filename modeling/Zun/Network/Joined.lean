import Mathlib.Data.List.Perm.Subperm
import Zun.Compute.Crash
import Zun.Container.Docker

/-!
# The networks that are asked for

`build_requested_networks` of `zun/common/utils.py` makes a list of networks and ports of what a request names, one
entry for each.  The docker driver joins the last of the list when it makes the container and the others after that,
each network that the record does not have yet.  The CRI driver joins the first.

The ports that the container has in Neutron are followed from one call to the next, in `Holding`.
-/

namespace Zun

open Effect Prog World Manager

namespace Joined

/-! ## What a request names -/

/-- What a port or a network is named by: a uuid, or anything else. -/
inductive Ident where
  | uuid (id : Nat)
  | name (text : String)
deriving DecidableEq

/-- An entry of `nets`. -/
inductive Net where
  | port (ident : Ident)
  | network (ident : Ident)
deriving DecidableEq

inductive PortStatus where
  | active | down | build | error
deriving DecidableEq

/-- A port as Neutron lists it. -/
structure ListedPort where
  id : PortId
  name : String := ""
  networkId : NetId
  tenantId : String
  deviceId : String := ""
  status : PortStatus := .down
  bindingFailed : Bool := false
deriving DecidableEq

structure ListedNetwork where
  id : NetId
  name : String := ""
  tenantId : String
  routerExternal : Bool := false
  shared : Bool := false
  createdAt : Nat := 0
deriving DecidableEq

/-- What Neutron lists for the caller. -/
structure Listing where
  ports : List ListedPort := []
  networks : List ListedNetwork := []

structure Caller where
  projectId : String
  /-- `network:attach_external_network` is granted. -/
  attachesExternal : Bool := false
deriving DecidableEq

inductive Failure where
  | portNotFound
  | networkNotFound
  | conflict (text : String)
  | portNotUsable (port : PortId)
  | portInUse (port : PortId)
  | portBindingFailed (port : PortId)
  | externalNetworkAttachForbidden (network : NetId)
deriving DecidableEq

variable (l : Listing) (c : Caller)

/-- The one that was found. -/
def single {α : Type} (found : List α) (missing : Failure) (text : String) : Except Failure α :=
  match found with
  | [] => .error missing
  | [x] => .ok x
  | _ => .error (.conflict text)

/-- `get_neutron_network`. -/
def getNeutronNetwork (network : Ident) : Except Failure ListedNetwork :=
  single (l.networks.filter fun n => match network with
      | .uuid id => n.id = id
      | .name text => n.name = text)
    .networkNotFound "Multiple neutron networks exist with same name. Please use the uuid instead."

/-- `get_neutron_port`. -/
def getNeutronPort (port : Ident) : Except Failure ListedPort :=
  single (l.ports.filter fun p => match port with
      | .uuid id => p.id = id
      | .name text => p.name = text)
    .portNotFound "Multiple neutron ports exist with same name. Please use the uuid instead."

/-- `ensure_neutron_port_usable`. -/
def ensureNeutronPortUsable (port : ListedPort) : Except Failure Unit :=
  if port.tenantId ≠ c.projectId then .error (.portNotUsable port.id)
  else if port.deviceId ≠ "" then .error (.portInUse port.id)
  else if port.status = .active ∨ port.status = .build ∨ port.status = .error then .error (.portNotUsable port.id)
  else if port.bindingFailed then .error (.portBindingFailed port.id)
  else .ok ()

/-- `get_available_network`: the oldest of the caller's networks, or of those that are shared. -/
def getAvailableNetwork : Except Failure ListedNetwork :=
  let own := l.networks.filter fun n => n.tenantId = c.projectId && !n.shared
  let nets := if own = [] then l.networks.filter (·.shared) else own
  match nets.mergeSort (fun a b => Nat.ble a.createdAt b.createdAt) with
  | [] => .error (.conflict "There is no neutron network available")
  | n :: _ => .ok n

/-- An entry of the list, with its network. -/
abbrev Requested := RequestedNetwork × ListedNetwork

/-- What is made of an entry. -/
def requestedOf : Net → Except Failure Requested
  | .port ident => do
      let port ← getNeutronPort l ident
      ensureNeutronPortUsable c port
      let network ← getNeutronNetwork l (.uuid port.networkId)
      .ok ({ network := port.networkId, port := some port.id, preserveOnDelete := true }, network)
  | .network ident => do
      let network ← getNeutronNetwork l ident
      .ok ({ network := network.id }, network)

/-- The loop of `build_requested_networks`. -/
def requestedAll : List Net → Except Failure (List Requested)
  | [] => .ok []
  | net :: nets => do
      let requested ← requestedOf l c net
      let rest ← requestedAll nets
      .ok (requested :: rest)

/-- `check_external_network_attach`. -/
def checkExternalNetworkAttach : List Requested → Except Failure Unit
  | [] => .ok ()
  | (net, n) :: nets =>
      if !c.attachesExternal && n.routerExternal && !n.shared then
        .error (.externalNetworkAttachForbidden net.network)
      else checkExternalNetworkAttach nets

/-- The network of a request that names none. -/
def orAvailable : List Requested → Except Failure (List Requested)
  | [] => do
      let network ← getAvailableNetwork l c
      .ok [({ network := network.id }, network)]
  | requested => .ok requested

/-- `build_requested_networks`. -/
def buildRequestedNetworks (nets : List Net) : Except Failure (List RequestedNetwork) := do
  let named ← requestedAll l c nets
  let requested ← orAvailable l c named
  checkExternalNetworkAttach c requested
  .ok (requested.map (·.1))

/-! ## What is claimed -/

/-- A create, of a container by either driver or of a capsule. -/
inductive Path where
  | docker (u : Uuid)
  | cri (u : Uuid)
  | capsule (c : Capsule)

def Path.uuid : Path → Uuid
  | docker u | cri u => u
  | capsule c => c.uuid

def Path.run (env : Env) (nets : List RequestedNetwork) (vols : RequestedVolumes) : Path → Prog World Exn Unit
  | docker u => Docker.create env u nets vols
  | cri u => Cri.create env u nets vols
  | capsule c => Cri.createCapsule env c nets vols

/-- An entry of the list with a port. -/
abbrev Join := RequestedNetwork × Port

/-- What the record has of it. -/
def entryOf (x : Join) : NetId × List Addr := (x.1.network, Neutron.addressesOf x.1.preserveOnDelete x.2)

/-- A port is there, bound to the container, on the network, and it is the one that was named if one was. -/
structure Bound (u : Uuid) (s : World) (x : Join) : Prop where
  there : x.2 ∈ s.ports
  device : x.2.device = some u
  network : x.2.network = x.1.network
  named : ∀ p, x.1.port = some p → x.2.id = p

/-- Each entry has a port of its own that is bound to the container, and the record has its addresses under the
network of the entry. -/
def AllJoined (u : Uuid) (nets : List RequestedNetwork) (s : World) : Prop :=
  ∃ joins : List Join, joins.map (·.1) = nets ∧ (joins.map (·.2.id)).Nodup ∧ (∀ x ∈ joins, Bound u s x) ∧
    ∃ row, s.db u = some row ∧ ∀ x ∈ joins, entryOf x ∈ row.addresses

/-- Docker joins a network once, and the CRI driver joins one. -/
def Path.Meets (nets : List RequestedNetwork) : Path → Prop
  | docker _ => (nets.map (·.network)).Nodup
  | cri _ | capsule _ => nets.length = 1

/-- The ports of Neutron have ids of their own, those that were listed keep theirs and their network, and none is
bound to what is to be made. -/
structure Given (l : Listing) (u : Uuid) (s : World) : Prop where
  ids : (s.ports.map (·.id)).Nodup
  used : ∀ q ∈ s.ports, q.id < s.nextId
  listed : ∀ p ∈ l.ports, p.id < s.nextId ∧ ∀ q ∈ s.ports, q.id = p.id → q.network = p.networkId
  fresh : ∀ q ∈ s.ports, q.device ≠ some u

/-! ## What a request is made to -/

section

variable {l c} {nets : List Net} {requested : List Requested} {made : List RequestedNetwork}

theorem single_ok {α : Type} {found : List α} {missing : Failure} {text : String} {x : α}
    (h : single found missing text = .ok x) : x ∈ found := by
  unfold single at h
  split at h
  · cases h
  · cases h
    exact List.mem_singleton_self x
  · cases h

/-- A port that an entry is given was listed, on its network. -/
def FromListing (l : Listing) (net : RequestedNetwork) : Prop :=
  ∀ p, net.port = some p → ∃ q ∈ l.ports, q.id = p ∧ q.networkId = net.network

theorem requestedOf_ok {net : Net} {r : Requested} (h : requestedOf l c net = .ok r) : FromListing l r.1 := by
  cases net with
  | port ident =>
      cases hport : getNeutronPort l ident with
      | error e => simp [requestedOf, hport, bind, Except.bind] at h
      | ok port =>
          cases husable : ensureNeutronPortUsable c port with
          | error e => simp [requestedOf, hport, husable, bind, Except.bind] at h
          | ok a =>
              cases hnetwork : getNeutronNetwork l (.uuid port.networkId) with
              | error e => simp [requestedOf, hport, husable, hnetwork, bind, Except.bind] at h
              | ok network =>
                  simp only [requestedOf, hport, husable, hnetwork, bind, Except.bind, Except.ok.injEq] at h
                  subst h
                  rintro _ ⟨⟩
                  exact ⟨port, List.mem_of_mem_filter (single_ok hport), rfl, rfl⟩
  | network ident =>
      cases hnetwork : getNeutronNetwork l ident with
      | error e => simp [requestedOf, hnetwork, bind, Except.bind] at h
      | ok network =>
          simp only [requestedOf, hnetwork, bind, Except.bind, Except.ok.injEq] at h
          subst h
          rintro _ ⟨⟩

theorem requestedAll_ok (h : requestedAll l c nets = .ok requested) :
    List.Forall₂ (fun net r => requestedOf l c net = .ok r) nets requested := by
  induction nets generalizing requested with
  | nil =>
      cases h
      exact .nil
  | cons net nets ih =>
      cases hnet : requestedOf l c net with
      | error e => simp [requestedAll, hnet, bind, Except.bind] at h
      | ok r =>
          cases hrest : requestedAll l c nets with
          | error e => simp [requestedAll, hnet, hrest, bind, Except.bind] at h
          | ok rest =>
              simp only [requestedAll, hnet, hrest, bind, Except.bind, Except.ok.injEq] at h
              subst h
              exact .cons hnet (ih hrest)

/-- Each entry is made of one that the request names, in its order, or there is one for a network that was found. -/
theorem buildRequestedNetworks_ok (h : buildRequestedNetworks l c nets = .ok made) :
    ∃ requested : List Requested, made = requested.map (·.1) ∧
      (List.Forall₂ (fun net r => requestedOf l c net = .ok r) nets requested ∨
        nets = [] ∧ ∃ network, requested = [({ network := network.id }, network)]) := by
  cases hnamed : requestedAll l c nets with
  | error e => simp [buildRequestedNetworks, hnamed, bind, Except.bind] at h
  | ok named =>
      have hall := requestedAll_ok hnamed
      cases hor : orAvailable l c named with
      | error e => simp [buildRequestedNetworks, hnamed, hor, bind, Except.bind] at h
      | ok requested =>
          have hmade : made = requested.map (·.1) := by
            cases hcheck : checkExternalNetworkAttach c requested with
            | error e => simp [buildRequestedNetworks, hnamed, hor, hcheck, bind, Except.bind] at h
            | ok a =>
                simp only [buildRequestedNetworks, hnamed, hor, hcheck, bind, Except.bind, Except.ok.injEq] at h
                exact h.symm
          refine ⟨requested, hmade, ?_⟩
          cases hall with
          | cons hnet hrest =>
              cases hor
              exact .inl (.cons hnet hrest)
          | nil =>
              cases hnetwork : getAvailableNetwork l c with
              | error e => simp [orAvailable, hnetwork, bind, Except.bind] at hor
              | ok network =>
                  simp only [orAvailable, hnetwork, bind, Except.bind, Except.ok.injEq] at hor
                  exact .inr ⟨rfl, network, hor.symm⟩

theorem fromListing_of_all (h : List.Forall₂ (fun net r => requestedOf l c net = .ok r) nets requested) :
    ∀ r ∈ requested, FromListing l r.1 := by
  induction h with
  | nil => exact fun r hr => absurd hr List.not_mem_nil
  | cons hnet _ ih =>
      intro r hr
      rcases List.mem_cons.mp hr with rfl | hr
      · exact requestedOf_ok hnet
      · exact ih r hr

theorem fromListing_of_build (h : buildRequestedNetworks l c nets = .ok made) : ∀ net ∈ made, FromListing l net := by
  obtain ⟨requested, rfl, hall | ⟨-, network, rfl⟩⟩ := buildRequestedNetworks_ok h
  · intro net hnet
    obtain ⟨r, hr, rfl⟩ := List.mem_map.mp hnet
    exact fromListing_of_all hall r hr
  · intro net hnet p hp
    obtain rfl := List.mem_singleton.mp hnet
    cases hp

end

/-! ## The ports that a container has -/

/-- The ports that the container has got so far, for some of the entries, and the entries that are asked for. -/
structure Holding (u : Uuid) (nets : List RequestedNetwork) (done : List Join) (s : World) : Prop where
  ids : (s.ports.map (·.id)).Nodup
  used : ∀ q ∈ s.ports, q.id < s.nextId
  given : ∀ net ∈ nets, ∀ p, net.port = some p → p < s.nextId ∧ ∀ q ∈ s.ports, q.id = p → q.network = net.network
  bound : ∀ x ∈ done, Bound u s x
  only : ∀ q ∈ s.ports, q.device = some u → ∃ x ∈ done, x.2.id = q.id

section

variable {l} {env : Env} {u : Uuid} {nets : List RequestedNetwork} {done : List Join} {s s' : World}
  {net : RequestedNetwork} {addrs : List Addr} {q : Port} {p : PortId}

theorem holding_of_given (h : Given l u s) (hnets : ∀ net ∈ nets, FromListing l net) : Holding u nets [] s where
  ids := h.ids
  used := h.used
  given net hnet p hp := by
    obtain ⟨q, hq, rfl, hnetwork⟩ := hnets net hnet p hp
    obtain ⟨hlt, hsame⟩ := h.listed q hq
    exact ⟨hlt, fun q' hq' hid => (hsame q' hq' hid).trans hnetwork⟩
  bound x hx := absurd hx List.not_mem_nil
  only q hq hdevice := absurd hdevice (h.fresh q hq)

theorem Holding.frame (h : Holding u nets done s) (hports : s'.ports = s.ports) (hids : s.nextId ≤ s'.nextId) :
    Holding u nets done s' where
  ids := by rw [hports]; exact h.ids
  used q hq := Nat.lt_of_lt_of_le (h.used q (hports ▸ hq)) hids
  given net hnet p hp := by
    obtain ⟨hlt, hsame⟩ := h.given net hnet p hp
    exact ⟨Nat.lt_of_lt_of_le hlt hids, fun q hq => hsame q (hports ▸ hq)⟩
  bound x hx := by
    obtain ⟨hthere, hdevice, hnetwork, hnamed⟩ := h.bound x hx
    exact ⟨hports ▸ hthere, hdevice, hnetwork, hnamed⟩
  only q hq := h.only q (hports ▸ hq)

/-- A port that was bound before is not another afterwards. -/
theorem mem_setDevice_of_bound (hq : q ∈ s.ports) (hdevice : q.device = some u) :
    q ∈ (Neutron.setDevice p (some u) s).ports := by
  refine List.mem_map.mpr ⟨q, hq, ?_⟩
  split
  · rw [← hdevice]
  · rfl

theorem of_mem_setDevice (hq : q ∈ (Neutron.setDevice p (some u) s).ports) :
    ∃ q₀ ∈ s.ports, q₀.id = q.id ∧ q₀.network = q.network ∧ (q.id = p → q.device = some u) ∧ (q.id ≠ p → q₀ = q) := by
  obtain ⟨q₀, hq₀, rfl⟩ := List.mem_map.mp hq
  refine ⟨q₀, hq₀, ?_⟩
  split
  · next hid => exact ⟨rfl, rfl, fun _ => rfl, fun hne => absurd hid hne⟩
  · next hne => exact ⟨rfl, rfl, fun hid => absurd hid hne, fun _ => rfl⟩

/-- A named port that is bound is held. -/
theorem Holding.setDevice (h : Holding u nets done s) (hnet : net ∈ nets) (hport : net.port = some p)
    (hq : q ∈ (Neutron.setDevice p (some u) s).ports) (hid : q.id = p) :
    Holding u nets (done ++ [(net, q)]) (Neutron.setDevice p (some u) s) where
  ids := by
    have heq : (Neutron.setDevice p (some u) s).ports.map (·.id) = s.ports.map (·.id) := by
      simp only [Neutron.setDevice, List.map_map]
      refine List.map_congr_left fun q _ => ?_
      simp only [Function.comp_apply]
      split <;> rfl
    rw [heq]
    exact h.ids
  used q' hq' := by
    obtain ⟨q₀, hq₀, hid₀, -⟩ := of_mem_setDevice hq'
    exact hid₀ ▸ h.used q₀ hq₀
  given net' hnet' p' hp' := by
    obtain ⟨hlt, hsame⟩ := h.given net' hnet' p' hp'
    refine ⟨hlt, fun q' hq' hid' => ?_⟩
    obtain ⟨q₀, hq₀, hid₀, hnetwork, -⟩ := of_mem_setDevice hq'
    exact hnetwork ▸ hsame q₀ hq₀ (hid₀.trans hid')
  bound x hx := by
    rcases List.mem_append.mp hx with hx | hx
    · obtain ⟨hthere, hdevice, hnetwork, hnamed⟩ := h.bound x hx
      exact ⟨mem_setDevice_of_bound hthere hdevice, hdevice, hnetwork, hnamed⟩
    · obtain rfl := List.mem_singleton.mp hx
      obtain ⟨q₀, hq₀, hid₀, hnetwork, hdevice, -⟩ := of_mem_setDevice hq
      have hsame : q.network = net.network :=
        hnetwork.symm.trans ((h.given net hnet p hport).2 q₀ hq₀ (hid₀.trans hid))
      refine ⟨hq, hdevice hid, hsame, fun p' hp' => ?_⟩
      cases hport.symm.trans hp'
      exact hid
  only q' hq' hdevice := by
    obtain ⟨q₀, hq₀, -, -, -, hother⟩ := of_mem_setDevice hq'
    by_cases hp : q'.id = p
    · exact ⟨(net, q), List.mem_append_right _ (List.mem_singleton_self _), hid.trans hp.symm⟩
    · obtain rfl := hother hp
      obtain ⟨x, hx, heq⟩ := h.only q₀ hq₀ hdevice
      exact ⟨x, List.mem_append_left _ hx, heq⟩

/-- So is one that is made. -/
theorem Holding.addPort (h : Holding u nets done s) (hport : net.port = none) (hid : q.id = s.nextId)
    (hnetwork : q.network = net.network) (hdevice : q.device = some u) :
    Holding u nets (done ++ [(net, q)]) (Neutron.addPort q s) where
  ids := by
    refine List.nodup_cons.mpr ⟨fun hmem => ?_, h.ids⟩
    obtain ⟨q', hq', heq⟩ := List.mem_map.mp hmem
    exact Nat.lt_irrefl _ ((heq.trans hid) ▸ h.used q' hq')
  used q' hq' := by
    rcases List.mem_cons.mp hq' with rfl | hq'
    · exact hid ▸ Nat.lt_succ_self _
    · exact Nat.lt_succ_of_lt (h.used q' hq')
  given net' hnet' p' hp' := by
    obtain ⟨hlt, hsame⟩ := h.given net' hnet' p' hp'
    refine ⟨Nat.lt_succ_of_lt hlt, fun q' hq' hid' => ?_⟩
    rcases List.mem_cons.mp hq' with rfl | hq'
    · exact absurd (hid.symm.trans hid') (Nat.ne_of_gt hlt)
    · exact hsame q' hq' hid'
  bound x hx := by
    rcases List.mem_append.mp hx with hx | hx
    · obtain ⟨hthere, hdevice, hnetwork, hnamed⟩ := h.bound x hx
      exact ⟨List.mem_cons_of_mem _ hthere, hdevice, hnetwork, hnamed⟩
    · obtain rfl := List.mem_singleton.mp hx
      exact ⟨List.mem_cons_self, hdevice, hnetwork, fun p' hp' => by cases hport.symm.trans hp'⟩
  only q' hq' hdevice' := by
    rcases List.mem_cons.mp hq' with rfl | hq'
    · exact ⟨(net, q'), List.mem_append_right _ (List.mem_singleton_self _), rfl⟩
    · obtain ⟨x, hx, heq⟩ := h.only q' hq' hdevice'
      exact ⟨x, List.mem_append_left _ hx, heq⟩

/-- What `create_or_update_port` gives is held. -/
theorem holding_createOrUpdatePort (hs : Holding u nets done s) (hnet : net ∈ nets)
    (h : Neutron.createOrUpdatePort env u net s = (.ok addrs, s')) :
    ∃ q, Holding u nets (done ++ [(net, q)]) s' ∧ addrs = Neutron.addressesOf net.preserveOnDelete q ∧
      s'.mem = s.mem ∧ s'.db = s.db := by
  unfold Neutron.createOrUpdatePort at h
  cases hport : net.port with
  | some p =>
      simp only [hport] at h
      obtain ⟨_, s₁, hcall, h⟩ := andThen_ok h
      have hs₁ := call_ok hcall
      obtain ⟨found, s₂, hread, h⟩ := andThen_ok h
      cases hread
      cases hfind : s₁.ports.find? (·.id = p) with
      | none =>
          simp only [hfind] at h
          cases h
      | some q =>
          simp only [hfind] at h
          cases h
          subst hs₁
          have hid : q.id = p := by simpa using List.find?_some hfind
          have hturned : Holding u nets done (s.turn env (.updatePort p)) := hs.frame rfl (Nat.le_refl _)
          exact ⟨q, hturned.setDevice hnet hport (List.mem_of_find?_eq_some hfind) hid, rfl, rfl, rfl⟩
  | none =>
      simp only [hport] at h
      obtain ⟨_, s₁, hcall, h⟩ := andThen_ok h
      have hs₁ := call_ok hcall
      subst hs₁
      cases h
      have hturned : Holding u nets done (s.turn env (.createPort u net.network)) := hs.frame rfl (Nat.le_refl _)
      exact ⟨_, hturned.addPort hport rfl rfl rfl, rfl, rfl, rfl⟩

instance (done : List Join) : Steady (Kept (Holding u nets done)) where
  still hs h := h.frame hs.ports hs.ids

/-! ## Docker -/

/-- The entries of networks that are not there yet. -/
def unseen (seen : List NetId) : List RequestedNetwork → List RequestedNetwork
  | [] => []
  | net :: nets =>
      if net.network ∈ seen then unseen seen nets else net :: unseen (seen ++ [net.network]) nets

/-- What is held is in the addresses of the object. -/
structure Placed (u : Uuid) (nets : List RequestedNetwork) (done : List Join) (s : World) : Prop
    extends Holding u nets done s where
  addresses : (s.mem u).val.addresses = done.map entryOf

theorem Placed.frame (h : Placed u nets done s) (hports : s'.ports = s.ports) (hids : s.nextId ≤ s'.nextId)
    (haddr : (s'.mem u).val.addresses = (s.mem u).val.addresses) : Placed u nets done s' :=
  ⟨h.toHolding.frame hports hids, haddr.trans h.addresses⟩

theorem Placed.seen_iff (h : Placed u nets done s) {n : NetId} :
    (s.mem u).val.addresses.any (·.1 = n) = true ↔ n ∈ done.map (·.1.network) := by
  rw [h.addresses, List.any_map, List.any_eq_true, List.mem_map]
  constructor
  · exact fun ⟨x, hx, h⟩ => ⟨x, hx, of_decide_eq_true h⟩
  · exact fun ⟨x, hx, h⟩ => ⟨x, hx, decide_eq_true h⟩

/-- The loop joins the networks that are not there yet. -/
theorem placed_setupNetworkForContainer {rest : List RequestedNetwork} (hs : Placed u nets done s)
    (hrest : ∀ net ∈ rest, net ∈ nets) (h : Docker.setupNetworkForContainer env u rest s = (.ok (), s')) :
    ∃ more, Placed u nets (done ++ more) s' ∧ more.map (·.1) = unseen (done.map (·.1.network)) rest ∧
      s'.db = s.db := by
  induction rest generalizing done s with
  | nil =>
      cases h
      exact ⟨[], by rwa [List.append_nil], rfl, rfl⟩
  | cons net rest ih =>
      unfold Docker.setupNetworkForContainer at h
      obtain ⟨addresses, s₁, hread, h⟩ := andThen_ok h
      cases hread
      dsimp only at h
      have hrest' : ∀ net ∈ rest, net ∈ nets := fun net hnet => hrest net (List.mem_cons_of_mem _ hnet)
      by_cases hseen : net.network ∈ done.map (·.1.network)
      · rw [if_pos (hs.seen_iff.mpr hseen)] at h
        obtain ⟨more, hplaced, hmore, hdb⟩ := ih hs hrest' h
        exact ⟨more, hplaced, by rw [hmore, unseen, if_pos hseen], hdb⟩
      · rw [if_neg fun hany => hseen (hs.seen_iff.mp hany)] at h
        obtain ⟨addrs, s₂, hconnect, h⟩ := andThen_ok h
        obtain ⟨addrs', s₃, hport, hconnect⟩ := andThen_ok hconnect
        obtain ⟨_, s₄, hcall, hconnect⟩ := andThen_ok hconnect
        cases hconnect
        obtain ⟨q, hheld, rfl, hmem, hdb⟩ :=
          holding_createOrUpdatePort hs.toHolding (hrest net List.mem_cons_self) hport
        obtain rfl := call_ok hcall
        obtain ⟨_, s₅, hassign, h⟩ := andThen_ok h
        cases hassign
        have hplaced : Placed u nets (done ++ [(net, q)])
            ((s₃.turn env (.docker .connect u)).setMem u
              (Obj.putAddresses net.network (Neutron.addressesOf net.preserveOnDelete q))) := by
          refine ⟨hheld.frame rfl (Nat.le_refl _), ?_⟩
          rw [setMem_mem_self]
          change ((s₃.turn env (.docker .connect u)).mem u).val.addresses ++ _ = _
          rw [turn_mem, hmem, hs.addresses, List.map_append]
          rfl
        obtain ⟨more, hplaced', hmore, hdb'⟩ := ih hplaced hrest' h
        refine ⟨(net, q) :: more, by simpa using hplaced', ?_, ?_⟩
        · rw [unseen, if_neg hseen, List.map_cons, hmore, List.map_append]
          rfl
        · exact hdb'.trans hdb

theorem populateCreated_addresses (o : Obj) : (Docker.populateCreated o).val.addresses = o.val.addresses := by
  unfold Docker.populateCreated
  dsimp only
  split <;> rfl

theorem populateCreated_changed (o : Obj) : (Docker.populateCreated o).changed.addresses = o.changed.addresses := by
  unfold Docker.populateCreated
  dsimp only
  split <;> rfl

/-- The addresses are to be written by the next save. -/
structure Unsaved (u : Uuid) (nets : List RequestedNetwork) (done : List Join) (s : World) : Prop
    extends Placed u nets done s where
  changed : (s.mem u).changed.addresses = true

instance (done : List Join) : Steady (Kept (Unsaved u nets done)) where
  still hs h := ⟨h.toPlaced.frame hs.ports hs.ids (by rw [hs.mem]), by rw [hs.mem]; exact h.changed⟩

theorem unsaved_setAddresses (hs : Holding u nets done s) {addresses : List (NetId × List Addr)}
    (h : addresses = done.map entryOf) : Unsaved u nets done (s.setMem u (Obj.setAddresses addresses)) :=
  ⟨⟨hs.frame rfl (Nat.le_refl _), by rw [setMem_mem_self]; exact h⟩, by rw [setMem_mem_self]; rfl⟩

/-- What was joined when a create has returned, with its addresses on the row. -/
structure Ended (u : Uuid) (nets : List RequestedNetwork) (done : List Join) (s : World) : Prop
    extends Placed u nets done s where
  row : ∃ row, s.db u = some row ∧ row.addresses = done.map entryOf

/-- A save that writes the addresses. -/
theorem ended_of_save (hs : Unsaved u nets done s) (h : save env u s = (.ok (), s')) : Ended u nets done s' := by
  obtain ⟨row, -, rfl⟩ := save_ok h
  refine ⟨hs.frame rfl (Nat.le_refl _) (by rw [saved_val]; rfl), _, saved_db_self _, ?_⟩
  change (Changed.merge (s.mem u).changed (s.mem u).val row).addresses = _
  rw [Changed.merge, hs.changed, ← hs.addresses]
  rfl

theorem ended_docker (vols : RequestedVolumes) (hs : Holding u nets [] s)
    (h : Docker.create env u nets vols s = (.ok (), s')) :
    ∃ net q more, nets.getLast? = some net ∧ Ended u nets ((net, q) :: more) s' ∧
      more.map (·.1) = unseen [net.network] nets.dropLast := by
  obtain ⟨_, s₁, hprovision, h⟩ := andThen_ok h
  have hwithin : Within (Kept (Holding u nets [])) (forEach nets fun _ => call env (.docker .provisionNetwork u)) :=
    within_forEach fun _ _ => within_plain _ rfl
  have h₁ : Holding u nets [] s₁ := hwithin.returns _ _ _ hprovision hs
  obtain ⟨_, s₂, hprepare, h⟩ := andThen_ok h
  obtain rfl := call_ok hprepare
  cases hlast : nets.getLast? with
  | none =>
      simp only [hlast] at h
      cases h
  | some net =>
      simp only [hlast] at h
      obtain ⟨_, s₃, hgroups, h⟩ := andThen_ok h
      obtain rfl := call_ok hgroups
      obtain ⟨addrs, s₄, hport, h⟩ := andThen_ok h
      have h₃ : Holding u nets [] ((s₁.turn env (.docker .prepare u)).turn env (.securityGroups u)) :=
        h₁.frame rfl (Nat.le_refl _)
      obtain ⟨q, hheld, rfl, hmem, hdb⟩ := holding_createOrUpdatePort h₃ (List.mem_of_getLast? hlast) hport
      obtain ⟨_, s₅, hassign, h⟩ := andThen_ok h
      have h₅ : Placed u nets [(net, q)] s₅ := by
        cases hassign
        exact (unsaved_setAddresses hheld rfl).toPlaced
      obtain ⟨_, s₆, hcreate, h⟩ := andThen_ok h
      obtain rfl := call_ok hcreate
      obtain ⟨id, s₇, hread, h⟩ := andThen_ok h
      cases hread
      obtain ⟨_, s₈, hassign, h⟩ := andThen_ok h
      have h₈ : Placed u nets [(net, q)] s₈ := by
        cases hassign
        exact h₅.frame rfl (Nat.le_succ _) (by rw [setMem_mem_self]; rfl)
      obtain ⟨_, s₉, hgroups, h⟩ := andThen_ok h
      obtain rfl := call_ok hgroups
      obtain ⟨_, s₁₀, hsetup, h⟩ := andThen_ok h
      have h₉ : Placed u nets [(net, q)] (s₈.turn env (.securityGroups u)) := h₈.frame rfl (Nat.le_refl _) rfl
      obtain ⟨more, h₁₀, hmore, -⟩ := placed_setupNetworkForContainer h₉ (fun _ => List.mem_of_mem_dropLast) hsetup
      obtain ⟨addresses, s₁₁, hread, h⟩ := andThen_ok h
      cases hread
      obtain ⟨_, s₁₂, hassign, h⟩ := andThen_ok h
      have h₁₂ : Unsaved u nets ((net, q) :: more) s₁₂ := by
        cases hassign
        exact unsaved_setAddresses h₁₀.toHolding h₁₀.addresses
      obtain ⟨_, s₁₃, hinspect, h⟩ := andThen_ok h
      obtain rfl := call_ok hinspect
      obtain ⟨_, s₁₄, hassign, h⟩ := andThen_ok h
      have h₁₄ : Unsaved u nets ((net, q) :: more) s₁₄ := by
        cases hassign
        refine ⟨h₁₂.frame rfl (Nat.le_refl _) ?_, ?_⟩
        · rw [setMem_mem_self, populateCreated_addresses]
          rfl
        · rw [setMem_mem_self, populateCreated_changed]
          exact h₁₂.changed
      exact ⟨net, q, more, rfl, ended_of_save h₁₄ h, hmore⟩

/-! ## CRI -/

instance (done : List Join) : Steady (Kept (Ended u nets done)) where
  still hs h := ⟨h.toPlaced.frame hs.ports hs.ids (by rw [hs.mem]), by rw [hs.db]; exact h.row⟩

theorem ended_addressed (done : List Join) : Cri.Addressed (Kept (Ended u nets done)) where
  assign {s v f} hf h := by
    refine ⟨h.frame rfl (Nat.le_refl _) ?_, h.row⟩
    by_cases hv : u = v
    · subst hv
      rw [setMem_mem_self, hf]
    · rw [setMem_mem_of_ne hv]
  save {s v row} hrow h := by
    refine ⟨h.frame rfl (Nat.le_refl _) (by rw [saved_val]), ?_⟩
    by_cases hv : u = v
    · subst hv
      refine ⟨_, saved_db_self _, ?_⟩
      obtain ⟨row', hrow', haddr⟩ := h.row
      cases hrow.symm.trans hrow'
      change (Changed.merge (s.mem u).changed (s.mem u).val row).addresses = _
      unfold Changed.merge
      dsimp only
      split
      · exact h.addresses
      · exact haddr
    · rw [saved_db_of_ne hv]
      exact h.row

theorem ended_createPodSandbox (hs : Holding u nets [] s) (h : Cri.createPodSandbox env u nets s = (.ok (), s')) :
    ∃ net q, nets.head? = some net ∧ Ended u nets [(net, q)] s' := by
  obtain ⟨_, s₁, hmeta, hpod⟩ := andThen_ok h
  obtain ⟨_, s₂, hgroups, hmeta⟩ := andThen_ok hmeta
  obtain rfl := call_ok hgroups
  cases nets with
  | nil => cases hmeta
  | cons net nets =>
      obtain ⟨addrs, s₃, hport, hmeta⟩ := andThen_ok hmeta
      have h₂ : Holding u (net :: nets) [] (s.turn env (.securityGroups u)) := hs.frame rfl (Nat.le_refl _)
      obtain ⟨q, hheld, rfl, -, -⟩ := holding_createOrUpdatePort h₂ List.mem_cons_self hport
      refine ⟨net, q, rfl, ?_⟩
      obtain ⟨_, s₄, hassign, hmeta⟩ := andThen_ok hmeta
      have h₄ : Unsaved u (net :: nets) [(net, q)] s₄ := by
        cases hassign
        exact unsaved_setAddresses hheld rfl
      obtain ⟨_, s₅, hnetwork, hmeta⟩ := andThen_ok hmeta
      obtain rfl := call_ok hnetwork
      obtain ⟨_, s₆, hsubnets, hmeta⟩ := andThen_ok hmeta
      have hwithin : Within (Kept (Unsaved u (net :: nets) [(net, q)]))
          (forEach (Neutron.addressesOf net.preserveOnDelete q) fun a => call env (.showSubnet a.port)) :=
        within_forEach fun _ _ => within_plain _ rfl
      have h₆ : Unsaved u (net :: nets) [(net, q)] s₆ := hwithin.returns _ _ _ hsubnets
        ⟨h₄.frame rfl (Nat.le_refl _) rfl, h₄.changed⟩
      obtain ⟨_, s₇, hvif, hmeta⟩ := andThen_ok hmeta
      obtain rfl := call_ok hvif
      have h₇ : Unsaved u (net :: nets) [(net, q)] (s₆.turn env (.osVif u)) :=
        ⟨h₆.frame rfl (Nat.le_refl _) rfl, h₆.changed⟩
      have h₁ : Ended u (net :: nets) [(net, q)] s₁ := ended_of_save h₇ hmeta
      have hrest : Within (Kept (Ended u (net :: nets) [(net, q)])) (do
          call env (.applyPodCeiling u)
          Cri.runPodSandbox env u
          let pod ← Prog.read fun s => s.sandboxes.head?.map (·.id)
          assign u (Obj.setContainerId pod)
          call env (.applyHostIoLimits (pod.getD 0))) := by
        refine (within_plain _ rfl).bind fun _ => Within.bind ?_ fun _ => (within_read _).bind fun _ => ?_
        · exact within_call (fun _ h => ⟨h.frame rfl (Nat.le_refl _) rfl, h.row⟩)
            fun _ h => ⟨h.frame rfl (Nat.le_succ _) rfl, h.row⟩
        · exact Within.bind (Cri.within_addressed (ended_addressed _) fun _ => rfl) fun _ => within_plain _ rfl
      exact hrest.returns _ _ _ hpod h₁

theorem ended_cri (vols : RequestedVolumes) (hs : Holding u nets [] s)
    (h : Cri.create env u nets vols s = (.ok (), s')) :
    ∃ net q, nets.head? = some net ∧ Ended u nets [(net, q)] s' := by
  obtain ⟨_, s₁, hrefuse, h⟩ := andThen_ok h
  obtain rfl := call_ok hrefuse
  obtain ⟨_, s₂, hpod, h⟩ := andThen_ok h
  have h₁ : Holding u nets [] (s.turn env (.refuseOptions u)) := hs.frame rfl (Nat.le_refl _)
  obtain ⟨net, q, hhead, h₂⟩ := ended_createPodSandbox h₁ hpod
  have haddressed := @ended_addressed u nets [(net, q)]
  have hrest : Within (Kept (Ended u nets [(net, q)])) (do
      Cri.createContainerIn env u u false none
      assign u (Obj.setStatus .created)
      assign u (Obj.setStatusReason none)) :=
    (Cri.within_createContainerIn (Cri.member_of_addressed haddressed u) _ _ _).bind fun _ =>
      Within.bind (Cri.within_addressed (f := Obj.setStatus .created) haddressed fun _ => rfl) fun _ =>
        Cri.within_addressed (f := Obj.setStatusReason none) haddressed fun _ => rfl
  exact ⟨net, q, hhead, hrest.returns _ _ _ h h₂⟩

theorem ended_capsule {c : Capsule} (vols : RequestedVolumes) (hs : Holding c.uuid nets [] s)
    (h : Cri.createCapsule env c nets vols s = (.ok (), s')) :
    ∃ net q, nets.head? = some net ∧ Ended c.uuid nets [(net, q)] s' := by
  have hbuilds : Returns (fun s s' => Holding c.uuid nets [] s →
      ∃ net q, nets.head? = some net ∧ Ended c.uuid nets [(net, q)] s') (Cri.buildCapsule env c nets) := by
    intro s _ s' h hs
    obtain ⟨_, s₁, hpod, h⟩ := andThen_ok h
    obtain ⟨net, q, hhead, h₁⟩ := ended_createPodSandbox hs hpod
    have haddressed := @ended_addressed c.uuid nets [(net, q)]
    have hmember (m : Uuid) := Cri.member_of_addressed haddressed m
    have hprobe (m : Uuid) (state : ProbeState) :
        Within (Kept (Ended c.uuid nets [(net, q)])) (Cri.saveProbeState env m state) :=
      (within_read _).bind fun _ => Within.onlyIf (Within.bind
        (Cri.within_addressed (f := Obj.setProbeState state) haddressed fun _ => rfl) fun _ =>
          Cri.within_addressedSave haddressed m)
    have hrest : Within (Kept (Ended c.uuid nets [(net, q)])) (do
        save env c.uuid
        Cri.runInitMembers env c
        forEach c.containers fun m => do
          Cri.stopIfAbandoned c.uuid
          Cri.createContainerIn env c.uuid m true none
          Cri.recordRunning env m) := by
      refine (Cri.within_addressedSave haddressed _).bind fun _ => Within.bind ?_ fun _ =>
        within_forEach fun m _ => Cri.within_buildMember (hmember m) _
      exact Cri.within_runInitMembers (Cri.talk_of_addressed haddressed _) (fun m _ => hmember m) fun m _ => hprobe m
    exact ⟨net, q, hhead, hrest.returns _ _ _ h h₁⟩
  obtain ⟨_, s₁, hbuild, h⟩ := andThen_ok h
  obtain ⟨net, q, hhead, h₁⟩ := hbuilds.reraising _ _ _ hbuild hs
  refine ⟨net, q, hhead, ?_⟩
  have hassign : Within (Kept (Ended c.uuid nets [(net, q)])) (assign c.uuid (Obj.setStatus .running)) :=
    Cri.within_addressed (ended_addressed _) fun _ => rfl
  exact hassign.returns _ _ _ h h₁

/-! ## Which entries are joined -/

theorem unseen_length_le (seen : List NetId) (nets : List RequestedNetwork) :
    (unseen seen nets).length ≤ nets.length := by
  induction nets generalizing seen with
  | nil => exact Nat.le_refl _
  | cons net nets ih =>
      rw [unseen]
      split
      · exact Nat.le_succ_of_le (ih seen)
      · exact Nat.succ_le_succ (ih _)

/-- None is left out if and only if the networks differ, also from those that were there. -/
theorem unseen_eq_self_iff (seen : List NetId) (nets : List RequestedNetwork) :
    nets.length ≤ (unseen seen nets).length ↔
      (nets.map (·.network)).Nodup ∧ ∀ net ∈ nets, net.network ∉ seen := by
  induction nets generalizing seen with
  | nil => simp [unseen]
  | cons net nets ih =>
      rw [unseen, List.map_cons, List.nodup_cons, List.forall_mem_cons]
      by_cases hseen : net.network ∈ seen
      · rw [if_pos hseen]
        refine iff_of_false (fun hle => ?_) fun h => h.2.1 hseen
        exact Nat.not_succ_le_self _ (Nat.le_trans hle (unseen_length_le seen nets))
      · rw [if_neg hseen, List.length_cons, List.length_cons, Nat.succ_le_succ_iff, ih]
        simp only [List.mem_append, List.mem_singleton, not_or, List.mem_map, not_exists, not_and]
        constructor
        · rintro ⟨hnodup, hother⟩
          exact ⟨⟨fun net' hnet' => (hother net' hnet').2, hnodup⟩, hseen, fun net' hnet' => (hother net' hnet').1⟩
        · rintro ⟨⟨hne, hnodup⟩, -, hother⟩
          exact ⟨hnodup, fun net' hnet' => ⟨hother net' hnet', hne net' hnet'⟩⟩

theorem unseen_eq_self {seen : List NetId} {nets : List RequestedNetwork}
    (h : (nets.map (·.network)).Nodup ∧ ∀ net ∈ nets, net.network ∉ seen) : unseen seen nets = nets := by
  have hsub : (unseen seen nets).Sublist nets := by
    clear h
    induction nets generalizing seen with
    | nil => exact .slnil
    | cons net nets ih =>
        rw [unseen]
        split
        · exact ih.cons _
        · exact ih.cons_cons _
  exact hsub.eq_of_length_le ((unseen_eq_self_iff seen nets).mpr h)

/-! ## What is joined in the end -/

/-- Ports of different networks are different ports. -/
theorem Ended.allJoined (h : Ended u nets done s) {joins : List Join} {asked : List RequestedNetwork}
    (hdone : ∀ x ∈ joins, x ∈ done) (hasked : joins.map (·.1) = asked) (hnodup : (asked.map (·.network)).Nodup) :
    AllJoined u asked s := by
  obtain ⟨row, hrow, haddr⟩ := h.row
  refine ⟨joins, hasked, ?_, fun x hx => h.bound x (hdone x hx), row, hrow, fun x hx => ?_⟩
  · subst hasked
    rw [List.map_map, List.Nodup, List.pairwise_map] at hnodup
    rw [List.Nodup, List.pairwise_map]
    refine hnodup.imp_of_mem fun {x y} hx hy hne hid => hne ?_
    have hx' := h.bound x (hdone x hx)
    have hy' := h.bound y (hdone y hy)
    have hport := List.inj_on_of_nodup_map h.ids hx'.there hy'.there hid
    change x.1.network = y.1.network
    rw [← hx'.network, hport, hy'.network]
  · rw [haddr]
    exact List.mem_map_of_mem (hdone x hx)

/-- The container has no other ports than those that are held. -/
theorem Ended.length_le (h : Ended u nets done s) {asked : List RequestedNetwork} (hjoined : AllJoined u asked s) :
    asked.length ≤ done.length := by
  obtain ⟨joins, rfl, hnodup, hbound, -⟩ := hjoined
  have hsub : joins.map (·.2.id) ⊆ done.map (·.2.id) := by
    intro id hid
    obtain ⟨x, hx, rfl⟩ := List.mem_map.mp hid
    obtain ⟨y, hy, heq⟩ := h.only x.2 (hbound x hx).there (hbound x hx).device
    exact List.mem_map.mpr ⟨y, hy, heq⟩
  simpa using (hnodup.subperm hsub).length_le

theorem nodup_concat_iff {init : List RequestedNetwork} {net : RequestedNetwork} :
    ((init ++ [net]).map (·.network)).Nodup ↔
      (init.map (·.network)).Nodup ∧ ∀ net' ∈ init, net'.network ∉ [net.network] := by
  rw [List.map_append, List.map_singleton, List.nodup_append_comm, List.singleton_append, List.nodup_cons, and_comm]
  simp

theorem joined_docker_iff {net : RequestedNetwork} {more : List Join} (hlast : nets.getLast? = some net)
    (h : Ended u nets ((net, q) :: more) s) (hmore : more.map (·.1) = unseen [net.network] nets.dropLast) :
    AllJoined u nets s ↔ (nets.map (·.network)).Nodup := by
  have hnets : nets.dropLast ++ [net] = nets := List.dropLast_append_getLast? net hlast
  have hsplit : (nets.map (·.network)).Nodup ↔ (nets.dropLast.map (·.network)).Nodup ∧
      ∀ net' ∈ nets.dropLast, net'.network ∉ [net.network] := by
    rw [← nodup_concat_iff, hnets]
  constructor
  · intro hjoined
    have hle := h.length_le hjoined
    have hlength := congrArg List.length hmore
    rw [List.length_map] at hlength
    rw [List.length_cons, hlength] at hle
    have htotal := congrArg List.length hnets
    rw [List.length_append, List.length_singleton] at htotal
    rw [hsplit, ← unseen_eq_self_iff]
    omega
  · intro hnodup
    rw [unseen_eq_self (hsplit.mp hnodup)] at hmore
    have hjoins : (more ++ [(net, q)]).map (·.1) = nets := by
      rw [List.map_append, hmore]
      exact hnets
    exact h.allJoined (fun x hx => by simpa [or_comm] using hx) hjoins hnodup

theorem joined_first_iff {net : RequestedNetwork} (hhead : nets.head? = some net) (h : Ended u nets [(net, q)] s) :
    AllJoined u nets s ↔ nets.length = 1 := by
  obtain ⟨rest, rfl⟩ := List.head?_eq_some_iff.mp hhead
  constructor
  · intro hjoined
    have hle := h.length_le hjoined
    simpa using hle
  · intro hone
    obtain rfl : rest = [] := by simpa using hone
    exact h.allJoined (fun _ hx => hx) rfl (List.nodup_singleton _)

end

/-- A create that succeeds has joined every entry of the request if and only if no two are of one network, and there is
one if it is by the CRI driver. -/
theorem allJoined_iff (env : Env) (l : Listing) (c : Caller) (asked : List Net) (nets : List RequestedNetwork)
    (vols : RequestedVolumes) (path : Path) (s : World) (hbuild : buildRequestedNetworks l c asked = .ok nets)
    (hgiven : Given l path.uuid s) (hrun : (path.run env nets vols s).1 = .ok ()) :
    AllJoined path.uuid nets (path.run env nets vols s).2 ↔ path.Meets nets := by
  have hs := holding_of_given hgiven (fromListing_of_build hbuild)
  have h : path.run env nets vols s = (.ok (), (path.run env nets vols s).2) := Prod.ext hrun rfl
  cases path with
  | docker u =>
      obtain ⟨net, q, more, hlast, hended, hmore⟩ := ended_docker vols hs h
      exact joined_docker_iff hlast hended hmore
  | cri u =>
      obtain ⟨net, q, hhead, hended⟩ := ended_cri vols hs h
      exact joined_first_iff hhead hended
  | capsule c =>
      obtain ⟨net, q, hhead, hended⟩ := ended_capsule vols hs h
      exact joined_first_iff hhead hended

/-! ## Two ports on one network -/

/-- A container that is to be made, and two ports that are free. -/
def before : World where
  db := (World.ofRows [(7, { status := .creating })]).db
  mem := (World.ofRows [(7, { status := .creating })]).mem
  ports := [{ id := 1, network := 4, fixedIps := ["10.0.0.5"], zunMade := false },
    { id := 2, network := 4, fixedIps := ["10.0.0.6"], zunMade := false }]
  nextId := 3

def listed : Listing where
  ports := [{ id := 1, networkId := 4, tenantId := "t" }, { id := 2, networkId := 4, tenantId := "t" }]
  networks := [{ id := 4, tenantId := "t" }]

theorem given_before (u : Uuid) : Given listed u before where
  ids := by decide
  used := by decide
  listed := by decide
  fresh q hq hdevice := by
    have hnone : ∀ q ∈ before.ports, q.device = none := by decide
    rw [hnone q hq] at hdevice
    cases hdevice

theorem allJoined_one :
    AllJoined 7 [{ network := 4 }] ((Path.docker 7).run {} [{ network := 4 }] [] before).2 ↔
      (Path.docker 7).Meets [{ network := 4 }] :=
  allJoined_iff {} listed { projectId := "t" } [.network (.uuid 4)] [{ network := 4 }] [] (.docker 7) before
    (by decide +kernel) (given_before 7) (by decide +kernel)

/-- What is asked for when both ports are named. -/
def bothPorts : List RequestedNetwork :=
  [{ network := 4, port := some 1, preserveOnDelete := true },
    { network := 4, port := some 2, preserveOnDelete := true }]

/-- The second of two ports on a network is joined, and the first is not. -/
theorem not_allJoined : ¬ ∀ (env : Env) (l : Listing) (c : Caller) (asked : List Net) (nets : List RequestedNetwork)
    (vols : RequestedVolumes) (path : Path) (s : World), buildRequestedNetworks l c asked = .ok nets →
      Given l path.uuid s → (path.run env nets vols s).1 = .ok () →
        AllJoined path.uuid nets (path.run env nets vols s).2 := by
  intro h
  obtain ⟨joins, hjoins, -, hbound, -⟩ := h {} listed { projectId := "t" } [.port (.uuid 1), .port (.uuid 2)] bothPorts
    [] (.docker 7) before (by decide +kernel) (given_before 7) (by decide +kernel)
  have hfree : ∀ q ∈ ((Path.docker 7).run {} bothPorts [] before).2.ports, q.id = 1 → q.device = none := by
    decide +kernel
  have hfirst : { network := 4, port := some 1, preserveOnDelete := true } ∈ joins.map (·.1) := by
    rw [hjoins]
    exact List.mem_cons_self
  obtain ⟨x, hx, hnet⟩ := List.mem_map.mp hfirst
  have hport := hbound x hx
  have hdevice := hport.device
  rw [hfree x.2 hport.there (hport.named 1 (by rw [hnet]))] at hdevice
  cases hdevice

end Joined

end Zun
