import Mathlib.Data.List.Dedup
import Zun.Common.World

/-!
# Neutron ports

The part of `zun/network/neutron.py` that gives a container its port and takes it away.
A port the request names is updated, any other is created.  On the way out the ports that
are to be deleted are deleted and the others are only unbound.

`delete_or_unbind_ports` walks over a set.  The order here is that of the addresses.
-/

namespace Zun

open Effect Prog

/-- An entry of `requested_networks`. -/
structure RequestedNetwork where
  network : NetId
  /-- The port the tenant named. -/
  port : Option PortId := none
  preserveOnDelete : Bool := false
deriving DecidableEq

namespace Neutron

variable (env : Env)

/-- One entry for each fixed address of a port. -/
def addressesOf (preserveOnDelete : Bool) (p : Port) : List Addr :=
  p.fixedIps.map fun ip => { addr := ip, port := p.id, preserveOnDelete }

/-- The port that `create_port` makes. -/
def newPort (u : Uuid) (net : NetId) (s : World) : Port :=
  { id := s.nextId, network := net, fixedIps := env.fixedIps s.tick, zunMade := true,
    device := some u }

/-- Neutron with one more port. -/
def addPort (p : Port) (s : World) : World :=
  { s with ports := p :: s.ports, nextId := s.nextId + 1 }

/-- Neutron with the `device_id` of a port set. -/
def setDevice (p : PortId) (device : Option Uuid) (s : World) : World :=
  { s with ports := s.ports.map fun q => if q.id = p then { q with device } else q }

/-- Neutron without a port. -/
def dropPort (p : PortId) (s : World) : World :=
  { s with ports := s.ports.filter (·.id ≠ p) }

/-- `create_or_update_port`. -/
def createOrUpdatePort (u : Uuid) (net : RequestedNetwork) : Prog World Exn (List Addr) :=
  match net.port with
  | some p => do
      call env (.updatePort p) (setDevice p (some u))
      let found ← read fun s => s.ports.find? (·.id = p)
      match found with
      | some port => pure (addressesOf net.preserveOnDelete port)
      | none => raise { cls := .portNotFound }
  | none => do
      call env (.createPort u net.network) fun s => addPort (newPort env u net.network s) s
      let made ← read fun s => s.ports.head?
      pure ((made.map (addressesOf net.preserveOnDelete)).getD [])

/-- `_unbind_port`.  It never raises. -/
def unbindPort (p : PortId) : Prog World Exn Unit := do
  let there ← tryExcept (do call env (.showPort p); pure true)
    fun e => pure (e.cls != .portNotFound)
  onlyIf there (swallow (call env (.unbindPort p) (setDevice p none)))

/-- One turn of `delete_or_unbind_ports`. -/
def deleteOrUnbindPort (toDelete : List PortId) (p : PortId) : Prog World Exn Unit :=
  tryExcept
    (if p ∈ toDelete then call env (.deletePort p) (dropPort p) else unbindPort env p)
    fun e => if e.cls = .portNotFound then pure () else raise e

/-- `delete_or_unbind_ports`. -/
def deleteOrUnbindPorts (ports toDelete : List PortId) : Prog World Exn Unit :=
  forEach ports (deleteOrUnbindPort env toDelete)

/-- Every port some addresses are on. -/
def allPorts (addrs : List Addr) : List PortId := (addrs.map (·.port)).dedup

/-- The ports of some addresses that go with the container. -/
def ownPorts (addrs : List Addr) : List PortId :=
  ((addrs.filter (!·.preserveOnDelete)).map (·.port)).dedup

/-! ## What the ports are after a change -/

variable {env} {u : Uuid} {s : World}

/-- Getting a port moves along a relation that respects the two calls it can be got with. -/
theorem within_createOrUpdatePort_of {R : World → World → Prop} [IsPreorder World R]
    (hset : ∀ p, Within R (call env (.updatePort p) (setDevice p (some u))))
    (hadd : ∀ net, Within R (call env (.createPort u net) fun s => addPort (newPort env u net s) s))
    (net : RequestedNetwork) : Within R (createOrUpdatePort env u net) := by
  unfold createOrUpdatePort
  split
  · refine (hset _).bind fun _ => (within_read _).bind fun found => ?_
    cases found with
    | some port => exact within_pure _
    | none => exact within_raise _
  · exact (hadd _).bind fun _ => (within_read _).bind fun _ => within_pure _

theorem mem_setDevice {p : PortId} {device : Option Uuid} {q : Port}
    (h : q ∈ (setDevice p device s).ports) : ∃ q₀ ∈ s.ports, q₀.id = q.id := by
  obtain ⟨q₀, hq₀, hq⟩ := List.mem_map.mp h
  refine ⟨q₀, hq₀, ?_⟩
  rw [← hq]
  split <;> rfl

theorem setDevice_mem (p : PortId) (device : Option Uuid) {q : Port} (h : q ∈ s.ports) :
    ∃ q' ∈ (setDevice p device s).ports, q'.id = q.id ∧ (q.id = p → q'.device = device) := by
  refine ⟨_, List.mem_map_of_mem h, ?_⟩
  split
  · exact ⟨rfl, fun _ => rfl⟩
  · exact ⟨rfl, fun hp => absurd hp ‹_›⟩

/-- The port that is found after its device was set is the one that was there. -/
theorem find_setDevice (p : PortId) (device : Option Uuid) :
    (setDevice p device s).ports.find? (·.id = p)
      = (s.ports.find? (·.id = p)).map fun q => if q.id = p then { q with device } else q := by
  have hid : (fun q : Port => decide ((if q.id = p then { q with device } else q).id = p))
      = fun q => decide (q.id = p) := by
    funext q
    split <;> rfl
  change (s.ports.map _).find? _ = _
  rw [List.find?_map]
  exact congrArg (fun f => (s.ports.find? f).map _) hid

theorem setDevice_of_none {p : PortId} {device : Option Uuid}
    (h : s.ports.find? (·.id = p) = none) : setDevice p device s = s := by
  have hports : (s.ports.map fun q => if q.id = p then { q with device } else q) = s.ports := by
    refine List.map_congr_left (fun q hq => ?_) |>.trans (List.map_id _)
    have := List.find?_eq_none.mp h q hq
    rw [if_neg (by simpa using this)]
    rfl
  change { s with ports := _ } = s
  rw [hports]

theorem addressesOf_ite {keep : Bool} {p : PortId} {device : Option Uuid} (q : Port) :
    addressesOf keep (if q.id = p then { q with device } else q) = addressesOf keep q := by
  split <;> rfl

/-- The ports of the addresses of one port. -/
theorem ports_addressesOf (keep : Bool) (p : Port) :
    (addressesOf keep p).map (·.port) = List.replicate p.fixedIps.length p.id := by
  unfold addressesOf
  rw [List.map_map]
  exact List.map_const ..

theorem allPorts_addressesOf (keep : Bool) {p : Port} (h : p.fixedIps ≠ []) :
    allPorts (addressesOf keep p) = [p.id] := by
  unfold allPorts
  rw [ports_addressesOf keep p]
  exact List.replicate_dedup (by simpa using h)

theorem ownPorts_addressesOf (keep : Bool) {p : Port} (h : p.fixedIps ≠ []) :
    ownPorts (addressesOf keep p) = if keep then [] else [p.id] := by
  have hfilter : (addressesOf keep p).filter (!·.preserveOnDelete)
      = if keep then [] else addressesOf keep p := by
    unfold addressesOf
    cases keep <;> simp
  unfold ownPorts
  rw [hfilter]
  cases keep with
  | true => rfl
  | false => exact allPorts_addressesOf false h

end Neutron

end Zun
