import Zun.Db.Api
import Zun.Effect.Run

/-!
# The sweep for orphan ports

`reclaim_orphan_ports` of `zun/compute/manager.py`.  It lists the ports bound on its host, then the
containers, then the capsules of every project, and deletes the ports that Zun made for an owner
outside of it, whose container or capsule it was not shown.

Meanwhile any service writes and destroys records and makes, binds and deletes ports, with
`create_or_update_port` and `delete_or_unbind_ports` of `zun/network/neutron.py`.  Two things carry
the sweep.  The ports are listed before the records, and a record is written before its port is made;
so the record of a listed port was there, or had been there, when the records were listed.  And no
uuid is given twice, so a record that is gone does not come back while the sweep goes through its list.
-/

namespace Zun

open Effect

namespace PortSweep

/-! ## Ports -/

/-- What `created_at` says. -/
inductive CreatedAt where
  | missing
  /-- `parse_isotime` raises. -/
  | unreadable
  | at (t : Int)
deriving DecidableEq

structure Port where
  id : PortId
  /-- `device_id`, and nothing when it is empty. -/
  deviceId : Option Uuid
  deviceOwner : String
  bindingHost : Option Host
  description : String
  status : String := "DOWN"
  createdAt : CreatedAt := .missing
  /-- Zun made the port, for an owner outside of it.  The code does not read this. -/
  outside : Bool := false
deriving DecidableEq

/-- `PORT_OWNER_PREFIX`. -/
def portOwnerPrefix : String := "managed-by:"

/-- `DEVICE_OWNER_ZUN`. -/
def deviceOwnerZun : String := "compute:zun"

abbrev Labels := String → Option String

/-- `_managed_by`. -/
def managedBy (labels : Labels) : Option String :=
  let «namespace» := (labels "knaas.io/pod-namespace").getD ""
  let name := (labels "knaas.io/pod-name").getD ""
  if «namespace» = "" ∨ name = "" then none
  else some (portOwnerPrefix ++ "kubezun " ++ «namespace» ++ "/" ++ name)

/-- The port that `create_or_update_port` makes when no port is asked for.  Who calls it says whether
the port is bound to the host. -/
def newPort (u : Uuid) (labels : Labels) (binding : Option (String × Host)) (id : PortId)
    (status : String) (createdAt : CreatedAt) : Port where
  id
  deviceId := some u
  deviceOwner := (binding.map (·.1)).getD ""
  bindingHost := binding.map (·.2)
  description := (managedBy labels).getD ""
  status
  createdAt
  outside := (managedBy labels).isSome

/-- What `create_or_update_port` makes of a port that is asked for. -/
def Port.bound (u : Uuid) (binding : Option (String × Host)) (p : Port) : Port :=
  match binding with
  | none => { p with deviceId := some u }
  | some (owner, host) =>
      { p with deviceId := some u, deviceOwner := owner, bindingHost := some host }

/-- `_unbind_port`. -/
def Port.unbound (p : Port) : Port :=
  { p with deviceId := none, deviceOwner := "", bindingHost := none }

/-! ## The sweep -/

structure Conf where
  /-- `reclaim_orphan_ports`. -/
  enabled : Bool
  host : Host
  /-- `reclaim_orphan_ports_grace`. -/
  grace : Int

/-- Where the sweep is, with what it knows there. -/
inductive Pass where
  | idle
  | listingPorts
  | listingContainers (ports : List Port)
  | listingCapsules (ports : List Port) (known : Uuid → Bool)
  /-- At the head of the loop. -/
  | looking (now : Int) (known : Uuid → Bool) (rest : List Port)
  /-- At `delete_port`. -/
  | deleting (now : Int) (known : Uuid → Bool) (p : Port) (rest : List Port)

variable (conf : Conf)

/-- The age of the port keeps it, or it cannot be told. -/
def young (now : Int) : CreatedAt → Bool
  | .missing => false
  | .unreadable => true
  | .at t => now - t < conf.grace

/-- One of the `continue`s of the loop is taken. -/
def skips (now : Int) (known : Uuid → Bool) (p : Port) : Bool :=
  !p.description.startsWith portOwnerPrefix || p.deviceId.any known || p.status != "DOWN" ||
    young conf now p.createdAt

/-- One turn of the loop, as far as `delete_port`. -/
def look (now : Int) (known : Uuid → Bool) : List Port → Pass
  | [] => .idle
  | p :: rest =>
      if skips conf now known p = true then .looking now known rest
      else .deleting now known p rest

/-- The ports that `list_ports` is asked for. -/
def bindsHere (p : Port) : Bool := p.deviceOwner = deviceOwnerZun && p.bindingHost = some conf.host

/-! ## What happens -/

structure State where
  records : Db.Containers := .empty
  ports : Table PortId Port := .empty
  /-- The ports asked for that `ensure_neutron_port_usable` has let a request use. -/
  usable : List (Uuid × PortId) := []
  /-- The ports that were made, with the records they are in. -/
  made : List (Uuid × PortId) := []
  pass : Pass := .idle

inductive Event where
  | createRecord (u : Uuid) (r : Db.Container)
  | updateRecord (u : Uuid) (f : Db.Container → Db.Container)
  | destroyRecord (u : Uuid)
  /-- A tenant makes a port of his own. -/
  | tenantPort (p : Port)
  /-- `ensure_neutron_port_usable` finds no fault with a port asked for. -/
  | ensureUsable (u : Uuid) (id : PortId)
  | createPort (u : Uuid) (labels : Labels) (binding : Option (String × Host)) (id : PortId)
      (status : String) (createdAt : CreatedAt)
  /-- `create_or_update_port` of a port asked for, or again of the port of a capsule that is rebuilt. -/
  | updatePort (u : Uuid) (id : PortId) (binding : Option (String × Host))
  | unbindPort (u : Uuid) (id : PortId)
  /-- Someone deletes a port: the delete of its record, the undo of a create, a tenant, another host. -/
  | deletePort (id : PortId)
  | portStatus (id : PortId) (status : String)
  | begin
  /-- `list_ports` answers, or raises. -/
  | listPorts (answer : Option (List Port))
  | listContainers (ok : Bool)
  | listCapsules (ok : Bool) (now : Int)
  | look
  /-- The sweep's own `delete_port` succeeds, or raises. -/
  | delete (ok : Bool)

/-- The context that periodic tasks are run with. -/
def context : Db.Context := Db.getAdminContext true

section

variable (s : State)

def stepListPorts (answer : Option (List Port)) : State :=
  match s.pass, answer with
  | .listingPorts, some ports => { s with pass := .listingContainers ports }
  | .listingPorts, none => { s with pass := .idle }
  | _, _ => s

def stepListContainers (ok : Bool) : State :=
  match s.pass, ok with
  | .listingContainers ports, true =>
      { s with pass := .listingCapsules ports (Db.list context .container s.records) }
  | .listingContainers _, false => { s with pass := .idle }
  | _, _ => s

def stepListCapsules (ok : Bool) (now : Int) : State :=
  match s.pass, ok with
  | .listingCapsules ports known, true =>
      { s with pass := .looking now (fun u => known u || Db.list context .capsule s.records u) ports }
  | .listingCapsules _ _, false => { s with pass := .idle }
  | _, _ => s

def stepLook : State :=
  match s.pass with
  | .looking now known rest => { s with pass := look conf now known rest }
  | _ => s

def stepDelete (ok : Bool) : State :=
  match s.pass with
  | .deleting now known p rest =>
      { s with
        ports := if ok = true then s.ports.erase p.id else s.ports
        pass := .looking now known rest }
  | _ => s

end

def step : Event → State → State
  | .createRecord u r, s => { s with records := s.records.insert u r }
  | .updateRecord u f, s => { s with records := s.records.modify u f }
  | .destroyRecord u, s => { s with records := s.records.erase u }
  | .tenantPort p, s => { s with ports := s.ports.insert p.id p }
  | .ensureUsable u id, s => { s with usable := (u, id) :: s.usable }
  | .createPort u labels binding id status createdAt, s =>
      { s with
        ports := s.ports.insert id (newPort u labels binding id status createdAt)
        made := (u, id) :: s.made }
  | .updatePort u id binding, s => { s with ports := s.ports.modify id (Port.bound u binding) }
  | .unbindPort _ id, s => { s with ports := s.ports.modify id Port.unbound }
  | .deletePort id, s => { s with ports := s.ports.erase id }
  | .portStatus id status, s => { s with ports := s.ports.modify id fun p => { p with status } }
  | .begin, s => { s with pass := if conf.enabled = true then .listingPorts else .idle }
  | .listPorts answer, s => stepListPorts s answer
  | .listContainers ok, s => stepListContainers s ok
  | .listCapsules ok now, s => stepListCapsules s ok now
  | .look, s => stepLook conf s
  | .delete ok, s => stepDelete s ok

/-! ## What can happen -/

/-- A container or a capsule: what a port is made for. -/
def OwnsPorts (r : Db.Container) : Prop :=
  r.containerType = .container ∨ r.containerType = .capsule

def Possible : Event → State → Prop
  | .createRecord u _, s => s.records.given u = false
  | .updateRecord u f, s => ∀ r, s.records.row u = some r → (f r).containerType = r.containerType
  | .destroyRecord _, _ => True
  -- The mark is Zun's own: a tenant's port does not bear it.
  | .tenantPort p, s => s.ports.given p.id = false ∧ p.outside = false ∧
      p.description.startsWith portOwnerPrefix = false
  | .ensureUsable _ id, s => ∃ p, s.ports.row id = some p ∧ p.deviceId = none
  | .createPort u _ _ id _ _, s => s.records.Settled OwnsPorts u ∧ s.ports.given id = false
  | .updatePort u id _, s => (u, id) ∈ s.usable ∨ (u, id) ∈ s.made
  -- What is not preserved is deleted instead.
  | .unbindPort u id, s => (u, id) ∈ s.usable
  | .deletePort _, _ | .portStatus _ _, _ => True
  | .begin, s => match s.pass with
    | .idle => True
    | _ => False
  | .listPorts (some ports), s =>
      ∀ p, p ∈ ports ↔ s.ports.row p.id = some p ∧ bindsHere conf p = true
  | .listPorts none, _ | .listContainers _, _ | .listCapsules _ _, _ | .look, _
  | .delete _, _ => True

/-! ## What stays true -/

/-- The port is on record: made for an owner outside, it names a record that was written. -/
def Filed (t : Db.Containers) (P : Db.Container → Prop) (p : Port) : Prop :=
  p.outside = true → ∃ u, p.deviceId = some u ∧ t.Settled P u

/-- What is listed under the port's id is the port, as far as its owner goes. -/
def Fixed (p q : Port) : Prop :=
  q.description = p.description ∧ q.outside = p.outside ∧
    (p.outside = true → q.deviceId = p.deviceId)

/-- A listed port, whose owner is settled as `P` says if the sweep was not shown it. -/
structure Listed (s : State) (known : Uuid → Bool) (P : Db.Container → Prop) (p : Port) :
    Prop where
  marked : p.description.startsWith portOwnerPrefix = true → p.outside = true
  fixed : s.ports.Settled (Fixed p) p.id
  filed : p.deviceId.any known = false → Filed s.records P p

/-- What a record can still be, of which the sweep has listed the containers. -/
def Capsule (r : Db.Container) : Prop := r.containerType = .capsule

def nothing (_ : Uuid) : Bool := false

/-- What the sweep knows, where it is. -/
def Informed (s : State) : Pass → Prop
  | .idle | .listingPorts => True
  | .listingContainers ports => ∀ p ∈ ports, Listed s nothing OwnsPorts p
  | .listingCapsules ports known => ∀ p ∈ ports, Listed s known Capsule p
  | .looking _ known rest => ∀ p ∈ rest, Listed s known (fun _ => False) p
  | .deleting _ known p rest =>
      (∀ q ∈ p :: rest, Listed s known (fun _ => False) q) ∧ p.deviceId.any known = false ∧
        p.description.startsWith portOwnerPrefix = true

structure Inv (s : State) : Prop where
  id : ∀ id p, s.ports.row id = some p → p.id = id
  marked : ∀ id p, s.ports.row id = some p →
    p.description.startsWith portOwnerPrefix = true → p.outside = true
  filed : ∀ id p, s.ports.row id = some p → Filed s.records OwnsPorts p
  usable : ∀ u id, (u, id) ∈ s.usable → s.ports.Settled (fun p => p.outside = false) id
  made : ∀ u id, (u, id) ∈ s.made →
    s.ports.Settled (fun p => p.outside = true → p.deviceId = some u) id
  pass : Informed s s.pass

/-! ## Each step keeps it -/

variable {conf : Conf} {s s' : State} {known : Uuid → Bool} {P Q : Db.Container → Prop} {p q : Port}
  {id : PortId} {u : Uuid} {pass : Pass}

/-- The condition is one on the type of a record. -/
def OfType (P : Db.Container → Prop) : Prop :=
  ∀ r r' : Db.Container, r'.containerType = r.containerType → P r → P r'

theorem ownsPorts_ofType : OfType OwnsPorts := by
  intro r r' h hr
  rw [OwnsPorts, h]
  exact hr

theorem capsule_ofType : OfType Capsule := by
  intro r r' h hr
  rw [Capsule, h]
  exact hr

/-- Nothing that the sweep was told turns false. -/
structure Keeps (s s' : State) : Prop where
  records : ∀ P u, OfType P → s.records.Settled P u → s'.records.Settled P u
  ports : ∀ p id, s.ports.Settled (Fixed p) id → s'.ports.Settled (Fixed p) id

theorem Filed.keeps (h : Filed s.records P p) (hP : OfType P) (hk : Keeps s s') :
    Filed s'.records P p := by
  intro ho
  obtain ⟨u, hu, hs⟩ := h ho
  exact ⟨u, hu, hk.records P u hP hs⟩

theorem Listed.keeps (h : Listed s known P p) (hP : OfType P) (hk : Keeps s s') :
    Listed s' known P p where
  marked := h.marked
  fixed := hk.ports p p.id h.fixed
  filed hknown := (h.filed hknown).keeps hP hk

theorem Informed.keeps (h : Informed s pass) (hk : Keeps s s') : Informed s' pass := by
  have hfalse : OfType fun _ => False := fun _ _ _ h => h
  cases pass with
  | idle => trivial
  | listingPorts => trivial
  | listingContainers ports => exact fun p hp => (h p hp).keeps ownsPorts_ofType hk
  | listingCapsules ports known => exact fun p hp => (h p hp).keeps capsule_ofType hk
  | looking now known rest => exact fun p hp => (h p hp).keeps hfalse hk
  | deleting now known p rest =>
    obtain ⟨hrest, hknown, hmark⟩ := h
    exact ⟨fun q hq => (hrest q hq).keeps hfalse hk, hknown, hmark⟩

/-! ### Records -/

theorem inv_records {t : Db.Containers} (h : Inv s)
    (ht : ∀ P u, OfType P → s.records.Settled P u → t.Settled P u) :
    Inv { s with records := t } := by
  have hk : Keeps s { s with records := t } := ⟨ht, fun _ _ h => h⟩
  exact {
    id := h.id
    marked := h.marked
    filed := fun id p hp => (h.filed id p hp).keeps ownsPorts_ofType hk
    usable := h.usable
    made := h.made
    pass := h.pass.keeps hk }

theorem inv_createRecord {r : Db.Container} (h : Inv s) (hu : s.records.given u = false) :
    Inv (step conf (.createRecord u r) s) :=
  inv_records h fun _ _ _ ht => ht.insert hu

theorem inv_updateRecord {f : Db.Container → Db.Container} (h : Inv s)
    (hf : ∀ r, s.records.row u = some r → (f r).containerType = r.containerType) :
    Inv (step conf (.updateRecord u f) s) := by
  apply inv_records h
  intro P v hP ht
  exact ht.modify fun r hr hPr => hP r (f r) (hf r hr) hPr

theorem inv_destroyRecord (h : Inv s) : Inv (step conf (.destroyRecord u) s) :=
  inv_records h fun _ _ _ ht => ht.erase

/-! ### Ports -/

/-- A port is changed in what its owner does not depend on. -/
theorem inv_modifyPort {f : Port → Port} (h : Inv s)
    (hf : ∀ p, s.ports.row id = some p → (f p).id = p.id ∧ Fixed p (f p)) :
    Inv { s with ports := s.ports.modify id f } where
  id id' p hp := by
    rcases Table.row_of_modify hp with ⟨rfl, p', hp', rfl⟩ | ⟨-, hp⟩
    · rw [(hf p' hp').1]
      exact h.id _ p' hp'
    · exact h.id _ p hp
  marked id' p hp hm := by
    rcases Table.row_of_modify hp with ⟨rfl, p', hp', rfl⟩ | ⟨-, hp⟩
    · obtain ⟨-, hd, ho, -⟩ := hf p' hp'
      rw [hd] at hm
      rw [ho]
      exact h.marked _ p' hp' hm
    · exact h.marked _ p hp hm
  filed id' p hp ho := by
    rcases Table.row_of_modify hp with ⟨rfl, p', hp', rfl⟩ | ⟨-, hp⟩
    · obtain ⟨-, -, ho', hdev⟩ := hf p' hp'
      rw [ho'] at ho
      rw [hdev ho]
      exact h.filed _ p' hp' ho
    · exact h.filed _ p hp ho
  usable u id' hu := by
    apply (h.usable u id' hu).modify
    intro p hp ho
    rw [(hf p hp).2.2.1]
    exact ho
  made u id' hu := by
    apply (h.made u id' hu).modify
    intro p hp hd ho
    obtain ⟨-, -, ho', hdev⟩ := hf p hp
    rw [ho'] at ho
    rw [hdev ho]
    exact hd ho
  pass := by
    apply h.pass.keeps
    constructor
    · exact fun _ _ _ ht => ht
    · intro q id' ht
      apply ht.modify
      rintro p hp ⟨hd, ho, hdev⟩
      obtain ⟨-, hd', ho', hdev'⟩ := hf p hp
      constructor
      · rw [hd', hd]
      constructor
      · rw [ho', ho]
      · intro hq
        rw [hdev' (by rw [ho, hq]), hdev hq]

theorem inv_updatePort {binding : Option (String × Host)} (h : Inv s)
    (hid : (u, id) ∈ s.usable ∨ (u, id) ∈ s.made) :
    Inv (step conf (.updatePort u id binding) s) := by
  apply inv_modifyPort h
  intro p hp
  have hdev : p.outside = true → some u = p.deviceId := by
    intro ho
    rcases hid with hid | hid
    · rw [(h.usable u id hid).2 p hp] at ho
      cases ho
    · exact ((h.made u id hid).2 p hp ho).symm
  cases binding <;> exact ⟨rfl, rfl, rfl, hdev⟩

theorem inv_unbindPort (h : Inv s) (hid : (u, id) ∈ s.usable) :
    Inv (step conf (.unbindPort u id) s) := by
  apply inv_modifyPort h
  intro p hp
  have hout : p.outside = false := (h.usable u id hid).2 p hp
  refine ⟨rfl, rfl, rfl, ?_⟩
  intro ho
  rw [hout] at ho
  cases ho

theorem inv_erasePort (h : Inv s) : Inv { s with ports := s.ports.erase id } where
  id id' p hp := h.id id' p (Table.row_of_erase hp)
  marked id' p hp := h.marked id' p (Table.row_of_erase hp)
  filed id' p hp := h.filed id' p (Table.row_of_erase hp)
  usable u id' hu := (h.usable u id' hu).erase
  made u id' hu := (h.made u id' hu).erase
  pass := h.pass.keeps ⟨fun _ _ _ ht => ht, fun _ _ ht => ht.erase⟩

/-- A port is made, and put down as the record's own or as nobody's. -/
theorem inv_insertPort {made : List (Uuid × PortId)} (h : Inv s)
    (hid : s.ports.given p.id = false)
    (hmarked : p.description.startsWith portOwnerPrefix = true → p.outside = true)
    (hfiled : Filed s.records OwnsPorts p)
    (hmade : ∀ u id, (u, id) ∈ made →
      (u, id) ∈ s.made ∨ id = p.id ∧ p.deviceId = some u) :
    Inv { s with ports := s.ports.insert p.id p, made } where
  id id' q hq := by
    by_cases hne : id' = p.id
    · subst hne
      rw [Table.row_insert_self] at hq
      cases hq
      rfl
    · rw [Table.row_insert_of_ne hne] at hq
      exact h.id id' q hq
  marked id' q hq := by
    by_cases hne : id' = p.id
    · subst hne
      rw [Table.row_insert_self] at hq
      cases hq
      exact hmarked
    · rw [Table.row_insert_of_ne hne] at hq
      exact h.marked id' q hq
  filed id' q hq := by
    by_cases hne : id' = p.id
    · subst hne
      rw [Table.row_insert_self] at hq
      cases hq
      exact hfiled
    · rw [Table.row_insert_of_ne hne] at hq
      exact h.filed id' q hq
  usable u id' hu := (h.usable u id' hu).insert hid
  made u id' hu := by
    rcases hmade u id' hu with hu | ⟨rfl, hdev⟩
    · exact (h.made u id' hu).insert hid
    · constructor
      · exact Table.given_insert_self
      · intro q hq _
        rw [Table.row_insert_self] at hq
        cases hq
        exact hdev
  pass := h.pass.keeps ⟨fun _ _ _ ht => ht, fun _ _ ht => ht.insert hid⟩

theorem inv_tenantPort (h : Inv s) (hid : s.ports.given p.id = false) (hout : p.outside = false)
    (hmark : p.description.startsWith portOwnerPrefix = false) :
    Inv (step conf (.tenantPort p) s) := by
  have hmarked : p.description.startsWith portOwnerPrefix = true → p.outside = true := by
    intro hm
    rw [hmark] at hm
    cases hm
  have hfiled : Filed s.records OwnsPorts p := by
    intro ho
    rw [hout] at ho
    cases ho
  exact inv_insertPort h hid hmarked hfiled fun _ _ hu => .inl hu

/-- Zun writes the mark on a port that it makes for an owner outside, and on no other. -/
theorem newPort_marked {labels : Labels} {binding : Option (String × Host)} {status : String}
    {createdAt : CreatedAt}
    (h : (newPort u labels binding id status createdAt).description.startsWith portOwnerPrefix
      = true) :
    (newPort u labels binding id status createdAt).outside = true := by
  simp only [newPort] at h ⊢
  cases hl : managedBy labels with
  | some d => rfl
  | none =>
    rw [hl] at h
    revert h
    decide

theorem inv_createPort {labels : Labels} {binding : Option (String × Host)} {status : String}
    {createdAt : CreatedAt} (h : Inv s) (hu : s.records.Settled OwnsPorts u)
    (hid : s.ports.given id = false) :
    Inv (step conf (.createPort u labels binding id status createdAt) s) := by
  have hfiled : Filed s.records OwnsPorts (newPort u labels binding id status createdAt) :=
    fun _ => ⟨u, rfl, hu⟩
  apply inv_insertPort h hid newPort_marked hfiled
  intro v id' hv
  rcases List.mem_cons.mp hv with heq | hv
  · cases heq
    exact .inr ⟨rfl, rfl⟩
  · exact .inl hv

/-! ### The sweep's own steps -/

theorem Inv.withPass (h : Inv s) (hp : Informed s pass) : Inv { s with pass } where
  id := h.id
  marked := h.marked
  filed := h.filed
  usable := h.usable
  made := h.made
  pass := by
    apply Informed.keeps hp
    exact ⟨fun _ _ _ ht => ht, fun _ _ ht => ht⟩

/-- What Neutron has is what it lists, and its owner was written. -/
theorem Inv.listed (h : Inv s) (hp : s.ports.row p.id = some p) : Listed s nothing OwnsPorts p where
  marked := h.marked p.id p hp
  fixed := by
    constructor
    · exact s.ports.given_of_row p.id p hp
    · intro q hq
      rw [hp] at hq
      cases hq
      exact ⟨rfl, rfl, fun _ => rfl⟩
  filed _ := h.filed p.id p hp

/-- A listing of the records settles the owner of a port that it leaves out. -/
theorem Listed.shown {known' : Uuid → Bool} (h : Listed s known P p)
    (hknown : ∀ u, known' u = false → known u = false)
    (hQ : ∀ u, known' u = false → s.records.Settled P u → s.records.Settled Q u) :
    Listed s known' Q p where
  marked := h.marked
  fixed := h.fixed
  filed hk ho := by
    have hk' : p.deviceId.any known = false := by
      cases hd : p.deviceId with
      | none => rfl
      | some u =>
        rw [hd] at hk
        exact hknown u hk
    obtain ⟨u, hu, hs⟩ := h.filed hk' ho
    rw [hu] at hk
    exact ⟨u, hu, hQ u hk hs⟩

theorem inv_stepListPorts {answer : Option (List Port)} (h : Inv s)
    (ha : ∀ ports, answer = some ports → ∀ p ∈ ports, s.ports.row p.id = some p) :
    Inv (stepListPorts s answer) := by
  unfold stepListPorts
  split
  · rename_i ports _
    exact h.withPass fun p hp => h.listed (ha ports rfl p hp)
  · exact h.withPass trivial
  · exact h

theorem inv_stepListContainers {ok : Bool} (h : Inv s) : Inv (stepListContainers s ok) := by
  have hpass := h.pass
  unfold stepListContainers
  split
  · rename_i ports hs
    rw [hs] at hpass
    apply h.withPass
    intro p hp
    apply (hpass p hp).shown
    · exact fun _ _ => rfl
    · intro u hu hset
      rw [context, Db.list_admin] at hu
      apply (hset.of_has hu).mono
      rintro r ⟨hown | hcap, hne⟩
      · simp [hown] at hne
      · exact hcap
  · exact h.withPass trivial
  · exact h

theorem inv_stepListCapsules {ok : Bool} {now : Int} (h : Inv s) :
    Inv (stepListCapsules s ok now) := by
  have hpass := h.pass
  unfold stepListCapsules
  split
  · rename_i ports known hs
    rw [hs] at hpass
    apply h.withPass
    intro p hp
    apply (hpass p hp).shown
    · intro u hu
      rw [Bool.or_eq_false_iff] at hu
      exact hu.1
    · intro u hu hset
      rw [Bool.or_eq_false_iff, context, Db.list_admin] at hu
      apply (hset.of_has hu.2).mono
      rintro r ⟨hcap, hne⟩
      rw [Capsule] at hcap
      simp [hcap] at hne
  · exact h.withPass trivial
  · exact h

theorem informed_look {now : Int} {rest : List Port}
    (h : ∀ p ∈ rest, Listed s known (fun _ => False) p) : Informed s (look conf now known rest) := by
  cases rest with
  | nil => trivial
  | cons p rest =>
    rw [look]
    split
    · exact fun q hq => h q (List.mem_cons_of_mem _ hq)
    · rename_i hskip
      simp only [skips, Bool.or_eq_true, Bool.not_eq_true', not_or, Bool.not_eq_true,
        Bool.not_eq_false] at hskip
      obtain ⟨⟨⟨hmark, hknown⟩, -⟩, -⟩ := hskip
      exact ⟨h, hknown, hmark⟩

theorem inv_stepLook (h : Inv s) : Inv (stepLook conf s) := by
  have hpass := h.pass
  unfold stepLook
  split
  · rename_i now known rest hs
    rw [hs] at hpass
    exact h.withPass (informed_look hpass)
  · exact h

theorem inv_stepDelete {ok : Bool} (h : Inv s) : Inv (stepDelete s ok) := by
  have hpass := h.pass
  unfold stepDelete
  split
  · rename_i now known p rest hs
    rw [hs] at hpass
    have hrest : Informed s (.looking now known rest) :=
      fun q hq => hpass.1 q (List.mem_cons_of_mem _ hq)
    have hinv := h.withPass hrest
    cases ok with
    | false => exact hinv
    | true => exact inv_erasePort hinv
  · exact h

/-! ## Every run -/

theorem inv_empty : Inv {} where
  id _ _ h := by cases h
  marked _ _ h := by cases h
  filed _ _ h := by cases h
  usable _ _ h := by cases h
  made _ _ h := by cases h
  pass := trivial

theorem inv_step (e : Event) (h : Inv s) (he : Possible conf e s) : Inv (step conf e s) := by
  cases e with
  | createRecord u r => exact inv_createRecord h he
  | updateRecord u f => exact inv_updateRecord h he
  | destroyRecord u => exact inv_destroyRecord h
  | tenantPort p => exact inv_tenantPort h he.1 he.2.1 he.2.2
  | ensureUsable u id =>
    obtain ⟨p, hp, hdev⟩ := he
    have hout : s.ports.Settled (fun p => p.outside = false) id := by
      constructor
      · exact s.ports.given_of_row id p hp
      · intro q hq
        rw [hp] at hq
        cases hq
        cases ho : p.outside with
        | false => rfl
        | true =>
          obtain ⟨u, hu, -⟩ := h.filed id p hp ho
          rw [hdev] at hu
          cases hu
    exact {
      id := h.id
      marked := h.marked
      filed := h.filed
      usable := by
        intro v id' hv
        rcases List.mem_cons.mp hv with heq | hv
        · cases heq
          exact hout
        · exact h.usable v id' hv
      made := h.made
      pass := h.pass.keeps ⟨fun _ _ _ ht => ht, fun _ _ ht => ht⟩ }
  | createPort u labels binding id status createdAt => exact inv_createPort h he.1 he.2
  | updatePort u id binding => exact inv_updatePort h he
  | unbindPort u id => exact inv_unbindPort h he
  | deletePort id => exact inv_erasePort h
  | portStatus id status => exact inv_modifyPort h fun p _ => ⟨rfl, rfl, rfl, fun _ => rfl⟩
  | begin =>
    apply h.withPass
    split <;> trivial
  | listPorts answer =>
    apply inv_stepListPorts h
    rintro ports rfl p hp
    exact ((he p).mp hp).1
  | listContainers ok => exact inv_stepListContainers h
  | listCapsules ok now => exact inv_stepListCapsules h
  | look => exact inv_stepLook h
  | delete ok => exact inv_stepDelete h

/-- A run from an empty database and an empty Neutron. -/
abbrev Run (conf : Conf) : State → Prop := Reached (· = {}) (step conf) (Possible conf)

theorem inv_run (h : Run conf s) : Inv s := by
  apply h.invariant
  · rintro _ rfl
    exact inv_empty
  · exact fun e s he hs => inv_step e hs he

/-- The port that the sweep is about to delete is one that Zun made for an owner outside of it, and
the container or capsule that it names is no longer on record. -/
theorem deletes_only_orphans (h : Run conf s) {now : Int} {rest : List Port}
    (hd : s.pass = .deleting now known q rest) (hp : s.ports.row q.id = some p) :
    p.description.startsWith portOwnerPrefix = true ∧ p.outside = true ∧
      ∃ u, p.deviceId = some u ∧ s.records.row u = none := by
  have hpass := (inv_run h).pass
  rw [hd] at hpass
  obtain ⟨hlisted, hknown, hmark⟩ := hpass
  have hq := hlisted q List.mem_cons_self
  obtain ⟨hdesc, hout, hdev⟩ := hq.fixed.2 p hp
  have hqout : q.outside = true := hq.marked hmark
  obtain ⟨u, hu, hset⟩ := hq.filed hknown hqout
  rw [hdesc, hout, hdev hqout]
  exact ⟨hmark, hqout, u, hu, hset.row_eq_none fun _ hr => hr⟩

/-! A pod's capsule leaves its port behind, and the sweep comes to it. -/

def podConf : Conf := { enabled := true, host := "node", grace := 600 }

def podLabels : Labels := fun key =>
  if key = "knaas.io/pod-namespace" then some "default"
  else if key = "knaas.io/pod-name" then some "web"
  else none

def podPort : Port := newPort 1 podLabels (some (deviceOwnerZun, "node")) 7 "DOWN" (.at 0)

def podEvents : List Event :=
  [.createRecord 1 { containerType := .capsule },
    .createPort 1 podLabels (some (deviceOwnerZun, "node")) 7 "DOWN" (.at 0),
    .destroyRecord 1, .begin, .listPorts (some [podPort]), .listContainers true,
    .listCapsules true 1000, .look]

theorem podPort_marked : podPort.description.startsWith portOwnerPrefix = true := by decide +kernel

theorem podPort_not_skipped {known : Uuid → Bool} (h : known 1 = false) :
    skips podConf 1000 known podPort = false := by
  have hdev : podPort.deviceId.any known = false := h
  have hyoung : young podConf 1000 podPort.createdAt = false := by decide
  rw [skips, podPort_marked, hdev, hyoung]
  rfl

theorem podPort_listed (p : Port) : p ∈ [podPort] ↔
    (Table.empty.insert 7 podPort).row p.id = some p ∧ bindsHere podConf p = true := by
  constructor
  · intro h
    cases List.mem_singleton.mp h
    exact ⟨rfl, by decide⟩
  · rintro ⟨hrow, -⟩
    by_cases hid : p.id = 7
    · rw [hid, Table.row_insert_self] at hrow
      cases hrow
      exact List.mem_singleton_self _
    · rw [Table.row_insert_of_ne hid] at hrow
      cases hrow

theorem run_pod : Run podConf (steps (step podConf) podEvents {}) := by
  have hempty : Run podConf {} := .init rfl
  apply hempty.steps
  have howns : (Table.empty.insert 1 { containerType := .capsule } : Db.Containers).Settled
      OwnsPorts 1 := by
    constructor
    · rfl
    · intro r hr
      rw [Table.row_insert_self] at hr
      cases hr
      exact .inr rfl
  exact ⟨rfl, ⟨howns, rfl⟩, trivial, trivial, podPort_listed, trivial, trivial, trivial, trivial⟩

/-- The records that the sweep is shown. -/
def podKnown (u : Uuid) : Bool :=
  let t : Db.Containers := (Table.empty.insert 1 { containerType := .capsule }).erase 1
  Db.list context .container t u || Db.list context .capsule t u

theorem pod_deleting :
    (steps (step podConf) podEvents {}).pass = .deleting 1000 podKnown podPort [] := by
  show look podConf 1000 podKnown [podPort] = _
  rw [look, podPort_not_skipped rfl]
  rfl

theorem deletes_podPort :
    podPort.description.startsWith portOwnerPrefix = true ∧ podPort.outside = true ∧
      ∃ u, podPort.deviceId = some u ∧
        (steps (step podConf) podEvents {}).records.row u = none :=
  deletes_only_orphans run_pod pod_deleting rfl

end PortSweep

end Zun
