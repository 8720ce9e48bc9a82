import Zun.Compute.Gentle
import Zun.Container.Cri.Abandoned
import Zun.Container.Cri.Gentle
import Zun.Effect.Run

/-!
# A service that stops while it builds a capsule

`_resume_capsules` runs when the service starts.  It picks up the capsules of this host that
were being created or rebuilt when the service stopped, and the deletes that were asked for
since.

A capsule's port, the addresses on its row, its sandbox and the id on its row become durable at
four different instants.  This module has the model of the resume and what every history of
creates, rebuilds, resumes and deletes keeps, each of them stopped anywhere: the addresses on
the row are those of one port, and say that it is to be deleted when Zun made it.
-/

namespace Zun

open Effect Prog World

namespace Manager

section Model

variable (env : Env)

/-! ## Start-up -/

/-- `_capsule_resumed`. -/
def capsuleResumed (c : Capsule) : Option Exn → Prog World Exn Unit
  | none => pure ()
  | some e => failFor env (.capsule c) Reasons.notCreated true e

/-- What a capsule without a sandbox to go by is told. -/
def notResumed : Exn where
  cls := .other
  text := "Capsule failed to create correctly"

/-- The capsule was being created by this service. -/
def starting (r : Record) : Bool :=
  r.status == .creating && r.taskState == some .containerCreating

/-- `_resume_capsule_delete`. -/
def resumeCapsuleDelete (d : Drivers) (c : Capsule) : Prog World Exn Unit :=
  swallow do
    assign c.uuid (Obj.setTaskState none)
    modify fun s => { s with abandoned := c.uuid :: s.abandoned }
    thread env d (.capsule c) (.delete true)

/-- The resume of a create or a rebuild. -/
def resumeCapsuleStart (c : Capsule) : Prog World Exn Unit :=
  swallow do
    let resumed ← Cri.resumeCapsule env c (capsuleResumed env c)
    onlyIf (resumed = false) (capsuleResumed env c (some notResumed))

/-- What `_resume_capsules` does with a capsule of this host. -/
def resumeCapsule (d : Drivers) (c : Capsule) (r : Record) : Prog World Exn Unit :=
  if beingDeleted r then resumeCapsuleDelete env d c
  else onlyIf (starting r = true ∨ r.status = .rebuilding) (resumeCapsuleStart env c)

/-- The turn of one capsule of `_resume_capsules`, on objects that the service has read as it
started. -/
def resumeCapsules (d : Drivers) (c : Capsule) : Prog World Exn Unit := do
  let row ← tryExcept (freshRecord env c.uuid) fun _ => pure none
  match row with
  | none => pure ()
  | some r => onlyIf (r.host = some env.host) do
      Cri.loadCapsule c
      resumeCapsule env d c r

end Model

variable {env : Env} {u : Uuid} {nets : List RequestedNetwork} {s s' : World}

/-! ## Ports and the addresses that name them -/

/-- A port keeps its id, its addresses and who made it, and ids are given out once. -/
structure PortsOk (s : World) : Prop where
  numbered : ∀ q ∈ s.ports, q.id < s.nextId
  same : ∀ q ∈ s.ports, ∀ q' ∈ s.ports, q.id = q'.id →
    q.fixedIps = q'.fixedIps ∧ q.zunMade = q'.zunMade

/-- Addresses as `_write_cni_metadata` writes them: those of one port, to be deleted when
Zun made it. -/
def Sound (addresses : List (NetId × List Addr)) (s : World) : Prop :=
  addresses = [] ∨ ∃ net keep p, addresses = [(net, Neutron.addressesOf keep p)] ∧
    p.id < s.nextId ∧
    ∀ q ∈ s.ports, q.id = p.id → q.fixedIps = p.fixedIps ∧ (q.zunMade = true → keep = false)

/-- A request names a port that is there to be kept, or none. -/
structure NetOk (net : RequestedNetwork) (s : World) : Prop where
  made : net.port = none → net.preserveOnDelete = false
  known : ∀ id, net.port = some id → id < s.nextId
  kept : ∀ id, net.port = some id → ∀ q ∈ s.ports, q.id = id →
    q.zunMade = true → net.preserveOnDelete = false

/-- The ports are those that were there, or new ones. -/
structure Grown (s s' : World) : Prop where
  ids : s.nextId ≤ s'.nextId
  ports : ∀ q ∈ s'.ports, (∃ q₀ ∈ s.ports, q₀.id = q.id ∧ q₀.fixedIps = q.fixedIps ∧
    q₀.zunMade = q.zunMade) ∨ s.nextId ≤ q.id
  ok : PortsOk s → PortsOk s'

theorem Grown.of_ports (hports : s'.ports = s.ports) (hid : s.nextId ≤ s'.nextId) :
    Grown s s' where
  ids := hid
  ports q hq := .inl ⟨q, hports ▸ hq, rfl, rfl, rfl⟩
  ok h := by
    refine ⟨fun q hq => ?_, by rw [hports]; exact h.same⟩
    rw [hports] at hq
    exact Nat.lt_of_lt_of_le (h.numbered q hq) hid

/-- An old id is that of an old port. -/
theorem Grown.old (h : Grown s s') {q : Port} (hq : q ∈ s'.ports) (hid : q.id < s.nextId) :
    ∃ q₀ ∈ s.ports, q₀.id = q.id ∧ q₀.fixedIps = q.fixedIps ∧ q₀.zunMade = q.zunMade := by
  obtain hold | hnew := h.ports q hq
  · exact hold
  · exact absurd hid (Nat.not_lt.mpr hnew)

theorem Sound.grown {addresses : List (NetId × List Addr)} (h : Sound addresses s)
    (hg : Grown s s') : Sound addresses s' := by
  obtain h | ⟨net, keep, p, haddr, hid, hports⟩ := h
  · exact .inl h
  refine .inr ⟨net, keep, p, haddr, Nat.lt_of_lt_of_le hid hg.ids, fun q hq hqid => ?_⟩
  obtain ⟨q₀, hq₀, hid₀, hips, hmade⟩ := hg.old hq (hqid ▸ hid)
  rw [← hips, ← hmade]
  exact hports q₀ hq₀ (hid₀.trans hqid)

theorem NetOk.grown {net : RequestedNetwork} (h : NetOk net s) (hg : Grown s s') :
    NetOk net s' where
  made := h.made
  known id hid := Nat.lt_of_lt_of_le (h.known id hid) hg.ids
  kept id hid q hq hqid := by
    obtain ⟨q₀, hq₀, hid₀, -, hmade⟩ := hg.old hq (hqid ▸ h.known id hid)
    rw [← hmade]
    exact h.kept id hid q₀ hq₀ (hid₀.trans hqid)

theorem grown_setDevice (p : PortId) (device : Option Uuid) :
    Grown s (Neutron.setDevice p device s) := by
  have hports : ∀ q ∈ (Neutron.setDevice p device s).ports, ∃ q₀ ∈ s.ports, q₀.id = q.id ∧
      q₀.fixedIps = q.fixedIps ∧ q₀.zunMade = q.zunMade := by
    intro q hq
    obtain ⟨q₀, hq₀, rfl⟩ := List.mem_map.mp hq
    refine ⟨q₀, hq₀, ?_⟩
    split <;> exact ⟨rfl, rfl, rfl⟩
  refine ⟨Nat.le_refl _, fun q hq => .inl (hports q hq), fun h => ⟨fun q hq => ?_, ?_⟩⟩
  · obtain ⟨q₀, hq₀, hid, -⟩ := hports q hq
    exact hid ▸ h.numbered q₀ hq₀
  · intro q hq q' hq' hid
    obtain ⟨q₀, hq₀, hid₀, hips₀, hmade₀⟩ := hports q hq
    obtain ⟨q₁, hq₁, hid₁, hips₁, hmade₁⟩ := hports q' hq'
    rw [← hips₀, ← hips₁, ← hmade₀, ← hmade₁]
    exact h.same q₀ hq₀ q₁ hq₁ (by rw [hid₀, hid₁, hid])

theorem grown_dropPort (p : PortId) : Grown s (Neutron.dropPort p s) where
  ids := Nat.le_refl _
  ports q hq := .inl ⟨q, List.mem_of_mem_filter hq, rfl, rfl, rfl⟩
  ok h := ⟨fun q hq => h.numbered q (List.mem_of_mem_filter hq), fun q hq q' hq' =>
    h.same q (List.mem_of_mem_filter hq) q' (List.mem_of_mem_filter hq')⟩

theorem grown_addPort {p : Port} (hp : p.id = s.nextId) : Grown s (Neutron.addPort p s) where
  ids := Nat.le_succ _
  ports q hq := by
    obtain rfl | hq := List.mem_cons.mp hq
    · exact .inr (Nat.le_of_eq hp.symm)
    · exact .inl ⟨q, hq, rfl, rfl, rfl⟩
  ok h := by
    constructor
    · intro q hq
      obtain rfl | hq := List.mem_cons.mp hq
      · exact hp ▸ Nat.lt_succ_self _
      · exact Nat.lt_succ_of_lt (h.numbered q hq)
    · -- The new id is above every id that is there.
      have hne : ∀ q ∈ s.ports, q.id ≠ p.id := by
        intro q hq hid
        have := h.numbered q hq
        rw [hid, hp] at this
        exact Nat.lt_irrefl _ this
      intro q hq q' hq' hid
      obtain hnew | hold := List.mem_cons.mp hq
      · obtain hnew' | hold' := List.mem_cons.mp hq'
        · rw [hnew, hnew']
          exact ⟨rfl, rfl⟩
        · rw [hnew] at hid
          exact absurd hid.symm (hne q' hold')
      · obtain hnew' | hold' := List.mem_cons.mp hq'
        · rw [hnew'] at hid
          exact absurd hid (hne q hold)
        · exact h.same q hold q' hold' hid

/-! ## What a history keeps -/

/-- The addresses of the record of `u`, on its row and on its object, are sound, and so are the
requests. -/
structure Tracked (u : Uuid) (nets : List RequestedNetwork) (s : World) : Prop where
  ports : PortsOk s
  obj : Sound (s.mem u).val.addresses s
  row : ∀ r, s.db u = some r → Sound r.addresses s
  nets : ∀ net ∈ nets, NetOk net s

/-- A step that leaves the addresses of `u` alone. -/
theorem Tracked.grown (h : Tracked u nets s) (hg : Grown s s')
    (hobj : (s'.mem u).val.addresses = (s.mem u).val.addresses) (hdb : s'.db u = s.db u) :
    Tracked u nets s' where
  ports := hg.ok h.ports
  obj := by
    rw [hobj]
    exact h.obj.grown hg
  row r hr := (h.row r (hdb ▸ hr)).grown hg
  nets net hnet := (h.nets net hnet).grown hg

theorem Tracked.assign (h : Tracked u nets s) (v : Uuid) {f : Obj → Obj}
    (hf : ∀ o, (f o).val.addresses = o.val.addresses) : Tracked u nets (s.setMem v f) := by
  refine h.grown (Grown.of_ports rfl (Nat.le_refl _)) ?_ rfl
  by_cases hv : u = v
  · subst hv
    rw [setMem_mem_self, hf]
  · rw [setMem_mem_of_ne hv]

theorem merged_addresses (row : Record) :
    (s.merged u row).addresses = (s.mem u).val.addresses ∨
      (s.merged u row).addresses = row.addresses := by
  unfold World.merged Changed.merge
  cases (s.mem u).changed.addresses
  · exact .inr rfl
  · exact .inl rfl

theorem Tracked.saved (h : Tracked u nets s) {v : Uuid} {row : Record} (hrow : s.db v = some row) :
    Tracked u nets (s.saved v row) := by
  have hg : Grown s (s.saved v row) := Grown.of_ports rfl (Nat.le_refl _)
  refine ⟨hg.ok h.ports, ?_, fun r hr => ?_, fun net hnet => (h.nets net hnet).grown hg⟩
  · rw [saved_val]
    exact h.obj.grown hg
  · by_cases hv : u = v
    · subst hv
      rw [saved_db_self, Option.some.injEq] at hr
      subst hr
      obtain haddr | haddr := merged_addresses (u := u) (s := s) row
      · rw [haddr]
        exact h.obj.grown hg
      · rw [haddr]
        exact (h.row row hrow).grown hg
    · rw [saved_db_of_ne hv] at hr
      exact (h.row r hr).grown hg

theorem Tracked.hushed (h : Tracked u nets s) (hs : Hushed s s') : Tracked u nets s' :=
  h.grown (Grown.of_ports hs.ports hs.ids) (by rw [hs.mem]) (by rw [hs.db])

instance (u : Uuid) (nets : List RequestedNetwork) : Calm (Kept (Tracked u nets)) :=
  Calm.of fun _ _ hs h => h.hushed hs

instance (u : Uuid) (nets : List RequestedNetwork) : Mapping (Kept (Tracked u nets)) where
  mapped _ h := h.grown (Grown.of_ports rfl (Nat.le_refl _)) rfl rfl

instance (u : Uuid) (nets : List RequestedNetwork) : Easy (Kept (Tracked u nets)) where
  assign hf h := h.assign _ hf.addresses
  save hrow h := h.saved hrow

theorem tracked_member (m : Uuid) : Cri.Member (Kept (Tracked u nets)) m where
  assign hf h := h.assign _ hf.addresses
  save hrow h := h.saved hrow

theorem tracked_talk (v : Uuid) : Cri.Talk (Kept (Tracked u nets)) v where
  reason _ h := h.assign _ fun _ => rfl
  save hrow h := h.saved hrow

theorem tracked_addressed : Cri.Addressed (Kept (Tracked u nets)) where
  assign hf h := h.assign _ hf
  save hrow h := h.saved hrow

theorem tracked_assign {v : Uuid} {f : Obj → Obj}
    (hf : ∀ o, (f o).val.addresses = o.val.addresses) :
    Within (Kept (Tracked u nets)) (Zun.assign v f) :=
  within_modify fun _ h => h.assign v hf

/-- A call whose effect is on the ports or on the sandboxes. -/
theorem tracked_call {c : Call} {effect : World → World} (hmem : ∀ s, (effect s).mem = s.mem)
    (hdb : ∀ s, (effect s).db = s.db) (hg : ∀ s, Grown s (effect s)) :
    Within (Kept (Tracked u nets)) (call env c effect) := by
  have hturn (s : World) (h : Tracked u nets s) : Tracked u nets (s.turn env c) :=
    h.grown (Grown.of_ports rfl (Nat.le_refl _)) rfl rfl
  refine within_call hturn fun s h => ?_
  exact (hturn s h).grown (hg _) (by rw [hmem]) (by rw [hdb])

theorem tracked_unit {c : Call} : Within (Kept (Tracked u nets)) (call env c) :=
  tracked_call (fun _ => by rfl) (fun _ => by rfl) fun _ => Grown.of_ports rfl (Nat.le_refl _)

/-! ## Removing -/

theorem tracked_deleteSandbox (pod : RuntimeId) :
    Within (Kept (Tracked u nets)) (Cri.deleteSandbox env pod) := by
  refine Within.bind (Within.tolerate ?_) fun _ => Within.tolerate ?_
  · exact tracked_call (fun _ => by rfl) (fun _ => by rfl) fun _ => Grown.of_ports rfl (Nat.le_refl _)
  · exact tracked_call (fun _ => by rfl) (fun _ => by rfl) fun _ => Grown.of_ports rfl (Nat.le_refl _)

theorem tracked_deleteNeutronPorts (v : Uuid) :
    Within (Kept (Tracked u nets)) (Cri.deleteNeutronPorts env v) := by
  refine (within_read _).bind fun r => Within.onlyIf (within_forEach fun p _ => ?_)
  refine Within.tolerate (within_ite ?_ ?_)
  · exact tracked_call (fun _ => by rfl) (fun _ => by rfl) fun _ => grown_dropPort p
  · refine Within.bind ?_ fun there => Within.onlyIf (Within.swallow ?_)
    · exact (tracked_unit.bind fun _ => within_pure _).tryExcept fun _ => within_pure _
    · exact tracked_call (fun _ => by rfl) (fun _ => by rfl) fun _ => grown_setDevice p none

theorem tracked_noAddresses (v : Uuid) :
    Within (Kept (Tracked u nets)) (Zun.assign v (Obj.setAddresses [])) := by
  refine within_modify fun s h => ?_
  have hg : Grown s (s.setMem v (Obj.setAddresses [])) := Grown.of_ports rfl (Nat.le_refl _)
  refine ⟨hg.ok h.ports, ?_, fun r hr => (h.row r hr).grown hg,
    fun net hnet => (h.nets net hnet).grown hg⟩
  by_cases hv : u = v
  · subst hv
    rw [setMem_mem_self]
    exact .inl rfl
  · rw [setMem_mem_of_ne hv]
    exact h.obj.grown hg

theorem tracked_undoCreate (v : Uuid) :
    Within (Kept (Tracked u nets)) (Cri.undoCreate env v) := by
  refine Within.bind ?_ fun _ => (within_read _).bind fun _ => Within.onlyIf (Within.swallow ?_)
  · refine (within_read _).bind fun pod => ?_
    cases pod with
    | none => exact within_pure _
    | some pod =>
        exact Within.swallow ((tracked_deleteSandbox pod).bind fun _ => tracked_assign fun _ => rfl)
  · exact (tracked_deleteNeutronPorts v).bind fun _ => tracked_noAddresses v

theorem tracked_deleteCapsule (c : Capsule) (force : Bool) :
    Within (Kept (Tracked u nets)) (Cri.deleteCapsule env c force) := by
  refine (within_read _).bind fun pod => ?_
  cases pod with
  | none => exact within_pure _
  | some pod =>
      refine Within.bind (Within.onlyIf ?_) fun _ => (tracked_deleteSandbox pod).bind fun _ =>
        tracked_deleteNeutronPorts _
      refine (within_read _).bind fun sidecars => Within.onlyIf (within_forEach fun m _ => ?_)
      exact (within_read _).bind fun id => Within.onlyIf
        (Cri.within_despiteRpc (Cri.within_stopContainer _))

/-! ## Building -/

/-- The addresses that a port is given out with are sound. -/
theorem sound_addressesOf {net : NetId} {keep : Bool} {p : Port} (hok : PortsOk s)
    (hp : p ∈ s.ports) (hkeep : p.zunMade = true → keep = false) :
    Sound [(net, Neutron.addressesOf keep p)] s := by
  refine .inr ⟨net, keep, p, rfl, hok.numbered p hp, fun q hq hid => ?_⟩
  obtain ⟨hips, hmade⟩ := hok.same q hq p hp hid
  rw [hmade]
  exact ⟨hips, hkeep⟩

theorem wp_trackedPort {net : RequestedNetwork} (h : Tracked u nets s) (hnet : net ∈ nets) :
    wp (Neutron.createOrUpdatePort env u net) (fun r s' => Tracked u nets s' ∧
      ∀ addrs, r = .ok addrs → Sound [(net.network, addrs)] s') s := by
  have hset (id : PortId) : Within (Kept (Tracked u nets))
      (call env (.updatePort id) (Neutron.setDevice id (some u))) :=
    tracked_call (fun _ => by rfl) (fun _ => by rfl) fun _ => grown_setDevice id (some u)
  have hadd : Within (Kept (Tracked u nets)) (call env (.createPort u net.network) fun s =>
      Neutron.addPort (Neutron.newPort env u net.network s) s) :=
    tracked_call (fun _ => by rfl) (fun _ => by rfl) fun _ => grown_addPort rfl
  unfold Neutron.createOrUpdatePort
  cases hport : net.port with
  | some id =>
      refine wp_bind_kept (hset id) h (fun _ s₁ h₁ => ?_) (fun _ _ h => ⟨h, nofun⟩)
        (fun _ h => ⟨h, nofun⟩)
      rw [wp_bind, wp_read, seqPost_ok]
      cases hfind : s₁.ports.find? (·.id = id) with
      | none => exact ⟨h₁, nofun⟩
      | some p =>
          refine ⟨h₁, ?_⟩
          rintro addrs haddrs
          cases haddrs
          have hp := List.mem_of_find?_eq_some hfind
          have hid : p.id = id := by simpa using List.find?_some hfind
          exact sound_addressesOf h₁.ports hp ((h₁.nets net hnet).kept id hport p hp hid)
  | none =>
      rw [wp_bind]
      refine wp_mono (wp_and (hadd.wp s) (wp_call (Q := fun r s' => r = .ok () →
        ∃ p, s'.ports.head? = some p) (fun _ _ => ⟨_, rfl⟩) (fun _ _ => nofun) (fun _ => nofun))) ?_
      rintro r s₁ ⟨hkept, hhead⟩
      have h₁ := hkept h
      cases r with
      | raise e => exact ⟨h₁, nofun⟩
      | halt => exact ⟨h₁, nofun⟩
      | ok _ =>
          obtain ⟨p, hp⟩ := hhead rfl
          rw [seqPost_ok, wp_bind, wp_read, seqPost_ok, hp]
          refine ⟨h₁, ?_⟩
          rintro addrs haddrs
          cases haddrs
          exact sound_addressesOf h₁.ports (List.mem_of_mem_head? hp) fun _ =>
            (h₁.nets net hnet).made hport

theorem tracked_writeCniMetadata :
    Within (Kept (Tracked u nets)) (Cri.writeCniMetadata env u nets) := by
  refine tracked_unit.bind fun _ => ?_
  cases nets with
  | nil => exact within_raise _
  | cons net nets =>
      intro s h
      change wp _ (fun _ s' => Tracked u (net :: nets) s') s
      rw [wp_bind]
      refine wp_mono (wp_trackedPort h (List.mem_cons_self ..)) ?_
      rintro r s₁ ⟨h₁, hsound⟩
      cases r with
      | raise e => exact h₁
      | halt => exact h₁
      | ok addrs =>
          have hrest : Within (Kept (Tracked u (net :: nets))) (do
              call env (.showNetwork net.network)
              forEach addrs fun a => call env (.showSubnet a.port)
              call env (.osVif u)
              save env u) :=
            tracked_unit.bind fun _ => (within_forEach fun _ _ => tracked_unit).bind fun _ =>
              tracked_unit.bind fun _ => within_save u
          have hg : Grown s₁ (s₁.setMem u (Obj.setAddresses [(net.network, addrs)])) :=
            Grown.of_ports rfl (Nat.le_refl _)
          rw [seqPost_ok, wp_bind, wp_assign, seqPost_ok]
          refine hrest _ ⟨hg.ok h₁.ports, ?_, fun r hr => (h₁.row r hr).grown hg,
            fun n hn => (h₁.nets n hn).grown hg⟩
          rw [setMem_mem_self]
          exact (hsound addrs rfl).grown hg

theorem tracked_createPodSandbox :
    Within (Kept (Tracked u nets)) (Cri.createPodSandbox env u nets) := by
  refine tracked_writeCniMetadata.bind fun _ => tracked_unit.bind fun _ => ?_
  refine Within.bind (tracked_call (fun _ => by rfl) (fun _ => by rfl) fun _ => Grown.of_ports rfl (Nat.le_succ _)) fun _ => ?_
  refine (within_read _).bind fun pod => ?_
  exact Within.bind (tracked_assign fun _ => rfl) fun _ => tracked_unit

theorem tracked_runInitMembers (c : Capsule) :
    Within (Kept (Tracked u nets)) (Cri.runInitMembers env c) := by
  refine Cri.within_runInitMembers (tracked_talk _) (fun m _ => tracked_member m) fun m _ state => ?_
  refine (within_read _).bind fun _ => Within.onlyIf ?_
  exact Within.bind (tracked_assign fun _ => rfl) fun _ => within_save m

theorem tracked_createCapsule (c : Capsule) (vols : RequestedVolumes) :
    Within (Kept (Tracked c.uuid nets)) (Cri.createCapsule env c nets vols) := by
  refine Within.bind (Within.reraising ?_ fun _ => tracked_undoCreate _) fun _ =>
    tracked_assign fun _ => rfl
  refine tracked_createPodSandbox.bind fun _ => (within_save _).bind fun _ => ?_
  refine (tracked_runInitMembers c).bind fun _ => within_forEach fun m _ => ?_
  exact Cri.within_buildMember (tracked_member m) _

theorem tracked_updateTaskState {α : Type} {v : Uuid} {t : TaskState} {body : Prog World Exn α}
    (hbody : Within (Kept (Tracked u nets)) body) :
    Within (Kept (Tracked u nets)) (updateTaskState env v t body) := by
  refine (within_read _).bind fun current => within_ite hbody ?_
  refine Within.bind (tracked_assign fun _ => rfl) fun _ => (within_save v).bind fun _ => ?_
  exact hbody.tryFinally (Within.bind (tracked_assign fun _ => rfl) fun _ => within_save v)

/-- The thread of `container_create`. -/
theorem tracked_containerCreate (c : Capsule) (vols : RequestedVolumes) (pci : Bool) :
    Within (Kept (Tracked c.uuid nets))
      (containerCreate env (defaultDrivers env) (.capsule c) nets vols pci false) := by
  refine Within.bind ?_ fun _ => within_ret ()
  refine (within_waitForVolumesAvailable _ _).bind fun _ => Within.bind ?_ fun _ => ?_
  · refine Within.reraising ?_ fun e => within_failContainer _ _ _ _
    exact (within_forEach fun m _ => within_attachVolumesOf _ _ _).bind fun _ =>
      within_forEach fun m _ => within_attachVolumesOf _ _ _
  refine (within_checkSupportDiskQuota _).bind fun _ => ?_
  refine Within.reraising (Within.bind ?_ fun real => ?_) fun e => within_createFailed _ e
  · refine (within_read _).bind fun asks => within_ite (within_pure _) ?_
    refine tracked_unit.bind fun _ => tracked_unit.bind fun _ => tracked_unit.bind fun _ => ?_
    refine Within.bind (tracked_assign fun _ => rfl) fun _ => (within_save _).bind fun _ => ?_
    exact tracked_unit.bind fun _ => within_pure _
  have hbase : Within (Kept (Tracked c.uuid nets))
      (doContainerCreateBase env (defaultDrivers env) (.capsule c) nets vols) := by
    refine tracked_updateTaskState (within_createAround ?_)
    refine (tracked_createCapsule c vols).bind fun _ => (within_read _).bind fun _ => ?_
    exact (within_read _).bind fun _ => Within.onlyIf (tracked_assign fun _ => rfl)
  exact within_ite (hbase.reraising fun _ => tracked_unit) hbase

/-! ## Rebuilding -/

/-- A rebuild asks for the port that the addresses name. -/
theorem Sound.netsOk {r : Record} (h : Sound r.addresses s) :
    ∀ net ∈ Cri.networksOf r, NetOk net s := by
  unfold Cri.networksOf
  obtain haddr | ⟨n, keep, p, haddr, hid, hports⟩ := h
  · rw [haddr]
    exact fun _ hnet => absurd hnet List.not_mem_nil
  rw [haddr]
  intro net hnet
  rw [List.map_singleton] at hnet
  rw [List.mem_singleton.mp hnet]
  unfold Neutron.addressesOf
  cases hips : p.fixedIps with
  | nil => exact ⟨fun _ => rfl, nofun, nofun⟩
  | cons ip ips =>
      refine ⟨nofun, ?_, ?_⟩
      · rintro id hid'
        cases hid'
        exact hid
      · rintro id hid' q hq hqid
        cases hid'
        exact (hports q hq hqid).2

theorem Tracked.asked (h : Tracked u nets s) :
    Tracked u (Cri.networksOf (s.mem u).val) s := ⟨h.ports, h.obj, h.row, Sound.netsOk h.obj⟩

theorem tracked_rebuildCapsule (c : Capsule) :
    Within (Kept (Tracked c.uuid [])) (Cri.rebuildCapsule env c) := by
  intro s h
  change wp _ (fun _ s' => Tracked c.uuid [] s') s
  have hkept : wp (Cri.rebuildCapsule env c) (fun _ s' =>
      Kept (Tracked c.uuid (Cri.networksOf (s.mem c.uuid).val)) s s') s :=
    Cri.wp_rebuildCapsule_of tracked_addressed tracked_deleteSandbox tracked_createPodSandbox
  refine wp_mono hkept fun _ s' hs' => ?_
  have hend := hs' h.asked
  exact ⟨hend.ports, hend.obj, hend.row, fun _ hnet => absurd hnet List.not_mem_nil⟩

/-- The row of `u` has sound addresses. -/
structure Sane (u : Uuid) (s : World) : Prop where
  ports : PortsOk s
  row : ∀ r, s.db u = some r → Sound r.addresses s

theorem Tracked.sane (h : Tracked u nets s) : Sane u s := ⟨h.ports, h.row⟩

/-- Reading rows changes nothing but objects, and those of other rows stay. -/
theorem load_run (us : List Uuid) (s : World) :
    ∃ mem, forEach us Cri.load s = (.ok (), { s with mem }) ∧ ∀ v, v ∉ us → mem v = s.mem v := by
  induction us generalizing s with
  | nil => exact ⟨s.mem, rfl, fun _ _ => rfl⟩
  | cons u us ih =>
      have hload : ∃ mem, Cri.load u s = (.ok (), { s with mem }) ∧ ∀ v, v ≠ u → mem v = s.mem v := by
        cases hrow : s.db u with
        | none =>
            refine ⟨s.mem, ?_, fun _ _ => rfl⟩
            change wp (Cri.load u) (fun r s' => (r, s') = (.ok (), s)) s
            unfold Cri.load
            rw [wp_bind, wp_read, seqPost_ok, hrow]
            rfl
        | some r =>
            refine ⟨Function.update s.mem u (Obj.of r), ?_, fun v hv => Function.update_of_ne hv ..⟩
            change wp (Cri.load u) (fun r' s' => (r', s') = (.ok (), _)) s
            unfold Cri.load
            rw [wp_bind, wp_read, seqPost_ok, hrow]
            rfl
      obtain ⟨mem₁, hrun₁, hsame₁⟩ := hload
      obtain ⟨mem₂, hrun₂, hsame₂⟩ := ih { s with mem := mem₁ }
      refine ⟨mem₂, ?_, fun v hv => ?_⟩
      · change andThen (Cri.load u) _ s = _
        unfold andThen
        rw [hrun₁]
        exact hrun₂
      · rw [List.mem_cons, not_or] at hv
        rw [hsame₂ v hv.2]
        exact hsame₁ v hv.1

/-- A capsule that was read is on its object as it is on its row. -/
theorem loadCapsule_run {c : Capsule} {r : Record} (hrow : s.db c.uuid = some r) :
    ∃ mem, Cri.loadCapsule c s = (.ok (), { s with mem }) ∧ mem c.uuid = Obj.of r := by
  have hload : Cri.load c.uuid s = (.ok (), s.setMem c.uuid fun _ => Obj.of r) := by
    change wp (Cri.load c.uuid) (fun r' s' => (r', s') = (.ok (), _)) s
    unfold Cri.load
    rw [wp_bind, wp_read, seqPost_ok, hrow]
    rfl
  obtain ⟨mem, hrun, hsame⟩ := load_run (c.initContainers ++ c.containers)
    (s.setMem c.uuid fun _ => Obj.of r)
  refine ⟨mem, ?_, ?_⟩
  · change andThen (Cri.load c.uuid) _ s = _
    unfold andThen
    rw [hload]
    exact hrun
  · rw [hsame _ (List.nodup_cons.mp c.distinct).1, setMem_mem_self]

theorem Sane.loaded {r : Record} {mem : Uuid → Obj} (h : Sane u s) (hrow : s.db u = some r)
    (hmem : mem u = Obj.of r) : Tracked u [] { s with mem } := by
  have hg : Grown s { s with mem } := Grown.of_ports rfl (Nat.le_refl _)
  refine ⟨hg.ok h.ports, ?_, fun r' hr' => (h.row r' hr').grown hg,
    fun _ hnet => absurd hnet List.not_mem_nil⟩
  change Sound (mem u).val.addresses _
  rw [hmem]
  exact (h.row r hrow).grown hg

theorem tracked_rebuildOrFail (c : Capsule) {onDone : Option (Option Exn → Prog World Exn Unit)}
    (hdone : ∀ done, onDone = some done → ∀ e, Within (Kept (Tracked c.uuid [])) (done e)) :
    Within (Kept (Tracked c.uuid [])) (Cri.rebuildOrFail env c onDone) := by
  refine Within.bind ?_ fun failed => ?_
  · exact ((tracked_rebuildCapsule c).bind fun _ => within_pure _).tryExcept fun _ => within_pure _
  cases failed with
  | none =>
      cases onDone with
      | none => exact within_pure _
      | some done => exact hdone done rfl none
  | some e =>
      refine within_ite (within_pure _) ?_
      cases onDone with
      | none => exact Within.bind (tracked_assign fun _ => rfl) fun _ => within_save _
      | some done => exact (tracked_undoCreate _).bind fun _ => hdone done rfl (some e)

/-! ## Histories -/

theorem Sane.of_eq (h : Sane u s) (hports : s'.ports = s.ports) (hid : s.nextId ≤ s'.nextId)
    (hdb : s'.db u = s.db u) : Sane u s' := by
  have hg : Grown s s' := Grown.of_ports hports hid
  exact ⟨hg.ok h.ports, fun r hr => (h.row r (hdb ▸ hr)).grown hg⟩

theorem Sane.turn (h : Sane u s) (env : Env) (c : Call) : Sane u (s.turn env c) :=
  h.of_eq rfl (Nat.le_refl _) rfl

theorem wp_freshRecord {v : Uuid} {Q : Result Exn (Option Record) → World → Prop}
    (hok : Q (.ok (s.db v)) (s.turn env (.readRow v)))
    (hraise : ∀ e, Q (.raise e) (s.turn env (.readRow v))) (hhalt : Q .halt (s.turn env (.readRow v))) :
    wp (freshRecord env v) Q s := by
  unfold freshRecord ask
  rw [wp_bind]
  exact wp_call (fun _ => hok) (fun e _ => hraise e) (fun _ => hhalt)

/-- A rebuild, stopped anywhere. -/
theorem sane_rebuildUnderLock {c : Capsule} {onDone : Option (Option Exn → Prog World Exn Unit)}
    (hdone : ∀ done, onDone = some done → ∀ e, Within (Kept (Tracked c.uuid [])) (done e))
    (h : Sane c.uuid s) : wp (Cri.rebuildUnderLock env c onDone) (fun _ s' => Sane c.uuid s') s := by
  have h₁ := h.turn env (.readRow c.uuid)
  unfold Cri.rebuildUnderLock
  rw [wp_bind]
  refine wp_freshRecord ?_ (fun _ => h₁) h₁
  rw [seqPost_ok]
  cases hrow : s.db c.uuid with
  | none => exact h₁
  | some r =>
      refine wp_onlyIf (fun _ => ?_) fun _ => h₁
      obtain ⟨mem, hrun, hmem⟩ := loadCapsule_run (s := s.turn env (.readRow c.uuid)) hrow
      rw [wp_bind]
      refine wp_of_run hrun ?_
      exact (tracked_rebuildOrFail c hdone _ (h₁.loaded hrow hmem)).sane

theorem tracked_capsuleResumed (c : Capsule) (e : Option Exn) :
    Within (Kept (Tracked u [])) (capsuleResumed env c e) := by
  cases e with
  | none => exact within_pure _
  | some e => exact within_failFor _ _ _ e

theorem tracked_destroy (v : Uuid) (ms : List Uuid) :
    Within (Kept (Tracked u [])) (destroy env v ms) := by
  intro s h
  have hturn (c : Call) : Tracked u [] (s.turn env c) :=
    h.grown (Grown.of_ports rfl (Nat.le_refl _)) rfl rfl
  have hg : Grown s ((s.turn env (.destroy v)).dropRows (v :: ms)) :=
    Grown.of_ports rfl (Nat.le_refl _)
  refine wp_destroy (Q := fun _ s' => Tracked u [] s') (fun _ => h) ?_ (fun _ => hturn _) (hturn _)
  refine ⟨hg.ok h.ports, h.obj.grown hg, fun r hr => ?_, fun _ hnet => absurd hnet List.not_mem_nil⟩
  exact (h.row r (db_of_dropRows hr).2).grown hg

theorem tracked_doContainerDelete (c : Capsule) (force : Bool) :
    Within (Kept (Tracked u [])) (doContainerDelete env (defaultDrivers env) (.capsule c) force) := by
  refine (within_ask _ _ rfl).bind fun _ => Within.bind ?_ fun _ => ?_
  · exact tracked_updateTaskState (within_deleteAround (tracked_deleteCapsule c force))
  · exact tracked_unit.swallow.bind fun _ => (within_releaseAllocation _).bind fun _ =>
      tracked_destroy _ _

theorem sane_whenCaughtUp {op : Prog World Exn Unit} (hop : Within (Kept (Tracked u [])) op)
    (h : Sane u s) : wp (whenCaughtUp env u op) (fun _ s' => Sane u s') s := by
  have h₁ := h.turn env (.readRow u)
  unfold whenCaughtUp caughtUp
  rw [wp_bind, wp_bind]
  refine wp_freshRecord ?_ (fun _ => h₁) h₁
  rw [seqPost_ok]
  cases hrow : s.db u with
  | none => exact h₁
  | some r =>
      have hg : Grown (s.turn env (.readRow u)) ((s.turn env (.readRow u)).setMem u (catchUp r)) :=
        Grown.of_ports rfl (Nat.le_refl _)
      refine (hop _ ⟨hg.ok h₁.ports, ?_, fun r' hr' => (h₁.row r' hr').grown hg,
        fun _ hnet => absurd hnet List.not_mem_nil⟩).sane
      rw [setMem_mem_self]
      exact (h₁.row r hrow).grown hg

theorem sane_resumeCapsuleDelete (c : Capsule) (h : Sane c.uuid s) :
    wp (resumeCapsuleDelete env (defaultDrivers env) c) (fun _ s' => Sane c.uuid s') s := by
  refine wp_swallow_of ?_
  rw [wp_bind, wp_assign, seqPost_ok, wp_bind, wp_modify, seqPost_ok]
  unfold thread
  rw [wp_tryFinally]
  refine wp_mono (sane_whenCaughtUp (tracked_doContainerDelete c true)
    (h.of_eq rfl (Nat.le_refl _) rfl)) fun r s' hs' => ?_
  cases r with
  | ok a => exact hs'.of_eq rfl (Nat.le_refl _) rfl
  | raise e => exact hs'.of_eq rfl (Nat.le_refl _) rfl
  | halt => exact hs'

theorem sane_resumeCapsuleStart (c : Capsule) (h : Tracked c.uuid [] s) :
    wp (resumeCapsuleStart env c) (fun _ s' => Sane c.uuid s') s := by
  have hfail : Within (Kept (Tracked c.uuid [])) (capsuleResumed env c (some notResumed)) :=
    tracked_capsuleResumed c _
  refine wp_swallow_of ?_
  unfold Cri.resumeCapsule
  rw [wp_bind, wp_bind, wp_obj, seqPost_ok, wp_ite]
  split
  · have hundo : Within (Kept (Tracked c.uuid [])) (Cri.undoCreate env c.uuid) :=
      tracked_undoCreate c.uuid
    rw [wp_bind]
    refine wp_mono (hundo.wp s) fun r s₁ h₁ => ?_
    cases r with
    | ok a => exact (hfail s₁ (h₁ h)).sane
    | raise e => exact (h₁ h).sane
    | halt => exact (h₁ h).sane
  · rw [wp_bind]
    refine wp_swallow_of (wp_mono (sane_rebuildUnderLock ?_ h.sane) fun r s₁ h₁ => ?_)
    · rintro done hdone e
      cases hdone
      exact tracked_capsuleResumed c e
    · cases r with
      | ok a => exact h₁
      | raise e => exact h₁
      | halt => exact h₁

theorem sane_resumeCapsules (c : Capsule) (h : Sane c.uuid s) :
    wp (resumeCapsules env (defaultDrivers env) c) (fun _ s' => Sane c.uuid s') s := by
  have h₁ := h.turn env (.readRow c.uuid)
  unfold resumeCapsules
  rw [wp_bind, wp_tryExcept]
  refine wp_freshRecord ?_ (fun _ => h₁) h₁
  rw [exceptPost_ok, seqPost_ok]
  cases hrow : s.db c.uuid with
  | none => exact h₁
  | some r =>
      refine wp_onlyIf (fun _ => ?_) fun _ => h₁
      obtain ⟨mem, hrun, hmem⟩ := loadCapsule_run (s := s.turn env (.readRow c.uuid)) hrow
      have h₂ := h₁.loaded hrow hmem
      rw [wp_bind]
      refine wp_of_run hrun ?_
      unfold resumeCapsule
      rw [seqPost_ok, wp_ite]
      split
      · exact sane_resumeCapsuleDelete c h₂.sane
      · exact wp_onlyIf (fun _ => sane_resumeCapsuleStart c h₂) fun _ => h₂.sane

/-- What can happen to a capsule. -/
inductive Event where
  /-- The thread of `container_create`, ended or stopped as the environment has it. -/
  | create (env : Env) (nets : List RequestedNetwork) (vols : RequestedVolumes) (pci : Bool)
  /-- A rebuild that the sweep has asked for. -/
  | rebuild (env : Env)
  /-- The service starts. -/
  | resume (env : Env)
  /-- The API records a delete. -/
  | delete
  /-- Whatever happens to the rest of the record, to other records or on the node. -/
  | elsewhere (change : World → World)

/-- The row of a capsule whose delete the API has recorded. -/
def recordDelete (c : Capsule) (s : World) : World :=
  s.setRow c.uuid ((s.db c.uuid).map fun r => { r with taskState := some .containerDeleting })

/-- The world of a service that has just started. -/
def restarted (s : World) : World := { s with abandoned := [] }

/-- Where an event leads. -/
def Event.step (c : Capsule) : Event → World → World
  | .create env nets vols pci, s => ((do
      Cri.loadCapsule c
      containerCreate env (defaultDrivers env) (.capsule c) nets vols pci false) s).2
  | .rebuild env, s => (Cri.rebuildUnderLock env c none s).2
  | .resume env, s => (resumeCapsules env (defaultDrivers env) c (restarted s)).2
  | .delete, s => recordDelete c s
  | .elsewhere change, s => change s

/-- When an event can happen: a create is of a record that is there, on networks as
`utils.build_requested_networks` gives them, and nothing else writes the addresses. -/
def Event.Possible (c : Capsule) : Event → World → Prop
  | .create _ nets _ _, s => (∃ r, s.db c.uuid = some r) ∧ ∀ net ∈ nets, NetOk net s
  | .elsewhere change, s => Grown s (change s) ∧ ∀ r', (change s).db c.uuid = some r' →
      ∃ r, s.db c.uuid = some r ∧ r'.addresses = r.addresses
  | _, _ => True

/-- A capsule that the API has just made. -/
structure Made (c : Capsule) (s : World) : Prop where
  ports : PortsOk s
  row : ∀ r, s.db c.uuid = some r → r.addresses = []

theorem sane_step {c : Capsule} (e : Event) (hok : e.Possible c s) (h : Sane c.uuid s) :
    Sane c.uuid (e.step c s) := by
  cases e with
  | create env nets vols pci =>
      obtain ⟨⟨r, hrow⟩, hnets⟩ := hok
      obtain ⟨mem, hrun, hmem⟩ := loadCapsule_run hrow
      have h₁ := h.loaded hrow hmem
      have h₂ : Tracked c.uuid nets { s with mem } := ⟨h₁.ports, h₁.obj, h₁.row, fun net hnet =>
        (hnets net hnet).grown (Grown.of_ports rfl (Nat.le_refl _))⟩
      change wp _ (fun _ s' => Sane c.uuid s') s
      rw [wp_bind]
      exact wp_of_run hrun (tracked_containerCreate c vols pci _ h₂).sane
  | rebuild env => exact sane_rebuildUnderLock nofun h
  | resume env => exact sane_resumeCapsules c (h.of_eq rfl (Nat.le_refl _) rfl)
  | delete =>
      have hg : Grown s (recordDelete c s) := Grown.of_ports rfl (Nat.le_refl _)
      refine ⟨hg.ok h.ports, fun r hr => ?_⟩
      have hrow : (recordDelete c s).db c.uuid = _ := setRow_db_self _
      rw [show Event.step c .delete s = recordDelete c s from rfl, hrow] at hr
      obtain ⟨r₀, hr₀, rfl⟩ := Option.map_eq_some_iff.mp hr
      exact (h.row r₀ hr₀).grown hg
  | elsewhere change =>
      obtain ⟨hg, hrows⟩ := hok
      refine ⟨hg.ok h.ports, fun r' hr' => ?_⟩
      obtain ⟨r, hr, haddr⟩ := hrows r' hr'
      rw [haddr]
      exact (h.row r hr).grown hg

/-- Every history leaves the addresses of the row sound. -/
theorem sane_of_reached {c : Capsule} (h : Reached (Made c) (Event.step c) (Event.Possible c) s) :
    Sane c.uuid s := by
  refine h.invariant (fun s hs => ⟨hs.ports, fun r hr => .inl (hs.row r hr)⟩) fun e s hok hs => ?_
  exact sane_step e hok hs

end Manager

end Zun
