import Zun.Compute.Crash
import Zun.Container.Cri.Undo
import Zun.Effect.Triple

/-!
# A create and a delete of one capsule

A capsule is created by one thread and deleted by another.  Both hold the lock of its uuid from
their first step to their last, so one of them runs after the other.  What the delete does before
it waits for the lock is to abandon the create, at any call of it.

The create gives the record its sandbox and its port, and a delete finds them by it.  So the
state between the two is one in which the record names everything that was made: `Recorded`.
-/

namespace Zun

open Effect Prog World

namespace Manager

variable {env : Env} {u : Uuid} {n : Nat} {s s' : World} {r : Record}

/-! ## Sets that the way of a create does not leave -/

/-- A set of worlds that is left only by what changes what a record names, or by what is outside
the records and volumes. -/
class Lasting (I : World → Prop) : Prop extends Zun.Calm (Kept I) where
  assign {s : World} {v : Uuid} {f : Obj → Obj} :
    (∀ o, (f o).val.containerId = o.val.containerId) →
    (∀ o, (f o).val.addresses = o.val.addresses) → I s → I (s.setMem v f)
  save {s : World} {v : Uuid} {row : Record} : s.db v = some row → I s → I (s.saved v row)

instance (I : World → Prop) [Lasting I] : Easy (Kept I) where
  assign hf h := Lasting.assign hf.containerId hf.addresses h
  save hrow h := Lasting.save hrow h

instance (I J : World → Prop) [Lasting I] [Lasting J] : Lasting fun s => I s ∧ J s where
  still hs h := ⟨Steady.still (R := Kept I) hs h.1, Steady.still (R := Kept J) hs h.2⟩
  hushed hs h := ⟨Zun.Calm.hushed (R := Kept I) hs h.1, Zun.Calm.hushed (R := Kept J) hs h.2⟩
  assign hid haddr h := ⟨Lasting.assign hid haddr h.1, Lasting.assign hid haddr h.2⟩
  save hrow h := ⟨Lasting.save hrow h.1, Lasting.save hrow h.2⟩

section Lasting

variable {I J : World → Prop} [Lasting I] [Lasting J] {c : Capsule}

theorem lasting_assign {v : Uuid} {f : Obj → Obj}
    (hid : ∀ o, (f o).val.containerId = o.val.containerId)
    (haddr : ∀ o, (f o).val.addresses = o.val.addresses) : Within (Kept I) (assign v f) :=
  within_modify fun _ h => Lasting.assign hid haddr h

theorem leads_updateTaskState {t : TaskState} {body : Prog World Exn Unit} (hIJ : ∀ s, I s → J s)
    (hbody : Leads I J body) : Leads I J (updateTaskState env u t body) := by
  have hrelease : Within (Kept J) (do
      assign u (Obj.setTaskState none)
      save env u) :=
    Within.bind (lasting_assign (fun _ => rfl) fun _ => rfl) fun _ => within_save u
  refine Leads.bind (within_read _).leads (fun current => leads_ite hbody ?_) hIJ
  refine Leads.bind (Within.leads (lasting_assign (fun _ => rfl) fun _ => rfl)) (fun _ => ?_) hIJ
  exact Leads.bind (within_save u).leads (fun _ => hbody.tryFinally hrelease) hIJ

/-- The claim and the create inside it, around the driver's create. -/
theorem leads_doContainerCreate {nets : List RequestedNetwork} {vols : RequestedVolumes}
    {pci : Bool} (hIJ : ∀ s, I s → J s) (hcreate : Leads I J (Cri.createCapsule env c nets vols)) :
    Leads I J (doContainerCreate env (defaultDrivers env) (.capsule c) nets vols pci) := by
  have hplain (x : Call) (hx : x.releases = false) : Within (Kept I) (call env x) := within_plain x hx
  have hclaim : Within (Kept I) (containerClaim env c.uuid pci) := by
    refine (within_read _).bind fun asks => within_ite (within_pure _) ?_
    refine (hplain _ rfl).bind fun _ => (hplain _ rfl).bind fun _ => (hplain _ rfl).bind fun _ => ?_
    refine Within.bind (lasting_assign (fun _ => rfl) fun _ => rfl) fun _ => ?_
    exact (within_save _).bind fun _ => (hplain _ rfl).bind fun _ => within_pure _
  have hdriver : Leads I J (driverCreate env (defaultDrivers env) nets vols (.capsule c)) := by
    refine Leads.bind hcreate (fun _ => Within.leads ?_) fun _ h => h
    refine (within_read _).bind fun _ => (within_read _).bind fun _ => Within.onlyIf ?_
    exact lasting_assign (fun _ => rfl) fun _ => rfl
  have hbuild : Leads I J (build env (defaultDrivers env) (.capsule c) nets vols) := by
    refine Leads.reraising ?_ fun e => within_failFor _ _ _ e
    exact Leads.bind (within_plain _ rfl).onlyIf.leads (fun _ => hdriver) hIJ
  have howned : Leads I J (createOwned env (defaultDrivers env) (.capsule c) nets vols) := by
    refine Leads.bind (hplain _ rfl).leads (fun _ => ?_) hIJ
    refine Leads.bind (hplain _ rfl).leads (fun _ => ?_) hIJ
    refine Leads.bind (within_pullImage _).onlyIf.leads (fun _ => ?_) hIJ
    exact Leads.bind (within_save _).leads (fun _ => hbuild) hIJ
  have hbase : Leads I J (doContainerCreateBase env (defaultDrivers env) (.capsule c) nets vols) :=
    leads_updateTaskState hIJ howned
  refine Leads.reraising ?_ fun e => within_createFailed _ e
  refine Leads.bind hclaim.leads (fun real => ?_) hIJ
  exact leads_ite (hbase.reraising fun _ => within_plain _ rfl) hbase

/-- The thread of a create, around the attaching of volumes and the driver's create. -/
theorem leads_containerCreate {I₀ : World → Prop} [Lasting I₀] {nets : List RequestedNetwork}
    {vols : RequestedVolumes} {pci : Bool} (hI : ∀ s, I₀ s → I s) (hIJ : ∀ s, I s → J s)
    (hattach : Leads I₀ I (attachVolumes env vols (.capsule c)))
    (hcreate : Leads I J (Cri.createCapsule env c nets vols)) :
    Leads I₀ J (containerCreate env (defaultDrivers env) (.capsule c) nets vols pci false) := by
  refine Leads.bind (J := J) ?_ (fun _ => (within_ret ()).leads) fun _ h => h
  refine Leads.bind (within_waitForVolumesAvailable _ _).leads (fun _ => ?_) fun s h => hIJ s (hI s h)
  refine Leads.bind hattach (fun _ => ?_) hIJ
  refine Leads.bind (within_checkSupportDiskQuota _).leads (fun _ => ?_) hIJ
  exact leads_doContainerCreate hIJ hcreate

end Lasting

/-! ## What the record names -/

/-- The record names a sandbox, and the port among those that go with it. -/
def Names (p : PortId) (r : Record) : Prop :=
  r.containerId.isSome ∧ p ∈ Neutron.ownPorts (Cri.addrsOf r)

/-- The record of `u` names, on its row and on its object, every sandbox of it that is there and
every port that was given out from `n` on. -/
structure Recorded (u : Uuid) (n : Nat) (s : World) : Prop where
  there : s.db u ≠ none
  boxes : ∀ b ∈ s.sandboxes, b.owner = u →
    (s.mem u).val.containerId = some b.id ∧ ∀ r, s.db u = some r → r.containerId = some b.id
  ports : ∀ q ∈ s.ports, n ≤ q.id →
    Names q.id (s.mem u).val ∧ ∀ r, s.db u = some r → Names q.id r

/-- Nothing was made for the record of `u`, and it has a row. -/
structure Emptied (u : Uuid) (n : Nat) (s : World) : Prop where
  there : s.db u ≠ none
  boxes : ∀ b ∈ s.sandboxes, b.owner ≠ u
  ports : ∀ q ∈ s.ports, q.id < n

/-- Nothing was made for the record of `u`, and it names nothing. -/
structure Unbuilt (u : Uuid) (n : Nat) (s : World) : Prop extends Emptied u n s where
  ids : n ≤ s.nextId
  blank : Cri.Blank u s

theorem Emptied.recorded (h : Emptied u n s) : Recorded u n s where
  there := h.there
  boxes b hb hu := absurd hu (h.boxes b hb)
  ports q hq hle := absurd (h.ports q hq) (Nat.not_lt.mpr hle)

theorem Names.congr {p : PortId} {r' : Record} (h : Names p r) (hid : r'.containerId = r.containerId)
    (haddr : r'.addresses = r.addresses) : Names p r' := by
  unfold Names Cri.addrsOf at *
  rw [hid, haddr]
  exact h

/-- A record whose columns are each those of a record that names the port. -/
theorem Names.merge {p : PortId} {r₁ r₂ r' : Record} (h₁ : Names p r₁) (h₂ : Names p r₂)
    (hid : r'.containerId = r₁.containerId ∨ r'.containerId = r₂.containerId)
    (haddr : r'.addresses = r₁.addresses ∨ r'.addresses = r₂.addresses) : Names p r' := by
  unfold Names Cri.addrsOf at *
  refine ⟨?_, ?_⟩
  · obtain hid | hid := hid
    · rw [hid]
      exact h₁.1
    · rw [hid]
      exact h₂.1
  · obtain haddr | haddr := haddr
    · rw [haddr]
      exact h₁.2
    · rw [haddr]
      exact h₂.2

theorem Recorded.saved (h : Recorded u n s) {v : Uuid} {row : Record} (hrow : s.db v = some row) :
    Recorded u n (s.saved v row) := by
  by_cases hv : u = v
  · subst hv
    refine ⟨by rw [saved_db_self]; nofun, fun b hb hu => ?_, fun q hq hle => ?_⟩
    · obtain ⟨hobj, hr⟩ := h.boxes b hb hu
      refine ⟨by rw [saved_val]; exact hobj, fun r hr' => ?_⟩
      rw [saved_db_self, Option.some.injEq] at hr'
      subst hr'
      obtain hid | hid := merged_containerId (u := u) (s := s) row
      · rw [hid]
        exact hobj
      · rw [hid]
        exact hr row hrow
    · obtain ⟨hobj, hr⟩ := h.ports q hq hle
      refine ⟨by rw [saved_val]; exact hobj, fun r hr' => ?_⟩
      rw [saved_db_self, Option.some.injEq] at hr'
      subst hr'
      exact hobj.merge (hr row hrow) (merged_containerId row) (merged_addresses row)
  · have hdb : (s.saved v row).db u = s.db u := saved_db_of_ne hv _
    refine ⟨by rw [hdb]; exact h.there, fun b hb hu => ?_, fun q hq hle => ?_⟩
    · rw [hdb, saved_val]
      exact h.boxes b hb hu
    · rw [hdb, saved_val]
      exact h.ports q hq hle

theorem Recorded.assign (h : Recorded u n s) (v : Uuid) {f : Obj → Obj}
    (hid : ∀ o, (f o).val.containerId = o.val.containerId)
    (haddr : ∀ o, (f o).val.addresses = o.val.addresses) : Recorded u n (s.setMem v f) := by
  have hmem : ((s.setMem v f).mem u).val.containerId = (s.mem u).val.containerId ∧
      ((s.setMem v f).mem u).val.addresses = (s.mem u).val.addresses := by
    by_cases hv : u = v
    · subst hv
      rw [setMem_mem_self]
      exact ⟨hid _, haddr _⟩
    · rw [setMem_mem_of_ne hv]
      exact ⟨rfl, rfl⟩
  refine ⟨h.there, fun b hb hu => ?_, fun q hq hle => ?_⟩
  · rw [hmem.1]
    exact h.boxes b hb hu
  · obtain ⟨hobj, hr⟩ := h.ports q hq hle
    exact ⟨hobj.congr hmem.1 hmem.2, hr⟩

instance (u : Uuid) (n : Nat) : Lasting (Recorded u n) where
  toCalm := Zun.Calm.of fun s s' hs h => by
    refine ⟨by rw [hs.db]; exact h.there, fun b hb => ?_, fun q hq => ?_⟩
    · rw [hs.mem, hs.db]
      exact h.boxes b (hs.sandboxes ▸ hb)
    · rw [hs.mem, hs.db]
      exact h.ports q (hs.ports ▸ hq)
  assign hid haddr h := h.assign _ hid haddr
  save hrow h := h.saved hrow

theorem saved_there {v : Uuid} {row : Record} (h : s.db u ≠ none) : (s.saved v row).db u ≠ none := by
  by_cases hv : u = v
  · subst hv
    rw [saved_db_self]
    nofun
  · rw [saved_db_of_ne hv]
    exact h

instance (u : Uuid) (n : Nat) : Lasting (Emptied u n) where
  toCalm := Zun.Calm.of fun s s' hs h => ⟨by rw [hs.db]; exact h.there,
    by rw [hs.sandboxes]; exact h.boxes, by rw [hs.ports]; exact h.ports⟩
  assign _ _ h := ⟨h.there, h.boxes, h.ports⟩
  save _ h := ⟨saved_there h.there, h.boxes, h.ports⟩

instance (u : Uuid) (n : Nat) : Lasting (Unbuilt u n) where
  toCalm := Zun.Calm.of fun s s' hs h => ⟨Zun.Calm.hushed (R := Kept (Emptied u n)) hs h.toEmptied,
    Nat.le_trans h.ids hs.ids, by rw [hs.mem]; exact h.blank.containerId,
    by rw [hs.mem]; exact h.blank.addresses⟩
  assign {s v f} hid haddr h := by
    refine ⟨Lasting.assign hid haddr h.toEmptied, h.ids, ?_⟩
    by_cases hv : u = v
    · subst hv
      refine ⟨?_, ?_⟩
      · rw [setMem_mem_self, hid]
        exact h.blank.containerId
      · rw [setMem_mem_self, haddr]
        exact h.blank.addresses
    · refine ⟨?_, ?_⟩
      · rw [setMem_mem_of_ne hv]
        exact h.blank.containerId
      · rw [setMem_mem_of_ne hv]
        exact h.blank.addresses
  save hrow h := ⟨Lasting.save hrow h.toEmptied, h.ids, by rw [saved_val]; exact h.blank.containerId,
    by rw [saved_val]; exact h.blank.addresses⟩

instance (u : Uuid) (n : Nat) : Mapping (Kept (Unbuilt u n)) where
  mapped _ h := ⟨⟨h.there, h.boxes, h.ports⟩, h.ids, h.blank.containerId, h.blank.addresses⟩

/-! ## Removing -/

theorem mem_ownPorts {p : PortId} {addrs : List Addr} (h : p ∈ Neutron.ownPorts addrs) :
    p ∈ Neutron.allPorts addrs := by
  unfold Neutron.ownPorts at h
  unfold Neutron.allPorts
  rw [List.mem_dedup] at h ⊢
  obtain ⟨a, ha, rfl⟩ := List.mem_map.mp h
  exact List.mem_map_of_mem (List.mem_of_mem_filter ha)

/-- What is left to do of a list of ports: those that go are among `rest`. -/
def Remaining (s : World) (ports own rest : List PortId) (s' : World) : Prop :=
  s'.sandboxes = s.sandboxes ∧ ∀ q ∈ s'.ports, (∃ q₀ ∈ s.ports, q₀.id = q.id) ∧
    (q.id ∈ own → q.id ∈ ports → q.id ∈ rest)

section Answered

variable (henv : Answered env)

include henv

/-- The sandbox is gone, and no other came. -/
theorem wp_deleteSandbox_gone (pod : RuntimeId) :
    wp (Cri.deleteSandbox env pod) (fun res s' => (∃ a, res = .ok a) ∧ s'.ports = s.ports ∧
      ∀ b ∈ s'.sandboxes, b.id ≠ pod ∧ ∃ b₀ ∈ s.sandboxes, b₀.id = b.id ∧ b₀.owner = b.owner) s := by
  unfold Cri.deleteSandbox
  rw [wp_bind, wp_tryExcept]
  refine wp_answered henv ?_
  rw [exceptPost_ok, seqPost_ok, wp_tryExcept]
  refine wp_answered henv ⟨⟨(), rfl⟩, rfl, fun b hb => ?_⟩
  obtain ⟨hb, hne⟩ := List.mem_filter.mp hb
  obtain ⟨b₀, hb₀, rfl⟩ := List.mem_map.mp hb
  refine ⟨by simpa using hne, b₀, hb₀, ?_⟩
  split <;> exact ⟨rfl, rfl⟩

theorem achieves_deleteOrUnbindPort {ports own rest : List PortId} (p : PortId) :
    Achieves (Remaining s ports own (p :: rest)) (Remaining s ports own rest)
      (Neutron.deleteOrUnbindPort env own p) := by
  refine Achieves.tryExcept _ ?_
  rintro s₁ ⟨hboxes, hports⟩
  rw [wp_ite]
  split
  case isTrue hown =>
    refine wp_answered henv ⟨⟨(), rfl⟩, hboxes, fun q hq => ?_⟩
    obtain ⟨hq, hne⟩ := List.mem_filter.mp hq
    refine ⟨(hports q hq).1, fun ho hp => ?_⟩
    obtain heq | hrest := List.mem_cons.mp ((hports q hq).2 ho hp)
    · simp [heq] at hne
    · exact hrest
  case isFalse hown =>
    have hkept (s₂ : World) (hb₂ : s₂.sandboxes = s₁.sandboxes)
        (hp₂ : ∀ q ∈ s₂.ports, ∃ q₀ ∈ s₁.ports, q₀.id = q.id) : Remaining s ports own rest s₂ := by
      refine ⟨hb₂.trans hboxes, fun q hq => ?_⟩
      obtain ⟨q₁, hq₁, hid⟩ := hp₂ q hq
      obtain ⟨hold, hrest⟩ := hports q₁ hq₁
      rw [hid] at hold hrest
      refine ⟨hold, fun ho hp => (List.mem_cons.mp (hrest ho hp)).resolve_left ?_⟩
      rintro rfl
      exact hown ho
    unfold Neutron.unbindPort
    rw [wp_bind, wp_tryExcept, wp_bind]
    refine wp_answered henv ?_
    rw [seqPost_ok, wp_pure, exceptPost_ok, seqPost_ok]
    refine wp_onlyIf (fun _ => ?_) fun h => absurd rfl h
    rw [wp_swallow]
    refine wp_answered henv ⟨⟨(), rfl⟩, hkept _ rfl fun q hq => ?_⟩
    exact Neutron.mem_setDevice hq

/-- The ports that go with the record are gone, and no other came. -/
theorem wp_deleteNeutronPorts_gone (u : Uuid) :
    wp (Cri.deleteNeutronPorts env u) (fun res s' => (∃ a, res = .ok a) ∧
      s'.sandboxes = s.sandboxes ∧ ∀ q ∈ s'.ports, (∃ q₀ ∈ s.ports, q₀.id = q.id) ∧
        q.id ∉ Neutron.ownPorts (Cri.addrsOf (s.mem u).val)) s := by
  unfold Cri.deleteNeutronPorts
  rw [wp_bind, wp_obj, seqPost_ok]
  refine wp_onlyIf (fun _ => ?_) fun hnil => ?_
  · have hall := achieves_forEach
      (P := Remaining s (Neutron.allPorts (Cri.addrsOf (s.mem u).val))
        (Neutron.ownPorts (Cri.addrsOf (s.mem u).val)))
      (Neutron.allPorts (Cri.addrsOf (s.mem u).val))
      (fun p rest _ => achieves_deleteOrUnbindPort henv p)
    refine wp_mono (hall s ⟨rfl, fun q hq => ⟨⟨q, hq, rfl⟩, fun _ hp => hp⟩⟩) ?_
    rintro res s' ⟨hok, hboxes, hports⟩
    refine ⟨hok, hboxes, fun q hq => ⟨(hports q hq).1, fun hown => ?_⟩⟩
    exact absurd ((hports q hq).2 hown (mem_ownPorts hown)) List.not_mem_nil
  · have hnone : Cri.addrsOf (s.mem u).val = [] := by
      have haddr : (s.mem u).val.addresses = [] := not_not.mp hnil
      unfold Cri.addrsOf
      rw [haddr]
      rfl
    rw [hnone]
    exact ⟨⟨(), rfl⟩, rfl, fun q hq => ⟨⟨q, hq, rfl⟩, List.not_mem_nil⟩⟩

end Answered

/-! ## The create -/

instance : IsPreorder World Around where
  refl s := ⟨refl_of Same s, rfl, rfl, rfl⟩
  trans _ _ _ h h' := ⟨trans_of Same h.toSame h'.toSame, h'.allocations.trans h.allocations,
    h'.volmaps.trans h.volmaps, h'.connected.trans h.connected⟩

instance : Outer Around where
  still h := ⟨h.same, h.allocations, h.volmaps, h.connected⟩
  outer h := h

/-- The addresses are on the row once `_write_cni_metadata` has returned. -/
theorem writeCniMetadata_ok {nets : List RequestedNetwork} {a : Unit}
    (h : Cri.writeCniMetadata env u nets s = (.ok a, s')) :
    ∃ row, s'.db u = some row ∧ row.addresses = (s'.mem u).val.addresses := by
  obtain ⟨_, s₁, -, h⟩ := andThen_ok h
  cases nets with
  | nil => cases h
  | cons net nets =>
      obtain ⟨addrs, s₂, -, h⟩ := andThen_ok h
      obtain ⟨_, s₃, hassign, h⟩ := andThen_ok h
      obtain ⟨_, s₄, hnet, h⟩ := andThen_ok h
      obtain ⟨_, s₅, hsubnets, h⟩ := andThen_ok h
      obtain ⟨_, s₆, hvif, h⟩ := andThen_ok h
      obtain ⟨row, hrow, rfl⟩ := save_ok h
      have h₄ : Same s₃ s₄ := (within_plain _ rfl).returns _ _ _ hnet
      have h₅ : Same s₄ s₅ :=
        (within_forEach fun _ _ => within_plain _ rfl).returns _ _ _ hsubnets
      have h₆ : Same s₅ s₆ := (within_plain _ rfl).returns _ _ _ hvif
      have hmem : (s₆.mem u).changed.addresses = true := by
        have h₃ : s₃ = s₂.setMem u _ := (Prod.ext_iff.mp hassign).2.symm
        rw [h₆.mem, h₅.mem, h₄.mem, h₃, setMem_mem_self]
        rfl
      refine ⟨_, saved_db_self _, ?_⟩
      rw [saved_val]
      unfold World.merged Changed.merge
      simp only [turn_mem, hmem, if_true]

theorem createPodSandbox_row {nets : List RequestedNetwork} {a : Unit}
    (h : Cri.createPodSandbox env u nets s = (.ok a, s')) :
    ∃ row, s'.db u = some row ∧ row.addresses = (s'.mem u).val.addresses := by
  obtain ⟨_, s₁, hmeta, h⟩ := andThen_ok h
  obtain ⟨_, s₂, hceiling, h⟩ := andThen_ok h
  obtain ⟨_, s₃, hrun, h⟩ := andThen_ok h
  have h₂ := call_ok hceiling
  have h₃ := call_ok hrun
  have h' := call_ok h
  subst h' h₃ h₂
  obtain ⟨row, hrow, haddr⟩ := writeCniMetadata_ok hmeta
  refine ⟨row, hrow, haddr.trans ?_⟩
  change _ = (((_ : World).setMem u _).mem u).val.addresses
  rw [setMem_mem_self]
  rfl

/-- A port that Neutron makes has an address when Neutron gives one. -/
theorem portGiven_fixedIps {nets : List RequestedNetwork} {net : RequestedNetwork} {p : Port}
    (hips : ∀ k, env.fixedIps k ≠ []) (h : Cri.portGiven env u nets s = some (net, p))
    (hport : net.port = none) : p.fixedIps ≠ [] := by
  cases nets with
  | nil => cases h
  | cons net' nets =>
      unfold Cri.portGiven at h
      simp only at h
      split at h
      · obtain ⟨p', hp', heq⟩ := Option.map_eq_some_iff.mp h
        cases heq
        unfold Cri.portFor at hp'
        rw [hport] at hp'
        simp only at hp'
        split at hp'
        · cases hp'
          exact hips _
        · cases hp'
      · cases h

section Create

variable {c : Capsule} {nets : List RequestedNetwork} {vols : RequestedVolumes}
  {net : RequestedNetwork} {p : Port}

/-- A port that is new is the one that was made, and it is among those that go with the
record. -/
theorem ownPort_of_built (hnets : ∀ net ∈ nets, net.preserveOnDelete = net.port.isSome)
    (hips : ∀ k, env.fixedIps k ≠ []) (hs : Unbuilt u n s)
    (hgiven : Cri.portGiven env u nets s = some (net, p)) (hb : Cri.Built u net p s s')
    {q : Port} (hq : q ∈ s'.ports) (hle : n ≤ q.id) :
    q.id ∈ Neutron.ownPorts (Cri.addrsOf (s'.mem u).val) := by
  have hold {id : PortId} (h : ∃ q₀ ∈ s.ports, q₀.id = id) : id < n := by
    obtain ⟨q₀, hq₀, rfl⟩ := h
    exact hs.ports q₀ hq₀
  obtain hid | hthere := hb.wired.known q hq
  · have hport : net.port = none := by
      cases hport : net.port with
      | none => rfl
      | some id =>
          obtain ⟨hp, hthere⟩ := hb.wired.tenant id hport
          rw [hid, hp] at hle
          exact absurd (hold hthere) (Nat.not_lt.mpr hle)
    have hkeep : net.preserveOnDelete = false := by
      rw [hnets net (List.mem_of_mem_head? (Cri.portGiven_head hgiven)), hport]
      rfl
    rw [addrsOf_singleton hb.addresses, hkeep,
      Neutron.ownPorts_addressesOf false (portGiven_fixedIps hips hgiven hport), hid]
    exact List.mem_singleton_self _
  · exact absurd (hold hthere) (Nat.not_lt.mpr hle)

theorem Recorded.other (h : Recorded u n s) {m : Uuid} (hm : u ≠ m) (f : Obj → Obj) :
    Recorded u n (s.setMem m f) := by
  have hmem : (s.setMem m f).mem u = s.mem u := setMem_mem_of_ne hm f
  refine ⟨h.there, fun b hb hu => ?_, fun q hq hle => ?_⟩
  · rw [hmem]
    exact h.boxes b hb hu
  · rw [hmem]
    exact h.ports q hq hle

theorem recorded_member {m : Uuid} (hm : u ≠ m) : Cri.Member (Kept (Recorded u n)) m where
  assign _ h := h.other hm _
  save hrow h := h.saved hrow

theorem recorded_talk : Cri.Talk (Kept (Recorded u n)) u where
  reason _ h := h.assign _ (fun _ => rfl) fun _ => rfl
  save hrow h := h.saved hrow

/-- Once the sandbox is on the row, everything is. -/
theorem recorded_of_sandbox (hnets : ∀ net ∈ nets, net.preserveOnDelete = net.port.isSome)
    (hips : ∀ k, env.fixedIps k ≠ []) (hs : Unbuilt u n s) {s₁ : World} {a b : Unit}
    (hpod : Cri.createPodSandbox env u nets s = (.ok a, s₁)) (hsave : save env u s₁ = (.ok b, s')) :
    Recorded u n s' := by
  obtain ⟨net, p, hgiven, hbuilt⟩ : ∃ net p, Cri.portGiven env u nets s = some (net, p) ∧
      Cri.Built u net p s s₁ := by
    have hout : wp (Cri.createPodSandbox env u nets)
        (Cri.Outcome env u nets s) s := Cri.wp_createPodSandbox nets
    unfold wp at hout
    rw [hpod] at hout
    unfold Cri.Outcome at hout
    split at hout
    · exact absurd rfl (hout.1 a)
    · exact ⟨_, _, ‹_›, hout⟩
  obtain ⟨b, -, -, hid, hchanged⟩ := createPodSandbox_ok hpod
  obtain ⟨row, hrow, haddr⟩ := createPodSandbox_row hpod
  obtain ⟨row', hrow', rfl⟩ := save_ok hsave
  cases hrow.symm.trans hrow'
  have hval : (((s₁.turn env (.save u (s₁.merged u row))).saved u row).mem u).val = (s₁.mem u).val := by
    rw [saved_val]
    rfl
  -- The row has the sandbox from the object, and had the addresses before.
  have hnamed : (s₁.merged u row).containerId = (s₁.mem u).val.containerId ∧
      (s₁.merged u row).addresses = (s₁.mem u).val.addresses := by
    refine ⟨?_, ?_⟩
    · unfold World.merged Changed.merge
      simp only [hchanged, if_true]
    · obtain hobj | hrow := merged_addresses (u := u) (s := s₁) row
      · exact hobj
      · exact hrow.trans haddr
  refine ⟨by rw [saved_db_self]; nofun, fun b' hb' howner => ?_, fun q hq hle => ?_⟩
  · have hthis : (s₁.mem u).val.containerId = some b'.id := by
      obtain hold | hthis := hbuilt.named b' hb'
      · exact absurd howner (hs.boxes b' hold)
      · exact hthis
    refine ⟨by rw [hval]; exact hthis, fun r hr => ?_⟩
    rw [saved_db_self, Option.some.injEq] at hr
    subst hr
    exact hnamed.1.trans hthis
  · have hthis : Names q.id (s₁.mem u).val :=
      ⟨by rw [hid]; rfl, ownPort_of_built hnets hips hs hgiven hbuilt hq hle⟩
    refine ⟨by rw [hval]; exact hthis, fun r hr => ?_⟩
    rw [saved_db_self, Option.some.injEq] at hr
    subst hr
    exact hthis.congr hnamed.1 hnamed.2

/-- A build that returns has everything on the row. -/
theorem recorded_of_build (hnets : ∀ net ∈ nets, net.preserveOnDelete = net.port.isSome)
    (hips : ∀ k, env.fixedIps k ≠ []) (hs : Unbuilt c.uuid n s) {a : Unit}
    (h : Cri.buildCapsule env c nets s = (.ok a, s')) : Recorded c.uuid n s' := by
  have hne : ∀ m ∈ c.initContainers ++ c.containers, c.uuid ≠ m := by
    rintro m hm rfl
    exact (List.nodup_cons.mp c.distinct).1 hm
  have hinit : ∀ m ∈ c.initContainers, c.uuid ≠ m := fun m hm => hne m (List.mem_append_left _ hm)
  obtain ⟨_, s₁, hpod, h⟩ := andThen_ok h
  obtain ⟨_, s₂, hsave, h⟩ := andThen_ok h
  have hrest : Within (Kept (Recorded c.uuid n)) (do
      Cri.runInitMembers env c
      forEach c.containers fun m => do
        Cri.stopIfAbandoned c.uuid
        Cri.createContainerIn env c.uuid m true none
        Cri.recordRunning env m) := by
    refine Within.bind ?_ fun _ => within_forEach fun m hm =>
      Cri.within_buildMember (recorded_member (hne m (List.mem_append_right _ hm))) _
    refine Cri.within_runInitMembers recorded_talk (fun m hm => recorded_member (hinit m hm))
      fun m hm state => (within_read _).bind fun _ => Within.onlyIf (Within.bind ?_ fun _ =>
        within_save m)
    exact within_modify fun _ h => h.other (hinit m hm) _
  exact hrest.returns _ _ _ h (recorded_of_sandbox hnets hips hs hpod hsave)

/-- The undo removes what the object names. -/
theorem wp_undoCreate_gone (henv : Answered env)
    (hthere : s.db u ≠ none)
    (hboxes : ∀ b ∈ s.sandboxes, b.owner = u → (s.mem u).val.containerId = some b.id)
    (hports : ∀ q ∈ s.ports, n ≤ q.id → q.id ∈ Neutron.ownPorts (Cri.addrsOf (s.mem u).val)) :
    wp (Cri.undoCreate env u) (fun res s' => (∃ a, res = .ok a) ∧ Emptied u n s') s := by
  -- What is left once the sandbox is dealt with.
  have hrest (s₁ : World) (hthere₁ : s₁.db u ≠ none) (hboxes₁ : ∀ b ∈ s₁.sandboxes, b.owner ≠ u)
      (hports₁ : s₁.ports = s.ports)
      (haddr : (s₁.mem u).val.addresses = (s.mem u).val.addresses) :
      wp (Cri.undoPorts env u) (fun res s' => (∃ a, res = .ok a) ∧ Emptied u n s') s₁ := by
    have hown : Neutron.ownPorts (Cri.addrsOf (s₁.mem u).val)
        = Neutron.ownPorts (Cri.addrsOf (s.mem u).val) := by
      unfold Cri.addrsOf
      rw [haddr]
    unfold Cri.undoPorts
    rw [wp_bind, wp_obj, seqPost_ok]
    refine wp_onlyIf (fun _ => ?_) fun hnil => ?_
    · refine wp_swallow_of ?_
      rw [wp_bind]
      refine wp_mono (wp_and (wp_deleteNeutronPorts_gone henv u)
        (Within.wp (R := Around) (Cri.within_deleteNeutronPorts u) s₁)) ?_
      rintro res s₂ ⟨⟨⟨a, rfl⟩, hb₂, hp₂⟩, haround⟩
      rw [seqPost_ok, wp_assign]
      refine ⟨⟨(), rfl⟩, ?_, fun b hb => hboxes₁ b (hb₂ ▸ hb), fun q hq => ?_⟩
      · rw [setMem_db, haround.db]
        exact hthere₁
      · by_contra hle
        obtain ⟨⟨q₁, hq₁, hid⟩, hno⟩ := hp₂ q hq
        rw [hown, ← hid] at hno
        rw [hports₁] at hq₁
        rw [← hid] at hle
        exact hno (hports q₁ hq₁ (Nat.not_lt.mp hle))
    · refine ⟨⟨(), rfl⟩, hthere₁, hboxes₁, fun q hq => ?_⟩
      by_contra hle
      rw [hports₁] at hq
      have hown' := hports q hq (Nat.not_lt.mp hle)
      have hnone : Cri.addrsOf (s.mem u).val = [] := by
        unfold Cri.addrsOf
        rw [← haddr, not_not.mp hnil]
        rfl
      rw [hnone] at hown'
      exact absurd hown' List.not_mem_nil
  unfold Cri.undoCreate Cri.undoSandbox
  rw [wp_bind, wp_bind, wp_obj, seqPost_ok]
  cases hpod : (s.mem u).val.containerId with
  | none =>
      rw [wp_pure, seqPost_ok]
      refine hrest s hthere (fun b hb howner => ?_) rfl rfl
      cases hpod.symm.trans (hboxes b hb howner)
  | some pod =>
      refine wp_swallow_of ?_
      rw [wp_bind]
      refine wp_mono (wp_and (wp_deleteSandbox_gone henv pod)
        (Within.wp (R := Around) (Cri.within_deleteSandbox pod) s)) ?_
      rintro res s₁ ⟨⟨⟨a, rfl⟩, hp₁, hb₁⟩, haround⟩
      rw [seqPost_ok, wp_assign]
      refine hrest _ (by rw [setMem_db, haround.db]; exact hthere) (fun b hb howner => ?_) hp₁ ?_
      · obtain ⟨hne, b₀, hb₀, hid, howner₀⟩ := hb₁ b hb
        have hthis := hboxes b₀ hb₀ (howner₀.trans howner)
        rw [hpod, hid, Option.some.injEq] at hthis
        exact hne hthis.symm
      · rw [setMem_mem_self, haround.mem]
        rfl

/-- The record has a row. -/
def There (u : Uuid) (s : World) : Prop := s.db u ≠ none

instance (u : Uuid) : Loose (Kept (There u)) := Loose.of fun _ _ hs h => by
  unfold There
  rw [hs.db]
  exact h

instance (u : Uuid) : Tolerant (Kept (There u)) where
  assign _ h := h
  save _ h := saved_there h

/-- The create of a capsule ends with everything on its row, or with nothing made. -/
theorem leads_createCapsule (henv : Answered env) (hips : ∀ k, env.fixedIps k ≠ [])
    (hnets : ∀ net ∈ nets, net.preserveOnDelete = net.port.isSome) :
    Leads (Unbuilt c.uuid n) (Recorded c.uuid n) (Cri.createCapsule env c nets vols) := by
  intro s hs
  unfold Cri.createCapsule
  rw [wp_bind, wp_reraising]
  rcases hb : Cri.buildCapsule env c nets s with ⟨r, s₁⟩
  refine wp_of_run hb ?_
  cases r with
  | halt => exact fun h => absurd rfl h
  | ok a =>
      rw [exceptPost_ok, seqPost_ok, wp_assign]
      exact fun _ => (recorded_of_build hnets hips hs hb).assign _ (fun _ => rfl) fun _ => rfl
  | raise e =>
      have hout : wp (Cri.buildCapsule env c nets)
          (Cri.Outcome env c.uuid nets s) s := Cri.wp_buildCapsule c nets
      unfold wp at hout
      rw [hb] at hout
      have hundo : wp (Cri.undoCreate env c.uuid)
          (fun res s' => (∃ a, res = .ok a) ∧ Emptied c.uuid n s') s₁ := by
        unfold Cri.Outcome at hout
        split at hout
        · have h₁ : Unbuilt c.uuid n s₁ := Steady.still (R := Kept (Unbuilt c.uuid n)) hout.2 hs
          exact wp_of_run (Cri.undoCreate_blank h₁.blank) ⟨⟨(), rfl⟩, h₁.toEmptied⟩
        · refine wp_undoCreate_gone henv ?_ (fun b hb howner => ?_) fun q hq hle =>
            ownPort_of_built hnets hips hs ‹_› hout hq hle
          · have hkept : Within (Kept (There c.uuid)) (Cri.buildCapsule env c nets) :=
              Cri.within_buildCapsule c nets
            have hthere := hkept s
            rw [hb] at hthere
            exact hthere hs.there
          · exact (hout.named b hb).resolve_left fun hold => hs.boxes b hold howner
      rw [exceptPost_raise, wp_andThen]
      refine wp_mono hundo ?_
      rintro res s₂ ⟨⟨a, rfl⟩, hempty⟩
      exact fun _ => hempty.recorded

end Create

/-! ## Volumes -/

/-- How many volume mappings there are for a record. -/
def held (m : Uuid) (s : World) : Nat := s.volmaps.countP (·.containerUuid = m)

/-- There are no more mappings for these records than this. -/
def Few (us : List Uuid) (f : Uuid → Nat) (s : World) : Prop := ∀ m ∈ us, held m s ≤ f m

theorem Few.sublist {us : List Uuid} {f : Uuid → Nat} (h : Few us f s)
    (hs : s'.volmaps.Sublist s.volmaps) : Few us f s' :=
  fun m hm => Nat.le_trans hs.countP_le (h m hm)

theorem Few.mono {us : List Uuid} {f g : Uuid → Nat} (h : Few us f s) (hfg : ∀ m ∈ us, f m ≤ g m) :
    Few us g s := fun m hm => Nat.le_trans (h m hm) (hfg m hm)

instance (us : List Uuid) (f : Uuid → Nat) : Lasting (Few us f) where
  toCalm := Zun.Calm.of fun _ _ hs h => h.sublist hs.maps
  assign _ _ h := h
  save _ h := h

instance (us : List Uuid) (f : Uuid → Nat) : Outer (Kept (Few us f)) where
  outer hs h := h.sublist (by rw [hs.volmaps])

instance (us : List Uuid) (f : Uuid → Nat) : Tolerant (Kept (Few us f)) where
  assign _ h := h
  save _ h := h

section Volumes

variable {us : List Uuid} {f : Uuid → Nat} {vols : RequestedVolumes}

theorem leads_createVolmap (m : Uuid) (v : VolMap) :
    Leads (Few us f) (Few us (Function.update f m (f m + 1))) (createVolmap env m v) := by
  have hmono (w : Uuid) : f w ≤ Function.update f m (f m + 1) w := by
    by_cases hw : w = m
    · subst hw
      rw [Function.update_self]
      exact Nat.le_succ _
    · rw [Function.update_of_ne hw]
  intro s h
  have hmore : Few us (Function.update f m (f m + 1)) s := h.mono fun w _ => hmono w
  refine wp_createVolmap env (fun _ _ => hmore) fun _ => ?_
  refine wp_call (fun _ _ w hw => ?_) (fun _ _ _ => hmore) fun _ hhalt => absurd rfl hhalt
  have hw' := h w hw
  unfold held at hw' ⊢
  rw [List.countP_cons]
  by_cases hwm : w = m
  · subst hwm
    rw [Function.update_self]
    simp only [decide_true, if_true]
    exact Nat.succ_le_succ hw'
  · rw [Function.update_of_ne hwm]
    have hne : ¬ m = w := fun h => hwm h.symm
    simp only [hne, decide_false, Bool.false_eq_true, if_false]
    exact hw'

/-- Every turn makes one mapping at most. -/
theorem leads_attachEach (m : Uuid) (isMember : Bool) (vs : List VolMap) :
    Leads (Few us f) (Few us (Function.update f m (f m + vs.length))) (forEach vs fun v => do
      createVolmap env m v
      let connected ← read fun s => s.connected.contains v.volumeId
      if connected && isMember then pure () else attachVolume env v) := by
  induction vs generalizing f with
  | nil =>
      refine (within_ret ()).leads.weaken fun s h => h.mono fun w _ => ?_
      rw [List.length_nil, Nat.add_zero, Function.update_eq_self]
  | cons v vs ih =>
      have hgrow (w : Uuid) : Function.update f m (f m + 1) w
          ≤ Function.update f m (f m + (vs.length + 1)) w := by
        by_cases hw : w = m
        · subst hw
          rw [Function.update_self, Function.update_self]
          omega
        · rw [Function.update_of_ne hw, Function.update_of_ne hw]
      have hturn : Leads (Few us f) (Few us (Function.update f m (f m + 1))) (do
          createVolmap env m v
          let connected ← read fun s => s.connected.contains v.volumeId
          if connected && isMember then pure () else attachVolume env v) := by
        refine Leads.bind (leads_createVolmap m v) (fun _ => Within.leads ?_) fun _ h => h
        exact (within_read _).bind fun _ => within_ite (within_pure _) (within_attachVolume v)
      refine Leads.bind hturn (fun _ => (ih (f := Function.update f m (f m + 1))).weaken ?_)
        fun s h => h.mono fun w _ => hgrow w
      intro s h
      refine h.mono fun w _ => ?_
      rw [Function.update_self, Function.update_idem, List.length_cons]
      refine Nat.le_of_eq (congrArg (fun k => Function.update f m k w) ?_)
      omega

theorem leads_attachVolumesOf (m : Uuid) :
    Leads (Few us f) (Few us (Function.update f m (f m + (vols.of m).length)))
      (attachVolumesOf env vols (.member m) true) :=
  (leads_attachEach m true (vols.of m)).reraising fun _ => within_failContainer _ _ _ _

/-- Every record gets the mappings that were asked for it, once for each time it is in the
list. -/
theorem leads_attachMembers (ms : List Uuid) :
    Leads (Few us f) (Few us fun m => f m + ms.count m * (vols.of m).length)
      (forEach ms fun m => attachVolumesOf env vols (.member m) true) := by
  induction ms generalizing f with
  | nil =>
      refine (within_ret ()).leads.weaken fun s h => h.mono fun w _ => ?_
      rw [List.count_nil, Nat.zero_mul]
      exact Nat.le_refl _
  | cons m ms ih =>
      have hstep (w : Uuid) : Function.update f m (f m + (vols.of m).length) w
          + ms.count w * (vols.of w).length ≤ f w + (m :: ms).count w * (vols.of w).length := by
        by_cases hw : w = m
        · subst hw
          rw [Function.update_self, List.count_cons_self, Nat.succ_mul]
          omega
        · rw [Function.update_of_ne hw, List.count_cons_of_ne (Ne.symm hw)]
      refine Leads.bind (leads_attachVolumesOf m) (fun _ => ih.weaken ?_) fun s h => h.mono ?_
      · exact fun s h => h.mono fun w _ => hstep w
      · exact fun w _ => Nat.le_trans (Nat.le_add_right _ _) (hstep w)

/-- What a capsule may have of mappings: none for itself, and for a member those that were asked
for. -/
def quota (c : Capsule) (vols : RequestedVolumes) (m : Uuid) : Nat :=
  if m = c.uuid then 0 else (vols.of m).length

/-- The record and its members. -/
def Capsule.all (c : Capsule) : List Uuid := c.uuid :: (c.initContainers ++ c.containers)

theorem leads_attachVolumes (c : Capsule) :
    Leads (Few (Capsule.all c) fun _ => 0) (Few (Capsule.all c) (quota c vols))
      (attachVolumes env vols (.capsule c)) := by
  have hquota : ∀ m ∈ Capsule.all c, 0 + c.initContainers.count m * (vols.of m).length
      + c.containers.count m * (vols.of m).length ≤ quota c vols m := by
    intro m _
    rw [Nat.zero_add, ← Nat.add_mul, ← List.count_append]
    have hcount := List.nodup_iff_count_le_one.mp c.distinct m
    unfold quota
    split
    case isTrue h =>
      have hzero : (c.initContainers ++ c.containers).count m = 0 :=
        List.count_eq_zero.mpr (h ▸ (List.nodup_cons.mp c.distinct).1)
      rw [hzero, Nat.zero_mul]
    case isFalse h =>
      rw [List.count_cons_of_ne (Ne.symm h)] at hcount
      exact Nat.le_trans (Nat.mul_le_mul_right _ hcount) (Nat.le_of_eq (Nat.one_mul _))
  refine Leads.reraising ?_ fun _ => within_failContainer _ _ _ _
  refine Leads.bind (leads_attachMembers c.initContainers) (fun _ => ?_) fun s h => h.mono ?_
  · exact (leads_attachMembers c.containers).weaken fun s h => h.mono hquota
  · exact fun m hm => Nat.le_trans (Nat.le_add_right _ _) (hquota m hm)

/-! ### Detaching -/

/-- A wait for so many volumes sees all of them deleted. -/
def Timely (env : Env) (k : Nat) : Prop :=
  ∀ vs : List VolMap, vs.length ≤ k → ∀ s, wp (pollDeleted env env.polls vs) (fun res _ => res = .ok true) s

theorem Timely.mono {k k' : Nat} (h : Timely env k) (hle : k' ≤ k) : Timely env k' :=
  fun vs hvs => h vs (Nat.le_trans hvs hle)

section Answered

variable (henv : Answered env)

include henv

theorem wp_ask_answered {α β : Type} {x : Call} {g : World → α} {k : α → Prog World Exn β}
    {Q : Result Exn β → World → Prop} (h : wp (k (g (s.turn env x))) Q (s.turn env x)) :
    wp (ask env x g >>= k) Q s := by
  unfold ask
  rw [wp_bind, wp_bind]
  refine wp_answered henv ?_
  rw [seqPost_ok, wp_read, seqPost_ok]
  exact h

/-- The mapping is gone, and no other came. -/
theorem wp_detachVolume_gone (reraise : Bool) (v : VolMap) :
    wp (detachVolume env reraise v) (fun res s' => res = .ok () ∧
      ∀ w ∈ s'.volmaps, w ∈ s.volmaps ∧ w.id ≠ v.id) s := by
  have hdestroy (s₁ : World) (hmaps : s₁.volmaps = s.volmaps) :
      wp (call env (.destroyVolmap v.id) fun s =>
        { s with volmaps := s.volmaps.filter (·.id ≠ v.id) }) (fun res s' => res = .ok () ∧
          ∀ w ∈ s'.volmaps, w ∈ s.volmaps ∧ w.id ≠ v.id) s₁ := by
    refine wp_answered henv ⟨rfl, fun w hw => ?_⟩
    obtain ⟨hw, hne⟩ := List.mem_filter.mp hw
    exact ⟨hmaps ▸ hw, by simpa using hne⟩
  unfold detachVolume
  rw [wp_bind, wp_read, seqPost_ok, wp_bind]
  refine wp_onlyIf (fun _ => ?_) fun _ => hdestroy s rfl
  unfold swallowIf
  split
  · rw [wp_swallow]
    exact wp_answered henv (hdestroy _ rfl)
  · exact wp_answered henv (hdestroy _ rfl)

theorem wp_detachEach_gone (reraise : Bool) (vs : List VolMap) :
    wp (detachEach env reraise vs) (fun res s' => ∃ removed, res = .ok removed ∧
      removed.length ≤ vs.length ∧ ∀ w ∈ s'.volmaps, w ∈ s.volmaps ∧ ∀ v ∈ vs, w.id ≠ v.id) s := by
  induction vs generalizing s with
  | nil => exact ⟨[], rfl, Nat.le_refl _, fun w hw => ⟨hw, fun _ hv => absurd hv List.not_mem_nil⟩⟩
  | cons v vs ih =>
      unfold detachEach
      rw [wp_bind, wp_read, seqPost_ok, wp_bind]
      refine wp_mono (wp_detachVolume_gone henv reraise v) ?_
      rintro res s₁ ⟨rfl, h₁⟩
      have hgone {s' : World} (h' : ∀ w ∈ s'.volmaps, w ∈ s₁.volmaps ∧ ∀ v ∈ vs, w.id ≠ v.id) :
          ∀ w ∈ s'.volmaps, w ∈ s.volmaps ∧ ∀ v' ∈ v :: vs, w.id ≠ v'.id := by
        intro w hw
        obtain ⟨hw₁, hne⟩ := h' w hw
        exact ⟨(h₁ w hw₁).1, List.forall_mem_cons.mpr ⟨(h₁ w hw₁).2, hne⟩⟩
      rw [seqPost_ok, wp_ite]
      split
      · rw [wp_bind]
        refine wp_answered henv ?_
        rw [seqPost_ok, wp_bind]
        refine wp_mono ih ?_
        rintro res s₂ ⟨removed, rfl, hlen, h₂⟩
        exact ⟨v :: removed, rfl, Nat.succ_le_succ hlen, hgone h₂⟩
      · refine wp_mono ih ?_
        rintro res s₂ ⟨removed, rfl, hlen, h₂⟩
        exact ⟨removed, rfl, Nat.le_succ_of_le hlen, hgone h₂⟩

/-- Volumes that are gone at once are seen to be gone, one in each poll. -/
theorem timely_of_ready (hready : ∀ k, env.volume k = .ready) {k : Nat} (hk : k ≤ env.polls) :
    Timely env k := by
  have hpoll (j : Nat) : ∀ (vs : List VolMap) (s : World), vs.length ≤ j →
      wp (pollDeleted env j vs) (fun res _ => res = .ok true) s := by
    induction j with
    | zero =>
        intro vs s hle
        cases vs with
        | nil => rfl
        | cons v vs => cases hle
    | succ j ih =>
        intro vs s hle
        cases vs with
        | nil => rfl
        | cons v vs =>
            rw [List.length_cons] at hle
            unfold pollDeleted
            cases v.autoRemove with
            | true =>
                refine wp_ask_answered henv ?_
                rw [hready]
                exact ih vs _ (Nat.le_of_succ_le_succ hle)
            | false =>
                cases vs with
                | nil => rfl
                | cons w ws =>
                    rw [List.length_cons] at hle
                    refine wp_ask_answered henv ?_
                    rw [hready]
                    exact ih ws _ (by omega)
  exact fun vs hvs s => hpoll env.polls vs s (Nat.le_trans hvs hk)

/-- A record whose volumes are gone in time is left without mappings. -/
theorem achieves_detachVolumesOf (reraise : Bool) {m : Uuid} (hm : m ∈ us) (htime : Timely env (f m)) :
    Achieves (Few us f) (Few us (Function.update f m 0)) (detachVolumesOf env
      (fun y msg => failContainer env failDepth y msg true) reraise (.member m)) := by
  intro s h
  have hkept : Within (Kept (Few us f)) (detachVolumesOf env
      (fun y msg => failContainer env failDepth y msg true) reraise (.member m)) :=
    within_detachVolumesOf (fun _ => within_failContainer _ _ _ _) reraise
  have hnone : wp (detachVolumesOf env (fun y msg => failContainer env failDepth y msg true) reraise
      (.member m)) (fun res s' => (∃ a, res = .ok a) ∧ Few [m] (fun _ => 0) s') s := by
    unfold detachVolumesOf
    refine wp_ask_answered henv ?_
    rw [wp_bind]
    refine wp_mono (wp_detachEach_gone henv reraise _) ?_
    rintro res s₁ ⟨removed, rfl, hlen, hgone⟩
    have hcount : removed.length ≤ f m := by
      refine Nat.le_trans hlen ?_
      change (s.volmaps.filter (·.containerUuid = m)).length ≤ _
      rw [← List.countP_eq_length_filter]
      exact h m hm
    have hmaps : Few [m] (fun _ => 0) s₁ := by
      intro w hw
      rw [List.mem_singleton.mp hw]
      refine Nat.le_of_eq (List.countP_eq_zero.mpr fun v hv hvm => ?_)
      obtain ⟨hold, hne⟩ := hgone v hv
      exact hne v (List.mem_filter.mpr ⟨hold, hvm⟩) rfl
    have hpolled : Within (Kept (Few [m] fun _ => 0)) (pollDeleted env env.polls removed) :=
      within_pollDeleted _ _
    rw [seqPost_ok]
    unfold waitForVolumesDeleted
    rw [wp_bind]
    refine wp_mono (wp_and (htime removed hcount s₁) (hpolled.wp s₁)) ?_
    rintro res s₂ ⟨rfl, hfew⟩
    exact ⟨⟨(), rfl⟩, hfew hmaps⟩
  refine ⟨hnone.1, fun w hw => ?_⟩
  by_cases hwm : w = m
  · subst hwm
    rw [Function.update_self]
    exact hnone.2 w (List.mem_singleton_self w)
  · rw [Function.update_of_ne hwm]
    exact hkept s h w hw

theorem achieves_detachMembers (reraise : Bool) (ms : List Uuid) (hms : ∀ m ∈ ms, m ∈ us)
    (htime : ∀ m ∈ ms, Timely env (f m)) :
    Achieves (Few us f) (Few us fun m => if m ∈ ms then 0 else f m) (forEach ms fun m =>
      detachVolumesOf env (fun y msg => failContainer env failDepth y msg true) reraise (.member m)) := by
  induction ms generalizing f with
  | nil => exact (achieves_ret ()).weaken fun s h => h.mono fun w _ => Nat.le_of_eq (by simp)
  | cons m ms ih =>
      refine Achieves.bind (achieves_detachVolumesOf henv reraise (hms m (List.mem_cons_self ..))
        (htime m (List.mem_cons_self ..))) fun _ => ?_
      have hle (w : Uuid) : Function.update f m 0 w ≤ f w := by
        by_cases hw : w = m
        · subst hw
          rw [Function.update_self]
          exact Nat.zero_le _
        · rw [Function.update_of_ne hw]
      refine (ih (f := Function.update f m 0) (fun w hw => hms w (List.mem_cons_of_mem _ hw))
        fun w hw => (htime w (List.mem_cons_of_mem _ hw)).mono (hle w)).weaken ?_
      intro s h
      refine h.mono fun w _ => ?_
      by_cases hw : w = m
      · subst hw
        simp
      · rw [Function.update_of_ne hw]
        simp [hw]

/-- A capsule whose volumes are gone in time is left without mappings. -/
theorem achieves_detachAll (reraise : Bool) (c : Capsule)
    (htime : ∀ m, Timely env (quota c vols m)) :
    Achieves (Few (Capsule.all c) (quota c vols)) (Few (Capsule.all c) fun _ => 0)
      (detachAll env reraise (.capsule c)) := by
  have hinit : ∀ m ∈ c.initContainers, m ∈ Capsule.all c := fun m hm =>
    List.mem_cons_of_mem _ (List.mem_append_left _ hm)
  have hrest : ∀ m ∈ c.containers, m ∈ Capsule.all c := fun m hm =>
    List.mem_cons_of_mem _ (List.mem_append_right _ hm)
  refine Achieves.bind (achieves_detachMembers henv reraise c.initContainers hinit
    fun m _ => htime m) fun _ => ?_
  refine (achieves_detachMembers henv reraise c.containers hrest fun m _ => ?_).weaken ?_
  · refine (htime m).mono ?_
    split
    · exact Nat.zero_le _
    · exact Nat.le_refl _
  · intro s h
    refine h.mono fun m hm => ?_
    obtain rfl | hm := List.mem_cons.mp hm
    · simp [quota]
    · obtain hm | hm := List.mem_append.mp hm
      · simp [hm]
      · simp [hm]

end Answered

end Volumes

/-! ## The delete -/

/-- The row of `u` names every sandbox of it that is there and every port that was given out from
`n` on. -/
structure OnRow (u : Uuid) (n : Nat) (s : World) : Prop where
  there : s.db u ≠ none
  boxes : ∀ b ∈ s.sandboxes, b.owner = u → ∀ r, s.db u = some r → r.containerId = some b.id
  ports : ∀ q ∈ s.ports, n ≤ q.id → ∀ r, s.db u = some r → Names q.id r

theorem Recorded.onRow (h : Recorded u n s) : OnRow u n s :=
  ⟨h.there, fun b hb hu => (h.boxes b hb hu).2, fun q hq hle => (h.ports q hq hle).2⟩

theorem OnRow.recordDelete {c : Capsule} (h : OnRow c.uuid n s) :
    OnRow c.uuid n (recordDelete c s) := by
  have hdb : (Manager.recordDelete c s).db c.uuid = (s.db c.uuid).map fun r =>
      { r with taskState := some .containerDeleting } := setRow_db_self _
  refine ⟨?_, fun b hb hu r hr => ?_, fun q hq hle r hr => ?_⟩
  · rw [hdb]
    simpa using h.there
  · rw [hdb] at hr
    obtain ⟨r₀, hr₀, rfl⟩ := Option.map_eq_some_iff.mp hr
    exact h.boxes b hb hu r₀ hr₀
  · rw [hdb] at hr
    obtain ⟨r₀, hr₀, rfl⟩ := Option.map_eq_some_iff.mp hr
    exact (h.ports q hq hle r₀ hr₀).congr rfl rfl

/-- The object is brought up to date with the row. -/
theorem OnRow.caughtUp (h : OnRow u n s) (hrow : s.db u = some r) :
    Recorded u n (s.setMem u (catchUp r)) := by
  refine ⟨h.there, fun b hb hu => ⟨?_, h.boxes b hb hu⟩, fun q hq hle => ⟨?_, h.ports q hq hle⟩⟩
  · rw [setMem_mem_self]
    exact h.boxes b hb hu r hrow
  · rw [setMem_mem_self]
    exact (h.ports q hq hle r hrow).congr rfl rfl

/-- The records of a capsule are gone with everything that was made for it. -/
structure Deleted (c : Capsule) (n : Nat) (s : World) : Prop where
  rows : ∀ v ∈ Capsule.all c, s.db v = none
  boxes : ∀ b ∈ s.sandboxes, b.owner ≠ c.uuid
  ports : ∀ q ∈ s.ports, q.id < n
  maps : Few (Capsule.all c) (fun _ => 0) s
  allocation : s.allocations c.uuid = false

section Delete

variable {c : Capsule} {vols : RequestedVolumes} (henv : Answered env)

include henv

theorem achieves_save {I : World → Prop} [Lasting I] (hthere : ∀ s, I s → s.db u ≠ none) :
    Achieves I I (save env u) := by
  intro s hs
  obtain ⟨row, hrow⟩ := Option.ne_none_iff_exists'.mp (hthere s hs)
  refine wp_save_answered henv hrow ⟨⟨(), rfl⟩, ?_⟩
  have hturn : I (s.turn env (.save u (s.merged u row))) := steady_turn (R := Kept I) _ s rfl hs
  exact Lasting.save (s := s.turn env (.save u (s.merged u row))) hrow hturn

theorem achieves_updateTaskState {I J : World → Prop} [Lasting I] [Lasting J] {t : TaskState}
    {body : Prog World Exn Unit} (hI : ∀ s, I s → s.db u ≠ none) (hJ : ∀ s, J s → s.db u ≠ none)
    (hbody : Achieves I J body) : Achieves I J (updateTaskState env u t body) := by
  have htask {K : World → Prop} [Lasting K] (v : Option TaskState) :
      Achieves K K (assign u (Obj.setTaskState v)) :=
    achieves_modify fun _ h => Lasting.assign (fun _ => rfl) (fun _ => rfl) h
  refine Achieves.bind (achieves_read _) fun current => ?_
  intro s hs
  rw [wp_ite]
  split
  · exact hbody s hs
  · refine Achieves.bind (htask _) (fun _ => (achieves_save henv hI).bind fun _ => ?_) s hs
    exact hbody.tryFinally ((htask _).bind fun _ => achieves_save henv hJ)

theorem achieves_stopContainer (id : RuntimeId) :
    Achieves (Still s) (Still s) (Cri.stopContainer env id) := by
  intro s₁ h₁
  have hstill : Within Still (Cri.stopContainer env id) := Cri.within_stopContainer id
  exact ⟨wp_answered (Q := fun res _ => ∃ a, res = .ok a) henv ⟨(), rfl⟩, trans_of Still h₁ (hstill s₁)⟩

theorem achieves_stopInPodOrder (c : Capsule) :
    Achieves (Still s) (Still s) (Cri.stopInPodOrder env c) := by
  refine Achieves.bind (achieves_read _) fun sidecars => Achieves.onlyIf ?_
  refine achieves_forEach (P := fun _ => Still s) _ fun m _ _ => ?_
  refine Achieves.bind (achieves_read _) fun id => Achieves.onlyIf ?_
  exact (achieves_stopContainer henv _).tryExcept _

/-- The driver's delete removes what the object names. -/
theorem achieves_deleteCapsule (force : Bool) :
    Achieves (Recorded c.uuid n) (Emptied c.uuid n) (Cri.deleteCapsule env c force) := by
  intro s hs
  unfold Cri.deleteCapsule
  rw [wp_bind, wp_obj, seqPost_ok]
  cases hpod : (s.mem c.uuid).val.containerId with
  | none =>
      refine ⟨⟨(), rfl⟩, hs.there, fun b hb howner => ?_, fun q hq => ?_⟩
      · cases hpod.symm.trans (hs.boxes b hb howner).1
      · by_contra hle
        have hnames := (hs.ports q hq (Nat.not_lt.mp hle)).1.1
        rw [hpod] at hnames
        cases hnames
  | some pod =>
      have hstop : Achieves (Still s) (Still s) (onlyIf (force = false) (Cri.stopInPodOrder env c)) :=
        (achieves_stopInPodOrder henv c).onlyIf
      rw [wp_bind]
      refine wp_mono (hstop s (refl_of Still s)) ?_
      rintro res s₁ ⟨⟨a, rfl⟩, h₁⟩
      rw [seqPost_ok, wp_bind]
      refine wp_mono (wp_and (wp_deleteSandbox_gone henv pod)
        (Within.wp (R := Around) (Cri.within_deleteSandbox pod) s₁)) ?_
      rintro res s₂ ⟨⟨⟨a, rfl⟩, hp₂, hb₂⟩, haround₂⟩
      rw [seqPost_ok]
      refine wp_mono (wp_and (wp_deleteNeutronPorts_gone henv c.uuid)
        (Within.wp (R := Around) (Cri.within_deleteNeutronPorts c.uuid) s₂)) ?_
      rintro res s₃ ⟨⟨hok, hb₃, hp₃⟩, haround₃⟩
      refine ⟨hok, ?_, fun b hb howner => ?_, fun q hq => ?_⟩
      · rw [haround₃.db, haround₂.db, h₁.db]
        exact hs.there
      · rw [hb₃] at hb
        obtain ⟨hne, b₀, hb₀, hid, howner₀⟩ := hb₂ b hb
        rw [h₁.sandboxes] at hb₀
        have hthis := (hs.boxes b₀ hb₀ (howner₀.trans howner)).1
        rw [hpod, hid, Option.some.injEq] at hthis
        exact hne hthis.symm
      · by_contra hle
        obtain ⟨⟨q₀, hq₀, hid⟩, hno⟩ := hp₃ q hq
        rw [hp₂, h₁.ports] at hq₀
        rw [← hid] at hle hno
        rw [haround₂.mem, h₁.mem] at hno
        exact hno (hs.ports q₀ hq₀ (Nat.not_lt.mp hle)).1.2

/-- What a delete does while it owns the record. -/
theorem achieves_deleteOwned (htime : ∀ m, Timely env (quota c vols m)) (force : Bool) :
    Achieves (fun s => Recorded c.uuid n s ∧ Few (Capsule.all c) (quota c vols) s)
      (fun s => Emptied c.uuid n s ∧ Few (Capsule.all c) (fun _ => 0) s)
      (deleteOwned env (defaultDrivers env) (.capsule c) force) := by
  refine Achieves.bind (J := fun s => Emptied c.uuid n s ∧ Few (Capsule.all c) (quota c vols) s) ?_
    fun _ => ?_
  · refine Achieves.reraisingIf _ ?_ _
    exact (achieves_deleteCapsule henv force).and (Cri.within_deleteCapsule c force)
  · intro s hs
    obtain ⟨hok, hfew, hempty⟩ := ((achieves_detachAll henv (!force) c htime).and
      (within_detachAll (R := Kept (Emptied c.uuid n)) (!force) (.capsule c))) s ⟨hs.2, hs.1⟩
    exact ⟨hok, hempty, hfew⟩

/-- The rows go once no mapping refers to them. -/
theorem achieves_destroy :
    Achieves (fun s => (Emptied c.uuid n s ∧ Few (Capsule.all c) (fun _ => 0) s) ∧
        s.allocations c.uuid = false) (Deleted c n)
      (destroy env c.uuid (members (.capsule c))) := by
  rintro s ⟨⟨hempty, hfew⟩, halloc⟩
  obtain ⟨row, hrow⟩ := Option.ne_none_iff_exists'.mp hempty.there
  have hfree : s.referred (c.uuid :: members (.capsule c)) = false := by
    by_contra hne
    obtain ⟨v, hv, hm⟩ := referred_iff.mp (by simpa using hne)
    have hzero := List.countP_eq_zero.mp (Nat.le_zero.mp (hfew _ hm)) v hv
    simp at hzero
  have hrun : destroy env c.uuid (members (.capsule c)) s
      = call env (.destroy c.uuid) (dropRows (Capsule.all c)) s := by
    unfold destroy
    simp only [hrow, hfree, Bool.false_eq_true, if_false]
    rfl
  unfold wp
  rw [hrun]
  exact wp_answered (Q := fun res s' => (∃ a, res = .ok a) ∧ Deleted c n s') henv
    ⟨⟨(), rfl⟩, fun v hv => dropRows_db_of_mem hv, hempty.boxes, hempty.ports, hfew, halloc⟩

theorem achieves_doContainerDelete (htime : ∀ m, Timely env (quota c vols m)) (force : Bool) :
    Achieves (fun s => Recorded c.uuid n s ∧ Few (Capsule.all c) (quota c vols) s) (Deleted c n)
      (doContainerDelete env (defaultDrivers env) (.capsule c) force) := by
  have hplain {I : World → Prop} [Lasting I] (x : Call) (hx : x.releases = false) :
      Achieves I I (call env x) :=
    fun s hs => wp_answered henv ⟨⟨(), rfl⟩, steady_turn (R := Kept I) x s hx hs⟩
  refine Achieves.bind (Achieves.bind (hplain _ rfl) fun _ => achieves_read _) fun _ => ?_
  refine Achieves.bind (achieves_updateTaskState henv (fun _ h => h.1.there) (fun _ h => h.1.there)
    (achieves_deleteOwned henv htime force)) fun _ => ?_
  refine Achieves.bind (hplain _ rfl).swallow fun _ => ?_
  refine Achieves.bind (Achieves.swallow fun s hs => ?_) fun _ => achieves_destroy henv
  refine wp_answered henv ⟨⟨(), rfl⟩, ⟨⟨hs.1.there, hs.1.boxes, hs.1.ports⟩, hs.2⟩, ?_⟩
  exact Function.update_self ..

/-- The thread of a delete, on any objects. -/
theorem wp_thread_delete (htime : ∀ m, Timely env (quota c vols m)) (force : Bool) (hrow : OnRow c.uuid n s)
    (hfew : Few (Capsule.all c) (quota c vols) s) :
    wp (thread env (defaultDrivers env) (.capsule c) (.delete force))
      (fun _ s' => Deleted c n s' ∧ c.uuid ∉ s'.abandoned) s := by
  change wp (tryFinally (whenCaughtUp env c.uuid
    (doContainerDelete env (defaultDrivers env) (.capsule c) force)) (forgetAbandoned c.uuid)) _ s
  rw [wp_tryFinally]
  obtain ⟨row, hr⟩ := Option.ne_none_iff_exists'.mp hrow.there
  refine wp_caughtUp_answered henv hr ?_
  have hturn : OnRow c.uuid n (s.turn env (.readRow c.uuid)) := ⟨hrow.there, hrow.boxes, hrow.ports⟩
  refine wp_mono (achieves_doContainerDelete henv htime force _ ⟨hturn.caughtUp hr, hfew⟩) ?_
  rintro res s' ⟨⟨a, rfl⟩, hdel⟩
  refine ⟨⟨hdel.rows, hdel.boxes, hdel.ports, hdel.maps, hdel.allocation⟩, fun hmem => ?_⟩
  change c.uuid ∈ s'.abandoned.filter (· ≠ c.uuid) at hmem
  simp at hmem

end Delete

/-! ## A create that comes after the delete -/

/-- The capsule is gone, and no create of it is abandoned. -/
structure Vanished (c : Capsule) (n : Nat) (s : World) : Prop extends Deleted c n s where
  abandoned : c.uuid ∉ s.abandoned

section Late

variable {c : Capsule}

theorem Deleted.saved (h : Deleted c n s) {v : Uuid} {row : Record} (hrow : s.db v = some row) :
    Deleted c n (s.saved v row) := by
  refine ⟨fun w hw => ?_, h.boxes, h.ports, h.maps, h.allocation⟩
  have hne : w ≠ v := by
    rintro rfl
    cases hrow.symm.trans (h.rows w hw)
  rw [saved_db_of_ne hne]
  exact h.rows w hw

instance (c : Capsule) (n : Nat) : Easy (Kept (Vanished c n)) where
  assign _ h := ⟨⟨h.rows, h.boxes, h.ports, h.maps, h.allocation⟩, h.abandoned⟩
  save hrow h := ⟨h.toDeleted.saved hrow, h.abandoned⟩

instance (c : Capsule) (n : Nat) : Mobile (Kept (Vanished c n)) where
  moved _ _ hmaps h :=
    ⟨⟨h.rows, h.boxes, h.ports, h.maps.sublist hmaps, h.allocation⟩, h.abandoned⟩

instance (c : Capsule) (n : Nat) : Freeing (Kept (Vanished c n)) where
  freed u h := by
    refine ⟨⟨h.rows, h.boxes, h.ports, h.maps, ?_⟩, h.abandoned⟩
    by_cases hu : c.uuid = u
    · subst hu
      exact Function.update_self ..
    · exact (Function.update_of_ne hu ..).trans h.allocation

/-- No delete of the capsule arrives. -/
theorem vanished_bystander (habandons : ∀ k, c.uuid ∉ env.abandons k) :
    Bystander env (Kept (Vanished c n)) where
  turned x s _ h := by
    refine ⟨⟨h.rows, h.boxes, h.ports, h.maps, h.allocation⟩, fun hmem => ?_⟩
    obtain hmem | hmem := List.mem_append.mp hmem
    · exact habandons _ hmem
    · exact h.abandoned hmem

/-- A record without a row is not saved, and what would come then does not come. -/
theorem wp_save_gone {α : Type} {f : Unit → Prog World Exn α} (h : Vanished c n s) :
    wp (save env c.uuid >>= f) (fun _ s' => Vanished c n s') s := by
  have hgone := h.rows c.uuid (List.mem_cons_self ..)
  rw [wp_bind]
  refine wp_save (fun _ => h) (fun row hrow => ?_) (fun row _ hrow => ?_) fun row hrow => ?_
  · cases hrow.symm.trans hgone
  · cases hrow.symm.trans hgone
  · cases hrow.symm.trans hgone

variable [Bystander env (Kept (Vanished c n))]

theorem vanished_attachVolumesOf {vols : RequestedVolumes} {m : Uuid} (hm : m ∈ Capsule.all c) :
    Within (Kept (Vanished c n)) (attachVolumesOf env vols (.member m) true) := by
  refine Within.reraising (within_forEach fun v _ => ?_) fun _ => within_failContainer _ _ _ _
  refine Within.bind ?_ fun _ => (within_read _).bind fun _ =>
    within_ite (within_pure _) (within_attachVolume v)
  intro s h
  exact wp_createVolmap env (Q := fun _ s' => Vanished c n s') (fun _ => h) fun hthere =>
    absurd (h.rows m hm) hthere

/-- The way to the driver's create is through a `save`. -/
theorem vanished_createOwned {nets : List RequestedNetwork} {vols : RequestedVolumes} :
    Within (Kept (Vanished c n)) (createOwned env (defaultDrivers env) (.capsule c) nets vols) := by
  intro s h
  change wp _ (fun _ s' => Vanished c n s') s
  refine wp_bind_kept (within_plain _ rfl) h (fun _ s₁ h₁ => ?_) (fun _ _ h => h) fun _ h => h
  refine wp_bind_kept (within_plain _ rfl) h₁ (fun _ s₂ h₂ => ?_) (fun _ _ h => h) fun _ h => h
  refine wp_bind_kept (within_pullImage _).onlyIf h₂ (fun _ s₃ h₃ => ?_) (fun _ _ h => h) fun _ h => h
  exact wp_save_gone h₃

theorem vanished_doContainerCreate {nets : List RequestedNetwork} {vols : RequestedVolumes}
    (pci : Bool) : Within (Kept (Vanished c n))
      (doContainerCreate env (defaultDrivers env) (.capsule c) nets vols pci) := by
  have hassign (f : Obj → Obj) : Within (Kept (Vanished c n)) (assign c.uuid f) :=
    within_modify fun _ h => ⟨⟨h.rows, h.boxes, h.ports, h.maps, h.allocation⟩, h.abandoned⟩
  have hclaim : Within (Kept (Vanished c n)) (containerClaim env c.uuid pci) := by
    refine (within_read _).bind fun asks => within_ite (within_pure _) ?_
    refine (within_plain _ rfl).bind fun _ => (within_plain _ rfl).bind fun _ => ?_
    refine (within_plain _ rfl).bind fun _ => (hassign _).bind fun _ => fun s h => ?_
    exact wp_save_gone h
  have hbase : Within (Kept (Vanished c n))
      (doContainerCreateBase env (defaultDrivers env) (.capsule c) nets vols) := by
    refine (within_read _).bind fun current => within_ite vanished_createOwned ?_
    exact (hassign _).bind fun _ => fun s h => wp_save_gone h
  refine Within.reraising (hclaim.bind fun real => ?_) fun e => within_createFailed _ e
  exact within_ite (hbase.reraising fun _ => within_plain _ rfl) hbase

/-- A create that comes after the delete leaves nothing. -/
theorem vanished_containerCreate {nets : List RequestedNetwork} {vols : RequestedVolumes}
    (pci : Bool) : Within (Kept (Vanished c n))
      (containerCreate env (defaultDrivers env) (.capsule c) nets vols pci false) := by
  refine Within.bind ?_ fun _ => within_ret ()
  refine (within_waitForVolumesAvailable _ _).bind fun _ => Within.bind ?_ fun _ =>
    (within_checkSupportDiskQuota _).bind fun _ => vanished_doContainerCreate pci
  refine Within.reraising (Within.bind ?_ fun _ => ?_) fun _ => within_failContainer _ _ _ _
  · exact within_forEach fun m hm => vanished_attachVolumesOf
      (List.mem_cons_of_mem _ (List.mem_append_left _ hm))
  · exact within_forEach fun m hm => vanished_attachVolumesOf
      (List.mem_cons_of_mem _ (List.mem_append_right _ hm))

end Late

/-! ## The two threads -/

/-- A create and a delete of one capsule. -/
structure Threads where
  capsule : Capsule
  createEnv : Env
  deleteEnv : Env
  nets : List RequestedNetwork := []
  vols : RequestedVolumes := []
  pci : Bool := false
  force : Bool := false
  /-- The objects that came with the request for the delete. -/
  sent : Uuid → Obj
  /-- The API's record of the delete is still on the row when the delete has the lock. -/
  recorded : Bool := true

/-- Which of the two has the lock first. -/
inductive Order where
  | createFirst
  | deleteFirst
deriving DecidableEq

namespace Threads

variable (t : Threads)

def create (mem : Uuid → Obj) : Prog World Exn Unit := do
  modify fun s => { s with mem }
  containerCreate t.createEnv (defaultDrivers t.createEnv) (.capsule t.capsule) t.nets t.vols t.pci false

/-- The create is abandoned before the delete waits for the lock. -/
def delete : Prog World Exn Unit := do
  modify fun s => if t.recorded then recordDelete t.capsule s else s
  modify fun s => { s with mem := t.sent, abandoned := t.capsule.uuid :: s.abandoned }
  thread t.deleteEnv (defaultDrivers t.deleteEnv) (.capsule t.capsule) (.delete t.force)

/-- How the create and the delete ended, and the world they left. -/
def run (s : World) : Order → Result Exn Unit × Result Exn Unit × World
  | .createFirst =>
      let (created, s₁) := t.create s.mem s
      (created, t.delete s₁)
  | .deleteFirst =>
      let (deleted, s₁) := t.delete s
      let (created, s₂) := t.create s.mem s₁
      (created, deleted, s₂)

/-- The API has made and scheduled the capsule, and nothing was made for it yet. -/
structure Scheduled (s : World) : Prop where
  there : s.db t.capsule.uuid = some (s.mem t.capsule.uuid).val
  blank : Cri.Blank t.capsule.uuid s
  boxes : ∀ b ∈ s.sandboxes, b.owner ≠ t.capsule.uuid
  ports : ∀ q ∈ s.ports, q.id < s.nextId
  maps : Few (Capsule.all t.capsule) (fun _ => 0) s
  /-- A port that the tenant gave is kept, and no other. -/
  nets : ∀ net ∈ t.nets, net.preserveOnDelete = net.port.isSome

/-- No call fails, and a delete that has ended abandons no create. -/
structure Possible (o : Order) : Prop where
  createEnv : Answered t.createEnv
  deleteEnv : Answered t.deleteEnv
  once : o = .deleteFirst → ∀ k, t.capsule.uuid ∉ t.createEnv.abandons k

/-- Every port that Neutron makes gets an address, and the volumes that the delete removes are
seen to be gone in the time it waits. -/
structure Orderly : Prop where
  fixedIps : ∀ k, t.createEnv.fixedIps k ≠ []
  timely : ∀ m, Timely t.deleteEnv (quota t.capsule t.vols m)

/-- Nothing is left of the capsule: not its record, a sandbox, a port that was made since, a
mapping of a member, its allocation or the mark of an abandoned create. -/
structure Gone (s s' : World) : Prop where
  record : s'.db t.capsule.uuid = none
  boxes : ∀ b ∈ s'.sandboxes, b.owner ≠ t.capsule.uuid
  ports : ∀ q ∈ s'.ports, q.id < s.nextId
  maps : ∀ v ∈ s'.volmaps, v.containerUuid ∉ members (.capsule t.capsule)
  allocation : s'.allocations t.capsule.uuid = false
  abandoned : t.capsule.uuid ∉ s'.abandoned

/-- When both have ended, nothing is left. -/
def CleansUp (o : Order) (s : World) : Prop :=
  (t.run s o).1 ≠ .halt → (t.run s o).2.1 ≠ .halt → t.Gone s (t.run s o).2.2

variable {t}

theorem Scheduled.unbuilt (h : t.Scheduled s) : Unbuilt t.capsule.uuid s.nextId s where
  there := by rw [h.there]; nofun
  boxes := h.boxes
  ports := h.ports
  ids := Nat.le_refl _
  blank := h.blank

theorem gone_of_deleted (h : Deleted t.capsule s.nextId s') (habandoned : t.capsule.uuid ∉ s'.abandoned) :
    t.Gone s s' where
  record := h.rows _ (List.mem_cons_self ..)
  boxes := h.boxes
  ports := h.ports
  maps v hv hm := by
    have hzero := List.countP_eq_zero.mp
      (Nat.le_zero.mp (h.maps v.containerUuid (List.mem_cons_of_mem _ hm))) v hv
    simp at hzero
  allocation := h.allocation
  abandoned := habandoned

/-- A create ends with everything on the row, and no more mappings than were asked for. -/
theorem leads_create (henv : Answered t.createEnv) (hips : ∀ k, t.createEnv.fixedIps k ≠ [])
    (hnets : ∀ net ∈ t.nets, net.preserveOnDelete = net.port.isSome) :
    Leads (fun s => Unbuilt t.capsule.uuid n s ∧ Few (Capsule.all t.capsule) (fun _ => 0) s)
      (fun s => Recorded t.capsule.uuid n s ∧ Few (Capsule.all t.capsule) (quota t.capsule t.vols) s)
      (containerCreate t.createEnv (defaultDrivers t.createEnv) (.capsule t.capsule) t.nets t.vols
        t.pci false) := by
  have hattach : Leads
      (fun s => Unbuilt t.capsule.uuid n s ∧ Few (Capsule.all t.capsule) (fun _ => 0) s)
      (fun s => Unbuilt t.capsule.uuid n s ∧
        Few (Capsule.all t.capsule) (quota t.capsule t.vols) s)
      (attachVolumes t.createEnv t.vols (.capsule t.capsule)) := by
    have hkept : Within (Kept (Unbuilt t.capsule.uuid n))
        (attachVolumes t.createEnv t.vols (.capsule t.capsule)) := by
      refine Within.reraising (Within.bind ?_ fun _ => ?_) fun _ => within_failContainer _ _ _ _
      · exact within_forEach fun m _ => within_attachVolumesOf _ _ _
      · exact within_forEach fun m _ => within_attachVolumesOf _ _ _
    intro s hs hend
    obtain ⟨hfew, hunbuilt⟩ := (leads_attachVolumes t.capsule).and hkept s ⟨hs.2, hs.1⟩ hend
    exact ⟨hunbuilt, hfew⟩
  have hcreate : Within (Kept (Few (Capsule.all t.capsule) (quota t.capsule t.vols)))
      (Cri.createCapsule t.createEnv t.capsule t.nets t.vols) := by
    refine Within.bind ((Cri.within_buildCapsule _ _).reraising fun _ => Cri.within_undoCreate _)
      fun _ => lasting_assign (fun _ => rfl) fun _ => rfl
  refine leads_containerCreate (fun s h => ⟨h.1, h.2.mono fun m _ => Nat.zero_le _⟩)
    (fun s h => ⟨h.1.toEmptied.recorded, h.2⟩) hattach ?_
  exact (leads_createCapsule henv hips hnets).and hcreate

theorem wp_delete (henv : Answered t.deleteEnv)
    (htime : ∀ m, Timely t.deleteEnv (quota t.capsule t.vols m)) (hrow : OnRow t.capsule.uuid n s)
    (hfew : Few (Capsule.all t.capsule) (quota t.capsule t.vols) s) :
    wp t.delete (fun _ s' => Deleted t.capsule n s' ∧ t.capsule.uuid ∉ s'.abandoned) s := by
  have hmarked : OnRow t.capsule.uuid n (if t.recorded then recordDelete t.capsule s else s) ∧
      Few (Capsule.all t.capsule) (quota t.capsule t.vols)
        (if t.recorded then recordDelete t.capsule s else s) := by
    split
    · exact ⟨hrow.recordDelete, hfew⟩
    · exact ⟨hrow, hfew⟩
  obtain ⟨hrow', hfew'⟩ := hmarked
  exact wp_thread_delete henv htime t.force ⟨hrow'.there, hrow'.boxes, hrow'.ports⟩ hfew'

/-- Whichever has the lock first, nothing is left of the capsule when the create and the delete
have both ended. -/
theorem cleansUp_of_orderly (t : Threads) (o : Order) (s : World) (hs : t.Scheduled s)
    (hpossible : t.Possible o) (horderly : t.Orderly) : t.CleansUp o s := by
  intro hcreated hdeleted
  cases o with
  | createFirst =>
      have hrecorded := leads_create (n := s.nextId) hpossible.createEnv horderly.fixedIps hs.nets s
        ⟨hs.unbuilt, hs.maps⟩ hcreated
      have hend := wp_delete hpossible.deleteEnv horderly.timely hrecorded.1.onRow hrecorded.2
      exact gone_of_deleted hend.1 hend.2
  | deleteFirst =>
      have hend := wp_delete (n := s.nextId) hpossible.deleteEnv horderly.timely
        hs.unbuilt.toEmptied.recorded.onRow (hs.maps.mono fun m _ => Nat.zero_le _)
      have := vanished_bystander (n := s.nextId) (hpossible.once rfl)
      have hvanished : Vanished t.capsule s.nextId (t.delete s).2 := ⟨hend.1, hend.2⟩
      have hkept : Within (Kept (Vanished t.capsule s.nextId)) (containerCreate t.createEnv
          (defaultDrivers t.createEnv) (.capsule t.capsule) t.nets t.vols t.pci false) :=
        vanished_containerCreate t.pci
      have hlate := hkept { (t.delete s).2 with mem := s.mem }
        ⟨⟨hvanished.rows, hvanished.boxes, hvanished.ports, hvanished.maps, hvanished.allocation⟩,
          hvanished.abandoned⟩
      exact gone_of_deleted hlate.toDeleted hlate.abandoned

/-- A capsule with a volume for its member, whose delete arrives in the create. -/
def abandonedCreate : Threads where
  capsule := { uuid := 1, containers := [2] }
  createEnv := { abandons := fun k => if k = 14 then [1] else [] }
  deleteEnv := {}
  nets := [{ network := 7 }]
  vols := [(2, [{ id := 5, containerUuid := 2, volumeId := 6, autoRemove := true }])]
  sent _ := Obj.of { status := .creating }

/-- The capsule and its member as the API has made them. -/
def made : World :=
  { World.ofRows [(1, { status := .creating, host := some "node" }),
      (2, { status := .creating, host := some "node" })] with
    allocations := fun u => u == 1 }

theorem scheduled_made {t : Threads} (hc : t.capsule.uuid = 1)
    (hnets : ∀ net ∈ t.nets, net.preserveOnDelete = net.port.isSome) : t.Scheduled made where
  there := by rw [hc]; rfl
  blank := ⟨by rw [hc]; rfl, by rw [hc]; rfl⟩
  boxes _ hb := absurd hb List.not_mem_nil
  ports _ hq := absurd hq List.not_mem_nil
  maps _ _ := Nat.zero_le _
  nets := hnets

theorem cleansUp_abandonedCreate :
    (abandonedCreate.run made .createFirst).1 ≠ .halt ∧
      (abandonedCreate.run made .createFirst).2.1 ≠ .halt ∧
      abandonedCreate.Gone made (abandonedCreate.run made .createFirst).2.2 := by
  have hcreated : (abandonedCreate.run made .createFirst).1 ≠ .halt := by decide +kernel
  have hdeleted : (abandonedCreate.run made .createFirst).2.1 ≠ .halt := by decide +kernel
  have hquota (m : Uuid) : quota abandonedCreate.capsule abandonedCreate.vols m ≤ 1 := by
    unfold quota
    split
    · exact Nat.zero_le _
    · by_cases hm : m = 2
      · rw [hm]
        decide
      · simp [abandonedCreate, RequestedVolumes.of, Ne.symm hm]
  refine ⟨hcreated, hdeleted, cleansUp_of_orderly _ _ _ (scheduled_made rfl (by decide))
    ⟨⟨fun _ _ => rfl⟩, ⟨fun _ _ => rfl⟩, nofun⟩ ⟨fun _ => nofun, fun m => ?_⟩ hcreated hdeleted⟩
  exact timely_of_ready ⟨fun _ _ => rfl⟩ (fun _ => rfl)
    (Nat.le_trans (hquota m) (by decide))

/-- Neutron makes a port without an address. -/
def unaddressed : Threads :=
  { abandonedCreate with createEnv := { fixedIps := fun _ => [] }, vols := [] }

/-- The port is on no record, and neither thread removes it. -/
theorem delete_leaves_unaddressed_port :
    unaddressed.Scheduled made ∧ unaddressed.Possible .createFirst ∧
      ¬ unaddressed.CleansUp .createFirst made := by
  refine ⟨scheduled_made rfl (by decide), ⟨⟨fun _ _ => rfl⟩, ⟨fun _ _ => rfl⟩, nofun⟩, fun h => ?_⟩
  have hgone := h (by decide +kernel) (by decide +kernel)
  have hport : ∃ q ∈ (unaddressed.run made .createFirst).2.2.ports, made.nextId ≤ q.id := by
    decide +kernel
  obtain ⟨q, hq, hle⟩ := hport
  exact absurd (hgone.ports q hq) (Nat.not_lt.mpr hle)

end Threads

end Manager

end Zun
