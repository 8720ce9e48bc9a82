import Zun.Compute.Resume

/-!
# The port of a rebuilt capsule

`_rebuild_capsule` of `zun/container/cri/driver.py` asks for the network of the record again, with the port and
the flag of the first address on it.  Neutron updates that port, and its answer makes the new addresses, each
with the flag that was asked for.  `_delete_neutron_ports` goes by the flags.

So who made the port is on the record and nowhere else, and a rebuild writes it anew.  Between two rebuilds
anything may happen that leaves the addresses of the record alone; the tenant may give the port other addresses.
-/

namespace Zun

open Effect Prog World

namespace Rebuilds

/-! ## Rebuilds and deletes -/

section

variable (env : Env) (c : Capsule)

/-- `_rebuild_capsule`, of the capsule that is read. -/
def rebuild : Prog World Exn Unit := do
  Cri.loadCapsule c
  Cri.rebuildCapsule env c

/-- `delete_capsule`, of the capsule that is read. -/
def delete (force : Bool) : Prog World Exn Unit := do
  Cri.loadCapsule c
  Cri.deleteCapsule env c force

/-- What happens to a capsule. -/
inductive Turn where
  /-- A rebuild that the sweep has handed to a thread, however it ends. -/
  | rebuild
  /-- All the rest, by where it leads. -/
  | meanwhile (s : World)

def turn : Turn → World → World
  | .rebuild, s => (Cri.rebuildUnderLock env c none s).2
  | .meanwhile s', _ => s'

end

/-! ## What is claimed -/

/-- Addresses on one network that are all of one port, with one flag. -/
def Names (net : NetId) (p : PortId) (keep : Bool) (addresses : List (NetId × List Addr)) : Prop :=
  ∃ addrs, addresses = [(net, addrs)] ∧ addrs ≠ [] ∧ ∀ a ∈ addrs, a.port = p ∧ a.preserveOnDelete = keep

/-- The record names a port, and says whether Zun made it. -/
structure Recorded (u : Uuid) (net : NetId) (p : PortId) (keep : Bool) (s : World) : Prop where
  row : ∀ r, s.db u = some r → Names net p keep r.addresses
  ports : ∀ q ∈ s.ports, q.id = p → q.fixedIps ≠ [] ∧ q.zunMade = !keep

/-- What others do between two rebuilds: the record keeps its addresses or goes, and the port keeps some
address of its own, or goes. -/
structure Elsewhere (u : Uuid) (p : PortId) (s s' : World) : Prop where
  row : ∀ r', s'.db u = some r' → ∃ r, s.db u = some r ∧ r'.addresses = r.addresses
  ports : ∀ q' ∈ s'.ports, q'.id = p →
    ∃ q ∈ s.ports, q.id = p ∧ q'.zunMade = q.zunMade ∧ (q.fixedIps ≠ [] → q'.fixedIps ≠ [])

def Turn.Fair (u : Uuid) (p : PortId) : Turn → World → Prop
  | .rebuild, _ => True
  | .meanwhile s', s => Elsewhere u p s s'

/-- Of the ports, one may have been bound to the capsule, and nothing else has happened to any. -/
def Binds (u : Uuid) (p : PortId) (s s' : World) : Prop :=
  s'.ports = s.ports ∨ s'.ports = (Neutron.setDevice p (some u) s).ports

/-- The port was there, and is bound to the capsule. -/
structure Bound (u : Uuid) (p : PortId) (s s' : World) : Prop where
  there : ∃ q ∈ s.ports, q.id = p
  ports : s'.ports = (Neutron.setDevice p (some u) s).ports

/-- Neutron was asked to delete the port, and either did or had none. -/
def Deleted (p : PortId) (s s' : World) : Prop :=
  ∃ new, s'.log = new ++ s.log ∧
    (((Call.deletePort p, Answer.ok) ∈ new ∧ s'.ports = (Neutron.dropPort p s).ports) ∨
      ∃ e, e.cls = .portNotFound ∧ (Call.deletePort p, Answer.raise e) ∈ new ∧ s'.ports = s.ports)

/-- Neutron was asked to delete no port. -/
def Spared (p : PortId) (s s' : World) : Prop :=
  (∃ new, s'.log = new ++ s.log ∧ ∀ x ∈ new, ∀ q, x.1 ≠ .deletePort q) ∧
    (s'.ports = s.ports ∨ s'.ports = (Neutron.setDevice p none s).ports)

/-- A capsule keeps its port and who owns it. -/
structure KeepsPort (env : Env) (c : Capsule) (net : NetId) (p : PortId) (keep : Bool) (s : World) : Prop where
  /-- The record names the port, with the flag that it had. -/
  named : ∀ r, s.db c.uuid = some r → Names net p keep r.addresses
  /-- The next rebuild binds no other port, -/
  binds : Binds c.uuid p s (Cri.rebuildUnderLock env c none s).2
  /-- and if it comes to its end it has bound this one. -/
  bound : ∀ r s', s.db c.uuid = some r → rebuild env c s = (.ok (), s') → Bound c.uuid p s s'
  /-- A delete that finds the sandbox deletes a port that Zun made, -/
  deletes : ∀ force r pod s', s.db c.uuid = some r → r.containerId = some pod →
    delete env c force s = (.ok (), s') → ∀ q ∈ s.ports, q.id = p → q.zunMade = true → Deleted p s s'
  /-- and no other, however it ends. -/
  spares : ∀ force r, s.db c.uuid = some r → ∀ q ∈ s.ports, q.id = p → q.zunMade = false →
    Spared p s (delete env c force s).2

variable {env : Env} {c : Capsule} {u : Uuid} {net : NetId} {p : PortId} {keep : Bool} {s s' s₀ : World} {r : Record}

/-! ## Ports that are bound -/

theorem setDevice_ports (p : PortId) (device : Option Uuid) (h : s'.ports = s.ports) :
    (Neutron.setDevice p device s').ports = (Neutron.setDevice p device s).ports := by
  simp only [Neutron.setDevice, h]

theorem setDevice_again (p : PortId) (device : Option Uuid) (h : s'.ports = (Neutron.setDevice p device s).ports) :
    (Neutron.setDevice p device s').ports = (Neutron.setDevice p device s).ports := by
  simp only [Neutron.setDevice] at h ⊢
  rw [h, List.map_map]
  refine List.map_congr_left fun q _ => ?_
  by_cases hq : q.id = p <;> simp [hq]

theorem Binds.of_eq (h : Binds u p s₀ s) (hports : s'.ports = s.ports) : Binds u p s₀ s' :=
  h.imp (hports.trans ·) (hports.trans ·)

theorem Binds.set (h : Binds u p s₀ s) (hports : s'.ports = (Neutron.setDevice p (some u) s).ports) :
    Binds u p s₀ s' := by
  rcases h with h | h
  · exact .inr (hports.trans (setDevice_ports p (some u) h))
  · exact .inr (hports.trans (setDevice_again p (some u) h))

/-- A port after a rebuild was there before it. -/
theorem Binds.before (h : Binds u p s₀ s) {q : Port} (hq : q ∈ s.ports) :
    ∃ q₀ ∈ s₀.ports, q₀.id = q.id ∧ q₀.fixedIps = q.fixedIps ∧ q₀.zunMade = q.zunMade := by
  rcases h with h | h
  · rw [h] at hq
    exact ⟨q, hq, rfl, rfl, rfl⟩
  · rw [h] at hq
    obtain ⟨q₀, hq₀, rfl⟩ := List.mem_map.mp hq
    refine ⟨q₀, hq₀, ?_⟩
    by_cases hid : q₀.id = p <;> simp [hid]

/-! ## Addresses of one port -/

theorem Names.networksOf (h : Names net p keep r.addresses) :
    Cri.networksOf r = [{ network := net, port := some p, preserveOnDelete := keep }] := by
  obtain ⟨addrs, haddrs, hne, hall⟩ := h
  cases addrs with
  | nil => exact absurd rfl hne
  | cons a addrs =>
      obtain ⟨hport, hkeep⟩ := hall a (List.mem_cons_self ..)
      simp [Cri.networksOf, haddrs, hport, hkeep]

/-- The ports that a delete goes through, and those of them that it deletes. -/
theorem Names.ports (h : Names net p keep r.addresses) : Neutron.allPorts (Cri.addrsOf r) = [p] ∧
    Neutron.ownPorts (Cri.addrsOf r) = if keep then [] else [p] := by
  obtain ⟨addrs, haddrs, hne, hall⟩ := h
  have hof : Cri.addrsOf r = addrs := by simp [Cri.addrsOf, haddrs]
  have hports : addrs.map (·.port) = List.replicate addrs.length p := by
    refine List.eq_replicate_iff.mpr ⟨List.length_map .., fun q hq => ?_⟩
    obtain ⟨a, ha, rfl⟩ := List.mem_map.mp hq
    exact (hall a ha).1
  have hdedup : (addrs.map (·.port)).dedup = [p] := by
    rw [hports]
    exact List.replicate_dedup (by simpa using hne)
  have hfilter : addrs.filter (!·.preserveOnDelete) = if keep then [] else addrs := by
    cases keep with
    | true => exact List.filter_eq_nil_iff.mpr fun a ha => by simp [(hall a ha).2]
    | false => exact List.filter_eq_self.mpr fun a ha => by simp [(hall a ha).2]
  rw [hof]
  refine ⟨hdedup, ?_⟩
  rw [Neutron.ownPorts, hfilter]
  cases keep with
  | true => rfl
  | false => exact hdedup

/-- What Neutron answers of the port makes addresses that name it. -/
theorem names_addressesOf {q : Port} (h : q.fixedIps ≠ []) :
    Names net q.id keep [(net, Neutron.addressesOf keep q)] := by
  refine ⟨_, rfl, by simpa [Neutron.addressesOf] using h, fun a ha => ?_⟩
  obtain ⟨ip, -, rfl⟩ := List.mem_map.mp ha
  exact ⟨rfl, rfl⟩

/-! ## One rebuild -/

/-- The object and the row name the port, and of the ports that one may have been bound. -/
structure Held (u : Uuid) (net : NetId) (p : PortId) (keep : Bool) (s₀ s : World) : Prop where
  obj : Names net p keep (s.mem u).val.addresses
  row : ∀ r, s.db u = some r → Names net p keep r.addresses
  binds : Binds u p s₀ s

theorem Held.of_eq (h : Held u net p keep s₀ s) (hmem : s'.mem = s.mem) (hdb : s'.db = s.db)
    (hports : s'.ports = s.ports) : Held u net p keep s₀ s' :=
  ⟨by rw [hmem]; exact h.obj, by rw [hdb]; exact h.row, h.binds.of_eq hports⟩

instance (u : Uuid) (net : NetId) (p : PortId) (keep : Bool) (s₀ : World) :
    Steady (Kept (Held u net p keep s₀)) where
  still hs h := h.of_eq hs.mem hs.db hs.ports

theorem held_addressed : Cri.Addressed (Kept (Held u net p keep s₀)) where
  assign {s v f} hf h := by
    refine ⟨?_, h.row, h.binds⟩
    by_cases hv : u = v
    · subst hv
      rw [setMem_mem_self, hf]
      exact h.obj
    · rw [setMem_mem_of_ne hv]
      exact h.obj
  save {s v row} hrow h := by
    refine ⟨by rw [saved_val]; exact h.obj, fun r hr => ?_, h.binds⟩
    by_cases hv : u = v
    · subst hv
      rw [saved_db_self, Option.some.injEq] at hr
      subst hr
      rcases Manager.merged_addresses (u := u) (s := s) row with haddr | haddr <;> rw [haddr]
      · exact h.obj
      · exact h.row row hrow
    · rw [saved_db_of_ne hv] at hr
      exact h.row r hr

/-- A call whose effect is on neither the records nor the ports. -/
theorem held_call {x : Call} {effect : World → World} (hmem : ∀ s, (effect s).mem = s.mem)
    (hdb : ∀ s, (effect s).db = s.db) (hports : ∀ s, (effect s).ports = s.ports) :
    Within (Kept (Held u net p keep s₀)) (call env x effect) :=
  within_call (fun _ h => h.of_eq rfl rfl rfl) fun _ h => h.of_eq (hmem _) (hdb _) (hports _)

theorem held_deleteSandbox (pod : RuntimeId) :
    Within (Kept (Held u net p keep s₀)) (Cri.deleteSandbox env pod) := by
  refine Within.bind (Within.tolerate ?_) fun _ => Within.tolerate ?_
  · exact held_call (fun _ => by rfl) (fun _ => by rfl) fun _ => by rfl
  · exact held_call (fun _ => by rfl) (fun _ => by rfl) fun _ => by rfl

theorem held_updatePort :
    Within (Kept (Held u net p keep s₀)) (call env (.updatePort p) (Neutron.setDevice p (some u))) :=
  within_call (fun _ h => h.of_eq rfl rfl rfl) fun _ h => ⟨h.obj, h.row, h.binds.set rfl⟩

/-- The port that is asked for is bound, and its addresses name it. -/
theorem wp_createOrUpdatePort (hips : ∀ q ∈ s₀.ports, q.id = p → q.fixedIps ≠ [])
    (h : Held u net p keep s₀ s) :
    wp (Neutron.createOrUpdatePort env u { network := net, port := some p, preserveOnDelete := keep })
      (fun res s' => Held u net p keep s₀ s' ∧ ∀ addrs, res = .ok addrs → Names net p keep [(net, addrs)]) s := by
  unfold Neutron.createOrUpdatePort
  refine wp_bind_kept held_updatePort h (fun _ s₁ h₁ => ?_) (fun _ _ h => ⟨h, nofun⟩) (fun _ h => ⟨h, nofun⟩)
  rw [wp_bind, wp_read, seqPost_ok]
  cases hfind : s₁.ports.find? (·.id = p) with
  | none => exact ⟨h₁, nofun⟩
  | some q =>
      refine ⟨h₁, ?_⟩
      rintro addrs haddrs
      cases haddrs
      obtain rfl : q.id = p := by simpa using List.find?_some hfind
      obtain ⟨q₀, hq₀, hid, hfixed, -⟩ := h₁.binds.before (List.mem_of_find?_eq_some hfind)
      refine names_addressesOf ?_
      rw [← hfixed]
      exact hips q₀ hq₀ hid

theorem held_createPodSandbox (hips : ∀ q ∈ s₀.ports, q.id = p → q.fixedIps ≠ []) :
    Within (Kept (Held u net p keep s₀)) (Cri.createPodSandbox env u
      [{ network := net, port := some p, preserveOnDelete := keep }]) := by
  have hrest : Within (Kept (Held u net p keep s₀)) (do
      call env (.applyPodCeiling u)
      Cri.runPodSandbox env u
      let pod ← read fun s => s.sandboxes.head?.map (·.id)
      assign u (Obj.setContainerId pod)
      call env (.applyHostIoLimits (pod.getD 0))) := by
    refine (within_plain _ rfl).bind fun _ => Within.bind ?_ fun _ => (within_read _).bind fun _ => ?_
    · exact held_call (fun _ => by rfl) (fun _ => by rfl) fun _ => by rfl
    · exact Within.bind (Cri.within_addressed held_addressed fun _ => rfl) fun _ => within_plain _ rfl
  refine Within.bind ((within_plain _ rfl).bind fun _ => ?_) fun _ => hrest
  intro s h
  change wp _ (fun _ s' => Held u net p keep s₀ s') s
  rw [wp_bind]
  refine wp_mono (wp_createOrUpdatePort hips h) ?_
  rintro res s₁ ⟨h₁, hnames⟩
  cases res with
  | raise e => exact h₁
  | halt => exact h₁
  | ok addrs =>
      have hmeta : Within (Kept (Held u net p keep s₀)) (do
          call env (.showNetwork net)
          forEach addrs fun a => call env (.showSubnet a.port)
          call env (.osVif u)
          save env u) :=
        (within_plain _ rfl).bind fun _ => (within_forEach fun _ _ => within_plain _ rfl).bind fun _ =>
          (within_plain _ rfl).bind fun _ => Cri.within_addressedSave held_addressed u
      rw [seqPost_ok, wp_bind, wp_assign, seqPost_ok]
      refine hmeta _ ⟨?_, h₁.row, h₁.binds⟩
      rw [setMem_mem_self]
      exact hnames addrs rfl

theorem held_rebuildCapsule (hips : ∀ q ∈ s₀.ports, q.id = p → q.fixedIps ≠ []) :
    Within (Kept (Held c.uuid net p keep s₀)) (Cri.rebuildCapsule env c) := by
  intro s h
  refine Cri.wp_rebuildCapsule_of (R := Kept (Held c.uuid net p keep s₀)) held_addressed held_deleteSandbox ?_ h
  rw [h.obj.networksOf]
  exact held_createPodSandbox hips

theorem held_rebuildOrFail (env : Env) (c : Capsule) (hips : ∀ q ∈ s₀.ports, q.id = p → q.fixedIps ≠ []) :
    Within (Kept (Held c.uuid net p keep s₀)) (Cri.rebuildOrFail env c none) := by
  refine Within.bind ?_ fun failed => ?_
  · exact ((held_rebuildCapsule hips).bind fun _ => within_pure _).tryExcept fun _ => within_pure _
  cases failed with
  | none => exact within_pure _
  | some e =>
      refine within_ite (within_pure _) ?_
      exact Within.bind (Cri.within_addressed held_addressed fun _ => rfl) fun _ =>
        Cri.within_addressedSave held_addressed _

/-- A record that is read names the port as its row does. -/
theorem Recorded.held {mem : Uuid → Obj} (h : Recorded u net p keep s) (hrow : s.db u = some r)
    (hmem : mem u = Obj.of r) : Held u net p keep s { s with mem } := by
  refine ⟨?_, h.row, .inl rfl⟩
  change Names net p keep (mem u).val.addresses
  rw [hmem]
  exact h.row r hrow

theorem Recorded.of_eq (h : Recorded u net p keep s) (hdb : s'.db = s.db) (hports : s'.ports = s.ports) :
    Recorded u net p keep s' :=
  ⟨by rw [hdb]; exact h.row, by rw [hports]; exact h.ports⟩

/-- What a rebuild leaves, wherever it stops. -/
theorem wp_rebuildUnderLock (env : Env) (h : Recorded c.uuid net p keep s) :
    wp (Cri.rebuildUnderLock env c none) (fun _ s' =>
      (∀ r, s'.db c.uuid = some r → Names net p keep r.addresses) ∧ Binds c.uuid p s s') s := by
  unfold Cri.rebuildUnderLock
  rw [wp_bind]
  refine Manager.wp_freshRecord ?_ (fun _ => ⟨h.row, .inl rfl⟩) ⟨h.row, .inl rfl⟩
  rw [seqPost_ok]
  cases hrow : s.db c.uuid with
  | none => exact ⟨h.row, .inl rfl⟩
  | some r =>
      refine wp_onlyIf (fun _ => ?_) fun _ => ⟨h.row, .inl rfl⟩
      obtain ⟨mem, hrun, hmem⟩ := Manager.loadCapsule_run (s := s.turn env (.readRow c.uuid)) hrow
      rw [wp_bind]
      refine wp_of_run hrun ?_
      have hturn : Recorded c.uuid net p keep (s.turn env (.readRow c.uuid)) := h.of_eq rfl rfl
      have hend := held_rebuildOrFail env c (fun q hq hid => (hturn.ports q hq hid).1) _
        (hturn.held hrow hmem)
      exact ⟨hend.row, hend.binds⟩

/-- A rebuild leaves the record as it has to be for the next one. -/
theorem recorded_rebuild (h : Recorded c.uuid net p keep s) :
    Recorded c.uuid net p keep (Cri.rebuildUnderLock env c none s).2 := by
  obtain ⟨hrow, hbinds⟩ := wp_rebuildUnderLock env h
  refine ⟨hrow, fun q hq hid => ?_⟩
  obtain ⟨q₀, hq₀, hid₀, hips, hmade⟩ := hbinds.before hq
  rw [← hips, ← hmade]
  exact h.ports q₀ hq₀ (hid₀.trans hid)

theorem recorded_turn (t : Turn) (ht : t.Fair c.uuid p s) (h : Recorded c.uuid net p keep s) :
    Recorded c.uuid net p keep (turn env c t s) := by
  cases t with
  | rebuild => exact recorded_rebuild h
  | meanwhile s' =>
      refine ⟨fun r' hr' => ?_, fun q' hq' hid => ?_⟩
      · obtain ⟨r, hr, haddr⟩ := ht.row r' hr'
        rw [haddr]
        exact h.row r hr
      · obtain ⟨q, hq, hqid, hmade, hips⟩ := ht.ports q' hq' hid
        obtain ⟨hne, hkeep⟩ := h.ports q hq hqid
        exact ⟨hips hne, hmade.trans hkeep⟩

/-! ## A rebuild that comes to its end -/

def PortsAre (ports : List Port) (s : World) : Prop := s.ports = ports

instance (ports : List Port) : Steady (Kept (PortsAre ports)) where
  still hs h := hs.ports.trans h

theorem ports_addressed {ports : List Port} : Cri.Addressed (Kept (PortsAre ports)) where
  assign _ h := h
  save _ h := h

/-- A program that is run after another and returns. -/
theorem Within.returned {α : Type} {I : World → Prop} {q : Prog World Exn α} {a : α} (hq : Within (Kept I) q)
    (h : q s = (.ok a, s')) (hs : I s) : I s' := hq.returns _ _ _ h hs

theorem ports_deleteSandbox {ports : List Port} (pod : RuntimeId) :
    Within (Kept (PortsAre ports)) (Cri.deleteSandbox env pod) := by
  refine Within.bind (Within.tolerate ?_) fun _ => Within.tolerate ?_
  · exact within_call (fun _ h => h) fun _ h => h
  · exact within_call (fun _ h => h) fun _ h => h

/-- A port that was got was there, and is bound. -/
theorem createOrUpdatePort_ok {addrs : List Addr} (h : Neutron.createOrUpdatePort env u
    { network := net, port := some p, preserveOnDelete := keep } s = (.ok addrs, s')) : Bound u p s s' := by
  obtain ⟨_, s₁, hcall, h⟩ := andThen_ok h
  have hs₁ := call_ok hcall
  obtain ⟨found, s₂, hread, h⟩ := andThen_ok h
  cases hread
  cases hfind : s₁.ports.find? (·.id = p) with
  | none =>
      simp only [hfind] at h
      cases h
  | some q =>
      simp only [hfind] at h
      cases h
      subst hs₁
      obtain ⟨q₀, hq₀, hid⟩ := Neutron.mem_setDevice (List.mem_of_find?_eq_some hfind)
      have hq : q.id = p := by simpa using List.find?_some hfind
      exact ⟨⟨q₀, hq₀, hid.trans hq⟩, rfl⟩

theorem createPodSandbox_bound (h : Cri.createPodSandbox env u
    [{ network := net, port := some p, preserveOnDelete := keep }] s = (.ok (), s')) : Bound u p s s' := by
  obtain ⟨_, s₁, hmeta, h⟩ := andThen_ok h
  obtain ⟨_, s₂, hgroups, hmeta⟩ := andThen_ok hmeta
  have hs₂ := call_ok hgroups
  obtain ⟨addrs, s₃, hport, hmeta⟩ := andThen_ok hmeta
  have hbound := createOrUpdatePort_ok hport
  have hrestMeta : Within (Kept (PortsAre s₃.ports)) (do
      assign u (Obj.setAddresses [(net, addrs)])
      call env (.showNetwork net)
      forEach addrs fun a => call env (.showSubnet a.port)
      call env (.osVif u)
      save env u) :=
    (within_modify fun _ h => h).bind fun _ => (within_plain _ rfl).bind fun _ =>
      (within_forEach fun _ _ => within_plain _ rfl).bind fun _ => (within_plain _ rfl).bind fun _ =>
        Cri.within_addressedSave ports_addressed u
  have hrest : Within (Kept (PortsAre s₃.ports)) (do
      call env (.applyPodCeiling u)
      Cri.runPodSandbox env u
      let pod ← read fun s => s.sandboxes.head?.map (·.id)
      assign u (Obj.setContainerId pod)
      call env (.applyHostIoLimits (pod.getD 0))) := by
    refine (within_plain _ rfl).bind fun _ => Within.bind ?_ fun _ => (within_read _).bind fun _ => ?_
    · exact within_call (fun _ h => h) fun _ h => h
    · exact Within.bind (Cri.within_addressed ports_addressed fun _ => rfl) fun _ => within_plain _ rfl
  have h₁ : PortsAre s₃.ports s₁ := Within.returned hrestMeta hmeta rfl
  have h' : PortsAre s₃.ports s' := Within.returned hrest h h₁
  subst hs₂
  exact ⟨hbound.there, h'.trans hbound.ports⟩

theorem rebuildCapsule_bound (hs : Names net p keep (s.mem c.uuid).val.addresses)
    (h : Cri.rebuildCapsule env c s = (.ok (), s')) : Bound c.uuid p s s' := by
  obtain ⟨_, s₂, hbox, h⟩ := andThen_ok h
  obtain ⟨_, s₃, hraise, h⟩ := andThen_ok h
  obtain ⟨_, s₄, hpod, h⟩ := andThen_ok h
  change Cri.createPodSandbox env c.uuid (Cri.networksOf (s.mem c.uuid).val) s₃ = _ at hpod
  rw [hs.networksOf] at hpod
  have hbound := createPodSandbox_bound hpod
  have h₂ : PortsAre s.ports s₂ := Within.returned (ports_deleteSandbox _) hbox rfl
  have h₃ : PortsAre s.ports s₃ := Within.returned (within_raise _).onlyIf hraise h₂
  have h' : PortsAre s₄.ports s' := Within.returned (Cri.within_rebuilt ports_addressed c) h rfl
  obtain ⟨q, hq, hid⟩ := hbound.there
  rw [h₃] at hq
  exact ⟨⟨q, hq, hid⟩, h'.trans (hbound.ports.trans (setDevice_ports p _ h₃))⟩

/-! ## A delete -/

/-- The objects and the ports are what they were, and no port was to be deleted. -/
structure Untouched (s s' : World) : Prop where
  mem : s'.mem = s.mem
  ports : s'.ports = s.ports
  calls : ∃ new, s'.log = new ++ s.log ∧ ∀ x ∈ new, ∀ q, x.1 ≠ .deletePort q

theorem Untouched.refl (s : World) : Untouched s s :=
  ⟨rfl, rfl, [], rfl, fun _ hx => absurd hx List.not_mem_nil⟩

theorem calls_trans {P : Call × Answer → Prop} {s₁ : World} (h : ∃ new, s₁.log = new ++ s.log ∧ ∀ x ∈ new, P x)
    (h' : ∃ new, s'.log = new ++ s₁.log ∧ ∀ x ∈ new, P x) : ∃ new, s'.log = new ++ s.log ∧ ∀ x ∈ new, P x := by
  obtain ⟨new, hlog, hall⟩ := h
  obtain ⟨new', hlog', hall'⟩ := h'
  refine ⟨new' ++ new, by rw [hlog', hlog, List.append_assoc], fun x hx => ?_⟩
  rcases List.mem_append.mp hx with hx | hx
  · exact hall' x hx
  · exact hall x hx

theorem Untouched.trans {s₁ : World} (h : Untouched s s₁) (h' : Untouched s₁ s') : Untouched s s' :=
  ⟨h'.mem.trans h.mem, h'.ports.trans h.ports, calls_trans h.calls h'.calls⟩

theorem Untouched.spared (h : Untouched s s') : Spared p s s' := ⟨h.calls, .inl h.ports⟩

theorem Untouched.then_spared {s₁ : World} (h : Untouched s s₁) (h' : Spared p s₁ s') : Spared p s s' := by
  refine ⟨calls_trans h.calls h'.1, ?_⟩
  rcases h'.2 with hports | hports
  · exact .inl (hports.trans h.ports)
  · exact .inr (hports.trans (setDevice_ports p none h.ports))

theorem Untouched.then_deleted {s₁ : World} (h : Untouched s s₁) (h' : Deleted p s₁ s') : Deleted p s s' := by
  obtain ⟨new, hlog, -⟩ := h.calls
  obtain ⟨new', hlog', hend⟩ := h'
  refine ⟨new' ++ new, by rw [hlog', hlog, List.append_assoc], ?_⟩
  rcases hend with ⟨hmem, hports⟩ | ⟨e, he, hmem, hports⟩
  · refine .inl ⟨List.mem_append_left _ hmem, hports.trans ?_⟩
    simp only [Neutron.dropPort, h.ports]
  · exact .inr ⟨e, he, List.mem_append_left _ hmem, hports.trans h.ports⟩

/-- A call that deletes no port, and changes no object and no port. -/
theorem untouched_call {x : Call} (env : Env) (hx : ∀ q, x ≠ .deletePort q) (s : World) :
    Untouched s (s.turn env x) := by
  refine ⟨rfl, rfl, [(x, env.answer s.tick x)], rfl, fun y hy q => ?_⟩
  rw [List.mem_singleton.mp hy]
  exact hx q

instance (s₀ : World) : Steady (Kept (Untouched s₀)) where
  still {s s'} hs h := by
    refine h.trans ⟨hs.mem, hs.ports, ?_⟩
    obtain ⟨new, hlog, hall⟩ := hs.calls
    refine ⟨new, hlog, fun x hx q hq => ?_⟩
    have hreleases := hall x hx
    rw [hq] at hreleases
    cases hreleases

theorem untouched_deleteSandbox (pod : RuntimeId) :
    Within (Kept (Untouched s₀)) (Cri.deleteSandbox env pod) := by
  have hturn (x : Call) (hx : ∀ q, x ≠ .deletePort q) {effect : World → World}
      (heffect : ∀ s, (effect s).mem = s.mem ∧ (effect s).ports = s.ports ∧ (effect s).log = s.log) :
      Within (Kept (Untouched s₀)) (call env x effect) := by
    refine within_call (fun s h => h.trans (untouched_call env hx s)) fun s h => ?_
    refine (h.trans (untouched_call env hx s)).trans ⟨(heffect _).1, (heffect _).2.1, [], (heffect _).2.2, ?_⟩
    exact fun _ hy => absurd hy List.not_mem_nil
  refine Within.bind (Within.tolerate ?_) fun _ => Within.tolerate ?_
  · exact hturn _ (by simp) fun _ => ⟨rfl, rfl, rfl⟩
  · exact hturn _ (by simp) fun _ => ⟨rfl, rfl, rfl⟩

theorem untouched_stopInPodOrder : Within (Kept (Untouched s₀)) (Cri.stopInPodOrder env c) := by
  refine (within_read _).bind fun sidecars => Within.onlyIf (within_forEach fun m _ => ?_)
  exact (within_read _).bind fun id => Within.onlyIf (Cri.within_despiteRpc (Cri.within_stopContainer _))

/-- A port that is to be deleted. -/
theorem wp_deletePort : wp (Neutron.deleteOrUnbindPort env [p] p) (fun res s' => res = .ok () → Deleted p s s') s := by
  unfold Neutron.deleteOrUnbindPort
  rw [wp_tryExcept, if_pos (List.mem_singleton_self p)]
  refine wp_call (fun hok => ?_) (fun e he => ?_) fun _ => nofun
  · refine fun _ => ⟨[(.deletePort p, .ok)], ?_, .inl ⟨List.mem_singleton_self _, rfl⟩⟩
    simp [Neutron.dropPort, World.turn, hok]
  · rw [exceptPost_raise, wp_ite]
    split
    · rw [wp_pure]
      refine fun _ => ⟨[(.deletePort p, .raise e)], ?_, .inr ⟨e, ‹_›, List.mem_singleton_self _, rfl⟩⟩
      simp [World.turn, he]
    · exact nofun

/-- A port that is only to be unbound. -/
theorem wp_sparePort : wp (Neutron.deleteOrUnbindPort env [] p) (fun _ s' => Spared p s s') s := by
  have hshow := untouched_call env (x := .showPort p) (by simp)
  have hunbind := untouched_call env (x := .unbindPort p) (by simp)
  have hbody : wp (Neutron.unbindPort env p) (fun _ s' => Spared p s s') s := by
    have hrest (there : Bool) (s₁ : World) (h₁ : Untouched s s₁) : wp (onlyIf there
        (swallow (call env (.unbindPort p) (Neutron.setDevice p none)))) (fun _ s' => Spared p s s') s₁ := by
      refine wp_onlyIf (fun _ => ?_) fun _ => h₁.spared
      refine wp_swallow_of (wp_call (fun _ => ?_) (fun _ _ => (h₁.trans (hunbind s₁)).spared) fun _ => ?_)
      · refine h₁.then_spared ⟨(hunbind s₁).calls, .inr rfl⟩
      · exact (h₁.trans (hunbind s₁)).spared
    unfold Neutron.unbindPort
    rw [wp_bind, wp_tryExcept, wp_bind]
    refine wp_call (fun _ => ?_) (fun e _ => ?_) fun _ => (hshow s).spared
    · exact hrest true _ (hshow s)
    · exact hrest _ _ (hshow s)
  unfold Neutron.deleteOrUnbindPort
  rw [wp_tryExcept, if_neg List.not_mem_nil]
  refine wp_mono hbody fun res s' hs' => ?_
  cases res with
  | ok a => exact hs'
  | halt => exact hs'
  | raise e =>
      rw [exceptPost_raise, wp_ite]
      split <;> exact hs'

/-- The ports of a record that names one port. -/
theorem wp_deleteNeutronPorts {Q : Result Exn Unit → World → Prop}
    (h : Names net p keep (s.mem u).val.addresses)
    (hport : wp (Neutron.deleteOrUnbindPort env (if keep then [] else [p]) p) Q s) :
    wp (Cri.deleteNeutronPorts env u) Q s := by
  have hne : (s.mem u).val.addresses ≠ [] := by
    obtain ⟨addrs, haddrs, -⟩ := h
    rw [haddrs]
    exact List.cons_ne_nil _ _
  unfold Cri.deleteNeutronPorts
  rw [wp_bind, wp_obj, seqPost_ok]
  refine wp_onlyIf (fun _ => ?_) fun hnil => absurd hne hnil
  rw [id, h.ports.1, h.ports.2]
  unfold Neutron.deleteOrUnbindPorts forEach
  rw [wp_andThen]
  refine wp_mono hport fun res s' hs' => ?_
  cases res <;> exact hs'

/-- A delete comes to the ports with the objects and the ports as they were. -/
theorem wp_deleteCapsule {force : Bool} {pod : RuntimeId} {Q : Result Exn Unit → World → Prop}
    (hpod : (s.mem c.uuid).val.containerId = some pod)
    (hends : ∀ res s', Untouched s s' → res ≠ .ok () → Q res s')
    (hports : ∀ s', Untouched s s' → wp (Cri.deleteNeutronPorts env c.uuid) Q s') :
    wp (Cri.deleteCapsule env c force) Q s := by
  unfold Cri.deleteCapsule
  rw [wp_bind, wp_obj, seqPost_ok, hpod]
  refine wp_bind_kept untouched_stopInPodOrder.onlyIf (Untouched.refl s) (fun _ s₁ h₁ => ?_)
    (fun e s₁ h₁ => hends _ s₁ h₁ nofun) fun s₁ h₁ => hends _ s₁ h₁ nofun
  exact wp_bind_kept (untouched_deleteSandbox pod) h₁ (fun _ s₂ h₂ => hports s₂ h₂)
    (fun e s₂ h₂ => hends _ s₂ h₂ nofun) fun s₂ h₂ => hends _ s₂ h₂ nofun

/-- The read of a capsule touches nothing but objects. -/
theorem delete_eq (env : Env) (force : Bool) (hrow : s.db c.uuid = some r) : ∃ mem, mem c.uuid = Obj.of r ∧
    delete env c force s = Cri.deleteCapsule env c force { s with mem } := by
  obtain ⟨mem, hrun, hmem⟩ := Manager.loadCapsule_run (c := c) hrow
  refine ⟨mem, hmem, ?_⟩
  change andThen (Cri.loadCapsule c) _ s = _
  unfold andThen
  rw [hrun]

theorem rebuild_eq (env : Env) (hrow : s.db c.uuid = some r) : ∃ mem, mem c.uuid = Obj.of r ∧
    rebuild env c s = Cri.rebuildCapsule env c { s with mem } := by
  obtain ⟨mem, hrun, hmem⟩ := Manager.loadCapsule_run (c := c) hrow
  refine ⟨mem, hmem, ?_⟩
  change andThen (Cri.loadCapsule c) _ s = _
  unfold andThen
  rw [hrun]

theorem delete_deletes {force : Bool} {pod : RuntimeId} (h : Names net p false r.addresses)
    (hrow : s.db c.uuid = some r) (hpod : r.containerId = some pod)
    (hrun : delete env c force s = (.ok (), s')) : Deleted p s s' := by
  obtain ⟨mem, hmem, heq⟩ := delete_eq env force hrow
  have hval : (({ s with mem } : World).mem c.uuid).val = r := congrArg Obj.val hmem
  have hend : wp (Cri.deleteCapsule env c force) (fun res s' => res = .ok () → Deleted p { s with mem } s')
      { s with mem } := by
    have hfound : (({ s with mem } : World).mem c.uuid).val.containerId = some pod := by rw [hval, hpod]
    refine wp_deleteCapsule hfound (fun _ _ _ hne hok => absurd hok hne) ?_
    intro s₁ h₁
    have hnames : Names net p false (s₁.mem c.uuid).val.addresses := by
      rw [h₁.mem, hval]
      exact h
    refine wp_deleteNeutronPorts hnames ?_
    rw [if_neg Bool.false_ne_true]
    exact wp_mono wp_deletePort fun _ _ hdeleted hok => h₁.then_deleted (hdeleted hok)
  unfold wp at hend
  rw [← heq, hrun] at hend
  exact hend rfl

theorem delete_spares {force : Bool} (h : Names net p true r.addresses) (hrow : s.db c.uuid = some r) :
    Spared p s (delete env c force s).2 := by
  obtain ⟨mem, hmem, heq⟩ := delete_eq env force hrow
  have hval : (({ s with mem } : World).mem c.uuid).val = r := congrArg Obj.val hmem
  rw [heq]
  cases hpod : r.containerId with
  | none =>
      have hnone : Cri.deleteCapsule env c force { s with mem } = (.ok (), { s with mem }) := by
        change wp (Cri.deleteCapsule env c force) (fun r s' => (r, s') = (.ok (), { s with mem })) { s with mem }
        unfold Cri.deleteCapsule
        rw [wp_bind, wp_obj, seqPost_ok, hval, hpod]
        rfl
      rw [hnone]
      exact (Untouched.refl s).spared
  | some pod =>
      have hend : wp (Cri.deleteCapsule env c force) (fun _ s' => Spared p { s with mem } s') { s with mem } := by
        have hfound : (({ s with mem } : World).mem c.uuid).val.containerId = some pod := by rw [hval, hpod]
        refine wp_deleteCapsule hfound (fun _ _ h₁ _ => h₁.spared) ?_
        intro s₁ h₁
        have hnames : Names net p true (s₁.mem c.uuid).val.addresses := by
          rw [h₁.mem, hval]
          exact h
        refine wp_deleteNeutronPorts hnames ?_
        rw [if_pos rfl]
        exact wp_mono wp_sparePort fun _ _ => h₁.then_spared
      exact hend

/-! ## Runs -/

theorem recorded_reached (h : Reached (Recorded c.uuid net p keep) (turn env c) (Turn.Fair c.uuid p) s) :
    Recorded c.uuid net p keep s :=
  h.invariant (fun _ h => h) fun t _ ht hs => recorded_turn t ht hs

/-- However often a capsule is rebuilt, and however the rebuilds end, it keeps its port and who owns it. -/
theorem keeps_port (env : Env) (c : Capsule) (net : NetId) (p : PortId) (keep : Bool) (s : World)
    (h : Reached (Recorded c.uuid net p keep) (turn env c) (Turn.Fair c.uuid p) s) :
    KeepsPort env c net p keep s := by
  have hs := recorded_reached h
  constructor
  case named => exact hs.row
  case binds => exact (wp_rebuildUnderLock env hs).2
  case bound =>
    intro r s' hrow hrun
    obtain ⟨mem, hmem, heq⟩ := rebuild_eq env hrow
    rw [heq] at hrun
    have hbound := rebuildCapsule_bound (hs.held hrow hmem).obj hrun
    exact ⟨hbound.there, hbound.ports⟩
  case deletes =>
    intro force r pod s' hrow hpod hrun q hq hid hmade
    have hkeep : keep = false := by simpa [hmade] using (hs.ports q hq hid).2
    exact delete_deletes (hkeep ▸ hs.row r hrow) hrow hpod hrun
  case spares =>
    intro force r hrow q hq hid hmade
    have hkeep : keep = true := by simpa [hmade] using (hs.ports q hq hid).2
    exact delete_spares (hkeep ▸ hs.row r hrow) hrow

/-- A capsule whose sandbox died, on a port that its tenant brought. -/
def brought : World where
  db u := if u = 1 then
    some { status := .rebuilding, containerId := some 5, addresses := [(7, [⟨"10.0.0.2", 9, true⟩])] }
  else none
  mem _ := Obj.of { status := .unknown }
  ports := [{ id := 9, network := 7, fixedIps := ["10.0.0.2"], zunMade := false }]

theorem recorded_brought : Recorded 1 7 9 true brought := by
  constructor
  · intro r hr
    obtain rfl := Option.some.inj hr
    exact ⟨_, rfl, by simp, by simp⟩
  · intro q hq _
    obtain rfl := List.mem_singleton.mp hq
    exact ⟨by simp, rfl⟩

theorem keeps_port_brought : KeepsPort {} { uuid := 1 } 7 9 true (turn {} { uuid := 1 } .rebuild brought) :=
  keeps_port {} { uuid := 1 } 7 9 true _ (.step Turn.rebuild (.init recorded_brought) trivial)

example : (turn {} { uuid := 1 } Turn.rebuild brought).ports.map (·.device) = [some 1] := by decide +kernel

end Rebuilds

end Zun
