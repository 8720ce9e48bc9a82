import Zun.Compute.Resume

/-!
# What a resume leaves

A delete goes by the id of the sandbox on the row and the undo by the addresses.  When a service
stops after the addresses were saved and before the id was, and a delete is recorded before it
starts again, the resumed delete has no id to go by.  It drops the row and leaves the port.

`Consistent` is what a resume should leave.  The main result says for every state that a
history leads to exactly when it does.
-/

namespace Zun

open Effect Prog World

namespace Manager

open Cri (Undisturbed)

variable {env : Env} {u : Uuid} {s : World} {r : Record}

/-! ## What should hold -/

/-- The row is that of a running capsule, and names a sandbox that is there. -/
def RunningIn (u : Uuid) (s : World) : Prop :=
  ∃ r, s.db u = some r ∧ r.status = .running ∧
    ∃ b ∈ s.sandboxes, b.ready = true ∧ r.containerId = some b.id

/-- No port that Zun made and that the record names is there. -/
def Cleared (r : Record) (s : World) : Prop :=
  ∀ a ∈ Cri.addrsOf r, ∀ q ∈ s.ports, q.id = a.port → q.zunMade = false

/-- What a resume from `s` should leave: the capsule runs in the sandbox that its record names,
or the ports that its record named are gone. -/
def Consistent (c : Capsule) (s s' : World) : Prop :=
  RunningIn c.uuid s' ∨ ∀ r, s.db c.uuid = some r → Cleared r s'

/-- The resume finds the record and acts on it. -/
def PickedUp (env : Env) (r : Record) : Prop :=
  r.host = some env.host ∧
    (beingDeleted r = true ∨ starting r = true ∨ r.status = .rebuilding)

/-- What a resume misses: a port that the record names, when a delete has no sandbox to go by,
or when the record is not picked up and its capsule does not run. -/
def Missed (env : Env) (c : Capsule) (s : World) : Prop :=
  ∃ r, s.db c.uuid = some r ∧ ¬ Cleared r s ∧
    ((r.host = some env.host ∧ beingDeleted r = true ∧ r.containerId = none) ∨
      (¬ PickedUp env r ∧ ¬ RunningIn c.uuid s))

/-! ## Ports that are gone stay gone -/

theorem Cleared.of_ports {s' : World} (h : Cleared r s) (hports : s'.ports = s.ports) :
    Cleared r s' := by
  intro a ha q hq
  rw [hports] at hq
  exact h a ha q hq

instance (r : Record) : Calm (Kept (Cleared r)) := Calm.of fun _ _ hs h => h.of_ports hs.ports

instance (r : Record) : Easy (Kept (Cleared r)) where
  assign _ h := h.of_ports rfl
  save _ h := h.of_ports rfl

theorem cleared_of_nil (h : Cri.addrsOf r = []) : Cleared r s := by
  intro a ha
  rw [h] at ha
  cases ha

/-! ## Removing with every call answered -/

/-- A sandbox is removed, and the records and ports are as they were. -/
theorem wp_deleteSandbox_answered (henv : Answered env) (pod : RuntimeId) :
    wp (Cri.deleteSandbox env pod) (fun res s' => res = .ok () ∧ s'.mem = s.mem ∧ s'.db = s.db ∧
      s'.ports = s.ports ∧ s'.nextId = s.nextId) s := by
  unfold Cri.deleteSandbox
  rw [wp_bind, wp_tryExcept]
  refine wp_answered henv ?_
  rw [exceptPost_ok, seqPost_ok, wp_tryExcept]
  exact wp_answered henv ⟨rfl, rfl, rfl, rfl, rfl⟩

theorem port_of_mem {keep : Bool} {p : Port} {a : Addr} (h : a ∈ Neutron.addressesOf keep p) :
    a.port = p.id := by
  obtain ⟨ip, -, rfl⟩ := List.mem_map.mp h
  rfl

theorem addrsOf_singleton {net : NetId} {addrs : List Addr} (h : r.addresses = [(net, addrs)]) :
    Cri.addrsOf r = addrs := by
  unfold Cri.addrsOf
  rw [h]
  exact List.append_nil _

/-- The port of the addresses is deleted when Zun made it. -/
theorem wp_releasePort_answered (henv : Answered env) {keep : Bool} {p : Port}
    (hports : ∀ q ∈ s.ports, q.id = p.id → q.zunMade = true → keep = false) :
    wp (Neutron.deleteOrUnbindPort env (if keep then [] else [p.id]) p.id) (fun res s' =>
      res = .ok () ∧ ∀ q ∈ s'.ports, q.id = p.id → q.zunMade = false) s := by
  unfold Neutron.deleteOrUnbindPort
  rw [wp_tryExcept]
  cases keep with
  | false =>
      rw [if_neg Bool.false_ne_true, if_pos (List.mem_singleton_self p.id)]
      refine wp_answered henv ⟨rfl, fun q hq hid => ?_⟩
      have hne := (List.mem_filter.mp hq).2
      rw [hid] at hne
      simp at hne
  | true =>
      rw [if_pos rfl, if_neg List.not_mem_nil]
      unfold Neutron.unbindPort
      rw [wp_bind, wp_tryExcept, wp_bind]
      refine wp_answered henv ?_
      rw [seqPost_ok, wp_pure, exceptPost_ok, seqPost_ok]
      refine wp_onlyIf (fun _ => ?_) fun h => absurd rfl h
      rw [wp_swallow]
      refine wp_answered henv ⟨rfl, fun q hq hid => ?_⟩
      obtain ⟨q₀, hq₀, rfl⟩ := List.mem_map.mp hq
      have hid₀ : q₀.id = p.id := by
        rw [← hid]
        split <;> rfl
      have hmade : q₀.zunMade = false := by
        by_contra hne
        cases hports q₀ hq₀ hid₀ (by simpa using hne)
      rw [← hmade]
      split <;> rfl

/-- The ports that the object names are gone. -/
theorem wp_deleteNeutronPorts_answered (henv : Answered env)
    (h : Sound (s.mem u).val.addresses s) :
    wp (Cri.deleteNeutronPorts env u) (fun res s' => res = .ok () ∧ Cleared (s.mem u).val s') s := by
  unfold Cri.deleteNeutronPorts
  rw [wp_bind, wp_obj, seqPost_ok]
  obtain hnil | ⟨net, keep, p, haddr, -, hports⟩ := h
  · have hall : Cri.addrsOf (s.mem u).val = [] := by
      unfold Cri.addrsOf
      rw [hnil]
      rfl
    exact wp_onlyIf (fun hne => absurd hnil hne) fun _ => ⟨rfl, cleared_of_nil hall⟩
  have hall := addrsOf_singleton haddr
  have hne : (id (s.mem u).val).addresses ≠ [] := by
    rw [id, haddr]
    exact List.cons_ne_nil _ _
  refine wp_onlyIf (fun _ => ?_) fun hnil => absurd hne hnil
  rw [id, hall]
  by_cases hips : p.fixedIps = []
  · have hnone : Neutron.addressesOf keep p = [] := by
      unfold Neutron.addressesOf
      rw [hips]
      rfl
    rw [hnone]
    exact ⟨rfl, cleared_of_nil (hall.trans hnone)⟩
  rw [Neutron.allPorts_addressesOf keep hips, Neutron.ownPorts_addressesOf keep hips]
  unfold Neutron.deleteOrUnbindPorts forEach
  rw [wp_andThen]
  refine wp_mono (wp_releasePort_answered henv fun q hq hid => (hports q hq hid).2) ?_
  rintro res s' ⟨rfl, hgone⟩
  refine ⟨rfl, fun a ha q hq hid => ?_⟩
  rw [hall] at ha
  exact hgone q hq (hid.trans (port_of_mem ha))

/-- The undo of a create, with every call answered. -/
theorem wp_undoCreate_answered (henv : Answered env) (h : Sound (s.mem u).val.addresses s) :
    wp (Cri.undoCreate env u) (fun res s' => res = .ok () ∧ Cleared (s.mem u).val s') s := by
  -- What is left once the sandbox is dealt with.
  have hports (s₁ : World) (haddr : (s₁.mem u).val.addresses = (s.mem u).val.addresses)
      (hsound : Sound (s₁.mem u).val.addresses s₁) :
      wp (Cri.undoPorts env u) (fun res s' => res = .ok () ∧ Cleared (s.mem u).val s') s₁ := by
    have hall : Cri.addrsOf (s₁.mem u).val = Cri.addrsOf (s.mem u).val := by
      unfold Cri.addrsOf
      rw [haddr]
    unfold Cri.undoPorts
    rw [wp_bind, wp_obj, seqPost_ok]
    refine wp_onlyIf (fun _ => ?_) fun hnil => ?_
    · refine wp_swallow_of ?_
      rw [wp_bind]
      refine wp_mono (wp_deleteNeutronPorts_answered henv hsound) ?_
      rintro res s₂ ⟨rfl, hcleared⟩
      refine ⟨rfl, fun a ha => ?_⟩
      rw [← hall] at ha
      exact hcleared a ha
    · refine ⟨rfl, cleared_of_nil ?_⟩
      rw [← hall]
      unfold Cri.addrsOf
      rw [not_not.mp hnil]
      rfl
  unfold Cri.undoCreate Cri.undoSandbox
  rw [wp_bind, wp_bind, wp_obj, seqPost_ok]
  cases (s.mem u).val.containerId with
  | none => exact hports s rfl h
  | some pod =>
      refine wp_swallow_of ?_
      rw [wp_bind]
      refine wp_mono (wp_deleteSandbox_answered henv pod) ?_
      rintro res s₁ ⟨rfl, hmem, -, hps, hid⟩
      have haddr : ((s₁.setMem u (Obj.setContainerId none)).mem u).val.addresses
          = (s.mem u).val.addresses := by
        rw [setMem_mem_self, hmem]
        rfl
      have hsound : Sound ((s₁.setMem u (Obj.setContainerId none)).mem u).val.addresses
          (s₁.setMem u (Obj.setContainerId none)) := by
        rw [haddr]
        exact h.grown (Grown.of_ports hps (Nat.le_of_eq hid.symm))
      exact hports _ haddr hsound

/-! ## The rebuild -/

section Rebuild

variable {net : NetId} {keep : Bool} {p : Port}

/-- The object of `u` has the addresses of the port `p`, and those are sound. -/
structure Holding (u : Uuid) (net : NetId) (keep : Bool) (p : Port) (s : World) : Prop where
  obj : (s.mem u).val.addresses = [(net, Neutron.addressesOf keep p)]
  known : p.id < s.nextId
  ports : ∀ q ∈ s.ports, q.id = p.id →
    q.fixedIps = p.fixedIps ∧ (q.zunMade = true → keep = false)

theorem Holding.sound (h : Holding u net keep p s) : Sound (s.mem u).val.addresses s :=
  .inr ⟨net, keep, p, h.obj, h.known, h.ports⟩

theorem Holding.grown {s' : World} (h : Holding u net keep p s) (hg : Grown s s')
    (hobj : (s'.mem u).val.addresses = (s.mem u).val.addresses) : Holding u net keep p s' := by
  refine ⟨hobj.trans h.obj, Nat.lt_of_lt_of_le h.known hg.ids, fun q hq hid => ?_⟩
  obtain ⟨q₀, hq₀, hid₀, hips, hmade⟩ := hg.old hq (hid ▸ h.known)
  rw [← hips, ← hmade]
  exact h.ports q₀ hq₀ (hid₀.trans hid)

theorem Holding.assign (h : Holding u net keep p s) (v : Uuid) {f : Obj → Obj}
    (hf : ∀ o, (f o).val.addresses = o.val.addresses) : Holding u net keep p (s.setMem v f) := by
  refine h.grown (Grown.of_ports rfl (Nat.le_refl _)) ?_
  by_cases hv : u = v
  · subst hv
    rw [setMem_mem_self, hf]
  · rw [setMem_mem_of_ne hv]

theorem Holding.saved (h : Holding u net keep p s) {v : Uuid} (row : Record) :
    Holding u net keep p (s.saved v row) :=
  h.grown (Grown.of_ports rfl (Nat.le_refl _)) (by rw [saved_val])

instance (u : Uuid) (net : NetId) (keep : Bool) (p : Port) : Steady (Kept (Holding u net keep p)) where
  still hs h := h.grown (Grown.of_ports hs.ports hs.ids) (by rw [hs.mem])

theorem holding_assign {v : Uuid} {f : Obj → Obj}
    (hf : ∀ o, (f o).val.addresses = o.val.addresses) :
    Within (Kept (Holding u net keep p)) (Zun.assign v f) :=
  within_modify fun _ h => h.assign v hf

theorem holding_save (v : Uuid) : Within (Kept (Holding u net keep p)) (save env v) :=
  within_save_of fun _ _ _ h => h.saved _

theorem holding_addressed : Cri.Addressed (Kept (Holding u net keep p)) where
  assign hf h := h.assign _ hf
  save _ h := h.saved _

/-- A call whose effect is on the ports or on the sandboxes. -/
theorem holding_call {c : Call} {effect : World → World} (hmem : ∀ s, (effect s).mem = s.mem)
    (hg : ∀ s, Grown s (effect s)) :
    Within (Kept (Holding u net keep p)) (call env c effect) := by
  have hturn (s : World) (h : Holding u net keep p s) : Holding u net keep p (s.turn env c) :=
    h.grown (Grown.of_ports rfl (Nat.le_refl _)) rfl
  exact within_call hturn fun s h => (hturn s h).grown (hg _) (by rw [hmem])

theorem holding_deleteSandbox (pod : RuntimeId) :
    Within (Kept (Holding u net keep p)) (Cri.deleteSandbox env pod) := by
  refine Within.bind (Within.tolerate ?_) fun _ => Within.tolerate ?_
  · exact holding_call (fun _ => by rfl) fun _ => Grown.of_ports rfl (Nat.le_refl _)
  · exact holding_call (fun _ => by rfl) fun _ => Grown.of_ports rfl (Nat.le_refl _)

/-- A rebuild asks for the port that the record names. -/
theorem networksOf_singleton (hips : p.fixedIps ≠ [])
    (haddr : r.addresses = [(net, Neutron.addressesOf keep p)]) :
    Cri.networksOf r = [{ network := net, port := some p.id, preserveOnDelete := keep }] := by
  obtain ⟨ip, ips, hcons⟩ := List.exists_cons_of_ne_nil hips
  unfold Neutron.addressesOf at haddr
  unfold Cri.networksOf
  rw [haddr, hcons]
  rfl

/-- The port that the record names is named again by the same addresses. -/
theorem wp_heldPort (h : Holding u net keep p s) :
    wp (Neutron.createOrUpdatePort env u { network := net, port := some p.id, preserveOnDelete := keep })
      (fun res s' => Holding u net keep p s' ∧
        ∀ addrs, res = .ok addrs → addrs = Neutron.addressesOf keep p) s := by
  have hset : Within (Kept (Holding u net keep p))
      (call env (.updatePort p.id) (Neutron.setDevice p.id (some u))) :=
    holding_call (fun _ => by rfl) fun _ => grown_setDevice p.id (some u)
  unfold Neutron.createOrUpdatePort
  refine wp_bind_kept hset h (fun _ s₁ h₁ => ?_) (fun _ _ h => ⟨h, nofun⟩) (fun _ h => ⟨h, nofun⟩)
  rw [wp_bind, wp_read, seqPost_ok]
  cases hfind : s₁.ports.find? (·.id = p.id) with
  | none => exact ⟨h₁, nofun⟩
  | some q =>
      refine ⟨h₁, ?_⟩
      rintro addrs haddrs
      cases haddrs
      have hid : q.id = p.id := by simpa using List.find?_some hfind
      obtain ⟨hips, -⟩ := h₁.ports q (List.mem_of_find?_eq_some hfind) hid
      unfold Neutron.addressesOf
      rw [hid, hips]

theorem holding_createPodSandbox :
    Within (Kept (Holding u net keep p)) (Cri.createPodSandbox env u
      [{ network := net, port := some p.id, preserveOnDelete := keep }]) := by
  have hrest : Within (Kept (Holding u net keep p)) (do
      call env (.applyPodCeiling u)
      Cri.runPodSandbox env u
      let pod ← read fun s => s.sandboxes.head?.map (·.id)
      assign u (Obj.setContainerId pod)
      call env (.applyHostIoLimits (pod.getD 0))) := by
    refine (within_plain _ rfl).bind fun _ => Within.bind ?_ fun _ => (within_read _).bind fun _ => ?_
    · exact holding_call (fun _ => by rfl) fun _ => Grown.of_ports rfl (Nat.le_succ _)
    · exact Within.bind (holding_assign fun _ => rfl) fun _ => within_plain _ rfl
  refine Within.bind ((within_plain _ rfl).bind fun _ => ?_) fun _ => hrest
  intro s h
  change wp _ (fun _ s' => Holding u net keep p s') s
  rw [wp_bind]
  refine wp_mono (wp_heldPort h) ?_
  rintro res s₁ ⟨h₁, haddrs⟩
  cases res with
  | raise e => exact h₁
  | halt => exact h₁
  | ok addrs =>
      have hmeta : Within (Kept (Holding u net keep p)) (do
          call env (.showNetwork net)
          forEach addrs fun a => call env (.showSubnet a.port)
          call env (.osVif u)
          save env u) :=
        (within_plain _ rfl).bind fun _ => (within_forEach fun _ _ => within_plain _ rfl).bind fun _ =>
          (within_plain _ rfl).bind fun _ => holding_save u
      rw [seqPost_ok, wp_bind, wp_assign, seqPost_ok]
      refine hmeta _ ⟨?_, h₁.known, h₁.ports⟩
      rw [setMem_mem_self, haddrs addrs rfl]
      rfl

theorem holding_rebuildCapsule (c : Capsule) (hips : p.fixedIps ≠ []) :
    Within (Kept (Holding c.uuid net keep p)) (Cri.rebuildCapsule env c) := by
  intro s h
  refine Cri.wp_rebuildCapsule_of (R := Kept (Holding c.uuid net keep p)) holding_addressed
    holding_deleteSandbox ?_ h
  rw [networksOf_singleton hips h.obj]
  exact holding_createPodSandbox

end Rebuild

/-! ## A rebuild that returns -/

/-- The object and the row of `u` name one sandbox, and it is ready. -/
structure Anchored (u : Uuid) (b : Sandbox) (s : World) : Prop where
  there : b ∈ s.sandboxes
  obj : (s.mem u).val.containerId = some b.id
  row : ∀ r, s.db u = some r → r.containerId = some b.id

theorem merged_containerId (row : Record) :
    (s.merged u row).containerId = (s.mem u).val.containerId ∨
      (s.merged u row).containerId = row.containerId := by
  unfold World.merged Changed.merge
  cases (s.mem u).changed.containerId
  · exact .inr rfl
  · exact .inl rfl

/-- A save leaves the row with the container id that the object and the row had. -/
theorem saved_containerId {pod : Option RuntimeId} {v : Uuid} {row : Record} (hrow : s.db v = some row)
    (hobj : (s.mem u).val.containerId = pod) (hdb : ∀ r, s.db u = some r → r.containerId = pod) :
    ∀ r, (s.saved v row).db u = some r → r.containerId = pod := by
  intro r hr
  by_cases hv : u = v
  · subst hv
    rw [saved_db_self, Option.some.injEq] at hr
    subst hr
    obtain hid | hid := merged_containerId (u := u) (s := s) row
    · rw [hid]
      exact hobj
    · rw [hid]
      exact hdb row hrow
  · rw [saved_db_of_ne hv] at hr
    exact hdb r hr

theorem Anchored.saved {b : Sandbox} (h : Anchored u b s) {v : Uuid} {row : Record}
    (hrow : s.db v = some row) : Anchored u b (s.saved v row) :=
  ⟨h.there, by rw [saved_val]; exact h.obj, saved_containerId hrow h.obj h.row⟩

theorem Anchored.assign {b : Sandbox} (h : Anchored u b s) {f : Obj → Obj}
    (hf : ∀ o, (f o).val.containerId = o.val.containerId) : Anchored u b (s.setMem u f) :=
  ⟨h.there, by rw [setMem_mem_self, hf]; exact h.obj, h.row⟩

theorem Anchored.other {b : Sandbox} (h : Anchored u b s) {v : Uuid} (hv : u ≠ v) (f : Obj → Obj) :
    Anchored u b (s.setMem v f) :=
  ⟨h.there, by rw [setMem_mem_of_ne hv]; exact h.obj, h.row⟩

instance (u : Uuid) (b : Sandbox) : Steady (Kept (Anchored u b)) where
  still hs h := ⟨by rw [hs.sandboxes]; exact h.there, by rw [hs.mem]; exact h.obj,
    by rw [hs.db]; exact h.row⟩

theorem anchored_save {b : Sandbox} (v : Uuid) : Within (Kept (Anchored u b)) (save env v) :=
  within_save_of fun _ _ hrow h => h.saved hrow

theorem anchored_member {b : Sandbox} {m : Uuid} (hm : u ≠ m) : Cri.Member (Kept (Anchored u b)) m where
  assign _ h := h.other hm _
  save hrow h := h.saved hrow

theorem anchored_talk {b : Sandbox} : Cri.Talk (Kept (Anchored u b)) u where
  reason _ h := h.assign fun _ => rfl
  save hrow h := h.saved hrow

theorem save_ok {v : Uuid} {s' : World} {a : Unit} (h : save env v s = (.ok a, s')) :
    ∃ row, s.db v = some row ∧ s' = (s.turn env (.save v (s.merged v row))).saved v row := by
  unfold save at h
  cases hrow : s.db v with
  | none =>
      simp only [hrow] at h
      cases (Prod.ext_iff.mp h).1
  | some row =>
      simp only [hrow] at h
      exact ⟨row, rfl, call_ok h⟩

/-- A sandbox that was made is ready, and is on the object to be saved. -/
theorem createPodSandbox_ok {nets : List RequestedNetwork} {s' : World} {a : Unit}
    (h : Cri.createPodSandbox env u nets s = (.ok a, s')) :
    ∃ b ∈ s'.sandboxes, b.ready = true ∧ (s'.mem u).val.containerId = some b.id ∧
      (s'.mem u).changed.containerId = true := by
  obtain ⟨_, s₁, _, h⟩ := andThen_ok h
  obtain ⟨_, s₂, _, h⟩ := andThen_ok h
  obtain ⟨_, s₃, hrun, h⟩ := andThen_ok h
  have hs₃ := call_ok hrun
  have hs' := call_ok h
  subst hs' hs₃
  refine ⟨_, List.mem_cons_self .., rfl, ?_, ?_⟩
  · change (((_ : World).setMem u _).mem u).val.containerId = _
    rw [setMem_mem_self]
    rfl
  · change (((_ : World).setMem u _).mem u).changed.containerId = _
    rw [setMem_mem_self]
    rfl

theorem merged_status_changed {row : Record} (h : (s.mem u).changed.status = true) :
    (s.merged u row).status = (s.mem u).val.status := by
  unfold World.merged Changed.merge
  rw [h]
  rfl

/-- A save of a running object that is anchored. -/
theorem running_of_save {b : Sandbox} {s' : World} {a : Unit} (hb : b.ready = true)
    (hs : Anchored u b s) (hval : (s.mem u).val.status = .running)
    (hchanged : (s.mem u).changed.status = true) (h : save env u s = (.ok a, s')) :
    RunningIn u s' := by
  obtain ⟨row, hrow, rfl⟩ := save_ok h
  have hturn : Anchored u b (s.turn env (.save u (s.merged u row))) := ⟨hs.there, hs.obj, hs.row⟩
  have hsaved := hturn.saved (v := u) hrow
  refine ⟨_, saved_db_self _, ?_, b, hsaved.there, hb, hsaved.row _ (saved_db_self _)⟩
  exact (merged_status_changed hchanged).trans hval

/-- The end of a rebuild puts the capsule on its row as running. -/
theorem wp_rebuilt (env : Env) {b : Sandbox} (hb : b.ready = true) (hs : Anchored u b s) : wp (do
      assign u (Obj.setStatus .running)
      assign u (Obj.setTaskState none)
      let now ← read fun s => env.now s.tick
      let started ← obj u (·.startedAt)
      onlyIf started.isNone (assign u (Obj.setStartedAt (some now)))
      save env u) (fun res s' => res = .ok () → RunningIn u s') s := by
  have hsave (s₁ : World) (h₁ : Anchored u b s₁) (hval : (s₁.mem u).val.status = .running)
      (hchanged : (s₁.mem u).changed.status = true) :
      wp (save env u) (fun res s' => res = .ok () → RunningIn u s') s₁ :=
    fun hok => running_of_save hb h₁ hval hchanged (Prod.ext hok rfl)
  have h₂ := (hs.assign (f := Obj.setStatus .running) fun _ => rfl).assign
    (f := Obj.setTaskState none) fun _ => rfl
  have hmem : ((s.setMem u (Obj.setStatus .running)).setMem u (Obj.setTaskState none)).mem u
      = Obj.setTaskState none (Obj.setStatus .running (s.mem u)) := by
    rw [setMem_mem_self, setMem_mem_self]
  rw [wp_bind, wp_assign, seqPost_ok, wp_bind, wp_assign, seqPost_ok, wp_bind, wp_read, seqPost_ok,
    wp_bind, wp_obj, seqPost_ok, wp_bind]
  refine wp_onlyIf (fun _ => ?_) fun _ => ?_
  · rw [wp_assign, seqPost_ok]
    refine hsave _ (h₂.assign fun _ => rfl) ?_ ?_
    · rw [setMem_mem_self, hmem]
      rfl
    · rw [setMem_mem_self, hmem]
      rfl
  · exact hsave _ h₂ (by rw [hmem]; rfl) (by rw [hmem]; rfl)

/-- A rebuild that returns leaves the capsule running in the sandbox that its row names. -/
theorem rebuildCapsule_ok {c : Capsule} {s' : World} {a : Unit}
    (h : Cri.rebuildCapsule env c s = (.ok a, s')) : RunningIn c.uuid s' := by
  have hne : ∀ m ∈ c.initContainers ++ c.containers, c.uuid ≠ m := by
    rintro m hm rfl
    exact (List.nodup_cons.mp c.distinct).1 hm
  -- The steps before the sandbox have no say in what comes of it.
  obtain ⟨_, s₂, _, h⟩ := andThen_ok h
  obtain ⟨_, s₃, _, h⟩ := andThen_ok h
  obtain ⟨_, s₄, hpod, h⟩ := andThen_ok h
  obtain ⟨_, s₅, hsave, h⟩ := andThen_ok h
  obtain ⟨b, hb, hready, hid, hchanged⟩ := createPodSandbox_ok hpod
  obtain ⟨row, hrow, hs₅⟩ := save_ok hsave
  have h₅ : Anchored c.uuid b s₅ := by
    rw [hs₅]
    refine ⟨hb, by rw [saved_val]; exact hid, fun r hr => ?_⟩
    rw [saved_db_self, Option.some.injEq] at hr
    subst hr
    unfold World.merged Changed.merge
    simp only [turn_mem, hchanged, if_true]
    exact hid
  obtain ⟨_, s₆, hinit, h⟩ := andThen_ok h
  obtain ⟨_, s₇, hmembers, h⟩ := andThen_ok h
  have hwithinInit : Within (Kept (Anchored c.uuid b)) (Cri.runInitMembers env c) := by
    have hmem : ∀ m ∈ c.initContainers, c.uuid ≠ m := fun m hm => hne m (List.mem_append_left _ hm)
    refine Cri.within_runInitMembers anchored_talk (fun m hm => anchored_member (hmem m hm))
      fun m hm state => (within_read _).bind fun _ => Within.onlyIf (Within.bind ?_ fun _ =>
        anchored_save m)
    exact within_modify fun _ h => h.other (hmem m hm) _
  have hwithinMembers : Within (Kept (Anchored c.uuid b))
      (forEach c.containers (Cri.rebuildMember env c.uuid)) := by
    refine within_forEach fun m hm => (Cri.within_stopIfAbandoned _).bind fun _ => ?_
    have hm' := anchored_member (b := b) (hne m (List.mem_append_right _ hm))
    refine (within_plain _ rfl).bind fun _ => (Cri.within_bumpTally hm').bind fun _ => ?_
    exact (Cri.within_createContainerIn hm' _ _ _).bind fun _ => Cri.within_recordNewRun hm'
  have h₆ := hwithinInit.returns _ _ _ hinit h₅
  have h₇ := hwithinMembers.returns _ _ _ hmembers h₆
  have hend := wp_rebuilt env hready h₇
  unfold wp at hend
  rw [show _ = (Result.ok a, s') from h] at hend
  exact hend rfl

/-! ## The ways of a resume -/

theorem cleared_congr {r' : Record} (h : Cleared r s) (haddr : r'.addresses = r.addresses) :
    Cleared r' s := by
  intro a ha
  unfold Cri.addrsOf at ha
  rw [haddr] at ha
  exact h a ha

theorem cleared_capsuleResumed (c : Capsule) (e : Option Exn) :
    Within (Kept (Cleared r)) (capsuleResumed env c e) := by
  cases e with
  | none => exact within_pure _
  | some e => exact within_failFor _ _ _ e

section Ways

variable {c : Capsule} {net : NetId} {keep : Bool} {p : Port}

/-- A rebuild that fails is undone, and so leaves no port. -/
theorem wp_rebuildOrFail (henv : Undisturbed env) (hips : p.fixedIps ≠ [])
    (haddr : r.addresses = [(net, Neutron.addressesOf keep p)])
    (hs : Holding c.uuid net keep p s) (hquiet : s.abandoned = []) :
    wp (Cri.rebuildOrFail env c (some (capsuleResumed env c))) (fun res s' => res ≠ .halt →
      RunningIn c.uuid s' ∨ Cleared r s') s := by
  unfold Cri.rebuildOrFail
  rw [wp_bind, wp_tryExcept, wp_bind]
  rcases hrun : Cri.rebuildCapsule env c s with ⟨res, s₁⟩
  have hheld : Holding c.uuid net keep p s₁ := by
    have hkept : Within (Kept (Holding c.uuid net keep p)) (Cri.rebuildCapsule env c) :=
      holding_rebuildCapsule c hips
    have := hkept s hs
    rw [hrun] at this
    exact this
  refine wp_of_run hrun ?_
  cases res with
  | ok a => exact fun _ => .inl (rebuildCapsule_ok hrun)
  | halt => exact fun h => absurd rfl h
  | raise e =>
      have hcls : e.cls ≠ .capsuleCreateAbandoned := by
        have := (Cri.unabandoned_rebuildCapsule henv c s hquiet).2 e
        rw [hrun] at this
        exact this rfl
      rw [seqPost_raise, exceptPost_raise, wp_pure, seqPost_ok]
      simp only [if_neg hcls]
      unfold Cri.rebuildFailed
      rw [wp_bind]
      refine wp_mono (wp_undoCreate_answered henv.toAnswered hheld.sound) ?_
      rintro res s₂ ⟨rfl, hcleared⟩ _
      have h₂ : Cleared r s₂ := cleared_congr hcleared (haddr.trans hheld.obj.symm)
      exact .inr (cleared_capsuleResumed c _ s₂ h₂)

theorem turn_abandoned (henv : Undisturbed env) (x : Call) (h : s.abandoned = []) :
    (s.turn env x).abandoned = [] := by
  change env.abandons s.tick ++ s.abandoned = []
  rw [henv.abandons, h]
  rfl

theorem wp_freshRecord_answered (henv : Answered env) {v : Uuid}
    {Q : Result Exn (Option Record) → World → Prop}
    (hok : Q (.ok (s.db v)) (s.turn env (.readRow v))) : wp (freshRecord env v) Q s := by
  unfold freshRecord ask
  rw [wp_bind]
  exact wp_answered henv hok

/-- A row that is being started, with its capsule read. -/
structure Starting (c : Capsule) (r : Record) (net : NetId) (keep : Bool) (p : Port) (s : World) :
    Prop where
  row : s.db c.uuid = some r
  obj : s.mem c.uuid = Obj.of r
  addresses : r.addresses = [(net, Neutron.addressesOf keep p)]
  status : r.status = .rebuilding ∨ r.status = .creating
  kept : beingDeleted r = false
  quiet : s.abandoned = []
  known : p.id < s.nextId
  ports : ∀ q ∈ s.ports, q.id = p.id → q.fixedIps = p.fixedIps ∧ (q.zunMade = true → keep = false)

theorem Starting.holding (h : Starting c r net keep p s) : Holding c.uuid net keep p s :=
  ⟨by rw [h.obj]; exact h.addresses, h.known, h.ports⟩

/-- A create or a rebuild that is picked up ends with the capsule running or without its port. -/
theorem wp_resumeCapsuleStart (henv : Undisturbed env) (hips : p.fixedIps ≠ [])
    (h : Starting c r net keep p s) :
    wp (resumeCapsuleStart env c) (fun res s' => res ≠ .halt →
      RunningIn c.uuid s' ∨ Cleared r s') s := by
  have hheld := h.holding
  unfold resumeCapsuleStart
  refine wp_swallow_of ?_
  unfold Cri.resumeCapsule
  rw [wp_bind, wp_bind, wp_obj, seqPost_ok, wp_ite]
  split
  · rw [wp_bind]
    refine wp_mono (wp_undoCreate_answered henv.toAnswered hheld.sound) ?_
    rintro res s₁ ⟨rfl, hcleared⟩
    have h₁ : Cleared r s₁ := cleared_congr hcleared (by rw [h.obj]; rfl)
    have hfail : Within (Kept (Cleared r)) (capsuleResumed env c (some notResumed)) :=
      cleared_capsuleResumed c _
    exact fun _ => .inr (hfail s₁ h₁)
  · rw [wp_bind]
    have hdriver : Cri.beingDeleted r = false := by
      have hkept := h.kept
      unfold beingDeleted at hkept
      unfold Cri.beingDeleted
      obtain hs | hs := h.status <;> rw [hs] at hkept ⊢ <;> exact hkept
    refine wp_swallow_of ?_
    unfold Cri.rebuildUnderLock
    rw [wp_bind]
    refine wp_freshRecord_answered henv.toAnswered ?_
    rw [seqPost_ok, h.row]
    obtain ⟨mem, hrun, hmem⟩ := loadCapsule_run (s := s.turn env (.readRow c.uuid)) h.row
    refine wp_onlyIf (fun _ => ?_) fun hno => absurd ⟨h.status, hdriver⟩ hno
    rw [wp_bind]
    refine wp_of_run hrun ?_
    have hheld' : Holding c.uuid net keep p { s.turn env (.readRow c.uuid) with mem } :=
      ⟨(congrArg (·.val.addresses) hmem).trans h.addresses, h.known, h.ports⟩
    rw [seqPost_ok]
    refine wp_mono (wp_rebuildOrFail henv hips h.addresses hheld'
      (turn_abandoned henv (.readRow c.uuid) h.quiet)) ?_
    rintro res s' hend
    cases res with
    | ok a => exact fun _ => hend (by simp)
    | raise e => exact fun _ => hend (by simp)
    | halt => exact fun hhalt => absurd rfl hhalt

/-- A delete that has a sandbox to go by leaves no port. -/
theorem wp_deleteOwned_pod (henv : Undisturbed env) {pod : RuntimeId}
    (hpod : (s.mem c.uuid).val.containerId = some pod)
    (haddr : (s.mem c.uuid).val.addresses = r.addresses) (hsound : Sound r.addresses s) :
    wp (deleteOwned env (defaultDrivers env) (.capsule c) true) (fun _ s' => Cleared r s') s := by
  have hdetach : Within (Kept (Cleared r)) (detachAll env false (.capsule c)) :=
    within_detachAll _ _
  have hdelete : wp (Cri.deleteCapsule env c true) (fun res s' => res = .ok () ∧ Cleared r s') s := by
    unfold Cri.deleteCapsule
    rw [wp_bind, wp_obj, seqPost_ok, hpod]
    change wp (Cri.deleteSandbox env pod >>= fun _ => Cri.deleteNeutronPorts env c.uuid) _ s
    rw [wp_bind]
    refine wp_mono (wp_deleteSandbox_answered henv.toAnswered pod) ?_
    rintro res s₁ ⟨rfl, hmem, -, hports, hid⟩
    have haddr₁ : (s₁.mem c.uuid).val.addresses = r.addresses := by rw [hmem, haddr]
    have hsound₁ : Sound (s₁.mem c.uuid).val.addresses s₁ := by
      rw [haddr₁]
      exact hsound.grown (Grown.of_ports hports (Nat.le_of_eq hid.symm))
    rw [seqPost_ok]
    refine wp_mono (wp_deleteNeutronPorts_answered henv.toAnswered hsound₁) ?_
    rintro res s₂ ⟨rfl, hcleared⟩
    exact ⟨rfl, cleared_congr hcleared haddr₁.symm⟩
  unfold deleteOwned reraisingIf
  rw [wp_bind, if_neg (by decide), wp_tryExcept]
  refine wp_mono hdelete ?_
  rintro res s₁ ⟨rfl, hcleared⟩
  exact hdetach s₁ hcleared

/-- Nothing is left to do for a delete once the ports are gone. -/
theorem cleared_afterDelete (c : Capsule) : Within (Kept (Cleared r)) (do
    swallow (call env (.removeUsage c.uuid))
    releaseAllocation env (.capsule c)
    destroy env c.uuid (members (.capsule c))) := by
  refine Within.bind (within_plain _ rfl).swallow fun _ => (within_releaseAllocation _).bind fun _ => ?_
  intro s h
  exact wp_destroy (Q := fun _ s' => Cleared r s') (fun _ => h) (h.of_ports rfl)
    (fun _ => h.of_ports rfl) (h.of_ports rfl)

/-- The world that a delete works in, when the record is caught up with its row. -/
theorem wp_caughtUp_answered (henv : Answered env) {op : Prog World Exn Unit}
    {Q : Result Exn Unit → World → Prop} (hrow : s.db u = some r)
    (hop : wp op Q ((s.turn env (.readRow u)).setMem u (catchUp r))) :
    wp (whenCaughtUp env u op) Q s := by
  unfold whenCaughtUp caughtUp
  rw [wp_bind, wp_bind]
  refine wp_freshRecord_answered henv ?_
  rw [seqPost_ok, hrow]
  exact hop

theorem wp_save_answered (henv : Answered env) {Q : Result Exn Unit → World → Prop} {row : Record}
    (hrow : s.db u = some row)
    (hok : Q (.ok ()) ((s.turn env (.save u (s.merged u row))).saved u row)) :
    wp (save env u) Q s := by
  refine wp_save (fun hgone => ?_) (fun row' hrow' _ => ?_) (fun _ e _ he => ?_) (fun _ _ hhalt => ?_)
  · cases hrow.symm.trans hgone
  · cases hrow.symm.trans hrow'
    exact hok
  · rw [henv.answers] at he
    cases he
  · rw [henv.answers] at hhalt
    cases hhalt

/-- A delete with every call answered comes to its body in any set of worlds that the way there
does not leave. -/
theorem wp_doContainerDelete_answered {P I : World → Prop} [Calm (Kept P)] (henv : Answered env)
    (hs : P s) (hthere : ∀ s, P s → s.db c.uuid ≠ none)
    (htask : ∀ s v, P s → P (s.setMem c.uuid (Obj.setTaskState v)))
    (hsave : ∀ s row, P s → s.db c.uuid = some row → P (s.saved c.uuid row))
    (hbody : ∀ s, P s →
      wp (deleteOwned env (defaultDrivers env) (.capsule c) true) (fun _ s' => I s') s)
    (hfin : Within (Kept I) (do
      assign c.uuid (Obj.setTaskState none)
      save env c.uuid))
    (hafter : Within (Kept I) (do
      swallow (call env (.removeUsage c.uuid))
      releaseAllocation env (.capsule c)
      destroy env c.uuid (members (.capsule c)))) :
    wp (doContainerDelete env (defaultDrivers env) (.capsule c) true) (fun _ s' => I s') s := by
  have hturn (s : World) (x : Call) (hx : x.releases = false) (h : P s) : P (s.turn env x) :=
    steady_turn (R := Kept P) x s hx h
  have h₁ := hturn s (.readRow c.uuid) rfl hs
  unfold doContainerDelete
  rw [wp_bind]
  refine wp_freshRecord_answered henv ?_
  rw [seqPost_ok]
  refine wp_then_kept ?_ fun _ => hafter
  unfold updateTaskState
  rw [wp_bind, wp_obj, seqPost_ok, wp_ite]
  split
  · exact hbody _ h₁
  · have h₂ := htask _ (some .containerDeleting) h₁
    obtain ⟨row, hrow⟩ := Option.ne_none_iff_exists'.mp (hthere _ h₂)
    rw [wp_bind, wp_assign, seqPost_ok, wp_bind]
    refine wp_save_answered henv hrow ?_
    exact wp_tryFinally_kept (hbody _ (hsave _ row (hturn _ _ rfl h₂) hrow)) hfin

/-- The object names a sandbox and the addresses of `r`, and the row is there. -/
structure Doomed (u : Uuid) (pod : RuntimeId) (r : Record) (s : World) : Prop where
  pod : (s.mem u).val.containerId = some pod
  addresses : (s.mem u).val.addresses = r.addresses
  sound : Sound r.addresses s
  there : s.db u ≠ none

instance (u : Uuid) (pod : RuntimeId) (r : Record) : Calm (Kept (Doomed u pod r)) :=
  Calm.of fun _ _ hs h => ⟨by rw [hs.mem]; exact h.pod, by rw [hs.mem]; exact h.addresses,
    h.sound.grown (Grown.of_ports hs.ports hs.ids), by rw [hs.db]; exact h.there⟩

theorem Doomed.caughtUp {pod : RuntimeId} (hrow : s.db u = some r) (hpod : r.containerId = some pod)
    (hsound : Sound r.addresses s) : Doomed u pod r (s.setMem u (catchUp r)) := by
  refine ⟨?_, ?_, hsound.grown (Grown.of_ports rfl (Nat.le_refl _)), ?_⟩
  · rw [setMem_mem_self]
    exact hpod
  · rw [setMem_mem_self]
    rfl
  · rw [setMem_db, hrow]
    nofun

/-- The thread of a recorded delete, when its body leaves an invariant. -/
theorem wp_resumeCapsuleDelete {P I : World → Prop} [Calm (Kept P)] (henv : Undisturbed env)
    (hrow : s.db c.uuid = some r)
    (hs : ∀ s₁ : World, s₁.db = s.db → s₁.ports = s.ports → s₁.nextId = s.nextId →
      P (s₁.setMem c.uuid (catchUp r)))
    (hthere : ∀ s, P s → s.db c.uuid ≠ none)
    (htask : ∀ s v, P s → P (s.setMem c.uuid (Obj.setTaskState v)))
    (hsave : ∀ s row, P s → s.db c.uuid = some row → P (s.saved c.uuid row))
    (hbody : ∀ s, P s →
      wp (deleteOwned env (defaultDrivers env) (.capsule c) true) (fun _ s' => I s') s)
    (hfin : Within (Kept I) (do
      assign c.uuid (Obj.setTaskState none)
      save env c.uuid))
    (hafter : Within (Kept I) (do
      swallow (call env (.removeUsage c.uuid))
      releaseAllocation env (.capsule c)
      destroy env c.uuid (members (.capsule c))))
    (hforget : Within (Kept I) (forgetAbandoned c.uuid)) :
    wp (resumeCapsuleDelete env (defaultDrivers env) c) (fun _ s' => I s') s := by
  refine wp_swallow_kept ?_
  rw [wp_bind, wp_assign, seqPost_ok, wp_bind, wp_modify, seqPost_ok]
  refine wp_tryFinally_kept (wp_caughtUp_answered henv.toAnswered hrow ?_) hforget
  exact wp_doContainerDelete_answered henv.toAnswered (hs _ rfl rfl rfl) hthere htask hsave hbody hfin hafter

/-- A recorded delete that has a sandbox to go by leaves no port. -/
theorem wp_resumeCapsuleDelete_pod (henv : Undisturbed env) {pod : RuntimeId}
    (hrow : s.db c.uuid = some r) (hpod : r.containerId = some pod)
    (hsound : Sound r.addresses s) :
    wp (resumeCapsuleDelete env (defaultDrivers env) c) (fun _ s' => Cleared r s') s := by
  refine wp_resumeCapsuleDelete (P := Doomed c.uuid pod r) henv hrow ?_ (fun _ h => h.there) ?_ ?_
    (fun s h => wp_deleteOwned_pod henv h.pod h.addresses h.sound) ?_ (cleared_afterDelete c)
    (within_modify fun _ h => h.of_ports rfl)
  · intro s₁ hdb hports hid
    refine Doomed.caughtUp (by rw [hdb, hrow]) hpod (hsound.grown ?_)
    exact Grown.of_ports hports (Nat.le_of_eq hid.symm)
  · rintro s v ⟨hp, ha, hsd, ht⟩
    exact ⟨by rw [setMem_mem_self]; exact hp, by rw [setMem_mem_self]; exact ha,
      hsd.grown (Grown.of_ports rfl (Nat.le_refl _)), ht⟩
  · rintro s row ⟨hp, ha, hsd, ht⟩ hr
    refine ⟨by rw [saved_val]; exact hp, by rw [saved_val]; exact ha,
      hsd.grown (Grown.of_ports rfl (Nat.le_refl _)), ?_⟩
    rw [saved_db_self]
    nofun
  · exact Within.bind (within_modify fun _ h => h.of_ports rfl) fun _ => within_save _

/-- Neither the object nor the row names a sandbox, and the ports are those of `s₀`. -/
structure Bare (u : Uuid) (ports : List Port) (s : World) : Prop where
  obj : (s.mem u).val.containerId = none
  row : ∀ r, s.db u = some r → r.containerId = none
  ports : s.ports = ports

theorem Bare.not_running {ports : List Port} (h : Bare u ports s) : ¬ RunningIn u s := by
  rintro ⟨r, hr, -, b, -, -, hid⟩
  rw [h.row r hr] at hid
  cases hid

theorem Bare.assign {ports : List Port} (h : Bare u ports s) (v : Uuid) {f : Obj → Obj}
    (hf : ∀ o, (f o).val.containerId = o.val.containerId) : Bare u ports (s.setMem v f) := by
  refine ⟨?_, h.row, h.ports⟩
  by_cases hv : u = v
  · subst hv
    rw [setMem_mem_self, hf]
    exact h.obj
  · rw [setMem_mem_of_ne hv]
    exact h.obj

theorem Bare.saved {ports : List Port} (h : Bare u ports s) {v : Uuid} {row : Record}
    (hrow : s.db v = some row) : Bare u ports (s.saved v row) :=
  ⟨by rw [saved_val]; exact h.obj, saved_containerId hrow h.obj h.row, h.ports⟩

theorem Bare.hushed {ports : List Port} {s' : World} (h : Bare u ports s) (hs : Hushed s s') :
    Bare u ports s' :=
  ⟨by rw [hs.mem]; exact h.obj, by rw [hs.db]; exact h.row, hs.ports.trans h.ports⟩

instance (u : Uuid) (ports : List Port) : Calm (Kept (Bare u ports)) :=
  Calm.of fun _ _ hs h => h.hushed hs

instance (u : Uuid) (ports : List Port) : Easy (Kept (Bare u ports)) where
  assign hf h := h.assign _ hf.containerId
  save hrow h := h.saved hrow

/-- A delete without a sandbox to go by leaves the ports alone. -/
theorem bare_doContainerDelete (ports : List Port) : Within (Kept (Bare c.uuid ports))
    (doContainerDelete env (defaultDrivers env) (.capsule c) true) := by
  have htask (v : Option TaskState) :
      Within (Kept (Bare c.uuid ports)) (Zun.assign c.uuid (Obj.setTaskState v)) :=
    within_modify fun _ h => h.assign _ fun _ => rfl
  have hdelete : Within (Kept (Bare c.uuid ports)) (Cri.deleteCapsule env c true) := by
    intro s h
    change wp _ (fun _ s' => Bare c.uuid ports s') s
    unfold Cri.deleteCapsule
    rw [wp_bind, wp_obj, seqPost_ok, h.obj]
    exact h
  have hbody : Within (Kept (Bare c.uuid ports))
      (deleteOwned env (defaultDrivers env) (.capsule c) true) := within_deleteAround hdelete
  have hdestroy : Within (Kept (Bare c.uuid ports))
      (destroy env c.uuid (members (.capsule c))) := by
    intro s h
    have hturn : Bare c.uuid ports (s.turn env (.destroy c.uuid)) := ⟨h.obj, h.row, h.ports⟩
    exact wp_destroy (Q := fun _ s' => Bare c.uuid ports s') (fun _ => h)
      ⟨h.obj, fun r hr => h.row r (db_of_dropRows hr).2, h.ports⟩ (fun _ => hturn) hturn
  refine (within_ask _ _ rfl).bind fun _ => Within.bind ?_ fun _ => ?_
  · refine (within_read _).bind fun current => within_ite hbody ?_
    refine (htask _).bind fun _ => (within_save _).bind fun _ => ?_
    exact hbody.tryFinally ((htask _).bind fun _ => within_save _)
  · exact (within_plain _ rfl).swallow.bind fun _ => (within_releaseAllocation _).bind fun _ => hdestroy

theorem bare_resumeCapsuleDelete (env : Env) (ports : List Port) : Within (Kept (Bare c.uuid ports))
    (resumeCapsuleDelete env (defaultDrivers env) c) := by
  have hwhen : Within (Kept (Bare c.uuid ports)) (whenCaughtUp env c.uuid
      (doContainerDelete env (defaultDrivers env) (.capsule c) true)) := by
    intro s h
    have h₁ : Bare c.uuid ports (s.turn env (.readRow c.uuid)) := ⟨h.obj, h.row, h.ports⟩
    change wp _ (fun _ s' => Bare c.uuid ports s') s
    unfold whenCaughtUp caughtUp
    rw [wp_bind, wp_bind]
    refine wp_freshRecord ?_ (fun _ => h₁) h₁
    rw [seqPost_ok]
    cases hrow : s.db c.uuid with
    | none => exact h₁
    | some row =>
        have h₂ : Bare c.uuid ports ((s.turn env (.readRow c.uuid)).setMem c.uuid (catchUp row)) :=
          ⟨by rw [setMem_mem_self]; exact h.row row hrow, h.row, h.ports⟩
        exact bare_doContainerDelete ports _ h₂
  refine Within.swallow (Within.bind (within_modify fun _ h => h.assign _ fun _ => rfl) fun _ => ?_)
  refine Within.bind (within_modify fun _ h => ⟨h.obj, h.row, h.ports⟩) fun _ => ?_
  exact hwhen.tryFinally (within_modify fun _ h => ⟨h.obj, h.row, h.ports⟩)

/-- A resume reads the row, and goes on with a record of its own host. -/
theorem resumeCapsules_run (henv : Undisturbed env) (hrow : s.db c.uuid = some r) :
    (r.host ≠ some env.host → resumeCapsules env (defaultDrivers env) c s
        = (.ok (), s.turn env (.readRow c.uuid))) ∧
      (r.host = some env.host → ∃ mem, mem c.uuid = Obj.of r ∧
        resumeCapsules env (defaultDrivers env) c s
          = resumeCapsule env (defaultDrivers env) c r { s.turn env (.readRow c.uuid) with mem }) := by
  have hread (Q : Result Exn Unit → World → Prop)
      (hQ : wp (onlyIf (r.host = some env.host) (do
        Cri.loadCapsule c
        resumeCapsule env (defaultDrivers env) c r)) Q (s.turn env (.readRow c.uuid))) :
      wp (resumeCapsules env (defaultDrivers env) c) Q s := by
    unfold resumeCapsules
    rw [wp_bind, wp_tryExcept]
    refine wp_freshRecord_answered henv.toAnswered ?_
    rw [exceptPost_ok, seqPost_ok, hrow]
    exact hQ
  obtain ⟨mem, hload, hmem⟩ := loadCapsule_run (s := s.turn env (.readRow c.uuid)) hrow
  refine ⟨fun hhost => ?_, fun hhost => ⟨mem, hmem, ?_⟩⟩
  · exact hread (fun res s' => (res, s') = _) (wp_onlyIf (fun h => absurd h hhost) fun _ => rfl)
  · refine hread (fun res s' => (res, s') = _) (wp_onlyIf (fun _ => ?_) fun h => absurd hhost h)
    rw [wp_bind]
    exact wp_of_run hload rfl

end Ways

/-! ## When a resume is consistent -/

section Main

variable {c : Capsule} {s' : World}

/-- A resume that left the row, the ports and the sandboxes alone. -/
theorem consistent_of_unmoved (hrow : s.db c.uuid = some r) (hdb : s'.db = s.db)
    (hports : s'.ports = s.ports) (hboxes : s'.sandboxes = s.sandboxes) :
    Consistent c s s' ↔ RunningIn c.uuid s ∨ Cleared r s := by
  have hrun : RunningIn c.uuid s' ↔ RunningIn c.uuid s := by
    unfold RunningIn
    rw [hdb, hboxes]
  refine or_congr hrun ⟨fun h => (h r hrow).of_ports hports.symm, fun h r' hr' => ?_⟩
  cases hrow.symm.trans hr'
  exact h.of_ports hports

theorem missed_iff (hrow : s.db c.uuid = some r) :
    Missed env c s ↔ ¬ Cleared r s ∧
      ((r.host = some env.host ∧ beingDeleted r = true ∧ r.containerId = none) ∨
        (¬ PickedUp env r ∧ ¬ RunningIn c.uuid s)) := by
  constructor
  · rintro ⟨r', hr', h⟩
    cases hrow.symm.trans hr'
    exact h
  · exact fun h => ⟨r, hrow, h⟩

/-- A record that is not picked up is left as it was. -/
theorem consistent_of_not_pickedUp (hrow : s.db c.uuid = some r) (hdb : s'.db = s.db)
    (hports : s'.ports = s.ports) (hboxes : s'.sandboxes = s.sandboxes) (hno : ¬ PickedUp env r) :
    Consistent c s s' ↔ ¬ Missed env c s := by
  have hfirst : ¬ (r.host = some env.host ∧ beingDeleted r = true ∧ r.containerId = none) :=
    fun h => hno ⟨h.1, .inl h.2.1⟩
  rw [consistent_of_unmoved hrow hdb hports hboxes, missed_iff hrow]
  constructor
  · rintro (hrun | hclear) ⟨hnot, hmissed⟩
    · obtain h | h := hmissed
      · exact hfirst h
      · exact h.2 hrun
    · exact hnot hclear
  · intro h
    by_contra hneither
    rw [not_or] at hneither
    exact h ⟨hneither.2, .inr ⟨hno, hneither.1⟩⟩

theorem Consistent.of_cleared (hrow : s.db c.uuid = some r) (h : Cleared r s') :
    Consistent c s s' := by
  refine .inr fun r' hr' => ?_
  cases hrow.symm.trans hr'
  exact h

/-- A recorded delete is consistent when it has a sandbox to go by, or no port to miss. -/
theorem consistent_delete {mem : Uuid → Obj} (henv : Undisturbed env) (hsane : Sane c.uuid s)
    (hrow : s.db c.uuid = some r) (hmem : mem c.uuid = Obj.of r) (hhost : r.host = some env.host)
    (hdel : beingDeleted r = true) :
    Consistent c s (resumeCapsuleDelete env (defaultDrivers env) c
      { (restarted s).turn env (.readRow c.uuid) with mem }).2 ↔ ¬ Missed env c s := by
  have hpicked : PickedUp env r := ⟨hhost, .inl hdel⟩
  have hports : ({ (restarted s).turn env (.readRow c.uuid) with mem } : World).ports = s.ports := rfl
  rw [missed_iff hrow]
  cases hpod : r.containerId with
  | some pod =>
      have hsound : Sound r.addresses { (restarted s).turn env (.readRow c.uuid) with mem } :=
        (hsane.row r hrow).grown (Grown.of_ports rfl (Nat.le_refl _))
      refine iff_of_true (Consistent.of_cleared hrow
        (wp_resumeCapsuleDelete_pod henv hrow hpod hsound)) ?_
      rintro ⟨-, ⟨-, -, hnone⟩ | ⟨hno, -⟩⟩
      · cases hnone
      · exact hno hpicked
  | none =>
      have hbare : Bare c.uuid s.ports { (restarted s).turn env (.readRow c.uuid) with mem } := by
        refine ⟨(congrArg (·.val.containerId) hmem).trans hpod, fun r' hr' => ?_, rfl⟩
        cases hrow.symm.trans hr'
        exact hpod
      have hafter : Bare c.uuid s.ports _ := bare_resumeCapsuleDelete env s.ports _ hbare
      constructor
      · rintro (hrun | hclear) ⟨hnot, -⟩
        · exact hafter.not_running hrun
        · exact hnot ((hclear r hrow).of_ports hafter.ports.symm)
      · intro h
        refine Consistent.of_cleared hrow (Cleared.of_ports ?_ hafter.ports)
        by_contra hnot
        exact h ⟨hnot, .inl ⟨hhost, hdel, rfl⟩⟩

/-- A create or a rebuild that is picked up is consistent. -/
theorem consistent_start {mem : Uuid → Obj} (henv : Undisturbed env) (hsane : Sane c.uuid s)
    (hrow : s.db c.uuid = some r) (hmem : mem c.uuid = Obj.of r)
    (hdel : beingDeleted r = false) (hstart : starting r = true ∨ r.status = .rebuilding)
    (hend : (resumeCapsuleStart env c
      { (restarted s).turn env (.readRow c.uuid) with mem }).1 ≠ .halt) :
    Consistent c s (resumeCapsuleStart env c
      { (restarted s).turn env (.readRow c.uuid) with mem }).2 := by
  have hstatus : r.status = .rebuilding ∨ r.status = .creating := by
    obtain h | h := hstart
    · unfold starting at h
      rw [Bool.and_eq_true, beq_iff_eq] at h
      exact .inr h.1
    · exact .inl h
  obtain hnil | ⟨net, keep, p, haddr, hknown, hports⟩ := hsane.row r hrow
  · refine Consistent.of_cleared hrow (cleared_of_nil ?_)
    unfold Cri.addrsOf
    rw [hnil]
    rfl
  by_cases hips : p.fixedIps = []
  · refine Consistent.of_cleared hrow (cleared_of_nil ?_)
    rw [addrsOf_singleton haddr]
    unfold Neutron.addressesOf
    rw [hips]
    rfl
  have hstarting : Starting c r net keep p { (restarted s).turn env (.readRow c.uuid) with mem } :=
    { row := hrow
      obj := hmem
      addresses := haddr
      status := hstatus
      kept := hdel
      quiet := turn_abandoned henv (.readRow c.uuid) (s := restarted s) rfl
      known := hknown
      ports := hports }
  obtain hrun | hclear := wp_resumeCapsuleStart henv hips hstarting hend
  · exact .inl hrun
  · exact Consistent.of_cleared hrow hclear

/-- A resume with every call answered, from a state that a history leads to, leaves the capsule
running or without the ports that its record named, exactly when it misses none. -/
theorem consistent_iff_not_missed (env : Env) (c : Capsule) (s : World) (henv : Undisturbed env)
    (hreach : Reached (Made c) (Event.step c) (Event.Possible c) s)
    (hend : (resumeCapsules env (defaultDrivers env) c (restarted s)).1 ≠ .halt) :
    Consistent c s (resumeCapsules env (defaultDrivers env) c (restarted s)).2 ↔
      ¬ Missed env c s := by
  have hsane := sane_of_reached hreach
  cases hrow : s.db c.uuid with
  | none =>
      refine iff_of_true (.inr fun r hr => ?_) ?_
      · cases hrow.symm.trans hr
      · rintro ⟨r, hr, -⟩
        cases hrow.symm.trans hr
  | some r =>
      obtain ⟨haway, hhere⟩ := resumeCapsules_run (s := restarted s) henv hrow
      by_cases hhost : r.host = some env.host
      swap
      · rw [haway hhost]
        exact consistent_of_not_pickedUp hrow rfl rfl rfl fun h => hhost h.1
      obtain ⟨mem, hmem, hrun⟩ := hhere hhost
      rw [hrun] at hend ⊢
      unfold resumeCapsule at hend ⊢
      by_cases hdel : beingDeleted r = true
      · rw [if_pos hdel]
        exact consistent_delete henv hsane hrow hmem hhost hdel
      rw [if_neg hdel] at hend ⊢
      unfold onlyIf at hend ⊢
      by_cases hstart : starting r = true ∨ r.status = .rebuilding
      · rw [if_pos hstart] at hend ⊢
        have hnot : beingDeleted r = false := by simpa using hdel
        refine iff_of_true (consistent_start henv hsane hrow hmem hnot hstart hend) ?_
        rw [missed_iff hrow]
        rintro ⟨-, ⟨-, hdel', -⟩ | ⟨hno, -⟩⟩
        · exact hdel hdel'
        · exact hno ⟨hhost, .inr hstart⟩
      · rw [if_neg hstart]
        refine consistent_of_not_pickedUp hrow rfl rfl rfl fun h => ?_
        obtain hd | hs := h.2
        · exact hdel hd
        · exact hstart hs

/-- A service that stops when it asks for the sandbox. -/
def stopsAtSandbox : Env where
  answer _ x :=
    match x with
    | .runPodSandbox _ => .halt
    | _ => .ok

/-- A capsule that the API has made and scheduled. -/
def scheduled : World := World.ofRows [(1, { status := .creating, host := some "node" })]

/-- Its create, stopped when the port is on the row and the sandbox is not. -/
def stoppedCreate : World :=
  Event.step { uuid := 1 } (.create stopsAtSandbox [{ network := 7 }] [] false) scheduled

theorem reached_stoppedCreate : Reached (Made { uuid := 1 }) (Event.step { uuid := 1 })
    (Event.Possible { uuid := 1 }) stoppedCreate := by
  refine .step _ (.init ⟨⟨?_, ?_⟩, ?_⟩) ⟨⟨_, rfl⟩, fun net hnet => ?_⟩
  · exact fun _ hq => absurd hq List.not_mem_nil
  · exact fun _ hq => absurd hq List.not_mem_nil
  · intro r hr
    cases hr
    rfl
  · rw [List.mem_singleton.mp hnet]
    exact ⟨fun _ => rfl, nofun, nofun⟩

theorem consistent_stoppedCreate :
    ¬ Missed {} { uuid := 1 } stoppedCreate ∧ Consistent { uuid := 1 } stoppedCreate
      (resumeCapsules {} (defaultDrivers {}) { uuid := 1 } (restarted stoppedCreate)).2 := by
  have hnot : ¬ Missed {} { uuid := 1 } stoppedCreate := by
    rintro ⟨r, hr, -, ⟨-, hdel, -⟩ | ⟨hno, -⟩⟩
    · cases hr
      cases hdel
    · cases hr
      exact hno ⟨rfl, .inr (.inl rfl)⟩
  refine ⟨hnot, (consistent_iff_not_missed {} _ _ ⟨⟨fun _ _ => rfl⟩, fun _ => rfl⟩
    reached_stoppedCreate ?_).mpr hnot⟩
  intro hhalt
  cases hhalt

/-- A delete recorded before the service starts again leaves the port for good. -/
theorem resumed_delete_leaves_port :
    ¬ Consistent { uuid := 1 } (recordDelete { uuid := 1 } stoppedCreate)
      (resumeCapsules {} (defaultDrivers {}) { uuid := 1 }
        (restarted (recordDelete { uuid := 1 } stoppedCreate))).2 := by
  rintro (⟨r, hr, -⟩ | hclear)
  · cases hr
  · have hmade := hclear _ rfl ⟨"10.0.0.2", 1, false⟩ (List.mem_cons_self ..)
      ⟨1, 7, ["10.0.0.2"], true, some 1⟩ (List.mem_cons_self ..) rfl
    cases hmade

end Main

end Manager

end Zun
