import Zun.Container.DockerPortsDelete

/-!
# A rebuild

The ports of a rebuild are kept: they are marked so in the object, in place, where no `save` writes
them, and are bound again by the build.  Until then a failure changes nothing.  A rebuild of a
container without networks has no port to bind and never gets through its build.
-/

namespace Zun

open Effect Prog World Manager

namespace DockerPorts

variable {u : Uuid} {k : Nat} {calls : List (Call × Answer)} {s s' : World} {env : Env}
  {I : World → Prop} {bad : Call × Answer → List (Call × Answer) → Prop}
  {E : Exn → World → Prop} {Q : List Port → Prop} {strict clean : Bool}
  {addresses : List (NetId × List Addr)} {addrs : List Addr} {p : Port} {vols : RequestedVolumes}

/-! ## Without networks -/

theorem Unmade.preserved (h : Unmade u calls s) : Preserved u s := by
  intro entry hentry
  rw [h.obj] at hentry
  cases hentry

theorem unmade_failFor (fallback : String) (unsetHost : Bool) (e : Exn) :
    Within (Kept (Unmade u calls)) (failFor env (.container u) fallback unsetHost e) :=
  within_failFor _ _ _ e

/-- A docker container is not created without a network. -/
theorem unmade_create (vols : RequestedVolumes) : Within (Kept (Unmade u calls)) (Docker.create env u [] vols) :=
  (within_ret ()).bind fun _ => (within_plain _ rfl).bind fun _ => within_raise _

theorem unmade_createBase :
    Within (Kept (Unmade u calls))
      (doContainerCreateBase env (defaultDrivers env) (.container u) [] vols) :=
  leveled_updateTaskState (within_createAround (unmade_create vols))

theorem unmade_start : Within (Kept (Unmade u calls)) (doContainerStart env (defaultDrivers env) u) := by
  refine leveled_updateTaskState (Within.reraising ?_ fun e => unmade_failFor _ false e)
  refine (Docker.within_start u).bind fun _ => (within_read _).bind fun now => ?_
  exact (within_inward (inward_setStartedAt _)).bind fun _ => within_saveInward u

/-- A rebuild of a container without networks changes neither view. -/
theorem unmade_rebuild (run : Bool) :
    Within (Kept (Unmade u calls)) (doContainerRebuild env (defaultDrivers env) u run) := by
  refine leveled_updateTaskState (Within.bind ?_ fun _ => unmade_start.onlyIf)
  refine (within_ask _ _ rfl).bind fun volmaps => ?_
  refine kept_bind (T := fun l => l = []) (within_read _) (fun s l s' hs hrun => ?_) fun l hl => ?_
  · cases hrun
    exact hs.obj
  subst hl
  refine kept_bind (T := fun nets => nets = []) ?_ (fun s nets s' hs hrun => ?_) fun nets hnets => ?_
  · exact (within_pure _).reraising fun e => unmade_failFor _ false e
  · cases hrun
    rfl
  subst hnets
  refine Within.bind ((within_plain _ rfl).bind fun _ => (within_read _).bind fun _ => within_read _)
    fun there => Within.bind ?_ fun _ => ?_
  · refine Within.onlyIf (Within.bind (within_modify fun s hs => ?_) fun _ => ?_)
    · refine ⟨hs.wired, hs.row, ?_, hs.ports, hs.docker, hs.since⟩
      rw [setMem_mem_self]
      show (s.mem u).val.addresses.map _ = []
      rw [hs.obj]
      rfl
    · exact (leveled_delete (fun _ hs => hs.preserved) true).reraising fun e => unmade_failFor _ false e
  · refine Within.reraising ?_ fun e => unmade_failFor _ false e
    refine unmade_createBase.bind fun _ => (within_inward (inward_setStatus _)).bind fun _ => ?_
    exact (within_inward (inward_setStatusReason _)).bind fun _ => within_saveInward u

/-! ## With networks -/

/-- What `_get_network_info` says of some addresses. -/
def Told (addresses : List (NetId × List Addr)) (nets : List RequestedNetwork) : Prop :=
  List.Forall₂ (fun entry net => ∃ a, entry.2.head? = some a ∧
    net = { network := entry.1, port := some a.port, preserveOnDelete := a.preserveOnDelete })
    addresses nets

theorem told_of_networkInfoOf {nets : List RequestedNetwork}
    (h : networkInfoOf env addresses s = (.ok nets, s')) : Told addresses nets := by
  induction addresses generalizing s s' nets with
  | nil =>
      cases h
      exact .nil
  | cons entry rest ih =>
      obtain ⟨net, addrs⟩ := entry
      cases addrs with
      | nil => cases h
      | cons a addrs =>
          obtain ⟨_, s₁, -, h⟩ := andThen_ok h
          obtain ⟨_, s₂, -, h⟩ := andThen_ok h
          obtain ⟨nets', s₃, hrest, h⟩ := andThen_ok h
          cases h
          exact .cons ⟨a, rfl, rfl⟩ (ih hrest)

theorem Told.networks {nets : List RequestedNetwork} (h : Told addresses nets) :
    nets.map (·.network) = addresses.map (·.1) := by
  induction h with
  | nil => rfl
  | cons hhead _ ih =>
      obtain ⟨a, -, rfl⟩ := hhead
      rw [List.map_cons, List.map_cons, ih]

theorem Told.of_mem {nets : List RequestedNetwork} (h : Told addresses nets) {net : RequestedNetwork}
    (hnet : net ∈ nets) : ∃ entry ∈ addresses, ∃ a, entry.2.head? = some a ∧
      net = { network := entry.1, port := some a.port, preserveOnDelete := a.preserveOnDelete } := by
  induction h with
  | nil => cases hnet
  | cons hhead _ ih =>
      rcases List.mem_cons.mp hnet with rfl | hnet
      · exact ⟨_, List.mem_cons_self, hhead⟩
      · obtain ⟨entry, hentry, hrest⟩ := ih hnet
        exact ⟨entry, List.mem_cons_of_mem _ hentry, hrest⟩

theorem Told.mem {nets : List RequestedNetwork} (h : Told addresses nets) {entry : NetId × List Addr}
    (hentry : entry ∈ addresses) : ∃ net ∈ nets, ∃ a, entry.2.head? = some a ∧
      net = { network := entry.1, port := some a.port, preserveOnDelete := a.preserveOnDelete } := by
  induction h with
  | nil => cases hentry
  | cons hhead _ ih =>
      rcases List.mem_cons.mp hentry with rfl | hentry
      · exact ⟨_, List.mem_cons_self, hhead⟩
      · obtain ⟨net, hnet, hrest⟩ := ih hentry
        exact ⟨net, List.mem_cons_of_mem _ hnet, hrest⟩

theorem head_addressesOf {keep : Bool} {a : Addr} (h : (Neutron.addressesOf keep p).head? = some a) :
    a.port = p.id ∧ a.preserveOnDelete = keep := by
  obtain ⟨ip, -, rfl⟩ := List.mem_map.mp (List.mem_of_mem_head? h)
  exact ⟨rfl, rfl⟩

section Told

variable {wires : List Port} {nets rest : List RequestedNetwork}

/-- Every network of a rebuild has its port. -/
theorem Told.asked (h : Told addresses nets) (hplaced : Placed wires addresses [])
    {net : RequestedNetwork} (hnet : net ∈ nets) : Asked wires net := by
  obtain ⟨entry, hentry, a, hhead, rfl⟩ := h.of_mem hnet
  obtain ⟨p, hp, hpnet, haddrs⟩ := hplaced.entries entry hentry
  rw [haddrs] at hhead
  obtain ⟨hport, hkeep⟩ := head_addressesOf hhead
  exact .inr ⟨p, hp, congrArg some hport, hpnet, hkeep⟩

/-- The turn of every port that was made is to come. -/
theorem Told.placed (h : Told addresses nets) (hplaced : Placed wires addresses [])
    (hrest : List.Perm nets rest) : Placed wires [] rest where
  nets := List.nodup_nil
  entries _ hentry := nomatch hentry
  made p hp hmade := by
    have hin : (p.network, Neutron.addressesOf false p) ∈ addresses := by
      rcases hplaced.made p hp hmade with hin | ⟨-, -, net, hmem, -⟩
      · exact hin
      · cases hmem
    obtain ⟨net, hnet, a, hhead, rfl⟩ := h.mem hin
    refine .inr ⟨?_, List.not_mem_nil, _, hrest.mem_iff.mp hnet, rfl,
      congrArg some (head_addressesOf hhead).1⟩
    rw [(hrest.symm.map _).nodup_iff, h.networks]
    exact hplaced.nets

end Told

instance {I : World → Prop} {c : Prop} [Lenient (Kept I)] : Lenient (Kept fun s => I s ∧ c) where
  assign hf h := ⟨Lenient.assign (R := Kept I) hf h.1, h.2⟩
  save hrow h := ⟨Lenient.save (R := Kept I) hrow h.1, h.2⟩

/-- A rebuild before its build: the row is as it should be, and what was asked of it is known. -/
abbrev Rebuilding (u : Uuid) (k : Nat) (calls : List (Call × Answer)) (strict : Bool)
    (addresses : List (NetId × List Addr)) (c : Prop) (s : World) : Prop :=
  (Settled u k calls (fun wires => Placed wires addresses []) strict true s ∧ Hosted u s) ∧
    addresses ≠ [] ∧ c

/-- Whatever fails then leaves the row as it was. -/
abbrev Unbuilt (u : Uuid) (k : Nat) (calls : List (Call × Answer)) (s : World) : Prop :=
  Settled u k calls (fun _ => True) false false s

theorem unbuilt_of {c : Prop} (h : Rebuilding u k calls strict addresses c s) : Unbuilt u k calls s :=
  h.1.1.weaken fun _ _ => trivial

theorem Rebuilding.building {nets : List RequestedNetwork} {net : RequestedNetwork}
    (h : Rebuilding u k calls strict addresses (Told addresses nets) s) (hlast : nets.getLast? = some net) :
    Building u k calls [] (net :: nets.dropLast) none s := by
  obtain ⟨⟨h, hhosted⟩, -, htold⟩ := h
  have hperm : List.Perm nets (net :: nets.dropLast) := by
    have heq : nets.dropLast ++ [net] = nets := List.dropLast_append_getLast? net hlast
    have hcomm : List.Perm (nets.dropLast ++ [net]) ([net] ++ nets.dropLast) := List.perm_append_comm
    rwa [heq] at hcomm
  exact ⟨h.wired, hhosted.row, hhosted.obj, htold.placed h.ports hperm,
    fun net' hmem => htold.asked h.ports (hperm.mem_iff.mpr hmem), nofun, h.few, h.since⟩

/-- The object with its ports marked as not to be deleted. -/
theorem Rebuilding.preserved {c : Prop} (h : Rebuilding u k calls true addresses c s) :
    Rebuilding u k calls false addresses c (s.setMem u preservePorts) ∧
      Preserved u (s.setMem u preservePorts) := by
  obtain ⟨⟨h, hhosted⟩, hc⟩ := h
  refine ⟨⟨⟨⟨h.wired, ?_, fun hwrite => ?_, fun _ => ?_, h.ports, h.few, h.since⟩, hhosted.row, ?_⟩, hc⟩,
    fun entry hentry a ha => ?_⟩
  · obtain ⟨r, hr, hplaced, hbare⟩ := h.row
    refine ⟨r, hr, hplaced, fun hnone => ?_⟩
    rw [setMem_mem_self] at hnone ⊢
    obtain ⟨haddr, hobj, hdocker⟩ := hbare hnone
    refine ⟨haddr, ?_, hdocker⟩
    show (s.mem u).val.addresses.map _ = []
    rw [hobj]
    rfl
  · rw [setMem_mem_self] at hwrite
    cases (h.clean rfl).symm.trans (hwrite.elim nofun id)
  · rw [setMem_mem_self]
    exact h.clean rfl
  · rw [setMem_mem_self]
    exact hhosted.obj
  · rw [setMem_mem_self] at hentry
    obtain ⟨entry', -, rfl⟩ := List.mem_map.mp hentry
    obtain ⟨a', -, rfl⟩ := List.mem_map.mp ha
    rfl

theorem leveled_networkInfoOf [Leveled u I] (addresses : List (NetId × List Addr)) :
    Within (Kept I) (networkInfoOf env addresses) := by
  induction addresses with
  | nil => exact within_pure _
  | cons entry rest ih =>
      obtain ⟨net, addrs⟩ := entry
      cases addrs with
      | nil => exact within_raise _
      | cons a addrs =>
          refine (leveled_plain _).bind fun _ => (leveled_plain _).bind fun _ => ?_
          exact ih.bind fun _ => within_pure _

section Rebuild

variable {r : Record}

theorem unless_failed {α : Type} {p : Prog World Exn α} {J : α → World → Prop} (hprompt : Prompt env k)
    (hp : Unless (Spoiled bad calls) I J (fun _ => Unbuilt u k calls) p) (fallback : String) :
    Unless (Spoiled bad calls) I J (fun _ => Unbuilt u k calls)
      (reraising p (failFor env (.container u) fallback false)) := by
  refine hp.reraising fun e => unless_keeps ?_ ?_ fun _ s hs => hs
  · exact within_failFor _ _ _ e
  · exact within_failInTime (fun s hs => hs.few) hprompt fallback e

/-- The container that is there is taken away, with its ports kept. -/
theorem unless_rebuildAway (hprompt : Prompt env k) {c : Prop} (there : Bool) :
    Unless (Spoiled bad calls) (Rebuilding u k calls true addresses c)
      (fun _ => Rebuilding u k calls false addresses c) (fun _ => Unbuilt u k calls) (onlyIf there do
        assign u preservePorts
        reraising (Docker.delete env u true) (failFor env (.container u) Reasons.notRebuilt false)) := by
  refine unless_onlyIf (fun _ => ?_) fun _ s hs => ?_
  · refine Unless.bind (J := fun _ s => Rebuilding u k calls false addresses c s ∧ Preserved u s) ?_
      fun _ => ?_
    · exact unless_assign fun s hs => hs.preserved
    · refine (unless_failed hprompt (unless_keeps ?_ (leveled_delete (fun _ hs => hs.2) true) fun _ s hs =>
        unbuilt_of hs.1) _).post fun _ s hs => hs.1
      exact Docker.within_delete u true
  · obtain ⟨⟨h, hhosted⟩, hc⟩ := hs
    have hfalse : Settled u k calls (fun wires => Placed wires addresses []) false true s :=
      ⟨h.wired, h.row, fun hwrite => h.obj (hwrite.elim nofun .inr), h.clean, h.ports, h.few, h.since⟩
    exact ⟨⟨hfalse, hhosted⟩, hc⟩

theorem spoiled_builds {c : Call} {e : Exn} (hc : builds c = true) (hsince : calls <:+ s.log)
    (hanswer : env.answer s.tick c = .raise e) : Spoiled (harmful r .rebuild) calls (s.turn env c) := by
  obtain ⟨before, hlog⟩ := hsince
  exact spoiled_turn hlog.symm hanswer ⟨nofun, .inr hc⟩

variable {nets : List RequestedNetwork} (hips : ∀ n, env.fixedIps n ≠ []) (hprompt : Prompt env k)

include hips

/-- The last `try` of the create that a rebuild runs.  None of its calls may fail. -/
theorem unless_rebuildBuild :
    Unless (Spoiled (harmful r .rebuild) calls)
      (Rebuilding u k calls false addresses (Told addresses nets))
      (fun _ => Settled u k calls (fun _ => True) true false) E
      (build env (defaultDrivers env) (.container u) nets vols) := by
  refine Unless.reraising (F := fun _ _ => False) ?_ fun e => unless_never (within_failFor _ _ _ e)
  have hcall (c : Call) (hc : builds c = true) :
      Unless (Spoiled (harmful r .rebuild) calls)
        (Rebuilding u k calls false addresses (Told addresses nets))
        (fun _ => Rebuilding u k calls false addresses (Told addresses nets)) (fun _ _ => False)
        (call env c) :=
    unless_call (fun _ => rfl) (fun _ hs _ => leveled_turn c hs)
      fun _ _ hs hanswer => .inl (spoiled_builds hc hs.1.1.since hanswer)
  refine Unless.bind (unless_onlyIf (fun _ => hcall _ rfl) fun _ _ hs => hs) fun _ => ?_
  refine (unless_create (fun x before hx hun => ⟨hx, .inl hun⟩) hips vols (fun c hc _ => hcall c hc)
    (fun s c e hs _ hc hanswer => .inl (spoiled_builds hc hs.1.1.since hanswer))
    (fun net hlast s hs => hs.building hlast) fun hnone e s hs => ?_).post fun _ s hs => hs.1
  -- There is a network for every one that the record has.
  obtain ⟨-, hne, htold⟩ := hs
  rw [List.getLast?_eq_none_iff] at hnone
  subst hnone
  cases htold
  exact hne rfl

include hprompt

theorem unless_rebuildCreate :
    Unless (Spoiled (harmful r .rebuild) calls)
      (Rebuilding u k calls false addresses (Told addresses nets))
      (fun _ => Settled u k calls (fun _ => True) true false) (fun _ => Unbuilt u k calls)
      (doContainerCreateBase env (defaultDrivers env) (.container u) nets vols) := by
  have hE (e : Exn) (s : World) (hs : Rebuilding u k calls false addresses (Told addresses nets) s) :
      Unbuilt u k calls s := unbuilt_of hs
  refine unless_updateTaskState (fun s hs _ => hs)
    ((unless_mark _ hE).pre fun _ hs => hs.1) ?_ (fun _ => unless_mark none fun _ s hs =>
      hs.weaken fun _ _ => trivial) fun _ => unless_mark none fun _ _ hs => hs
  refine (unless_plain _ hE).bind fun _ => (unless_plain _ hE).bind fun _ => ?_
  refine Unless.bind (unless_keeps ?_ ?_ hE) fun _ => ?_
  · exact (within_pullImage _).onlyIf
  · refine Within.onlyIf (Within.reraising ?_ fun e => ?_)
    · exact (within_plain _ rfl).bind fun _ => (within_plain _ rfl).onlyIf
    · exact within_failInTime (fun s hs => hs.1.1.few) hprompt _ e
  refine Unless.bind (unless_keeps (within_save u) (within_saveInward u) hE) fun _ => ?_
  exact unless_rebuildBuild hips

/-- What a rebuild does up to the start, when the record names a network. -/
theorem unless_rebuildSteps :
    Unless (Spoiled (harmful r .rebuild) calls)
      (fun s => Settled u k calls (fun _ => True) true true s ∧ Hosted u s ∧
        (s.mem u).val.addresses ≠ [])
      (fun _ => Settled u k calls (fun _ => True) true false) (fun _ => Unbuilt u k calls)
      (rebuildSteps env (defaultDrivers env) u) := by
  have hE (e : Exn) (s : World) (hs : Settled u k calls (fun _ => True) true true s ∧ Hosted u s ∧
      (s.mem u).val.addresses ≠ []) : Unbuilt u k calls s := hs.1.weaken fun _ _ => trivial
  refine Unless.bind (J := fun _ s => Settled u k calls (fun _ => True) true true s ∧ Hosted u s ∧
    (s.mem u).val.addresses ≠ []) ?_ fun volmaps => unless_look fun addresses => ?_
  · refine Unless.bind (unless_call (fun _ => rfl) (fun s hs _ => ?_) fun s e hs _ => .inr ?_)
      fun _ => unless_read _ fun _ hs => hs
    · exact ⟨leveled_turn _ hs.1, leveled_turn _ hs.2.1, hs.2.2⟩
    · exact leveled_turn _ (hE e s hs)
  refine Unless.bind (J := fun nets => Rebuilding u k calls true addresses (Told addresses nets)) ?_
    fun nets => ?_
  · refine unless_failed hprompt ?_ _
    have hinfo : Unless (Spoiled (harmful r .rebuild) calls) (Rebuilding u k calls true addresses True)
        (fun _ => Rebuilding u k calls true addresses True) (fun _ => Unbuilt u k calls)
        (networkInfoOf env addresses) :=
      unless_keeps (within_networkInfoOf _) (leveled_networkInfoOf _) fun _ s hs => unbuilt_of hs
    refine (hinfo.knowing (Q := fun res _ => ∀ nets, res = .ok nets → Told addresses nets)
      fun s _ nets hnets => ?_).conseq (fun s hs => ?_) (fun nets s hs => ?_) fun _ _ hs => hs
    · have hrun : networkInfoOf env addresses s = (.ok nets, (networkInfoOf env addresses s).2) :=
        Prod.ext hnets rfl
      exact told_of_networkInfoOf hrun
    · obtain ⟨⟨h, hhosted, hne⟩, haddr⟩ := hs
      have hlists : (s.mem u).val.addresses = addresses := haddr
      exact ⟨⟨h.with (hlists ▸ h.obj (.inl rfl)), hhosted⟩, hlists ▸ hne, trivial⟩
    · exact ⟨hs.1.1, hs.1.2.1, hs.2 nets rfl⟩
  refine Unless.bind (J := fun _ => Rebuilding u k calls true addresses (Told addresses nets)) ?_
    fun there => ?_
  · refine (unless_plain (I := Rebuilding u k calls true addresses (Told addresses nets)) _
      fun _ s hs => unbuilt_of hs).bind fun _ => ?_
    exact Unless.bind (J := fun _ => Rebuilding u k calls true addresses (Told addresses nets))
      (unless_read _ fun _ hs => hs) fun _ => unless_read _ fun _ hs => hs
  refine (unless_rebuildAway hprompt there).bind fun _ => unless_failed hprompt ?_ _
  refine (unless_rebuildCreate hips hprompt).bind fun _ => ?_
  have hlast : Within (Kept (Settled u k calls (fun _ => True) true false)) (do
      assign u (Obj.setStatus .created)
      assign u (Obj.setStatusReason none)
      save env u) :=
    (within_inward (inward_setStatus _)).bind fun _ =>
      (within_inward (inward_setStatusReason _)).bind fun _ => within_saveInward u
  refine unless_keeps ?_ hlast fun _ s hs => hs.weaken fun _ _ => trivial
  exact (within_inward (inward_setStatus _)).bind fun _ =>
    (within_inward (inward_setStatusReason _)).bind fun _ => within_saveInward u

/-- A rebuild of a container whose record names a network.  If it does not come to mark the record,
the object must not be about to write the addresses. -/
theorem unless_rebuild (run : Bool) :
    Unless (Spoiled (harmful r .rebuild) calls)
      (fun s => Settled u k calls (fun _ => True) true false s ∧ Hosted u s ∧
        (s.mem u).val.addresses ≠ [] ∧
        ((s.mem u).val.taskState ≠ none → (s.mem u).changed.addresses = false))
      (fun _ => Rests u) (fun _ => Rests u)
      (doContainerRebuild env (defaultDrivers env) u run) := by
  have hmark : Unless (Spoiled (harmful r .rebuild) calls)
      (fun s => (Settled u k calls (fun _ => True) true false s ∧ Hosted u s ∧
        (s.mem u).val.addresses ≠ [] ∧
        ((s.mem u).val.taskState ≠ none → (s.mem u).changed.addresses = false)) ∧
        (s.mem u).val.taskState = none)
      (fun _ s => Settled u k calls (fun _ => True) true true s ∧ Hosted u s ∧
        (s.mem u).val.addresses ≠ []) (fun _ => Unbuilt u k calls)
      (mark env u (some .containerRebuilding)) := by
    refine Unless.bind (J := fun _ s => Settled u k calls (fun _ => True) true false s ∧ Hosted u s ∧
      (s.mem u).val.addresses ≠ []) ?_ fun _ => ?_
    · refine unless_assign fun s hs => ?_
      obtain ⟨⟨h, hhosted, hne, -⟩, -⟩ := hs
      have hlevel : Level u s (s.setMem u (Obj.setTaskState (some .containerRebuilding))) :=
        level_setMem (f := Obj.setTaskState _) (fun _ => rfl) (fun _ => rfl) (fun _ => rfl) (fun _ => rfl) s
      exact ⟨h.congr hlevel, Leveled.congr hhosted hlevel, hlevel.addresses ▸ hne⟩
    · refine unless_save (fun s hs => hs.1.row_isSome) (fun s row hs hrow _ => ?_) fun s row e hs _ _ =>
        .inr ((leveled_turn _ hs.1).weaken fun _ _ => trivial)
      obtain ⟨h, hhosted, hne⟩ := hs
      have hturn := level_turn (u := u) env (.save u (s.merged u row)) s
      exact ⟨(h.congr hturn).saved hrow, (Leveled.congr hhosted hturn).saved hrow, by rw [saved_val]; exact hne⟩
  refine (unless_updateTaskState (J := fun _ => Settled u k calls (fun _ => True) true false)
    (E := fun _ => Unbuilt u k calls) (fun s hs hsome => ?_) hmark ?_ (fun _ => ?_) fun _ => ?_).conseq
    (fun _ hs => hs) (fun _ _ hs => hs.rests) fun _ _ hs => hs.rests
  · obtain ⟨h, hhosted, hne, hclean⟩ := hs
    have hchanged := hclean (Option.isSome_iff_ne_none.mp hsome)
    exact ⟨⟨h.wired, h.row, h.obj, fun _ => hchanged, h.ports, h.few, h.since⟩, hhosted, hne⟩
  · refine (unless_rebuildSteps hips hprompt).bind fun _ => ?_
    refine unless_onlyIf (fun _ => ?_) fun _ _ hs => hs
    refine unless_keeps ?_ (within_startInTime (fun s hs => hs.few) hprompt) fun _ s hs =>
      hs.weaken fun _ _ => trivial
    exact spoiled_updateTaskState (within_startOwned (defaultDrivers_lawful env) u)
  · exact unless_mark none fun _ s hs => hs.weaken fun _ _ => trivial
  · exact unless_mark none fun _ _ hs => hs

end Rebuild

end DockerPorts

end Zun
