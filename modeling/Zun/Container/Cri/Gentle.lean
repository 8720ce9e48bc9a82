import Zun.Container.Cri.Life
import Zun.Container.Docker

/-!
# The CRI driver is lawful

The driver leaves to the manager what is the manager's.  One lemma for each function that a
method of the driver calls, in the order of the code.

The functions below a capsule's build work on the record of a member, and say no more of the
capsule than a reason.  `Member` and `Talk` are what a relation has to respect of that, for one
record each, so that a relation may hold on to what the record of the capsule says.
-/

namespace Zun

open Effect Prog

namespace Cri

variable {R : World → World → Prop} {env : Env}

/-! ## Calls to the runtime -/

section Steady

variable [Steady R]

theorem within_createContainer (pod : RuntimeId) (name : Uuid) (attempt : Nat) :
    Within R (createContainer env pod name attempt) :=
  within_aside rfl (.of fun _ => ⟨rfl, rfl, rfl, rfl, rfl, rfl, rfl, rfl, Nat.le_succ _⟩)

theorem within_startContainer (id : RuntimeId) : Within R (startContainer env id) := by
  refine (within_plain _ rfl).bind fun _ => (within_read _).bind fun state => ?_
  split
  · exact within_change (.of fun _ => ⟨rfl, rfl, rfl, rfl, rfl, rfl, rfl, rfl, Nat.le_refl _⟩)
  · exact within_raise _
  · exact within_raise _
  · exact within_raise _

theorem within_stopContainer (id : RuntimeId) : Within R (stopContainer env id) :=
  within_aside rfl (.of fun _ => ⟨rfl, rfl, rfl, rfl, rfl, rfl, rfl, rfl, Nat.le_refl _⟩)

theorem within_removeContainer (id : RuntimeId) : Within R (removeContainer env id) :=
  within_aside rfl (.of fun _ => ⟨rfl, rfl, rfl, rfl, rfl, rfl, rfl, rfl, Nat.le_refl _⟩)

theorem within_removeQuietly (id : RuntimeId) : Within R (removeQuietly env id) :=
  (within_removeContainer id).tolerate

theorem within_despiteRpc {p : Prog World Exn Unit} (hp : Within R p) : Within R (despiteRpc p) :=
  hp.tolerate

theorem within_attemptOf (id : RuntimeId) : Within R (attemptOf env id) :=
  ((within_ask _ _ rfl).bind fun _ => within_pure _).tolerate

theorem within_sandboxOf (u : Uuid) : Within R (sandboxOf env u) := by
  refine Within.bind ?_ fun labelled => (within_read _).bind fun id => ?_
  · exact (within_ask _ _ rfl).tolerate
  cases labelled with
  | some pod => exact within_pure _
  | none =>
      cases id with
      | none => exact within_pure _
      | some id =>
          exact ((within_ask _ _ rfl).bind fun _ => within_pure _).tolerate

theorem within_containerStatus (id : RuntimeId) : Within R (containerStatus env id) := by
  refine (within_ask _ _ rfl).bind fun found => ?_
  cases found with
  | some c => exact within_pure _
  | none => exact within_raise _

theorem within_stopIfAbandoned (u : Uuid) : Within R (stopIfAbandoned u) :=
  (within_read _).bind fun _ => (within_raise _).onlyIf

theorem within_probePassed (u : Uuid) (probe : Probe) (state : ProbeState) (kind : ProbeKind) :
    Within R (probePassed env u probe state kind) :=
  (within_read _).bind fun _ => (within_ask _ _ rfl).bind fun _ =>
    within_ite (within_pure _) (within_pure _)

theorem within_carryWritableLayer (dead replacement : RuntimeId) :
    Within R (carryWritableLayer env dead replacement) := by
  refine Within.tryExcept ?_ fun _ => within_pure _
  refine (within_plain _ rfl).bind fun _ => (within_plain _ rfl).bind fun _ => ?_
  exact ((within_plain _ rfl).onlyIf).bind fun _ => within_pure _

theorem within_checkContainerExist (u : Uuid) : Within R (checkContainerExist env u) := by
  refine (within_read _).bind fun id => ?_
  cases id with
  | none => exact within_pure _
  | some id =>
      exact ((within_ask _ _ rfl).bind fun _ => within_pure _).tolerate

end Steady

section Outer

variable [Outer R]

theorem within_runPodSandbox (owner : Uuid) : Within R (runPodSandbox env owner) := (within_beside (.of fun _ => ⟨rfl, rfl, rfl, rfl, rfl, rfl⟩))

theorem within_stopPodSandbox (pod : RuntimeId) : Within R (stopPodSandbox env pod) :=
  (within_beside (.of fun _ => ⟨rfl, rfl, rfl, rfl, rfl, rfl⟩))

theorem within_removePodSandbox (pod : RuntimeId) : Within R (removePodSandbox env pod) :=
  (within_beside (.of fun _ => ⟨rfl, rfl, rfl, rfl, rfl, rfl⟩))

theorem within_deleteSandbox (pod : RuntimeId) : Within R (deleteSandbox env pod) := by
  refine Within.bind ?_ fun _ => ?_
  · exact (within_stopPodSandbox pod).tolerate
  · exact (within_removePodSandbox pod).tolerate

theorem within_deleteNeutronPorts (u : Uuid) : Within R (deleteNeutronPorts env u) :=
  (within_read _).bind fun _ => (within_deleteOrUnbindPorts _ _).onlyIf

theorem within_deleteCapsule (c : Capsule) (force : Bool) : Within R (deleteCapsule env c force) := by
  refine (within_read _).bind fun pod => ?_
  cases pod with
  | none => exact within_pure _
  | some pod =>
      refine Within.bind (Within.onlyIf ?_) fun _ => (within_deleteSandbox pod).bind fun _ =>
        within_deleteNeutronPorts _
      refine (within_read _).bind fun sidecars => Within.onlyIf (within_forEach fun m _ => ?_)
      exact (within_read _).bind fun id => Within.onlyIf
        (within_despiteRpc (within_stopContainer _))

theorem within_delete (u : Uuid) (force : Bool) : Within R (delete env u force) := by
  refine (within_sandboxOf u).bind fun pod => Within.bind ?_ fun _ => within_deleteNeutronPorts u
  refine (within_read _).bind fun id => ?_
  cases pod with
  | some pod => exact within_deleteSandbox pod
  | none =>
      cases id with
      | some id => exact within_removeQuietly id
      | none => exact within_pure _

end Outer

/-! ## What is done to a member -/

/-- An assignment to the record of a member: the tally of its restarts only rises. -/
structure Inner (f : Obj → Obj) : Prop extends Mild f where
  addresses : ∀ o, (f o).val.addresses = o.val.addresses
  statusReason : ∀ o, (f o).val.statusReason = o.val.statusReason
  restartCount : ∀ o, o.val.restartCount ≤ (f o).val.restartCount

/-- A relation that respects what is done to the record of a member. -/
structure Member (R : World → World → Prop) (u : Uuid) : Prop where
  assign : ∀ {s : World} {f : Obj → Obj}, Inner f → R s (s.setMem u f)
  save : ∀ {s : World} {row : Record}, s.db u = some row → R s (s.saved u row)

/-- A relation that respects a reason on a record. -/
structure Talk (R : World → World → Prop) (u : Uuid) : Prop where
  reason : ∀ {s : World} (v : Option String), R s (s.setMem u (Obj.setStatusReason v))
  save : ∀ {s : World} {row : Record}, s.db u = some row → R s (s.saved u row)

theorem member_of_tolerant [Tolerant R] (u : Uuid) : Member R u where
  assign h := Tolerant.assign h.toMild
  save h := Tolerant.save h

theorem talk_of_tame [Tame R] (u : Uuid) : Talk R u where
  reason v := Tame.assign (meek_setStatusReason v)
  save h := Tame.save h

theorem inner_setStatus (v : Status) : Inner (Obj.setStatus v) :=
  ⟨mild_setStatus v, fun _ => rfl, fun _ => rfl, fun _ => Nat.le_refl _⟩
theorem inner_setStatusDetail (v : Option Detail) : Inner (Obj.setStatusDetail v) :=
  ⟨(meek_setStatusDetail v).toMild, fun _ => rfl, fun _ => rfl, fun _ => Nat.le_refl _⟩
theorem inner_setExitCode (v : Option Int) : Inner (Obj.setExitCode v) :=
  ⟨(meek_setExitCode v).toMild, fun _ => rfl, fun _ => rfl, fun _ => Nat.le_refl _⟩
theorem inner_setStartedAt (v : Option Nat) : Inner (Obj.setStartedAt v) :=
  ⟨(meek_setStartedAt v).toMild, fun _ => rfl, fun _ => rfl, fun _ => Nat.le_refl _⟩
theorem inner_setContainerId (v : Option RuntimeId) : Inner (Obj.setContainerId v) :=
  ⟨(meek_setContainerId v).toMild, fun _ => rfl, fun _ => rfl, fun _ => Nat.le_refl _⟩
theorem inner_setProbeState {f : Obj → ProbeState}
    (h : ∀ o, o.val.restartCount ≤ (f o).restarts.getD 0) : Inner fun o => o.setProbeState (f o) :=
  ⟨(meek_setProbeState f).toMild, fun _ => rfl, fun _ => rfl, h⟩

/-- A relation that respects an assignment that leaves the addresses of a record alone, and a `save`. -/
structure Addressed (R : World → World → Prop) : Prop where
  assign : ∀ {s : World} {v : Uuid} {f : Obj → Obj}, (∀ o, (f o).val.addresses = o.val.addresses) →
    R s (s.setMem v f)
  save : ∀ {s : World} {v : Uuid} {row : Record}, s.db v = some row → R s (s.saved v row)

theorem member_of_addressed (h : Addressed R) (m : Uuid) : Member R m where
  assign hf := h.assign hf.addresses
  save hrow := h.save hrow

theorem talk_of_addressed (h : Addressed R) (u : Uuid) : Talk R u where
  reason _ := h.assign fun _ => rfl
  save hrow := h.save hrow

theorem within_addressed (h : Addressed R) {v : Uuid} {f : Obj → Obj}
    (hf : ∀ o, (f o).val.addresses = o.val.addresses) : Within R (assign v f) :=
  within_modify fun _ => h.assign hf

theorem within_inner {u : Uuid} (hu : Member R u) {f : Obj → Obj} (h : Inner f) : Within R (assign u f) :=
  within_modify fun _ => hu.assign h

theorem within_bumpTally {u : Uuid} (hu : Member R u) : Within R (bumpTally u) :=
  within_inner hu (inner_setProbeState fun _ => Nat.le_succ _)

theorem within_resetProbes {u : Uuid} (hu : Member R u) (more : Nat) : Within R (resetProbes u more) :=
  within_inner hu (inner_setProbeState fun _ => Nat.le_add_right _ _)

section Member

variable [Steady R] {u m : Uuid}

theorem within_memberSave (hu : Member R u) : Within R (save env u) :=
  within_save_of fun _ _ hrow => hu.save hrow

theorem within_addressedSave (h : Addressed R) (v : Uuid) : Within R (save env v) :=
  within_save_of fun _ _ hrow => h.save hrow

theorem within_recordStart (hu : Member R u) : Within R (recordStart env u) := by
  refine within_despiteRpc ((within_read _).bind fun id => ?_)
  exact (within_containerStatus id).bind fun c => (within_inner hu (inner_setStartedAt _)).onlyIf

theorem within_recordExit (hu : Member R u) : Within R (recordExit env u) := by
  refine (within_read _).bind fun detail => Within.onlyIf (within_despiteRpc ?_)
  refine (within_read _).bind fun id => (within_containerStatus id).bind fun c => ?_
  refine (within_inner hu (inner_setStatusDetail _)).bind fun _ => ?_
  refine (within_inner hu (inner_setExitCode _)).bind fun _ => ?_
  exact (within_inner hu (inner_setStartedAt _)).onlyIf

theorem within_populateRunning (hu : Member R u) : Within R (populateRunning env u) := by
  refine (within_inner hu (inner_setStatus _)).bind fun _ => (within_read _).bind fun r => ?_
  refine ((within_inner hu (inner_setStatusDetail _)).onlyIf).bind fun _ => ?_
  exact (within_recordStart hu).onlyIf

theorem within_stillPaused (id : RuntimeId) : Within R (stillPaused env id) :=
  (within_ask _ _ rfl).tolerate

theorem within_pausedNow (u : Uuid) (id : RuntimeId) : Within R (pausedNow env u id) :=
  (within_read _).bind fun _ => within_ite (within_stillPaused id) (within_pure _)

theorem within_populateContainerState (hu : Member R u) (c : CriContainer) :
    Within R (populateContainerState env u c) := by
  unfold populateContainerState
  split
  · exact within_inner hu (inner_setStatus _)
  · exact (within_pausedNow u c.id).bind fun paused => (within_populateRunning hu).onlyIf
  · exact (within_inner hu (inner_setStatus _)).bind fun _ => within_recordExit hu
  · exact within_inner hu (inner_setStatus _)

theorem within_showContainer (hu : Member R u) : Within R (showContainer env u) := by
  refine (within_read _).bind fun id => ?_
  cases id with
  | none => exact within_pure _
  | some id =>
      refine (within_ask _ _ rfl).bind fun found => ?_
      cases found with
      | none => exact within_raise _
      | some c => exact within_populateContainerState hu c

theorem within_showStatus (hu : Member R u) : Within R (showStatus env u) :=
  (within_read _).bind fun _ => Within.bind (within_raise _).onlyIf fun _ =>
    (within_showContainer hu).bind fun _ => within_read _

/-- Making a container writes its id and saves the record. -/
theorem within_createContainerIn_of (hid : ∀ id, Within R (assign u (Obj.setContainerId id)))
    (hsave : Within R (save env u)) (owner : Uuid) (start : Bool) (attempt : Option Nat) :
    Within R (createContainerIn env owner u start attempt) := by
  refine (within_plain _ rfl).bind fun _ => (within_stopIfAbandoned owner).bind fun _ => ?_
  refine (within_plain _ rfl).bind fun _ => (within_read _).bind fun pod => ?_
  refine (within_read _).bind fun tally => (within_createContainer _ _ _).bind fun _ => ?_
  refine (within_read _).bind fun made => (hid _).bind fun _ => hsave.bind fun _ => ?_
  exact (within_startContainer _).onlyIf

theorem within_createContainerIn (hu : Member R u) (owner : Uuid) (start : Bool)
    (attempt : Option Nat) : Within R (createContainerIn env owner u start attempt) :=
  within_createContainerIn_of (fun _ => within_inner hu (inner_setContainerId _)) (within_memberSave hu) _ _ _

theorem within_recordRunning (hu : Member R u) : Within R (recordRunning env u) :=
  (within_inner hu (inner_setStatus _)).bind fun _ => (within_recordStart hu).bind fun _ =>
    within_memberSave hu

theorem within_recordNewRun (hu : Member R u) : Within R (recordNewRun env u) :=
  (within_inner hu (inner_setStatus _)).bind fun _ =>
    (within_inner hu (inner_setStatusDetail _)).bind fun _ =>
      (within_recordStart hu).bind fun _ => within_memberSave hu

theorem within_restartContainer (hu : Member R u) (owner : Uuid) :
    Within R (restartContainer env owner u) := by
  refine (within_read _).bind fun old => (within_bumpTally hu).bind fun _ => ?_
  refine Within.tryExcept ?_ fun _ => within_pure _
  refine (within_despiteRpc (within_stopContainer old)).bind fun _ => ?_
  refine (within_plain _ rfl).bind fun _ => (within_createContainerIn hu _ _ _).bind fun _ => ?_
  exact (within_despiteRpc (within_removeContainer old)).bind fun _ => within_pure _

theorem within_discardForRetry (hu : Member R u) : Within R (discardForRetry env u) :=
  (within_resetProbes hu _).bind fun _ => within_despiteRpc ((within_read _).bind fun _ =>
    (within_stopContainer _).bind fun _ => within_removeQuietly _)

theorem within_restartSidecar (hm : Member R m) (c : Uuid) : Within R (restartSidecar env c m) := by
  refine (within_restartContainer hm c).bind fun done => (within_read _).bind fun now => ?_
  refine Within.onlyIf (Within.bind ?_ fun _ => within_recordNewRun hm)
  exact within_inner hm (inner_setProbeState fun _ => Nat.le_refl _)

end Member

/-! ## Building -/

section Build

variable [Steady R] {c m : Uuid} {sidecars : List Uuid}

theorem within_tendSidecars (hs : ∀ m ∈ sidecars, Member R m) (c : Uuid) :
    Within R (tendSidecars env c sidecars) := by
  refine within_forEach fun m hm => Within.swallow ?_
  refine (within_showContainer (hs m hm)).bind fun _ => (within_read _).bind fun r => ?_
  exact (within_read _).bind fun now => (within_restartSidecar (hs m hm) c).onlyIf

theorem within_waitForInitContainer (hm : Member R m) (hs : ∀ m ∈ sidecars, Member R m)
    (c : Uuid) : Within R (waitForInitContainer env c m sidecars) := by
  refine within_loop (fun _ => (within_stopIfAbandoned c).bind fun _ => ?_) _ _
  refine Within.bind ?_ fun status => within_ite (within_pure _) ?_
  · exact (within_showStatus hm).tolerate
  · exact Within.bind (within_raise _).onlyIf fun _ => (within_tendSidecars hs c).bind
      fun _ => within_pure _

theorem within_waitToRetry (hc : Talk R c) (hs : ∀ m ∈ sidecars, Member R m) (delay : Nat)
    (why : String) : Within R (waitToRetry env c sidecars delay why) := by
  refine Within.bind (within_modify fun _ => hc.reason _) fun _ => ?_
  refine Within.bind (within_save_of fun _ _ hrow => hc.save hrow) fun _ => ?_
  refine Within.bind (within_forEach fun _ _ => ?_) fun _ => within_stopIfAbandoned c
  exact (within_stopIfAbandoned c).bind fun _ => within_tendSidecars hs c

theorem within_runInitContainer (hc : Talk R c) (hm : Member R m)
    (hs : ∀ m ∈ sidecars, Member R m) : Within R (runInitContainer env c m sidecars) := by
  refine within_loop (fun failures => ?_) _ _
  refine (within_inner hm (inner_setStatusDetail _)).bind fun _ => ?_
  refine (within_inner hm (inner_setExitCode _)).bind fun _ => ?_
  refine (within_createContainerIn hm _ _ _).bind fun _ => (within_recordRunning hm).bind fun _ => ?_
  refine (within_waitForInitContainer hm hs c).bind fun _ => (within_memberSave hm).bind fun _ => ?_
  refine (within_read _).bind fun detail => ?_
  split
  · exact within_pure _
  · refine (within_read _).bind fun again => Within.bind (within_raise _).onlyIf fun _ => ?_
    refine (within_waitToRetry hc hs _ _).bind fun _ => (within_discardForRetry hm).bind fun _ => ?_
    exact within_pure _

/-- The probes of a sidecar's start move as the writes of its probe state do. -/
theorem within_sidecarStarted (hm : Member R m) (hs : ∀ m ∈ sidecars, Member R m)
    (hprobe : ∀ state, Within R (saveProbeState env m state)) (c : Uuid) :
    Within R (sidecarStarted env c m sidecars) := by
  refine (within_read _).bind fun r => ?_
  split
  · exact within_pure _
  refine within_loop (fun state => (within_stopIfAbandoned c).bind fun _ => ?_) _ _
  refine (within_showStatus hm).bind fun status => within_ite (within_pure _) ?_
  refine (within_read _).bind fun now => (within_read _).bind fun r => within_ite ?_ ?_
  · refine (within_probePassed _ _ _ _).bind fun verdict => ?_
    obtain ⟨passed, state⟩ := verdict
    refine within_ite ?_ ?_
    · exact (hprobe _).bind fun _ => within_pure _
    · refine (hprobe _).bind fun _ => within_ite (within_pure _) ?_
      exact (within_tendSidecars hs c).bind fun _ => within_pure _
  · exact (within_tendSidecars hs c).bind fun _ => within_pure _

theorem within_startSidecar (hc : Talk R c) (hm : Member R m) (hs : ∀ m ∈ sidecars, Member R m)
    (hstarted : Within R (sidecarStarted env c m sidecars)) :
    Within R (startSidecar env c m sidecars) := by
  refine (within_resetProbes hm _).bind fun _ => ?_
  refine within_loop (fun failures => (within_createContainerIn hm _ _ _).bind fun _ => ?_) _ _
  refine (within_recordNewRun hm).bind fun _ => ?_
  refine hstarted.bind fun started => within_ite (within_pure _) ?_
  refine (within_waitToRetry hc hs _ _).bind fun _ => (within_discardForRetry hm).bind fun _ => ?_
  exact within_pure _

theorem within_runInitEach (hc : Talk R c) {ms : List Uuid} (hms : ∀ m ∈ ms, Member R m)
    (hprobe : ∀ m ∈ ms, ∀ state, Within R (saveProbeState env m state))
    (hs : ∀ m ∈ sidecars, Member R m) : Within R (runInitEach env c ms sidecars) := by
  induction ms generalizing sidecars with
  | nil => exact within_pure _
  | cons m ms ih =>
      have hm := hms m (List.mem_cons_self ..)
      have hstarted := within_sidecarStarted hm hs (hprobe m (List.mem_cons_self ..)) c
      have hrest : ∀ m ∈ ms, Member R m := fun n hn => hms n (List.mem_cons_of_mem _ hn)
      have hprobes : ∀ n ∈ ms, ∀ state, Within R (saveProbeState env n state) :=
        fun n hn => hprobe n (List.mem_cons_of_mem _ hn)
      have hmore : ∀ n ∈ sidecars ++ [m], Member R n := by
        intro n hn
        obtain hn | hn := List.mem_append.mp hn
        · exact hs n hn
        · rw [List.mem_singleton.mp hn]
          exact hm
      refine (within_stopIfAbandoned c).bind fun _ => (within_read _).bind fun sidecar => ?_
      refine within_ite ?_ ?_
      · exact (within_startSidecar hc hm hs hstarted).bind fun _ => ih hrest hprobes hmore
      · exact (within_runInitContainer hc hm hs).bind fun _ => ih hrest hprobes hs

theorem within_runInitMembers {c : Capsule} (hc : Talk R c.uuid)
    (hms : ∀ m ∈ c.initContainers, Member R m)
    (hprobe : ∀ m ∈ c.initContainers, ∀ state, Within R (saveProbeState env m state)) :
    Within R (runInitMembers env c) := by
  have hnone : ∀ m ∈ ([] : List Uuid), Member R m := by
    intro m hm
    cases hm
  refine (within_runInitEach hc hms hprobe hnone).bind fun _ => (within_read _).bind fun _ => ?_
  exact Within.onlyIf (Within.bind (within_modify fun _ => hc.reason _) fun _ =>
    within_save_of fun _ _ hrow => hc.save hrow)

theorem within_buildMember (hm : Member R m) (c : Uuid) :
    Within R (do
      stopIfAbandoned c
      createContainerIn env c m true none
      recordRunning env m) :=
  (within_stopIfAbandoned c).bind fun _ => (within_createContainerIn hm _ _ _).bind fun _ =>
    within_recordRunning hm

/-- What `_rebuild_capsule` does once the sandbox is made. -/
theorem within_rebuilt (h : Addressed R) (c : Capsule) : Within R (do
    save env c.uuid
    runInitMembers env c
    forEach c.containers (rebuildMember env c.uuid)
    assign c.uuid (Obj.setStatus .running)
    assign c.uuid (Obj.setTaskState none)
    let now ← read fun s => env.now s.tick
    let started ← obj c.uuid (·.startedAt)
    onlyIf started.isNone (assign c.uuid (Obj.setStartedAt (some now)))
    save env c.uuid) := by
  refine (within_addressedSave h _).bind fun _ => Within.bind ?_ fun _ => Within.bind ?_ fun _ => ?_
  · refine within_runInitMembers (talk_of_addressed h _) (fun m _ => member_of_addressed h m) fun m _ state => ?_
    refine (within_read _).bind fun _ => Within.onlyIf ?_
    exact Within.bind (within_addressed h fun _ => rfl) fun _ => within_addressedSave h m
  · refine within_forEach fun m _ => (within_stopIfAbandoned _).bind fun _ => ?_
    have hm : Member R m := member_of_addressed h m
    refine (within_plain _ rfl).bind fun _ => (within_bumpTally hm).bind fun _ => ?_
    exact (within_createContainerIn hm _ _ _).bind fun _ => within_recordNewRun hm
  · refine Within.bind (within_addressed h fun _ => rfl) fun _ => ?_
    refine Within.bind (within_addressed h fun _ => rfl) fun _ => ?_
    refine (within_read _).bind fun _ => (within_read _).bind fun _ => ?_
    exact Within.bind (Within.onlyIf (within_addressed h fun _ => rfl)) fun _ => within_addressedSave h _

/-- A rebuild moves as the removal of the old sandbox does and the making of the new one. -/
theorem wp_rebuildCapsule_of (h : Addressed R) {c : Capsule} {s : World}
    (hbox : ∀ pod, Within R (deleteSandbox env pod))
    (hpod : Within R (createPodSandbox env c.uuid (networksOf (s.mem c.uuid).val))) :
    wp (rebuildCapsule env c) (fun _ s' => R s s') s := by
  unfold rebuildCapsule
  rw [wp_bind, wp_obj, seqPost_ok]
  refine Within.wp (R := R) ?_ s
  exact (hbox _).bind fun _ => (within_raise _).onlyIf.bind fun _ => hpod.bind fun _ => within_rebuilt h c

theorem within_writeCniMetadata_of {u : Uuid}
    (hport : ∀ net, Within R (Neutron.createOrUpdatePort env u net))
    (haddr : ∀ v, Within R (assign u (Obj.setAddresses v))) (hsave : Within R (save env u))
    (nets : List RequestedNetwork) : Within R (writeCniMetadata env u nets) := by
  refine (within_plain _ rfl).bind fun _ => ?_
  cases nets with
  | nil => exact within_raise _
  | cons net nets =>
      refine (hport net).bind fun addrs => (haddr _).bind fun _ => (within_plain _ rfl).bind fun _ => ?_
      refine (within_forEach fun _ _ => within_plain _ rfl).bind fun _ => ?_
      exact (within_plain _ rfl).bind fun _ => hsave

end Build

/-! ## Sandboxes and capsules -/

section Tame

variable [Outer R] [Tame R]

theorem within_writeCniMetadata (u : Uuid) (nets : List RequestedNetwork) :
    Within R (writeCniMetadata env u nets) :=
  within_writeCniMetadata_of (within_createOrUpdatePort u)
    (fun _ => within_meek (meek_setAddresses _)) (within_save u) nets

theorem within_createPodSandbox (u : Uuid) (nets : List RequestedNetwork) :
    Within R (createPodSandbox env u nets) := by
  refine (within_writeCniMetadata u nets).bind fun _ => (within_plain _ rfl).bind fun _ => ?_
  refine (within_runPodSandbox u).bind fun _ => (within_read _).bind fun pod => ?_
  exact (within_meek (meek_setContainerId _)).bind fun _ => within_plain _ rfl

theorem within_undoCreate (u : Uuid) : Within R (undoCreate env u) := by
  refine Within.bind ?_ fun _ => (within_read _).bind fun _ => Within.onlyIf (Within.swallow ?_)
  · refine (within_read _).bind fun pod => ?_
    cases pod with
    | none => exact within_pure _
    | some pod =>
        exact Within.swallow ((within_deleteSandbox pod).bind fun _ =>
          within_meek (meek_setContainerId _))
  · exact (within_deleteNeutronPorts u).bind fun _ => within_meek (meek_setAddresses _)

/-! ## A container of its own -/

theorem within_create (u : Uuid) (nets : List RequestedNetwork) (vols : RequestedVolumes) :
    Within R (create env u nets vols) := by
  refine (within_plain _ rfl).bind fun _ => (within_createPodSandbox u nets).bind fun _ => ?_
  refine Within.bind (within_createContainerIn_of (fun _ => within_meek (meek_setContainerId _))
    (within_save u) _ _ _) fun _ => ?_
  exact (within_meek (meek_setStatus rfl)).bind fun _ => within_meek (meek_setStatusReason _)

theorem within_restartExited (u : Uuid) : Within R (restartExited env u) := by
  refine (within_sandboxOf u).bind fun pod => ?_
  cases pod with
  | none => exact within_raise _
  | some pod =>
      refine (within_read _).bind fun dead => (within_plain _ rfl).bind fun _ => ?_
      refine (within_attemptOf _).bind fun attempt => Within.bind ?_ fun _ => ?_
      · refine (within_meek (meek_setContainerId _)).bind fun _ => ?_
        exact Within.reraising (within_createContainerIn_of
          (fun _ => within_meek (meek_setContainerId _)) (within_save u) _ _ _) fun _ =>
            within_meek (meek_setContainerId _)
      refine (within_read _).bind fun new => (within_carryWritableLayer _ _).bind fun carried => ?_
      refine Within.bind ?_ fun _ => (within_removeQuietly _).bind fun _ =>
        within_meek (meek_setStatusReason _)
      exact (within_read _).bind fun new => (within_startContainer _).reraising fun _ =>
        within_meek (meek_setContainerId _)

end Tame

section Tolerant

variable [Outer R] [Tolerant R]

theorem within_start (u : Uuid) : Within R (start env u) := by
  refine (within_read _).bind fun id => ?_
  cases id with
  | none => exact within_raise _
  | some id =>
      refine Within.bind ?_ fun rebuilt => (within_assign (mild_setStatus _)).bind fun _ =>
        (within_meek (meek_setStatusReason _)).onlyIf
      refine ((within_startContainer id).bind fun _ => within_pure _).tryExcept fun e => ?_
      exact within_ite ((within_restartExited u).bind fun _ => within_pure _) (within_raise e)

theorem within_stop (u : Uuid) : Within R (stop env u) := by
  refine (within_read _).bind fun id => ?_
  cases id with
  | none => exact within_pure _
  | some id =>
      refine (within_stopContainer id).bind fun _ => (within_assign (mild_setStatus _)).bind
        fun _ => ?_
      exact (within_meek (meek_setStatusReason _)).bind fun _ =>
        within_meek (meek_setStatusDetail _)

theorem within_taskCall (status : Status) (u : Uuid) : Within R (taskCall env status u) :=
  (within_read _).bind fun _ => (within_plain _ rfl).bind fun _ =>
    (within_assign (mild_setStatus _)).bind fun _ => within_meek (meek_setStatusReason _)

theorem within_saveProbeState (u : Uuid) (state : ProbeState) :
    Within R (saveProbeState env u state) :=
  (within_read _).bind fun _ => Within.onlyIf
    ((within_meek (meek_setProbeState _)).bind fun _ => within_save u)

theorem within_buildCapsule (c : Capsule) (nets : List RequestedNetwork) :
    Within R (buildCapsule env c nets) := by
  have hm : ∀ m, Member R m := member_of_tolerant
  refine (within_createPodSandbox _ nets).bind fun _ => (within_save _).bind fun _ => ?_
  refine Within.bind ?_ fun _ => within_forEach fun m _ => within_buildMember (hm m) _
  exact within_runInitMembers (talk_of_tame _) (fun m _ => hm m) fun m _ => within_saveProbeState m

end Tolerant

/-! ## The drivers -/

/-- The CRI driver leaves to the manager what is the manager's. -/
theorem driver_lawful (env : Env) : (driver env).Lawful where
  create u nets vols _ _ _ := within_create u nets vols
  delete u force _ _ _ := within_delete u force
  start u _ _ _ := within_start u
  stop u _ _ _ := within_stop u
  reboot u _ _ _ := (within_stop u).bind fun _ => within_start u
  pause u _ _ _ := within_taskCall _ u
  unpause u _ _ _ := within_taskCall _ u
  kill _ _ _ _ := (within_read _).bind fun _ => within_plain _ rfl
  checkContainerExist u _ _ _ := within_checkContainerExist u

theorem capsuleDriver_lawful (env : Env) : (capsuleDriver env).Lawful where
  createCapsule c nets _ _ _ _ :=
    ((within_buildCapsule c nets).reraising fun _ => within_undoCreate _).bind fun _ =>
      within_assign (mild_setStatus _)
  deleteCapsule c force _ _ _ := within_deleteCapsule c force

end Cri

/-- A node that runs containers with docker and capsules with the CRI, as the defaults of
`zun/conf/container_driver.py` have it. -/
def defaultDrivers (env : Env) : Drivers where
  driver := Docker.driver env
  capsuleDriver := Cri.capsuleDriver env

/-- A node that runs both with the CRI. -/
def criDrivers (env : Env) : Drivers where
  driver := Cri.driver env
  capsuleDriver := Cri.capsuleDriver env

theorem defaultDrivers_lawful (env : Env) : (defaultDrivers env).Lawful :=
  ⟨Docker.driver_lawful env, Cri.capsuleDriver_lawful env⟩

end Zun
