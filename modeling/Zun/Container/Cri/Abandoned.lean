import Zun.Container.Cri.Life

/-!
# A rebuild that no delete abandons

`_rebuild_under_lock` leaves a capsule as it is when the rebuild ends with
`CapsuleCreateAbandoned`, for the delete that waits behind the lock.  So what a rebuild leaves
depends on what it raises.  When no delete arrives and every call is answered it raises no such
exception.  One lemma for each function below `_rebuild_capsule`, in the order of the code.
-/

namespace Zun

open Effect Prog

namespace Cri

/-- Every call is answered and no delete arrives. -/
structure Undisturbed (env : Env) : Prop extends Answered env where
  abandons : ∀ n, env.abandons n = []

/-- While no capsule is abandoned, the program abandons none and does not raise that one was. -/
abbrev Unabandoned {α : Type} (p : Prog World Exn α) : Prop :=
  Guarded (fun s => s.abandoned = []) (fun e => e.cls ≠ .capsuleCreateAbandoned) p

variable {env : Env} {u c m : Uuid} {sidecars : List Uuid}

section Calls

variable (h : Undisturbed env)

include h

theorem unabandoned_call {c : Call} {effect : World → World}
    (heffect : ∀ s, (effect s).abandoned = s.abandoned) :
    Unabandoned (call env c effect) := by
  intro s hs
  refine wp_answered h.toAnswered ⟨(heffect _).trans ?_, nofun⟩
  change env.abandons s.tick ++ s.abandoned = []
  rw [h.abandons, hs]
  rfl

theorem unabandoned_ask {α : Type} (c : Call) (f : World → α) : Unabandoned (ask env c f) :=
  (unabandoned_call h fun _ => by rfl).bind fun _ => guarded_read f

theorem unabandoned_save (u : Uuid) : Unabandoned (save env u) := by
  intro s hs
  unfold save
  cases hrow : s.db u with
  | none =>
      simp only [wp, hrow]
      refine ⟨hs, ?_⟩
      rintro e he
      cases he
      decide
  | some row =>
      have hcall : Unabandoned (call env (.save u (s.merged u row)) (World.saved u row)) :=
        unabandoned_call h fun _ => by rfl
      simp only [wp, hrow]
      exact hcall s hs

end Calls

theorem unabandoned_assign (f : Obj → Obj) : Unabandoned (assign u f) :=
  guarded_modify fun _ hs => hs

theorem unabandoned_stopIfAbandoned (u : Uuid) : Unabandoned (stopIfAbandoned u) := by
  intro s hs
  unfold stopIfAbandoned
  rw [wp_bind, wp_read, seqPost_ok, hs]
  exact ⟨hs, nofun⟩

theorem Unabandoned.filter {α : Type} {p : Prog World Exn α} (hp : Unabandoned p)
    {again : Exn → Bool} {a : α} :
    Unabandoned (tryExcept p fun e => if again e then pure a else raise e) :=
  hp.tryExcept fun _ he => guarded_ite (guarded_pure _) (guarded_raise he)

theorem unabandoned_despiteRpc {p : Prog World Exn Unit} (hp : Unabandoned p) :
    Unabandoned (despiteRpc p) := hp.filter

section Runtime

variable (h : Undisturbed env)

include h

/-! ## The runtime -/

theorem unabandoned_deleteSandbox (pod : RuntimeId) : Unabandoned (deleteSandbox env pod) := by
  refine Guarded.bind (unabandoned_call h fun _ => by rfl).filter fun _ => ?_
  exact (unabandoned_call h fun _ => by rfl).tryExcept fun _ he => guarded_ite (guarded_pure _) (guarded_raise he)

theorem unabandoned_createOrUpdatePort (u : Uuid) (net : RequestedNetwork) :
    Unabandoned (Neutron.createOrUpdatePort env u net) := by
  unfold Neutron.createOrUpdatePort
  split
  · refine (unabandoned_call h fun _ => by rfl).bind fun _ => (guarded_read _).bind fun found => ?_
    cases found with
    | some port => exact guarded_pure _
    | none => exact guarded_raise nofun
  · exact (unabandoned_call h fun _ => by rfl).bind fun _ => (guarded_read _).bind fun _ => guarded_pure _

theorem unabandoned_createPodSandbox (u : Uuid) (nets : List RequestedNetwork) :
    Unabandoned (createPodSandbox env u nets) := by
  refine Guarded.bind ?_ fun _ => (unabandoned_call h fun _ => by rfl).bind fun _ => ?_
  · refine (unabandoned_call h fun _ => by rfl).bind fun _ => ?_
    cases nets with
    | nil => exact guarded_raise nofun
    | cons net nets =>
        refine (unabandoned_createOrUpdatePort h u net).bind fun addrs => ?_
        refine (unabandoned_assign _).bind fun _ => (unabandoned_call h fun _ => by rfl).bind fun _ => ?_
        refine (guarded_forEach fun _ _ => unabandoned_call h fun _ => by rfl).bind fun _ => ?_
        exact (unabandoned_call h fun _ => by rfl).bind fun _ => unabandoned_save h u
  · refine (unabandoned_call h fun _ => by rfl).bind fun _ => (guarded_read _).bind fun pod => ?_
    exact (unabandoned_assign _).bind fun _ => unabandoned_call h fun _ => by rfl

theorem unabandoned_startContainer (id : RuntimeId) : Unabandoned (startContainer env id) := by
  refine (unabandoned_call h fun _ => by rfl).bind fun _ => (guarded_read _).bind fun state => ?_
  split
  · exact guarded_modify fun _ hs => hs
  · exact guarded_raise nofun
  · exact guarded_raise nofun
  · exact guarded_raise nofun

theorem unabandoned_removeQuietly (id : RuntimeId) : Unabandoned (removeQuietly env id) :=
  (unabandoned_call h fun _ => by rfl).tryExcept fun _ he => guarded_ite (guarded_pure _) (guarded_raise he)

theorem unabandoned_containerStatus (id : RuntimeId) : Unabandoned (containerStatus env id) := by
  refine (unabandoned_ask h _ _).bind fun found => ?_
  cases found with
  | some c => exact guarded_pure _
  | none => exact guarded_raise nofun

theorem unabandoned_createContainerIn (owner u : Uuid) (start : Bool) (attempt : Option Nat) :
    Unabandoned (createContainerIn env owner u start attempt) := by
  refine (unabandoned_call h fun _ => by rfl).bind fun _ => (unabandoned_stopIfAbandoned owner).bind fun _ => ?_
  refine (unabandoned_call h fun _ => by rfl).bind fun _ => (guarded_read _).bind fun pod => ?_
  refine (guarded_read _).bind fun tally => (unabandoned_call h fun _ => by rfl).bind fun _ => ?_
  refine (guarded_read _).bind fun made => (unabandoned_assign _).bind fun _ => ?_
  exact (unabandoned_save h u).bind fun _ => (unabandoned_startContainer h _).onlyIf

/-! ## Reading a container into its record -/

theorem unabandoned_recordStart (u : Uuid) : Unabandoned (recordStart env u) :=
  unabandoned_despiteRpc ((guarded_read _).bind fun id => (unabandoned_containerStatus h id).bind
    fun _ => (unabandoned_assign _).onlyIf)

theorem unabandoned_recordExit (u : Uuid) : Unabandoned (recordExit env u) := by
  refine (guarded_read _).bind fun detail => Guarded.onlyIf (unabandoned_despiteRpc ?_)
  refine (guarded_read _).bind fun id => (unabandoned_containerStatus h id).bind fun c => ?_
  refine (unabandoned_assign _).bind fun _ => (unabandoned_assign _).bind fun _ => ?_
  exact (unabandoned_assign _).onlyIf

theorem unabandoned_populateContainerState (u : Uuid) (c : CriContainer) :
    Unabandoned (populateContainerState env u c) := by
  unfold populateContainerState
  split
  · exact unabandoned_assign _
  · refine Guarded.bind ?_ fun paused => Guarded.onlyIf ?_
    · exact (guarded_read _).bind fun _ =>
        guarded_ite (unabandoned_ask h _ _).filter (guarded_pure _)
    · refine (unabandoned_assign _).bind fun _ => (guarded_read _).bind fun r => ?_
      exact (unabandoned_assign _).onlyIf.bind fun _ => (unabandoned_recordStart h u).onlyIf
  · exact (unabandoned_assign _).bind fun _ => unabandoned_recordExit h u
  · exact unabandoned_assign _

theorem unabandoned_showContainer (u : Uuid) : Unabandoned (showContainer env u) := by
  refine (guarded_read _).bind fun id => ?_
  cases id with
  | none => exact guarded_pure _
  | some id =>
      refine (unabandoned_ask h _ _).bind fun found => ?_
      cases found with
      | none => exact guarded_raise nofun
      | some c => exact unabandoned_populateContainerState h u c

theorem unabandoned_showStatus (u : Uuid) : Unabandoned (showStatus env u) :=
  (guarded_read _).bind fun _ => (guarded_raise nofun).onlyIf.bind fun _ =>
    (unabandoned_showContainer h u).bind fun _ => guarded_read _

theorem unabandoned_recordNewRun (u : Uuid) : Unabandoned (recordNewRun env u) :=
  (unabandoned_assign _).bind fun _ => (unabandoned_assign _).bind fun _ =>
    (unabandoned_recordStart h u).bind fun _ => unabandoned_save h u

theorem unabandoned_saveProbeState (u : Uuid) (state : ProbeState) :
    Unabandoned (saveProbeState env u state) :=
  (guarded_read _).bind fun _ => Guarded.onlyIf
    ((unabandoned_assign _).bind fun _ => unabandoned_save h u)

/-! ## Init containers and sidecars -/

theorem unabandoned_restartContainer (owner u : Uuid) :
    Unabandoned (restartContainer env owner u) := by
  refine (guarded_read _).bind fun old => (unabandoned_assign _).bind fun _ => ?_
  refine Guarded.tryExcept ?_ fun _ _ => guarded_pure _
  refine (unabandoned_despiteRpc (unabandoned_call h fun _ => by rfl)).bind fun _ => ?_
  refine (unabandoned_call h fun _ => by rfl).bind fun _ => ?_
  refine (unabandoned_createContainerIn h owner u true none).bind fun _ => ?_
  exact (unabandoned_despiteRpc (unabandoned_call h fun _ => by rfl)).bind fun _ => guarded_pure _

theorem unabandoned_tendSidecars (c : Uuid) (sidecars : List Uuid) :
    Unabandoned (tendSidecars env c sidecars) := by
  refine guarded_forEach fun m _ => Guarded.swallow ?_
  refine (unabandoned_showContainer h m).bind fun _ => (guarded_read _).bind fun r => ?_
  refine (guarded_read _).bind fun now => Guarded.onlyIf ?_
  refine (unabandoned_restartContainer h c m).bind fun done => (guarded_read _).bind fun now => ?_
  exact Guarded.onlyIf ((unabandoned_assign _).bind fun _ => unabandoned_recordNewRun h m)

theorem unabandoned_waitForInitContainer (c m : Uuid) (sidecars : List Uuid) :
    Unabandoned (waitForInitContainer env c m sidecars) := by
  refine guarded_loop (fun _ => (unabandoned_stopIfAbandoned c).bind fun _ => ?_) _ _
  refine Guarded.bind (unabandoned_showStatus h m).filter fun status => ?_
  refine guarded_ite (guarded_pure _) ?_
  refine (guarded_raise nofun).onlyIf.bind fun _ => ?_
  exact (unabandoned_tendSidecars h c sidecars).bind fun _ => guarded_pure _

theorem unabandoned_waitToRetry (c : Uuid) (sidecars : List Uuid) (delay : Nat) (why : String) :
    Unabandoned (waitToRetry env c sidecars delay why) := by
  refine (unabandoned_assign _).bind fun _ => (unabandoned_save h c).bind fun _ => ?_
  refine Guarded.bind (guarded_forEach fun _ _ => ?_) fun _ => unabandoned_stopIfAbandoned c
  exact (unabandoned_stopIfAbandoned c).bind fun _ => unabandoned_tendSidecars h c sidecars

theorem unabandoned_discardForRetry (m : Uuid) : Unabandoned (discardForRetry env m) :=
  (unabandoned_assign _).bind fun _ => unabandoned_despiteRpc ((guarded_read _).bind fun _ =>
    (unabandoned_call h fun _ => by rfl).bind fun _ => unabandoned_removeQuietly h _)

theorem unabandoned_runInitContainer (c m : Uuid) (sidecars : List Uuid) :
    Unabandoned (runInitContainer env c m sidecars) := by
  refine guarded_loop (fun failures => ?_) _ _
  refine (unabandoned_assign _).bind fun _ => (unabandoned_assign _).bind fun _ => ?_
  refine (unabandoned_createContainerIn h c m true none).bind fun _ => Guarded.bind ?_ fun _ => ?_
  · exact (unabandoned_assign _).bind fun _ => (unabandoned_recordStart h m).bind fun _ =>
      unabandoned_save h m
  refine (unabandoned_waitForInitContainer h c m sidecars).bind fun _ => ?_
  refine (unabandoned_save h m).bind fun _ => (guarded_read _).bind fun detail => ?_
  split
  · exact guarded_pure _
  · refine (guarded_read _).bind fun again => (guarded_raise nofun).onlyIf.bind fun _ => ?_
    refine (unabandoned_waitToRetry h c sidecars _ _).bind fun _ => ?_
    exact (unabandoned_discardForRetry h m).bind fun _ => guarded_pure _

theorem unabandoned_sidecarStarted (c m : Uuid) (sidecars : List Uuid) :
    Unabandoned (sidecarStarted env c m sidecars) := by
  refine (guarded_read _).bind fun r => ?_
  split
  · exact guarded_pure _
  refine guarded_loop (fun state => (unabandoned_stopIfAbandoned c).bind fun _ => ?_) _ _
  refine (unabandoned_showStatus h m).bind fun status => guarded_ite (guarded_pure _) ?_
  refine (guarded_read _).bind fun now => (guarded_read _).bind fun r => guarded_ite ?_ ?_
  · refine Guarded.bind ?_ fun verdict => ?_
    · exact (guarded_read _).bind fun _ => (unabandoned_ask h _ _).bind fun _ =>
        guarded_ite (guarded_pure _) (guarded_pure _)
    obtain ⟨passed, state⟩ := verdict
    refine guarded_ite ?_ ?_
    · exact (unabandoned_saveProbeState h m _).bind fun _ => guarded_pure _
    · refine (unabandoned_saveProbeState h m _).bind fun _ => guarded_ite (guarded_pure _) ?_
      exact (unabandoned_tendSidecars h c sidecars).bind fun _ => guarded_pure _
  · exact (unabandoned_tendSidecars h c sidecars).bind fun _ => guarded_pure _

theorem unabandoned_startSidecar (c m : Uuid) (sidecars : List Uuid) :
    Unabandoned (startSidecar env c m sidecars) := by
  refine (unabandoned_assign _).bind fun _ => guarded_loop (fun failures => ?_) _ _
  refine (unabandoned_createContainerIn h c m true none).bind fun _ => ?_
  refine (unabandoned_recordNewRun h m).bind fun _ => ?_
  refine (unabandoned_sidecarStarted h c m sidecars).bind fun started => ?_
  refine guarded_ite (guarded_pure _) ((unabandoned_waitToRetry h c sidecars _ _).bind fun _ => ?_)
  exact (unabandoned_discardForRetry h m).bind fun _ => guarded_pure _

theorem unabandoned_runInitEach (c : Uuid) (ms sidecars : List Uuid) :
    Unabandoned (runInitEach env c ms sidecars) := by
  induction ms generalizing sidecars with
  | nil => exact guarded_pure _
  | cons m ms ih =>
      refine (unabandoned_stopIfAbandoned c).bind fun _ => (guarded_read _).bind fun sidecar => ?_
      refine guarded_ite ?_ ?_
      · exact (unabandoned_startSidecar h c m sidecars).bind fun _ => ih _
      · exact (unabandoned_runInitContainer h c m sidecars).bind fun _ => ih _

theorem unabandoned_rebuildCapsule (c : Capsule) : Unabandoned (rebuildCapsule env c) := by
  refine (guarded_read _).bind fun r => (unabandoned_deleteSandbox h _).bind fun _ => ?_
  refine (guarded_raise nofun).onlyIf.bind fun _ => ?_
  refine (unabandoned_createPodSandbox h _ _).bind fun _ => (unabandoned_save h _).bind fun _ => ?_
  refine Guarded.bind ?_ fun _ => Guarded.bind (guarded_forEach fun m _ => ?_) fun _ => ?_
  · refine (unabandoned_runInitEach h _ _ _).bind fun _ => (guarded_read _).bind fun _ => ?_
    exact Guarded.onlyIf ((unabandoned_assign _).bind fun _ => unabandoned_save h _)
  · refine (unabandoned_stopIfAbandoned _).bind fun _ => (unabandoned_call h fun _ => by rfl).bind fun _ => ?_
    refine (unabandoned_assign _).bind fun _ => ?_
    refine (unabandoned_createContainerIn h _ m true none).bind fun _ => ?_
    exact unabandoned_recordNewRun h m
  · refine (unabandoned_assign _).bind fun _ => (unabandoned_assign _).bind fun _ => ?_
    refine (guarded_read _).bind fun now => (guarded_read _).bind fun started => ?_
    exact (unabandoned_assign _).onlyIf.bind fun _ => unabandoned_save h _

end Runtime

end Cri

end Zun
