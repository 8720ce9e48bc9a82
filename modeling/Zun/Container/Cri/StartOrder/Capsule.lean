import Zun.Container.Cri.StartOrder.Member

/-!
# All members of a capsule

The init containers and the sidecars with their retries, the walk over all of them, the main members,
and `create_capsule` and `_rebuild_capsule` as a whole.
-/

namespace Zun

open Effect Prog

namespace Cri

namespace StartOrder

/-! ## The init members -/

/-- A stage at which a member is about to be started, beside some sidecars. -/
structure Next (c : Capsule) (s₀ : World) (sidecars : List Uuid) (g : Stage) (u : Uuid) : Prop where
  init : u ∈ c.initContainers
  order : ∀ i ∈ before c u, i ∈ g.done
  live : g.live = none
  done : u ∉ g.done
  owned : u ∉ g.owned
  seen : u ∉ g.seen
  known : g.known u = none
  beside : Beside c g
  tended : ∀ v ∈ sidecars, Tended c s₀ g v ∧ v ≠ u

/-- A stage with a number of attempts for a member. -/
def Stage.withTries (g : Stage) (u : Uuid) (t : Nat) : Stage :=
  { g with tries := Function.update g.tries u t }

/-- A stage at which one more member is done. -/
def Stage.did (g : Stage) (u : Uuid) : Stage := { g with done := u :: g.done }

section Members

variable {env : Env} {c : Capsule} {s₀ s : World} {g : Stage} {u m : Uuid} {o : Obj}
  {P Q : Obj → Prop} {id : RuntimeId} {row : Record} {sidecars : List Uuid}

theorem Next.free (h : Next c s₀ sidecars g u) : g.Free s₀ u :=
  ⟨h.seen, fun hd => absurd hd h.done⟩

theorem Next.ready (h : Next c s₀ sidecars g u) : Ready c s₀ g u :=
  ⟨h.order, fun _ => h.live, fun hmain => absurd hmain (not_main h.init)⟩

theorem Next.capsule (h : Next c s₀ sidecars g u) : c.uuid ≠ u := by
  intro he
  exact (List.nodup_cons.mp c.distinct).1 (List.mem_append_left _ (he ▸ h.init))

theorem Next.withTries (h : Next c s₀ sidecars g u) (t : Nat) : Next c s₀ sidecars (g.withTries u t) u :=
  { h with
    beside := ⟨h.beside.done, h.beside.seen, h.beside.known⟩
    tended := fun v hv => ⟨{ (h.tended v hv).1 with }, (h.tended v hv).2⟩ }

theorem Tended.started (h : Tended c s₀ g m) : Tended c s₀ (g.started c s₀ u id row) m :=
  { h with owned := List.mem_cons_of_mem _ h.owned }

theorem Beside.started (h : Beside c g) : Beside c (g.started c s₀ u id row) :=
  ⟨h.done, h.seen, h.known⟩

theorem Tended.saw (h : Tended c s₀ g m) (hne : m ≠ u) : Tended c s₀ (g.saw u) m :=
  { h with seen := fun hm => (List.mem_cons.mp hm).elim hne h.seen }

theorem Beside.saw (h : Beside c g) (hne : c.uuid ≠ u) : Beside c (g.saw u) :=
  ⟨h.done, fun hm => (List.mem_cons.mp hm).elim hne h.seen, h.known⟩

theorem Beside.know (h : Beside c g) (hne : c.uuid ≠ u) (o : Obj) : Beside c (g.know u o) :=
  ⟨h.done, h.seen, (g.know_of_ne o hne).trans h.known⟩

/-- The attempts for a plain init container after one more. -/
theorem started_tries (hplain : plain c s₀ u = true) (t : Nat) :
    ((g.withTries u t).started c s₀ u id row).tries = Function.update g.tries u (t + 1) := by
  show (if plain c s₀ u = true then Function.update (Function.update g.tries u t) u
    (Function.update g.tries u t u + 1) else _) = _
  rw [if_pos hplain, Function.update_self, Function.update_idem]

theorem sidecar_of_plain (h : plain c s₀ u = true) : (s₀.mem u).val.isSidecar = false := by
  unfold plain at h
  simp only [Bool.and_eq_true, Bool.not_eq_true'] at h
  exact h.2

/-- What a stage says of a plain init container that was seen stopped, but for that. -/
theorem Stage.le_attempt (hg : g.live = none) (hu : g.known u = none) (hplain : plain c s₀ u = true)
    (t : Nat) :
    (g.withTries u (t + 1)).Le ((((g.withTries u t).started c s₀ u id row).saw u).know u o) where
  done _ h := h
  owned _ h := List.mem_cons_of_mem _ h
  seen _ h := List.mem_cons_of_mem _ h
  known := (Stage.le_know (((g.withTries u t).started c s₀ u id row).saw u) hu).known
  live := hg
  made _ h := List.mem_cons_of_mem _ (List.mem_cons_of_mem _ h)
  named _ h := List.mem_cons_of_mem _ h
  dead _ h := h
  tries := (started_tries hplain t : ((g.withTries u t).started c s₀ u id row).tries = _).symm

theorem On.finish (h : On env c s₀ g s) (hdone : Done s₀ u s) : On env c s₀ (g.did u) s := by
  refine ⟨{ h.1 with done := fun m hm => ?_ }, h.2⟩
  rcases List.mem_cons.mp hm with rfl | hm
  · exact hdone
  · exact h.1.done m hm

/-- An init container whose exit was no failure is done. -/
theorem On.succeeded {t : Nat}
    (h : On env c s₀ ((((g.withTries u t).started c s₀ u id row).saw u).know u o) s)
    (hg : g.live = none) (hu : g.known u = none) (hplain : plain c s₀ u = true)
    (hdetail : failureOf o.val.statusDetail = none) :
    On env c s₀ ((g.withTries u (t + 1)).did u) s := by
  refine (h.mono (Stage.le_attempt hg hu hplain t)).finish ?_
  unfold Done
  rw [sidecar_of_plain hplain, if_neg Bool.false_ne_true]
  refine ⟨h.1.seen u (List.mem_cons_self ..), ?_⟩
  rw [h.1.known_know]
  exact hdetail

/-- The startup probe of the object has not passed. -/
def NotPassed (o : Obj) : Prop := o.val.healthcheck.state.startupPassed = false

/-- A stage that has let go of a member, but for whose its container is. -/
structure Stage.LetGo (g' g : Stage) (u : Uuid) (o : Obj) : Prop where
  done : u ∉ g'.done
  owned : u ∉ g'.owned
  seen : u ∉ g'.seen
  known : g'.known u = none
  le : ∀ id, ((g'.name id u).know u o).Le ((g.name id u).know u o)

theorem runs_discard {g' : Stage} (hu : u ∈ g.owned) (h : g'.LetGo g u o) :
    Runs env c s₀ (On env c s₀ (g.know u o)) (fun _ => At env c s₀ g' u NotPassed)
      (fun _ => Fallen env c s₀) (discardForRetry env u) := by
  refine Watched.pre (I := fun s => ∃ id, At env c s₀ (g'.name id u) u
    (fun o => o.val.containerId = some id) s) (watched_exists fun id => ?_) fun s hs => ?_
  · refine (at_discardForRetry (g := g'.name id u) (Q := NotPassed)
      ⟨h.seen, fun hd => absurd hd h.done⟩ (List.mem_cons_self ..) (fun _ ho => ho) ?_
      fun _ _ => rfl).conseq (fun _ hs => hs) (fun _ s hs => ?_) fun _ s hs => hs.fallen
    swap
    · obtain ⟨o', ho', hon⟩ := hs
      refine ⟨o', ho', hon.mono ?_⟩
      exact { Stage.Le.refl _ with named := List.subset_cons_self .. }
    rintro (hu | hu | hu)
    · exact h.owned hu
    · exact h.seen hu
    · exact h.done hu.1
  · obtain ⟨id, hid, hon⟩ := hs.name hu
    exact ⟨id, o, hid, hon.mono (h.le id)⟩

/-- The stage of a plain init container between two attempts. -/
theorem Next.between (h : Next c s₀ sidecars g u) (hplain : plain c s₀ u = true) (t : Nat) (o : Obj) :
    (g.withTries u (t + 1)).LetGo (((g.withTries u t).started c s₀ u id row).saw u) u o where
  done := h.done
  owned := h.owned
  seen := h.seen
  known := h.known
  le v := by
    have hle : (g.withTries u (t + 1)).Le ((((g.withTries u t).started c s₀ u id row).saw u).know u o) :=
      Stage.le_attempt h.live h.known hplain t
    exact { hle with
      known := by
        intro w o' hw
        by_cases hwu : w = u
        · subst hwu
          rw [Stage.know_self] at hw ⊢
          exact hw
        · rw [Stage.know_of_ne _ _ hwu] at hw ⊢
          exact hw
      named := List.cons_subset_cons _ hle.named }

/-- One attempt of an init container: it is done, or another attempt is due. -/
theorem runs_initAttempt (h : Next c s₀ sidecars g u) (hplain : plain c s₀ u = true) (t failures : Nat) :
    Runs env c s₀ (On env c s₀ (g.withTries u t))
      (fun r s => Sum.elim
        (fun _ => (s₀.mem c.uuid).val.restarts = true ∧ On env c s₀ (g.withTries u (t + 1)) s)
        (fun _ => On env c s₀ ((g.withTries u (t + 1)).did u) s) r)
      (fun _ => Fallen env c s₀) (do
        assign u (Obj.setStatusDetail none)
        assign u (Obj.setExitCode none)
        createContainerIn env c.uuid u true none
        recordRunning env u
        waitForInitContainer env c.uuid u sidecars
        save env u
        let detail ← obj u (·.statusDetail)
        match failureOf detail with
        | none => pure (.inr ())
        | some code => do
            let again ← obj c.uuid (·.restarts)
            onlyIf (again = false) (raise { cls := .initContainerFailed, text := initFailed u code })
            waitToRetry env c.uuid sidecars (initBackoff (failures + 1)) (initFailed u code)
            discardForRetry env u
            pure (.inl (failures + 1))) := by
  have h' : Next c s₀ sidecars (g.withTries u t) u := h.withTries t
  refine runs_know (u := u) ?_
  refine Watched.bind (at_assign (Q := fun o => o.val.statusDetail = none) (bland_setStatusDetail _)
    h'.free (fun _ _ => rfl) fun _ _ => rfl) fun _ => ?_
  refine Watched.bind (at_assign (Q := fun o => o.val.statusDetail = none) (bland_setExitCode _)
    h'.free (fun _ _ => rfl) fun _ ho => ho) fun _ => ?_
  refine Watched.bind ((runs_createContainerIn h'.ready h'.free h'.known none).raises
    fun _ s hs => hs.1) fun _ => ?_
  refine watched_exists fun id => watched_exists fun row => watched_exists fun o => ?_
  refine Watched.pre (I := At env c s₀ ((g.withTries u t).started c s₀ u id row) u
    fun o => o.val.containerId = some id ∧ o.val.statusDetail = none) ?_ fun s hs =>
      ⟨Obj.of (o.setContainerId (some id)).val, ⟨rfl, hs.1⟩, hs.2.2.2.2⟩
  have hfree : ((g.withTries u t).started c s₀ u id row).Free s₀ u := ⟨h'.seen, h'.free.done⟩
  have hlive : ((g.withTries u t).started c s₀ u id row).live = some id := if_pos hplain
  refine Watched.bind ((at_recordRunning (Q := Waiting id) hfree (fun o ho => ⟨ho.1, ho.2, rfl⟩)
    (fun _ v ho => waiting_setStartedAt v ho) fun _ ho => ho).raises fun _ s hs => hs.fallen) fun _ => ?_
  refine Watched.bind (runs_waitForInitContainer hfree (List.mem_cons_self ..) hlive
    (fun v hv => (h'.tended v hv).1.started) fun v hv => (h'.tended v hv).2) fun _ => ?_
  refine watched_exists fun o => ?_
  refine Watched.bind (J := fun _ => On env c s₀ ((((g.withTries u t).started c s₀ u id row).saw u).know u
    (Obj.of o.val))) (runs_save.conseq (fun _ hs => hs) ?_ fun _ s hs => hs.fallen) fun _ => ?_
  · rintro - s ⟨old, hs⟩
    exact hs.mono (Stage.le_note _ _)
  refine watched_known (a := o.val.statusDetail) (fun s hs => by rw [hs.1.known_know]; rfl) ?_
  cases hdetail : failureOf o.val.statusDetail with
  | none => exact fun s hs => hs.succeeded h.live h.known hplain hdetail
  | some code =>
      refine watched_known (a := (s₀.mem c.uuid).val.restarts) (fun s hs => hs.1.restarts) ?_
      refine Watched.bind (J := fun _ s => (s₀.mem c.uuid).val.restarts = true ∧
        On env c s₀ ((((g.withTries u t).started c s₀ u id row).saw u).know u (Obj.of o.val)) s)
        (watched_onlyIf (fun _ s hs => hs.fallen) fun hagain s hs => ⟨?_, hs⟩) fun _ =>
          watched_assuming fun hagain => ?_
      · exact Bool.not_eq_false _ ▸ hagain
      refine Watched.bind ((runs_waitToRetry ?_ ?_ _ _).raises fun _ s hs => hs.fallen) fun _ => ?_
      · exact (h'.beside.started.saw h.capsule).know h.capsule _
      · exact fun v hv => ((h'.tended v hv).1.started.saw (h'.tended v hv).2).know (h'.tended v hv).2 _
      refine Watched.bind (runs_discard (List.mem_cons_self ..) (h.between hplain t _))
        fun _ s hs => ⟨hagain, hs.forget h.known⟩

theorem Stage.withTries_self (g : Stage) (u : Uuid) : g.withTries u (g.tries u) = g := by
  unfold Stage.withTries
  rw [Function.update_eq_self]

/-- A plain init container is run until it succeeds, once under a policy that does not restart. -/
theorem runs_runInitContainer (h : Next c s₀ sidecars g u) (hplain : plain c s₀ u = true) :
    Runs env c s₀ (On env c s₀ g)
      (fun _ s => ∃ t, ((s₀.mem c.uuid).val.restarts = false → t = g.tries u + 1) ∧
        On env c s₀ ((g.withTries u t).did u) s)
      (fun _ => Fallen env c s₀) (runInitContainer env c.uuid u sidecars) := by
  refine Watched.pre (watched_loop (L := fun _ s => ∃ t,
    ((s₀.mem c.uuid).val.restarts = false → t = g.tries u) ∧ On env c s₀ (g.withTries u t) s)
    (fun _ s hs => ?_) (fun failures => ?_) _ _) fun s hs => ⟨g.tries u, fun _ => rfl, ?_⟩
  · obtain ⟨t, -, hon⟩ := hs
    exact hon.orderly
  · refine watched_exists fun t => watched_assuming fun ht => ?_
    refine (runs_initAttempt h hplain t failures).post fun r s hs => ?_
    cases r with
    | inl n =>
        refine ⟨t + 1, fun hno => ?_, hs.2⟩
        exact absurd (hno.symm.trans hs.1) Bool.false_ne_true
    | inr a => exact ⟨t + 1, fun hno => congrArg (· + 1) (ht hno), hs⟩
  · rw [g.withTries_self]
    exact hs

/-! ### A sidecar -/

/-- The object of a sidecar that is being started. -/
def Starting (id : RuntimeId) (o : Obj) : Prop := o.val.containerId = some id ∧ NotPassed o

theorem shallow_starting : Shallow (Starting id) :=
  ⟨fun _ _ h => h, fun _ _ h => h, fun _ _ h => h, fun _ _ h => h⟩

/-- A copy of the probe state that is saved. -/
theorem at_saveProbeState {state : ProbeState} (hstate : state.startupPassed = false)
    (hfree : g.Free s₀ u) :
    Keeps env c s₀ (At env c s₀ g u (Starting id)) (saveProbeState env u state) := by
  refine at_any fun old => watched_onlyIf (fun _ => ?_) fun _ s hs => hs
  refine Watched.bind (at_assign (Q := Starting id) (bland_setProbeState fun _ => state) hfree
    (fun _ _ => rfl) fun o ho => ⟨ho.1, hstate⟩) fun _ => ?_
  exact at_save fun o ho => ho

/-- That the startup probe has passed is new, and so it is saved. -/
theorem runs_savePassed {state : ProbeState} (hstate : state.startupPassed = true)
    (hfree : g.Free s₀ u) :
    Runs env c s₀ (At env c s₀ g u (Starting id))
      (fun _ s => ∃ row, row.healthcheck.state.startupPassed = true ∧
        At env c s₀ (g.note (.save u row, .ok)) u (fun o => o.val.containerId = some id) s)
      (fun _ => Fallen env c s₀) (saveProbeState env u state) := by
  refine at_obj fun o ho => watched_onlyIf (fun _ => ?_) fun hsame => ?_
  swap
  · have heq : o.val.healthcheck.state = state := not_not.mp hsame
    have hnot := ho.2
    unfold NotPassed at hnot
    rw [heq, hstate] at hnot
    cases hnot
  refine Watched.pre ?_ fun s hs => (⟨o, rfl, hs⟩ : At env c s₀ g u (· = o) s)
  refine Watched.bind (at_assign (Q := (· = o.setProbeState state)) (bland_setProbeState fun _ => state)
    hfree (fun _ _ => rfl) fun o' ho' => by rw [ho']) fun _ => runs_at fun o' ho' => ?_
  subst ho'
  refine runs_save.conseq (fun _ hs => hs) ?_ fun _ s hs => hs.fallen
  rintro - s ⟨old, hs⟩
  exact ⟨(o.setProbeState state).changed.merge (o.setProbeState state).val old, hstate,
    Obj.of (o.setProbeState state).val, ho.1, hs⟩

theorem at_probePassed (probe : Probe) (state : ProbeState) :
    Runs env c s₀ (At env c s₀ g u P)
      (fun r s => r.2.startupPassed = state.startupPassed ∧ At env c s₀ g u P s)
      (fun _ => At env c s₀ g u P) (probePassed env u probe state .startup) := by
  refine at_any fun id => Watched.bind (J := fun _ => At env c s₀ g u P) ?_ fun ok => ?_
  · exact (at_call fun _ => rfl).bind fun _ => watched_read _ fun _ hs => hs
  · exact watched_ite (fun _ s hs => ⟨rfl, hs⟩) fun _ s hs => ⟨rfl, hs⟩

theorem at_showStatus (hP : Shallow P) (hfree : g.Free s₀ u) :
    Keeps env c s₀ (At env c s₀ g u P) (showStatus env u) := by
  refine at_any fun id => ?_
  refine Watched.bind (J := fun _ => At env c s₀ g u P) (watched_onlyIf (fun _ => ?_) fun _ s hs => hs)
    fun _ => (at_showContainer hP hfree).bind fun _ => watched_read _ fun s hs => hs
  exact watched_raise (E := fun _ => At env c s₀ g u P) _

/-- A stage at which a container of a member was started. -/
structure StartMade (s₀ : World) (g : Stage) (u : Uuid) (id : RuntimeId) (row : Record) : Prop where
  new : s₀.nextId ≤ id
  named : row.containerId = some id
  save : (.save u row, .ok) ∈ g.made
  start : (.startContainer id, .ok) ∈ g.made

theorem StartMade.counted (h : StartMade s₀ g u id row) (hon : On env c s₀ g s)
    (hprobe : (s₀.mem u).val.healthcheck.probes.startup.isSome →
      ∃ row, row.healthcheck.state.startupPassed = true ∧ Made s₀ (.save u row) .ok s) :
    CountedStarted s₀ u s :=
  ⟨id, row, h.new, h.named, hon.1.made _ h.save, hon.1.made _ h.start, hprobe⟩

/-- What `_sidecar_started` comes to. -/
def Answered (env : Env) (c : Capsule) (s₀ : World) (g : Stage) (u : Uuid) (id : RuntimeId)
    (started : Bool) (s : World) : Prop :=
  if started = true then On env c s₀ g s ∧ CountedStarted s₀ u s
  else At env c s₀ g u (Starting id) s

theorem answered_yes (hon : On env c s₀ g s) (h : CountedStarted s₀ u s) :
    Answered env c s₀ g u id true s := by
  unfold Answered
  rw [if_pos rfl]
  exact ⟨hon, h⟩

theorem answered_no (h : At env c s₀ g u (Starting id) s) : Answered env c s₀ g u id false s := by
  unfold Answered
  rw [if_neg Bool.false_ne_true]
  exact h

/-- Whether a sidecar counts as started. -/
theorem runs_sidecarStarted (hfree : g.Free s₀ u) (hu : g.known u = none) (hmade : StartMade s₀ g u id row)
    (h : ∀ v ∈ sidecars, Tended c s₀ g v) (hne : ∀ v ∈ sidecars, v ≠ u) :
    Runs env c s₀ (At env c s₀ g u (Starting id)) (Answered env c s₀ g u id)
      (fun _ => Fallen env c s₀) (sidecarStarted env c.uuid u sidecars) := by
  refine at_obj fun o ho => ?_
  refine Watched.pre (I := fun s => o.val.healthcheck.probes = (s₀.mem u).val.healthcheck.probes ∧
    At env c s₀ g u (Starting id) s) (watched_assuming fun hprobes => ?_) fun s hs => ⟨?_, o, ho, hs⟩
  swap
  · rw [← hs.1.probes, hs.1.known_know]
  simp only [id_eq]
  cases hprobe : o.val.healthcheck.probes.startup with
  | none =>
      intro s hs
      show Answered env c s₀ g u id true s
      refine answered_yes (hs.forget hu) (hmade.counted (hs.forget hu) fun hsome => ?_)
      rw [← hprobes, hprobe] at hsome
      cases hsome
  | some probe =>
      refine Watched.pre (I := fun s => o.val.healthcheck.state.startupPassed = false ∧
        At env c s₀ g u (Starting id) s) ?_ fun s hs => ⟨ho.2, hs⟩
      refine watched_loop (L := fun (state : ProbeState) s => state.startupPassed = false ∧
        At env c s₀ g u (Starting id) s) (fun _ s hs => hs.2.fallen.orderly) (fun state => ?_) _ _
      refine watched_assuming fun hstate => ?_
      have hagain : ∀ state : ProbeState, state.startupPassed = false →
          Runs env c s₀ (At env c s₀ g u (Starting id))
            (fun r s => Sum.elim (fun state' => state'.startupPassed = false ∧
              At env c s₀ g u (Starting id) s) (fun started => Answered env c s₀ g u id started s) r)
            (fun _ => Fallen env c s₀) (do
              tendSidecars env c.uuid sidecars
              pure (.inl state)) :=
        fun state hstate => (at_tendSidecars h hne).bind fun _ s hs => ⟨hstate, hs⟩
      have hfailed : Runs env c s₀ (At env c s₀ g u (Starting id))
          (fun r s => Sum.elim (fun state' : ProbeState => state'.startupPassed = false ∧
            At env c s₀ g u (Starting id) s) (fun started => Answered env c s₀ g u id started s) r)
          (fun _ => Fallen env c s₀) (pure (.inr false)) :=
        fun s hs => answered_no hs
      refine (at_stop.raises fun _ s hs => hs.fallen).bind fun _ => ?_
      refine ((at_showStatus shallow_starting hfree).raises fun _ s hs => hs.fallen).bind fun status => ?_
      refine watched_ite (fun _ => hfailed) fun _ => watched_look fun now => ?_
      refine Watched.pre (I := At env c s₀ g u (Starting id)) (at_any fun r => ?_) fun s hs => hs.1
      refine watched_ite (fun _ => ?_) fun _ => hagain state hstate
      refine Watched.bind ((at_probePassed probe _).raises fun _ s hs => hs.fallen) fun verdict => ?_
      obtain ⟨passed, state'⟩ := verdict
      refine watched_assuming fun hkept => ?_
      have hstate' : state'.startupPassed = false := hkept.trans hstate
      refine watched_ite (fun _ => ?_) fun _ => ?_
      · refine (runs_savePassed rfl hfree).bind fun _ => watched_exists fun row' => ?_
        refine watched_assuming fun hpassed s hs => ?_
        show Answered env c s₀ g u id true s
        have hon : On env c s₀ (g.note (.save u row', .ok)) s := hs.forget hu
        have hback : On env c s₀ g s := hon.mono (g.le_note _)
        exact answered_yes hback (hmade.counted hback fun _ =>
          ⟨row', hpassed, hon.1.made _ (List.mem_cons_self ..)⟩)
      · refine ((at_saveProbeState hstate' hfree).raises fun _ s hs => hs.fallen).bind fun _ => ?_
        exact watched_ite (fun _ => hfailed) fun _ => hagain state' hstate'

/-- The stage of a sidecar between two attempts. -/
theorem Next.again (h : Next c s₀ sidecars g u) (hside : (s₀.mem u).val.isSidecar = true) (o : Obj) :
    g.LetGo (g.started c s₀ u id row) u o where
  done := h.done
  owned := h.owned
  seen := h.seen
  known := h.known
  le v := by
    have hle : g.Le (g.started c s₀ u id row) := g.started_le (plain_of_sidecar hside)
    exact { hle with
      known := fun w o' hw => hw
      named := List.cons_subset_cons _ hle.named }

/-- A stage at which a sidecar owns its container. -/
def Stage.own (g : Stage) (u : Uuid) : Stage := { g with owned := u :: g.owned }

theorem Stage.own_le (g : Stage) (hu : plain c s₀ u = false) :
    (g.own u).Le (g.started c s₀ u id row) := by
  have hle : g.Le (g.started c s₀ u id row) := g.started_le hu
  exact { hle with owned := fun _ h => h }

/-- A sidecar is started, once or more often, until it counts as started. -/
theorem runs_startSidecar (h : Next c s₀ sidecars g u) (hside : (s₀.mem u).val.isSidecar = true) :
    Runs env c s₀ (On env c s₀ g) (fun _ => On env c s₀ ((g.own u).did u)) (fun _ => Fallen env c s₀)
      (startSidecar env c.uuid u sidecars) := by
  refine runs_know (u := u) ?_
  refine Watched.bind (at_resetProbes (Q := NotPassed) h.free 0 fun _ _ => rfl) fun _ => ?_
  refine watched_loop (L := fun _ => At env c s₀ g u NotPassed) (fun _ s hs => hs.fallen.orderly)
    (fun failures => ?_) _ _
  refine Watched.bind ((runs_createContainerIn h.ready h.free h.known none).raises
    fun _ s hs => hs.1) fun _ => ?_
  refine watched_exists fun id => watched_exists fun row => watched_exists fun o => ?_
  refine Watched.pre (I := fun s => StartMade s₀ (g.started c s₀ u id row) u id row ∧
    At env c s₀ (g.started c s₀ u id row) u (Starting id) s) (watched_assuming fun hmade => ?_)
    fun s hs => ⟨⟨hs.2.1, hs.2.2.1, List.mem_cons_of_mem _ (List.mem_cons_self ..),
      List.mem_cons_self ..⟩, Obj.of (o.setContainerId (some id)).val, ⟨rfl, hs.1⟩, hs.2.2.2.2⟩
  have hfree : (g.started c s₀ u id row).Free s₀ u := ⟨h.seen, h.free.done⟩
  refine Watched.bind ((at_recordNewRun shallow_starting (fun _ ho => ho) hfree).raises
    fun _ s hs => hs.fallen) fun _ => ?_
  refine Watched.bind (runs_sidecarStarted hfree h.known hmade
    (fun v hv => (h.tended v hv).1.started) fun v hv => (h.tended v hv).2) fun started => ?_
  refine watched_ite (fun hyes s hs => ?_) fun hno => ?_
  · rw [hyes] at hs
    obtain ⟨hon, hcounted⟩ := (if_pos rfl : Answered env c s₀ (g.started c s₀ u id row) u id true s
      = _).mp hs
    refine (hon.mono (g.own_le (plain_of_sidecar hside))).finish ?_
    unfold Done
    rw [if_pos hside]
    exact hcounted
  · refine Watched.pre (I := At env c s₀ (g.started c s₀ u id row) u (Starting id)) ?_ fun s hs => ?_
    swap
    · rw [Bool.not_eq_true] at hno
      rw [hno] at hs
      exact (if_neg Bool.false_ne_true : Answered env c s₀ (g.started c s₀ u id row) u id false s
        = _).mp hs
    refine runs_at fun o ho => ?_
    refine Watched.bind ((runs_waitToRetry (h.beside.started.know h.capsule o)
      (fun v hv => (h.tended v hv).1.started.know (h.tended v hv).2 o) _ _).raises
        fun _ s hs => hs.fallen) fun _ => ?_
    exact (runs_discard (List.mem_cons_self ..) (h.again hside o)).bind fun _ s hs => hs

end Members

/-! ## All members -/

/-- A stage at which the init members `pre` are done and those of `ms` are not begun. -/
structure Come (c : Capsule) (s₀ : World) (pre ms sidecars : List Uuid) (g : Stage) : Prop where
  split : c.initContainers = pre ++ ms
  done : ∀ i ∈ pre, i ∈ g.done
  begun : ∀ i, i ∈ g.done ∨ i ∈ g.owned → i ∈ pre
  seen : g.seen = []
  known : ∀ u, g.known u = none
  live : g.live = none
  sidecars : ∀ v ∈ sidecars, v ∈ pre ∧ (s₀.mem v).val.isSidecar = true ∧ v ∈ g.owned
  tries : (s₀.mem c.uuid).val.restarts = false →
    ∀ i, plain c s₀ i = true → g.tries i = if i ∈ pre then 1 else 0

section Capsules

variable {env : Env} {c : Capsule} {s₀ s : World} {g : Stage} {u m : Uuid} {o : Obj}
  {pre ms sidecars : List Uuid} {P Q : Obj → Prop}

theorem mem_of_takeWhile {v i : Uuid} (hv : v ∈ pre ∨ ms.head? = some v)
    (hi : i ∈ (pre ++ ms).takeWhile (· ≠ v)) : i ∈ pre := by
  induction pre with
  | nil =>
      rcases hv with hv | hv
      · cases hv
      · cases ms with
        | nil => cases hv
        | cons w ms =>
            cases hv
            simp at hi
  | cons p pre ih =>
      by_cases hp : p = v
      · subst hp
        simp at hi
      · have hrest : v ∈ pre ∨ ms.head? = some v :=
          hv.imp_left fun hmem => (List.mem_cons.mp hmem).resolve_left (Ne.symm hp)
        rw [List.cons_append, List.takeWhile_cons_of_pos (by simpa using hp)] at hi
        rcases List.mem_cons.mp hi with rfl | hi
        · exact List.mem_cons_self ..
        · exact List.mem_cons_of_mem _ (ih hrest hi)

theorem nodup_init (c : Capsule) : c.initContainers.Nodup :=
  (List.nodup_append.mp (List.nodup_cons.mp c.distinct).2).1

theorem capsule_not_init (c : Capsule) : c.uuid ∉ c.initContainers :=
  fun h => (List.nodup_cons.mp c.distinct).1 (List.mem_append_left _ h)

theorem Come.beside (h : Come c s₀ pre ms sidecars g) : Beside c g where
  done hd := capsule_not_init c (h.split ▸ List.mem_append_left _ (h.begun _ (.inl hd)))
  seen hs := by
    rw [h.seen] at hs
    cases hs
  known := h.known _

theorem Come.tended (h : Come c s₀ pre ms sidecars g) {v : Uuid} (hv : v ∈ sidecars) :
    Tended c s₀ g v where
  init := h.split ▸ List.mem_append_left _ (h.sidecars v hv).1
  sidecar := (h.sidecars v hv).2.1
  order i hi := by
    unfold before at hi
    rw [h.split] at hi
    exact h.done i (mem_of_takeWhile (.inl (h.sidecars v hv).1) hi)
  owned := (h.sidecars v hv).2.2
  seen hs := by
    rw [h.seen] at hs
    cases hs
  known := h.known v

theorem Come.not_mem (h : Come c s₀ pre (m :: ms) sidecars g) : m ∉ pre := by
  intro hm
  have hnodup := nodup_init c
  rw [h.split] at hnodup
  exact List.disjoint_of_nodup_append hnodup hm (List.mem_cons_self ..)

/-- The next member may be started. -/
theorem Come.next (h : Come c s₀ pre (m :: ms) sidecars g) : Next c s₀ sidecars g m where
  init := h.split ▸ List.mem_append_right _ (List.mem_cons_self ..)
  order i hi := by
    unfold before at hi
    rw [h.split] at hi
    exact h.done i (mem_of_takeWhile (.inr rfl) hi)
  live := h.live
  done hd := h.not_mem (h.begun m (.inl hd))
  owned ho := h.not_mem (h.begun m (.inr ho))
  seen hs := by
    rw [h.seen] at hs
    cases hs
  known := h.known m
  beside := h.beside
  tended v hv := by
    refine ⟨h.tended hv, fun he => h.not_mem ?_⟩
    rw [← he]
    exact (h.sidecars v hv).1

theorem Come.split_next (h : Come c s₀ pre (m :: ms) sidecars g) :
    c.initContainers = (pre ++ [m]) ++ ms := by
  rw [h.split, List.append_assoc]
  rfl

theorem Come.done_next (h : Come c s₀ pre (m :: ms) sidecars g) : ∀ i ∈ pre ++ [m], i ∈ m :: g.done := by
  intro i hi
  rcases List.mem_append.mp hi with hi | hi
  · exact List.mem_cons_of_mem _ (h.done i hi)
  · rw [List.mem_singleton.mp hi]
    exact List.mem_cons_self ..

/-- A plain init container is done. -/
theorem Come.ran (h : Come c s₀ pre (m :: ms) sidecars g) {t : Nat}
    (ht : (s₀.mem c.uuid).val.restarts = false → t = g.tries m + 1) (hplain : plain c s₀ m = true) :
    Come c s₀ (pre ++ [m]) ms sidecars ((g.withTries m t).did m) where
  split := h.split_next
  done := h.done_next
  begun i hi := by
    rcases hi with hi | hi
    · rcases List.mem_cons.mp hi with rfl | hi
      · exact List.mem_append_right _ (List.mem_singleton_self _)
      · exact List.mem_append_left _ (h.begun i (.inl hi))
    · exact List.mem_append_left _ (h.begun i (.inr hi))
  seen := h.seen
  known := h.known
  live := h.live
  sidecars v hv := ⟨List.mem_append_left _ (h.sidecars v hv).1, (h.sidecars v hv).2⟩
  tries hno i hi := by
    show Function.update g.tries m t i = _
    by_cases him : i = m
    · subst him
      rw [Function.update_self, ht hno, h.tries hno i hplain, if_neg h.not_mem, if_pos (by simp)]
    · rw [Function.update_of_ne him, h.tries hno i hi]
      simp [him]

/-- A sidecar is done. -/
theorem Come.began (h : Come c s₀ pre (m :: ms) sidecars g)
    (hside : (s₀.mem m).val.isSidecar = true) :
    Come c s₀ (pre ++ [m]) ms (sidecars ++ [m]) ((g.own m).did m) where
  split := h.split_next
  done := h.done_next
  begun i hi := by
    rcases hi with hi | hi
    · rcases List.mem_cons.mp hi with rfl | hi
      · exact List.mem_append_right _ (List.mem_singleton_self _)
      · exact List.mem_append_left _ (h.begun i (.inl hi))
    · rcases List.mem_cons.mp hi with rfl | hi
      · exact List.mem_append_right _ (List.mem_singleton_self _)
      · exact List.mem_append_left _ (h.begun i (.inr hi))
  seen := h.seen
  known := h.known
  live := h.live
  sidecars v hv := by
    rcases List.mem_append.mp hv with hv | hv
    · exact ⟨List.mem_append_left _ (h.sidecars v hv).1, (h.sidecars v hv).2.1,
        List.mem_cons_of_mem _ (h.sidecars v hv).2.2⟩
    · rw [List.mem_singleton.mp hv]
      exact ⟨List.mem_append_right _ (List.mem_singleton_self _), hside, List.mem_cons_self ..⟩
  tries hno i hi := by
    have him : i ≠ m := by
      intro he
      rw [he, plain_of_sidecar hside] at hi
      cases hi
    rw [show ((g.own m).did m).tries i = g.tries i from rfl, h.tries hno i hi]
    simp [him]

/-- All init members are done. -/
def Initialized (env : Env) (c : Capsule) (s₀ s : World) : Prop :=
  ∃ g sidecars, Come c s₀ c.initContainers [] sidecars g ∧ On env c s₀ g s

theorem runs_runInitEach (ms : List Uuid) : ∀ {pre sidecars : List Uuid} {g : Stage},
    Come c s₀ pre ms sidecars g →
    Runs env c s₀ (On env c s₀ g) (fun _ => Initialized env c s₀) (fun _ => Fallen env c s₀)
      (runInitEach env c.uuid ms sidecars) := by
  induction ms with
  | nil =>
      intro pre sidecars g h s hs
      have hpre : c.initContainers = pre := h.split.trans (List.append_nil pre)
      subst hpre
      exact ⟨g, sidecars, h, hs⟩
  | cons m ms ih =>
      intro pre sidecars g h
      refine (runs_stop.raises fun _ s hs => hs.fallen).bind fun _ => ?_
      refine watched_known (a := (s₀.mem m).val.isSidecar) (fun s hs => hs.1.isSidecar) ?_
      refine watched_ite (fun hside => ?_) fun hside => ?_
      · exact (runs_startSidecar h.next hside).bind fun _ => ih (h.began hside)
      · have hplain : plain c s₀ m = true := by
          unfold plain
          simp only [Bool.and_eq_true, List.contains_iff_mem, Bool.not_eq_true']
          exact ⟨h.next.init, Bool.not_eq_true _ ▸ hside⟩
        refine (runs_runInitContainer h.next hplain).bind fun _ => watched_exists fun t => ?_
        exact watched_assuming fun ht => ih (h.ran ht hplain)

theorem runs_runInitMembers (h : Come c s₀ [] c.initContainers [] g) :
    Runs env c s₀ (On env c s₀ g) (fun _ => Initialized env c s₀) (fun _ => Fallen env c s₀)
      (runInitMembers env c) := by
  refine (runs_runInitEach c.initContainers h).bind fun _ => watched_look fun reason => ?_
  refine watched_onlyIf (fun _ => ?_) fun _ s hs => hs.1
  rintro s ⟨⟨g, sidecars, hcome, hon⟩, -⟩
  have hsay : Keeps env c s₀ (On env c s₀ g)
      (assign c.uuid (Obj.setStatusReason none) >>= fun _ => save env c.uuid) :=
    runs_record hcome.beside (bland_setStatusReason _) fun _ => rfl
  exact hsay.conseq (fun _ hs => hs) (fun _ _ hs => ⟨g, sidecars, hcome, hs⟩)
    (fun _ _ hs => hs.fallen) s hon

/-! ### The main members -/

theorem mem_takeWhile_subset {l : List Uuid} {p : Uuid → Bool} {i : Uuid} (h : i ∈ l.takeWhile p) :
    i ∈ l := (List.takeWhile_sublist p).subset h

theorem Come.main (h : Come c s₀ c.initContainers [] sidecars g) (hm : m ∈ c.containers) :
    Ready c s₀ g m ∧ g.Free s₀ m ∧ plain c s₀ m = false := by
  have hnot : m ∉ c.initContainers := fun hi => not_main hi hm
  refine ⟨⟨fun i hi => h.done i (mem_takeWhile_subset hi), fun _ => h.live, fun _ hno i hi => ?_⟩,
    ⟨fun hs => ?_, fun hd => absurd (h.begun m (.inl hd)) hnot⟩, ?_⟩
  · have hinit : i ∈ c.initContainers := by
      unfold plain at hi
      simp only [Bool.and_eq_true, List.contains_iff_mem] at hi
      exact hi.1
    rw [h.tries hno i hi, if_pos hinit]
  · rw [h.seen] at hs
    cases hs
  · unfold plain
    rw [Bool.and_eq_false_iff]
    exact .inl (by simpa using hnot)

/-- A main member is made, started and recorded, by a program that says of its object what it likes. -/
theorem runs_main (h : Come c s₀ c.initContainers [] sidecars g) (hm : m ∈ c.containers)
    {p : Prog World Exn Unit}
    (hp : ∀ g' : Stage, g'.Free s₀ m → Keeps env c s₀ (At env c s₀ g' m fun _ => True) p) :
    Runs env c s₀ (At env c s₀ g m fun _ => True) (fun _ => On env c s₀ g) (fun _ => Fallen env c s₀)
      (createContainerIn env c.uuid m true none >>= fun _ => p) := by
  obtain ⟨hready, hfree, hplain⟩ := h.main hm
  refine Watched.bind ((runs_createContainerIn hready hfree (h.known m) none).raises
    fun _ s hs => hs.1) fun _ => ?_
  refine watched_exists fun id => watched_exists fun row => watched_exists fun o => ?_
  refine (hp (g.started c s₀ m id row) ⟨hfree.seen, hfree.done⟩).conseq (fun s hs => ?_)
    (fun _ s hs => ?_) fun _ s hs => hs.fallen
  · exact ⟨Obj.of (o.setContainerId (some id)).val, trivial, hs.2.2.2.2⟩
  · exact (hs.forget (h.known m)).mono (g.started_le hplain)

theorem shallow_true : Shallow fun _ => True :=
  ⟨fun _ _ _ => trivial, fun _ _ _ => trivial, fun _ _ _ => trivial, fun _ _ _ => trivial⟩

theorem runs_createMember (h : Come c s₀ c.initContainers [] sidecars g) (hm : m ∈ c.containers) :
    Runs env c s₀ (On env c s₀ g) (fun _ => On env c s₀ g) (fun _ => Fallen env c s₀) (do
      stopIfAbandoned c.uuid
      createContainerIn env c.uuid m true none
      recordRunning env m) :=
  (runs_stop.raises fun _ _ hs => hs.fallen).bind fun _ => runs_know (u := m)
    (runs_main h hm fun _ hfree => at_recordRunning hfree (fun _ _ => trivial) (fun _ _ _ => trivial)
      fun _ _ => trivial)

theorem runs_rebuildMember (h : Come c s₀ c.initContainers [] sidecars g) (hm : m ∈ c.containers) :
    Runs env c s₀ (On env c s₀ g) (fun _ => On env c s₀ g) (fun _ => Fallen env c s₀)
      (rebuildMember env c.uuid m) := by
  refine (runs_stop.raises fun _ s hs => hs.fallen).bind fun _ => ?_
  refine ((runs_call fun _ => rfl).raises fun _ s hs => hs.fallen).bind fun _ => runs_know (u := m) ?_
  refine Watched.bind (at_bumpTally (Q := fun _ => True) (h.main hm).2.1 fun _ _ => trivial) fun _ => ?_
  exact runs_main h hm fun _ hfree => at_recordNewRun shallow_true (fun _ _ => trivial) hfree

/-- The main members are started one after the other. -/
theorem runs_mains {f : Uuid → Prog World Exn Unit}
    (hf : ∀ g sidecars, Come c s₀ c.initContainers [] sidecars g → ∀ m ∈ c.containers,
      Runs env c s₀ (On env c s₀ g) (fun _ => On env c s₀ g) (fun _ => Fallen env c s₀) (f m)) :
    Runs env c s₀ (Initialized env c s₀) (fun _ => Initialized env c s₀) (fun _ => Fallen env c s₀)
      (forEach c.containers f) := by
  rintro s ⟨g, sidecars, hcome, hon⟩
  have hall := watched_forEach c.containers fun m hm => hf g sidecars hcome m hm
  exact hall.post (fun _ _ hs => ⟨g, sidecars, hcome, hs⟩) s hon

/-! ### Sandboxes and ports -/

theorem runs_tolerate {p : Prog World Exn Unit} {ok : Exn → Bool}
    (hp : Keeps env c s₀ (On env c s₀ g) p) :
    Keeps env c s₀ (On env c s₀ g) (tryExcept p fun e => if ok e then pure () else raise e) :=
  hp.tryExcept fun e => watched_ite (fun _ => watched_pure (J := fun _ => On env c s₀ g) ())
    fun _ => watched_raise (E := fun _ => On env c s₀ g) e

theorem runs_stopPodSandbox (pod : RuntimeId) :
    Keeps env c s₀ (On env c s₀ g) (stopPodSandbox env pod) := by
  refine runs_effect (fun _ => rfl) fun s _ => ?_
  have hmap : Effected (fun _ => False) s { s with containers := s.containers.map (killIn pod) } :=
    effected_map fun k _ => ages_killIn pod k
  exact ⟨rfl, rfl, rfl, hmap.next, hmap.ids, hmap.back, hmap.kept⟩

theorem runs_removePodSandbox (hg : ∀ u, ¬ g.Holds s₀ u) (pod : RuntimeId) :
    Keeps env c s₀ (On env c s₀ g) (removePodSandbox env pod) := by
  refine runs_keeping (fun _ => rfl) fun s hs => ⟨?_, rfl⟩
  have hfilter : Effected (fun _ => True) s
      { s with containers := s.containers.filter (·.sandbox ≠ pod) } :=
    effected_filter s _ fun _ _ _ => trivial
  refine Inv.effect hs (?_ : Effected (fun _ => True) s _) fun u hu => absurd hu (hg u)
  exact ⟨rfl, rfl, rfl, hfilter.next, hfilter.ids, hfilter.back, hfilter.kept⟩

theorem runs_deleteSandbox (hg : ∀ u, ¬ g.Holds s₀ u) (pod : RuntimeId) :
    Keeps env c s₀ (On env c s₀ g) (deleteSandbox env pod) :=
  (runs_tolerate (runs_stopPodSandbox pod)).bind fun _ => (runs_removePodSandbox hg pod).tryExcept
    fun e => watched_ite (fun _ => watched_pure (J := fun _ => On env c s₀ g) ())
      fun _ => watched_raise (E := fun _ => On env c s₀ g) e

/-- A call that has nothing to do with containers. -/
theorem runs_elsewhere {x : Call} {effect : World → World} (hx : Harmless x)
    (hlog : ∀ s, (effect s).log = s.log) (hmem : ∀ s, (effect s).mem = s.mem)
    (habandoned : ∀ s, (effect s).abandoned = s.abandoned) (hnext : ∀ s, s.nextId ≤ (effect s).nextId)
    (hcontainers : ∀ s, (effect s).containers = s.containers) :
    Keeps env c s₀ (On env c s₀ g) (call env x effect) :=
  runs_effect hx fun s _ =>
    effected_elsewhere (hlog s) (hmem s) (habandoned s) (hnext s) (hcontainers s)

theorem runs_createOrUpdatePort (net : RequestedNetwork) :
    Keeps env c s₀ (On env c s₀ g) (Neutron.createOrUpdatePort env u net) := by
  unfold Neutron.createOrUpdatePort
  cases net.port with
  | some p =>
      refine Watched.bind (runs_elsewhere (fun _ => rfl) (fun _ => rfl) (fun _ => rfl) (fun _ => rfl)
        (fun _ => Nat.le_refl _) fun _ => rfl) fun _ => watched_look fun found => ?_
      cases found with
      | some port => exact (watched_pure _).pre fun s hs => hs.1
      | none => exact (watched_raise _).pre fun s hs => hs.1
  | none =>
      refine Watched.bind (runs_elsewhere (fun _ => rfl) (fun _ => rfl) (fun _ => rfl) (fun _ => rfl)
        (fun _ => Nat.le_succ _) fun _ => rfl) fun _ => watched_look fun made => ?_
      exact (watched_pure _).pre fun s hs => hs.1

/-- An assignment to the record of the capsule. -/
theorem runs_assign {f : Obj → Obj} {E : Exn → World → Prop} (h : Beside c g) (ho : c.uuid ∉ g.owned)
    (hf : Bland f) :
    Runs env c s₀ (On env c s₀ g) (fun _ => On env c s₀ g) E (assign c.uuid f) :=
  (runs_know (u := c.uuid) (at_assign (Q := fun _ => True) hf h.free (fun hc => absurd hc ho)
    fun _ _ => trivial)).post fun _ _ hs => hs.forget h.known

theorem runs_saveCapsule (h : Beside c g) :
    Keeps env c s₀ (On env c s₀ g) (save env c.uuid) :=
  (runs_know (u := c.uuid) (at_save (Q := fun _ => True) fun _ _ => trivial)).conseq (fun _ hs => hs)
    (fun _ _ hs => hs.forget h.known) fun _ _ hs => hs.forget h.known

theorem runs_createPodSandbox (h : Beside c g) (ho : c.uuid ∉ g.owned)
    (nets : List RequestedNetwork) :
    Keeps env c s₀ (On env c s₀ g) (createPodSandbox env c.uuid nets) := by
  refine Watched.bind (J := fun _ => On env c s₀ g) ?_ fun _ => ?_
  · refine (runs_call fun _ => rfl).bind fun _ => ?_
    cases nets with
    | nil => exact watched_raise (E := fun _ => On env c s₀ g) _
    | cons net nets =>
        refine (runs_createOrUpdatePort net).bind fun addrs => ?_
        refine (runs_assign h ho (bland_setAddresses _)).bind fun _ => ?_
        refine (runs_call fun _ => rfl).bind fun _ => ?_
        refine (watched_forEach _ fun _ _ => runs_call fun _ => rfl).bind fun _ => ?_
        exact (runs_call fun _ => rfl).bind fun _ => runs_saveCapsule h
  · refine (runs_call fun _ => rfl).bind fun _ => ?_
    refine Watched.bind (runs_elsewhere (fun _ => rfl) (fun _ => rfl) (fun _ => rfl) (fun _ => rfl)
      (fun _ => Nat.le_succ _) fun _ => rfl) fun _ => watched_look fun pod => ?_
    refine Watched.pre ?_ fun s hs => hs.1
    exact (runs_assign h ho (bland_setContainerId _)).bind fun _ => runs_call fun _ => rfl

/-! ### The undo -/

theorem runs_unbindPort (p : PortId) :
    Keeps env c s₀ (On env c s₀ g) (Neutron.unbindPort env p) := by
  refine Watched.bind (J := fun _ => On env c s₀ g) ?_ fun there => ?_
  · refine Watched.tryExcept (E := fun _ => On env c s₀ g) ((runs_call fun _ => rfl).bind
      fun _ => watched_pure (J := fun _ => On env c s₀ g) true) fun e => ?_
    exact watched_pure (J := fun _ => On env c s₀ g) _
  · refine watched_onlyIf (fun _ => Watched.swallow ?_) fun _ s hs => hs
    exact runs_elsewhere (fun _ => rfl) (fun _ => rfl) (fun _ => rfl) (fun _ => rfl)
      (fun _ => Nat.le_refl _) fun _ => rfl

theorem runs_deleteNeutronPorts :
    Keeps env c s₀ (On env c s₀ g) (deleteNeutronPorts env u) := by
  refine watched_look fun r => Watched.pre (I := On env c s₀ g) ?_ fun s hs => hs.1
  refine watched_onlyIf (fun _ => watched_forEach _ fun p _ => ?_) fun _ s hs => hs
  refine Watched.tryExcept (E := fun _ => On env c s₀ g) (watched_ite (fun _ => ?_)
    fun _ => runs_unbindPort p) fun e => watched_ite (fun _ => watched_pure (J := fun _ => On env c s₀ g) ())
      fun _ => watched_raise (E := fun _ => On env c s₀ g) e
  exact runs_elsewhere (fun _ => rfl) (fun _ => rfl) (fun _ => rfl) (fun _ => rfl)
    (fun _ => Nat.le_refl _) fun _ => rfl

theorem runs_undoCreate (h : Beside c g) (ho : c.uuid ∉ g.owned) (hg : ∀ u, ¬ g.Holds s₀ u) :
    Keeps env c s₀ (On env c s₀ g) (undoCreate env c.uuid) := by
  refine Watched.bind (J := fun _ => On env c s₀ g) ?_ fun _ => ?_
  · refine watched_look fun pod => Watched.pre (I := On env c s₀ g) ?_ fun s hs => hs.1
    cases pod with
    | none => exact watched_pure (J := fun _ => On env c s₀ g) ()
    | some pod =>
        refine Watched.swallow ((runs_deleteSandbox hg pod).bind fun _ => ?_)
        exact runs_assign h ho (bland_setContainerId _)
  · refine watched_look fun addresses => Watched.pre (I := On env c s₀ g) ?_ fun s hs => hs.1
    refine watched_onlyIf (fun _ => Watched.swallow ?_) fun _ s hs => hs
    exact runs_deleteNeutronPorts.bind fun _ => runs_assign h ho (bland_setAddresses _)

end Capsules

/-! ## A whole run -/

section Run

variable {env : Env} {c : Capsule} {s₀ s : World}

/-- Where a run begins, nothing has been done. -/
theorem begins (hs : Counted s₀) : On env c s₀ {} s₀ := by
  refine ⟨{
    toCounted := hs
    log := List.suffix_refl _
    next := Nat.le_refl _
    policy := fun _ => rfl
    probes := fun _ => rfl
    abandoned := ?_
    done := fun _ h => by cases h
    owned := fun _ h => by cases h
    seen := fun _ h => by cases h
    known := fun _ _ h => by cases h
    live := fun k hk hlive => absurd (hs.ids k hk) (Nat.not_lt.mpr hlive.1)
    made := fun _ h => by cases h
    named := fun _ h => by cases h
    dead := fun _ h => by cases h
    tries := fun _ _ => rfl }, ?_⟩
  · rintro (hab | ⟨t, hle, hlt, -⟩)
    · exact hab
    · exact absurd hlt (Nat.not_lt.mpr hle)
  · rintro x ⟨t, ht, hsuffix⟩
    have hlen := hsuffix.length_le
    rw [ht, List.length_cons] at hlen
    exact absurd hlen (Nat.not_succ_le_self _)

theorem holds_bare (live : Option RuntimeId) (tries : Uuid → Nat) (u : Uuid) :
    ¬ ({ live, tries } : Stage).Holds s₀ u := by
  rintro (hu | hu | hu)
  · cases hu
  · cases hu
  · cases hu.1

theorem beside_bare (live : Option RuntimeId) (tries : Uuid → Nat) : Beside c { live, tries } :=
  ⟨List.not_mem_nil, List.not_mem_nil, rfl⟩

theorem come_begin : Come c s₀ [] c.initContainers [] {} where
  split := rfl
  done _ h := by cases h
  begun _ h := by rcases h with h | h <;> cases h
  seen := rfl
  known _ := rfl
  live := rfl
  sidecars _ h := by cases h
  tries _ _ _ := rfl

theorem Initialized.fallen (h : Initialized env c s₀ s) : Fallen env c s₀ s := by
  obtain ⟨g, sidecars, -, hon⟩ := h
  exact hon.fallen

theorem runs_buildCapsule (nets : List RequestedNetwork) :
    Runs env c s₀ (On env c s₀ {}) (fun _ => Fallen env c s₀) (fun _ => Fallen env c s₀)
      (buildCapsule env c nets) := by
  have hbeside : Beside c {} := (come_begin : Come c s₀ [] c.initContainers [] {}).beside
  refine Watched.bind ((runs_createPodSandbox hbeside (fun h => by cases h) nets).raises
    fun _ s hs => hs.fallen) fun _ => ?_
  refine ((runs_saveCapsule hbeside).raises fun _ s hs => hs.fallen).bind fun _ => ?_
  refine (runs_runInitMembers come_begin).bind fun _ => ?_
  exact (runs_mains fun g sidecars hcome m hm => runs_createMember hcome hm).post
    fun _ s hs => hs.fallen

theorem runs_undoFallen :
    Keeps env c s₀ (Fallen env c s₀) (undoCreate env c.uuid) :=
  watched_exists fun live => watched_exists fun tries =>
    (runs_undoCreate (beside_bare live tries) (fun h => by cases h) (holds_bare live tries)).conseq
      (fun _ hs => hs) (fun _ _ hs => hs.fallen) fun _ _ hs => hs.fallen

theorem runs_assignFallen {f : Obj → Obj} (hf : Bland f) {E : Exn → World → Prop} :
    Runs env c s₀ (Fallen env c s₀) (fun _ => Fallen env c s₀) E (assign c.uuid f) :=
  watched_exists fun live => watched_exists fun tries =>
    (runs_assign (beside_bare live tries) (fun h => by cases h) hf).post fun _ _ hs => hs.fallen

theorem runs_saveFallen :
    Keeps env c s₀ (Fallen env c s₀) (save env c.uuid) :=
  watched_exists fun live => watched_exists fun tries =>
    (runs_saveCapsule (beside_bare live tries)).conseq (fun _ hs => hs) (fun _ _ hs => hs.fallen)
      fun _ _ hs => hs.fallen

theorem runs_createCapsule (nets : List RequestedNetwork) (vols : RequestedVolumes) :
    Runs env c s₀ (On env c s₀ {}) (fun _ => Fallen env c s₀) (fun _ => Fallen env c s₀)
      (createCapsule env c nets vols) :=
  ((runs_buildCapsule nets).reraising fun _ => runs_undoFallen).bind
    fun _ => runs_assignFallen (bland_setStatus _)

theorem runs_rebuildCapsule :
    Runs env c s₀ (On env c s₀ {}) (fun _ => Fallen env c s₀) (fun _ => Fallen env c s₀)
      (rebuildCapsule env c) := by
  have hbeside : Beside c {} := (come_begin : Come c s₀ [] c.initContainers [] {}).beside
  refine watched_look fun r => Watched.pre (I := On env c s₀ {}) ?_ fun s hs => hs.1
  refine Watched.bind ((runs_deleteSandbox (holds_bare none fun _ => 0) _).raises
    fun _ s hs => hs.fallen) fun _ => ?_
  refine Watched.bind (J := fun _ => On env c s₀ {}) (watched_onlyIf (fun _ s hs => hs.fallen)
    fun _ s hs => hs) fun _ => ?_
  refine Watched.bind ((runs_createPodSandbox hbeside (fun h => by cases h) _).raises
    fun _ s hs => hs.fallen) fun _ => ?_
  refine ((runs_saveCapsule hbeside).raises fun _ s hs => hs.fallen).bind fun _ => ?_
  refine (runs_runInitMembers come_begin).bind fun _ => ?_
  refine (runs_mains fun g sidecars hcome m hm => runs_rebuildMember hcome hm).bind fun _ => ?_
  refine Watched.pre (I := Fallen env c s₀) ?_ fun s hs => hs.fallen
  refine (runs_assignFallen (bland_setStatus _)).bind fun _ => ?_
  refine (runs_assignFallen (bland_setTaskState _)).bind fun _ => watched_look fun now => ?_
  refine watched_look fun started => Watched.pre (I := Fallen env c s₀) ?_ fun s hs => hs.1.1
  refine Watched.bind (J := fun _ => Fallen env c s₀) (watched_onlyIf (fun _ => ?_) fun _ s hs => hs)
    fun _ => runs_saveFallen
  exact runs_assignFallen (bland_setStartedAt _)

end Run

/-- In every run of `create_capsule` and of `_rebuild_capsule` at most one plain init container is live,
and at every call that makes a container for a member, the init members before it are done, a main one
is made under a policy that does not restart only when no init container needed another try, and no
delete had come by the check that follows the pull, two calls before. -/
theorem start_order (env : Env) (c : Capsule) (b : Building) (s : World) (hs : Counted s) :
    wp (b.run env c) (fun _ s' => Orderly env c s 2 s') s := by
  have hrun : Runs env c s (On env c s {}) (fun _ => Fallen env c s) (fun _ => Fallen env c s)
      (b.run env c) := by
    cases b with
    | create nets vols => exact runs_createCapsule nets vols
    | rebuild => exact runs_rebuildCapsule
  refine wp_mono (hrun s (begins hs)) fun r s' hr => ?_
  cases r with
  | ok a => exact Fallen.orderly hr
  | raise e => exact Fallen.orderly hr
  | halt => exact hr

/-- A capsule with an init container and a main member. -/
def small : Capsule := { uuid := 1, containers := [3], initContainers := [2] }

def smallWorld : World := World.ofRows [(1, { status := .creating }), (2, { status := .creating }),
  (3, { status := .creating })]

/-- The container of the init container exits with code 0 as soon as it runs. -/
def exitsWell : Env where
  exits _ := [(3, 0)]

theorem start_order_small :
    ((createCapsule exitsWell small [{ network := 7 }] []) smallWorld).1 = .ok () ∧
      wp (createCapsule exitsWell small [{ network := 7 }] [])
        (fun _ s => Orderly exitsWell small smallWorld 2 s) smallWorld :=
  ⟨by decide +kernel,
    start_order exitsWell small (.create [{ network := 7 }] []) smallWorld ⟨by decide, by decide⟩⟩

/-- A delete comes while the configuration of a container is put together.  The process dies at the
next call. -/
def lateDelete : Env where
  answer n _ := if n = 12 then .halt else .ok
  abandons n := if n = 11 then [1] else []

/-- A container is made for a member although a delete has come before. -/
theorem not_start_order : ¬ ∀ (env : Env) (c : Capsule) (b : Building) (s : World), Counted s →
    wp (b.run env c) (fun _ s' => Orderly env c s 1 s') s := by
  intro h
  have hrun := h lateDelete small (.create [{ network := 7 }] []) smallWorld ⟨by decide, by decide⟩
  have hcall : Last smallWorld (.createContainer 2 2 0, .halt)
      (createCapsule lateDelete small [{ network := 7 }] [] smallWorld).2 := by
    have hhead : (createCapsule lateDelete small [{ network := 7 }] [] smallWorld).2.log.head?
        = some (.createContainer 2 2 0, .halt) := by decide +kernel
    obtain ⟨t, ht⟩ := List.head?_eq_some_iff.mp hhead
    exact ⟨t, ht, List.nil_suffix⟩
  have hwanted := (hrun.2 2 2 0 hcall).wanted.2 11 (Nat.zero_le _) (by decide +kernel)
  exact hwanted (by decide)

end StartOrder

end Cri

end Zun
