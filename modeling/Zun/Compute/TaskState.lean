import Zun.Compute.Gentle
import Zun.Container.Cri.Gentle

/-!
# Who owns a record

An operation owns a record while `task_state` is set.  `_update_task_state` sets it on the way
in and clears it on the way out, whatever was raised inside, but only when it found it clear.
A thread brings its object up to date with `_caught_up` first, so what it finds is what the
row says and not what the object said when the thread was spawned.

So a thread leaves the `task_state` of the row as it found it.  A row that was clear is clear
again.  A row that carries the `task_state` of an operation that is gone, as every row that
start-up resumes does, carries it for good.
-/

namespace Zun

open Effect Prog World

namespace Manager

variable {env : Env} {d : Drivers} {u : Uuid} {s : World}

/-- The database takes the writes that release the record of `u`. -/
def ReleasesOk (env : Env) (u : Uuid) : Prop :=
  ∀ n row, row.taskState = none → env.answer n (.save u row) = .ok

/-- The row of `u`, if it is there, has this `task_state`. -/
def Persisted (u : Uuid) (t : Option TaskState) (s : World) : Prop :=
  ∀ r, s.db u = some r → r.taskState = t

/-- The object and the row of `u` agree that this is its `task_state`. -/
def Owned (u : Uuid) (t : Option TaskState) (s : World) : Prop :=
  (s.mem u).val.taskState = t ∧ Persisted u t s

/-! ## What keeps `task_state` -/

theorem merged_taskState {t : Option TaskState} {row : Record}
    (hmem : (s.mem u).val.taskState = t) (hrow : row.taskState = t) :
    (s.merged u row).taskState = t := by
  unfold World.merged Changed.merge
  dsimp only
  split
  · exact hmem
  · exact hrow

/-- Owning a record survives every step of a driver. -/
instance (u : Uuid) (t : Option TaskState) : Loose (Kept (Owned u t)) :=
  Loose.of fun s s' hsame h => by
    refine ⟨?_, ?_⟩
    · rw [hsame.mem]
      exact h.1
    · intro r hr
      rw [hsame.db] at hr
      exact h.2 r hr

instance (u : Uuid) (t : Option TaskState) : Tolerant (Kept (Owned u t)) where
  assign {s v f} hf h := by
    refine ⟨?_, h.2⟩
    by_cases hv : u = v
    · subst hv
      rw [setMem_mem_self, hf.taskState]
      exact h.1
    · rw [setMem_mem_of_ne hv]
      exact h.1
  save {s v row} hrow h := by
    refine ⟨by rw [saved_val]; exact h.1, ?_⟩
    intro r hr
    by_cases hv : u = v
    · subst hv
      rw [saved_db_self, Option.some.injEq] at hr
      subst hr
      exact merged_taskState h.1 (h.2 row hrow)
    · rw [saved_db_of_ne hv] at hr
      exact h.2 r hr

/-- An operation inside another finds `task_state` set and leaves it to the outer one. -/
theorem kept_updateTaskState {α : Type} {body : Prog World Exn α} {t t' : TaskState}
    (hbody : Within (Kept (Owned u (some t))) body) :
    Within (Kept (Owned u (some t))) (updateTaskState env u t' body) := by
  intro s hs
  have hrun : updateTaskState env u t' body s = body s := by
    change (if (s.mem u).val.taskState.isSome = true then body else _) s = body s
    rw [if_pos (by rw [hs.1]; rfl)]
  rw [hrun]
  exact hbody s hs

section Owning

variable {t : TaskState}

theorem kept_doContainerCreateBase (hd : d.Lawful) (x : Subject) (nets : List RequestedNetwork)
    (vols : RequestedVolumes) :
    Within (Kept (Owned x.uuid (some t))) (doContainerCreateBase env d x nets vols) :=
  kept_updateTaskState (within_createOwned hd x nets vols)

theorem kept_rebuildOwned (hd : d.Lawful) (run : Bool) :
    Within (Kept (Owned u (some t))) (rebuildOwned env d u run) := by
  refine Within.bind ?_ fun _ => Within.onlyIf (kept_updateTaskState (within_startOwned hd u))
  exact within_rebuildSteps hd fun _ _ => kept_doContainerCreateBase hd (.container u) _ _

end Owning

/-! ## One operation -/

/-- The thread has ended, and the row's `task_state`, if there is a row, is `t`. -/
def EndsAt {α : Type} (u : Uuid) (t : Option TaskState) (r : Result Exn α) (s : World) : Prop :=
  r ≠ .halt → Persisted u t s

theorem merged_setTaskState {t : Option TaskState} (row : Record) :
    ((s.setMem u (Obj.setTaskState t)).merged u row).taskState = t := by
  rw [World.merged, setMem_mem_self]
  rfl

/-- The way in: a write that fails leaves the row as it was. -/
theorem wp_claimTaskState {t : TaskState} {Q : Result Exn Unit → World → Prop}
    (hs : Persisted u none s) (hok : ∀ s', Q (.ok ()) s')
    (hraise : ∀ e s', Persisted u none s' → Q (.raise e) s') (hhalt : ∀ s', Q .halt s') :
    wp (do assign u (Obj.setTaskState (some t)); save env u) Q s := by
  rw [wp_bind, wp_assign, seqPost_ok]
  exact wp_save (fun _ => hraise _ _ hs) (fun _ _ _ => hok _) (fun _ e _ _ => hraise e _ hs)
    (fun _ _ _ => hhalt _)

/-- The way out: the row is clear, or gone. -/
theorem wp_releaseTaskState (hsave : ReleasesOk env u) {Q : Result Exn Unit → World → Prop}
    (hok : ∀ r s', Persisted u none s' → Q r s') :
    wp (do assign u (Obj.setTaskState none); save env u) Q s := by
  rw [wp_bind, wp_assign, seqPost_ok]
  refine wp_save (fun hgone => hok _ _ ?_) (fun row _ _ => hok _ _ ?_) (fun row e _ h => ?_)
    (fun row _ h => ?_)
  · intro r hr
    rw [hgone] at hr
    cases hr
  · intro r hr
    rw [saved_db_self, Option.some.injEq] at hr
    subst hr
    exact merged_setTaskState row
  · rw [hsave _ _ (merged_setTaskState row)] at h
    cases h
  · rw [hsave _ _ (merged_setTaskState row)] at h
    cases h

/-- What `_update_task_state` finds in the row it leaves there. -/
theorem wp_updateTaskState {α : Type} {body : Prog World Exn α} {t : Option TaskState}
    {t' : TaskState} (hsave : ReleasesOk env u) (hs : Owned u t s)
    (hbody : ∀ t₀, t = some t₀ → Within (Kept (Owned u t)) body) :
    wp (updateTaskState env u t' body) (EndsAt u t) s := by
  cases t with
  | some t₀ =>
      have hkeep : Within (Kept (Owned u (some t₀))) (updateTaskState env u t' body) :=
        kept_updateTaskState (hbody t₀ rfl)
      exact fun _ => (hkeep s hs).2
  | none =>
      change wp (if (s.mem u).val.taskState.isSome = true then body else _) _ s
      rw [if_neg (by rw [hs.1]; exact Bool.false_ne_true)]
      change wp (do
        (do assign u (Obj.setTaskState (some t')); save env u)
        tryFinally body (do assign u (Obj.setTaskState none); save env u)) _ s
      rw [wp_bind]
      refine wp_claimTaskState hs.2 (fun s₁ => ?_) (fun e s₁ hs₁ _ => hs₁)
        (fun s₁ h => absurd rfl h)
      rw [seqPost_ok, wp_tryFinally]
      refine wp_mono (Q := fun _ _ => True) trivial ?_
      intro r s₂ _
      cases r with
      | halt => exact fun h => absurd rfl h
      | ok a =>
          rw [finallyPost_ok]
          refine wp_releaseTaskState hsave fun r s₃ hs₃ => ?_
          cases r <;> exact fun _ => hs₃
      | raise e =>
          rw [finallyPost_raise]
          refine wp_releaseTaskState hsave fun r s₃ hs₃ => ?_
          cases r <;> exact fun _ => hs₃

/-! ## Threads -/

/-- A queued operation runs on the object brought up to date, if there is still a row. -/
theorem wp_whenCaughtUp_cases {op : Prog World Exn Unit} {Q : Result Exn Unit → World → Prop}
    (hop : ∀ row, s.db u = some row →
      wp op Q ((s.turn env (.readRow u)).setMem u (catchUp row)))
    (hgone : s.db u = none → Q (.ok ()) (s.turn env (.readRow u)))
    (hraise : ∀ e, Q (.raise e) (s.turn env (.readRow u))) (hhalt : Q .halt (s.turn env (.readRow u))) :
    wp (whenCaughtUp env u op) Q s := by
  unfold whenCaughtUp caughtUp freshRecord ask
  rw [wp_bind, wp_bind, wp_bind]
  refine wp_call (fun _ => ?_) (fun e _ => hraise e) (fun _ => hhalt)
  rw [seqPost_ok, wp_read, seqPost_ok, id_eq, turn_db]
  cases hrow : s.db u with
  | none => exact hgone hrow
  | some row =>
      rw [wp_bind, wp_assign, seqPost_ok, wp_pure, seqPost_ok]
      exact hop row hrow

/-- A queued operation starts from what the row says. -/
theorem wp_whenCaughtUp {op : Prog World Exn Unit} {row : Record} {t : Option TaskState}
    (hrow : s.db u = some row) (ht : row.taskState = t)
    (hop : ∀ s', Owned u t s' → wp op (EndsAt u t) s') :
    wp (whenCaughtUp env u op) (EndsAt u t) s := by
  have hturn : ∀ c, Persisted u t (s.turn env c) := by
    intro c r hr
    rw [turn_db, hrow, Option.some.injEq] at hr
    rw [← hr, ht]
  refine wp_whenCaughtUp_cases (fun row' hrow' => ?_) (fun h => ?_) (fun e _ => hturn _)
    (fun h => absurd rfl h)
  · rw [hrow, Option.some.injEq] at hrow'
    subst hrow'
    refine hop _ ⟨?_, fun r hr => ?_⟩
    · rw [setMem_mem_self]
      exact ht
    · rw [setMem_db] at hr
      exact hturn _ r hr
  · rw [hrow] at h
    cases h

/-- What comes after the driver's delete keeps the `task_state` of the row. -/
theorem wp_doContainerDelete (hd : d.Lawful) {x : Subject} (hsave : ReleasesOk env x.uuid)
    {force : Bool} {t : Option TaskState} (hs : Owned x.uuid t s) :
    wp (doContainerDelete env d x force) (EndsAt x.uuid t) s := by
  have husage : Within (Kept (Persisted x.uuid t)) (call env (.removeUsage x.uuid)) :=
    within_call (fun s h => h) (fun s h => h)
  have hrelease : Within (Kept (Persisted x.uuid t)) (releaseAllocation env x) := by
    cases x with
    | member u => exact within_pure _
    | container u => exact Within.swallow (within_call (fun s h => h) (fun s h => h))
    | capsule c => exact Within.swallow (within_call (fun s h => h) (fun s h => h))
  have hdestroy : Within (Kept (Persisted x.uuid t)) (destroy env x.uuid (members x)) := by
    intro s hp
    refine wp_destroy (Q := fun _ s' => Persisted x.uuid t s') (fun _ => hp) (fun r hr => ?_)
      (fun _ => hp) hp
    exact hp r (db_of_dropRows hr).2
  unfold doContainerDelete freshRecord ask
  rw [wp_bind, wp_bind]
  refine wp_call (fun _ => ?_) (fun e _ _ => hs.2) (fun _ h => absurd rfl h)
  rw [seqPost_ok, wp_read, seqPost_ok, wp_bind]
  refine wp_mono (wp_updateTaskState (t := t) hsave hs ?_) ?_
  · intro t₀ _
    exact within_deleteOwned hd x force
  · intro r s' hr
    cases r with
    | halt => exact fun h => absurd rfl h
    | raise e => exact fun _ => hr nofun
    | ok a =>
        have hrest := (husage.swallow.bind fun _ => hrelease.bind fun _ => hdestroy) s' (hr nofun)
        exact fun _ => hrest

/-- A thread that has ended leaves the `task_state` of the row as it found it. -/
theorem wp_thread (hd : d.Lawful) {x : Subject} (hsave : ReleasesOk env x.uuid) {op : Operation}
    {row : Record} (hrow : s.db x.uuid = some row) :
    wp (thread env d x op) (EndsAt x.uuid row.taskState) s := by
  have hquiet {t' : TaskState} {method : Uuid → Prog World Exn Unit}
      (hm : ∀ u, Gentle (method u)) :
      wp (whenCaughtUp env x.uuid (quietly env x.uuid t' method))
        (EndsAt x.uuid row.taskState) s := by
    refine wp_whenCaughtUp hrow rfl fun s' hs' => wp_swallow_of ?_
    refine wp_mono (wp_updateTaskState hsave hs' fun _ _ => hm _ _) ?_
    intro r s'' hr
    cases r with
    | halt => exact hr
    | ok a => exact hr
    | raise e => exact fun _ => hr nofun
  cases op with
  | start =>
      refine wp_whenCaughtUp hrow rfl fun s' hs' => wp_updateTaskState hsave hs' ?_
      intro t₀ ht₀
      rw [ht₀]
      exact within_startOwned hd _
  | stop => exact hquiet hd.driver.stop
  | reboot => exact hquiet hd.driver.reboot
  | pause => exact hquiet hd.driver.pause
  | unpause => exact hquiet hd.driver.unpause
  | kill => exact hquiet hd.driver.kill
  | rebuild run =>
      refine wp_whenCaughtUp hrow rfl fun s' hs' => wp_updateTaskState hsave hs' ?_
      intro t₀ ht₀
      rw [ht₀]
      exact kept_rebuildOwned hd run
  | delete force =>
      have hdel : wp (whenCaughtUp env x.uuid (doContainerDelete env d x force))
          (EndsAt x.uuid row.taskState) s :=
        wp_whenCaughtUp hrow rfl fun s' hs' => wp_doContainerDelete hd hsave hs'
      cases x with
      | container u => exact hdel
      | member u => exact hdel
      | capsule c =>
          change wp (tryFinally _ _) _ s
          rw [wp_tryFinally]
          refine wp_mono hdel ?_
          intro r s' hr
          cases r with
          | halt => exact hr
          | ok a => exact fun _ => hr nofun
          | raise e => exact fun _ => hr nofun

/-- The record, if it is still there when the thread has ended, is owned by no operation. -/
def Released (env : Env) (d : Drivers) (x : Subject) (op : Operation) (s : World) : Prop :=
  ∀ r, (thread env d x op s).2.db x.uuid = some r → r.taskState = none

/-- A thread releases the record it leaves behind exactly when nothing owned the row. -/
theorem released_iff_row_free {x : Subject} {op : Operation} {row : Record}
    (hd : d.Lawful) (hsave : ReleasesOk env x.uuid) (hrow : s.db x.uuid = some row)
    (hended : (thread env d x op s).1 ≠ .halt)
    (hleft : ((thread env d x op s).2.db x.uuid).isSome) :
    Released env d x op s ↔ row.taskState = none := by
  have hend : Persisted x.uuid row.taskState (thread env d x op s).2 :=
    wp_thread hd hsave hrow hended
  obtain ⟨r, hr⟩ := Option.isSome_iff_exists.mp hleft
  constructor
  · intro h
    rw [← hend r hr]
    exact h r hr
  · intro h r' hr'
    rw [hend r' hr', h]

/-- A running container whose stop was interrupted. -/
def interruptedStop : Record :=
  { status := .running, containerId := some 7, taskState := some .containerStopping }

/-- The stop of a running container that nothing owns releases it. -/
theorem released_running_stop :
    Released {} (defaultDrivers {}) (.container 1) .stop
      (ofRows [(1, { interruptedStop with taskState := none })]) :=
  (released_iff_row_free (defaultDrivers_lawful _) (fun _ _ _ => rfl) rfl (by decide)
    (by decide)).mpr rfl

/-- Start-up resumes the interrupted stop, every call of it succeeds, and the container is left
owned by the stop. -/
theorem resumed_stop_not_released :
    initContainer interruptedStop = .resume .stop ∧
      ¬ Released {} (defaultDrivers {}) (.container 1) .stop
        { ofRows [(1, interruptedStop)] with mem := fun _ => resumedObj interruptedStop } := by
  refine ⟨rfl, fun h => ?_⟩
  have hrow : ((thread {} (defaultDrivers {}) (.container 1) .stop
      { ofRows [(1, interruptedStop)] with mem := fun _ => resumedObj interruptedStop }).2.db 1).map
        (·.taskState) = some (some .containerStopping) := by decide
  obtain ⟨r, hr, htask⟩ := Option.map_eq_some_iff.mp hrow
  rw [h r hr] at htask
  cases htask

end Manager

end Zun
