import Zun.Api.Containers
import Zun.Compute.Failing
import Zun.Effect.Run

/-!
# Running containers and their allocations

A container that runs on a host is billed for the allocation the scheduler wrote before it was
created, and its room on the host is held by it.  Several handlers of the manager delete the
allocation.  This module follows a docker container through any sequence of requests and asks
whether one can run without it.

A world is fine for three reasons: the allocation is there, the record names no host, or the
record is not that of a live container.  Each is kept by most of what the manager does, and
the last is the one that holds when an allocation is deleted.  What is left is the start.  It
brings a container to life without asking placement, and so it needs one of the first two.
-/

namespace Zun

open Effect Prog World

namespace Manager

variable {env : Env} {u : Uuid} {s : World}

/-! ## Three reasons -/

/-- The container holds its allocation. -/
def Held (u : Uuid) (s : World) : Prop := s.allocations u = true

/-- Neither the row nor the object names a host. -/
structure Hostless (u : Uuid) (s : World) : Prop where
  row : ∀ r, s.db u = some r → r.host = none
  obj : (s.mem u).val.host = none

/-- The row is not that of a live container. -/
def RowIdle (u : Uuid) (s : World) : Prop := ∀ r, s.db u = some r → r.status.live = false

/-- Neither the row nor the object is that of a live container. -/
structure Idle (u : Uuid) (s : World) : Prop where
  row : RowIdle u s
  obj : (s.mem u).val.status.live = false

/-- A container that is live on a host holds its allocation. -/
def Billed (u : Uuid) (s : World) : Prop :=
  ∀ r, s.db u = some r → r.status.live = true → r.host ≠ none → Held u s

theorem Held.billed (h : Held u s) : Billed u s := fun _ _ _ _ => h

theorem Hostless.billed (h : Hostless u s) : Billed u s :=
  fun r hr _ hhost => absurd (h.row r hr) hhost

theorem RowIdle.billed (h : RowIdle u s) : Billed u s := by
  intro r hr hlive
  rw [h r hr] at hlive
  cases hlive

/-! ## What keeps them -/

instance (u : Uuid) : Outer (Kept (Held u)) where
  still hs h := by
    unfold Held
    rw [hs.allocations]
    exact h
  outer ha h := by
    unfold Held
    rw [ha.allocations]
    exact h

instance (u : Uuid) : Mobile (Kept (Held u)) where
  moved _ _ _ h := h

instance (u : Uuid) : Mapping (Kept (Held u)) where
  mapped _ h := h

instance (u : Uuid) : Tolerant (Kept (Held u)) where
  assign _ h := h
  save _ h := h

theorem Hostless.setMem {v : Uuid} {f : Obj → Obj}
    (hf : ∀ o, (f o).val.host = o.val.host ∨ (f o).val.host = none) (h : Hostless u s) :
    Hostless u (s.setMem v f) := by
  refine ⟨h.row, ?_⟩
  by_cases hv : u = v
  · subst hv
    rw [setMem_mem_self]
    obtain hhost | hhost := hf (s.mem u)
    · rw [hhost]
      exact h.obj
    · exact hhost
  · rw [setMem_mem_of_ne hv]
    exact h.obj

theorem Hostless.saved {v : Uuid} {row : Record} (hrow : s.db v = some row) (h : Hostless u s) :
    Hostless u (s.saved v row) := by
  refine ⟨fun r hr => ?_, by rw [saved_val]; exact h.obj⟩
  by_cases hv : u = v
  · subst hv
    rw [saved_db_self, Option.some.injEq] at hr
    subst hr
    obtain hhost | hhost := merged_host (u := u) (s := s) row
    · rw [hhost]
      exact h.obj
    · rw [hhost]
      exact h.row row hrow
  · rw [saved_db_of_ne hv] at hr
    exact h.row r hr

instance (u : Uuid) : Loose (Kept (Hostless u)) :=
  Loose.of fun _ _ hs h => ⟨by rw [hs.db]; exact h.row, by rw [hs.mem]; exact h.obj⟩

instance (u : Uuid) : Tolerant (Kept (Hostless u)) where
  assign hf h := h.setMem hf.host
  save hrow h := h.saved hrow

theorem RowIdle.saved {v : Uuid} {row : Record} (hrow : s.db v = some row)
    (hobj : v = u → (s.mem u).val.status.live = false) (h : RowIdle u s) :
    RowIdle u (s.saved v row) := by
  intro r hr
  by_cases hv : u = v
  · subst hv
    rw [saved_db_self, Option.some.injEq] at hr
    subst hr
    obtain hstatus | hstatus := merged_status (u := u) (s := s) row
    · rw [hstatus]
      exact hobj rfl
    · rw [hstatus]
      exact h row hrow
  · rw [saved_db_of_ne hv] at hr
    exact h r hr

theorem Idle.setMem {v : Uuid} {f : Obj → Obj}
    (hf : ∀ o, (f o).val.status.live = true → (f o).val.status = o.val.status) (h : Idle u s) :
    Idle u (s.setMem v f) := by
  refine ⟨h.row, ?_⟩
  by_cases hv : u = v
  · subst hv
    rw [setMem_mem_self, Bool.eq_false_iff]
    intro hlive
    rw [hf _ hlive, h.obj] at hlive
    cases hlive
  · rw [setMem_mem_of_ne hv]
    exact h.obj

theorem Idle.saved {v : Uuid} {row : Record} (hrow : s.db v = some row) (h : Idle u s) :
    Idle u (s.saved v row) :=
  ⟨h.row.saved hrow fun _ => h.obj, by rw [saved_val]; exact h.obj⟩

instance (u : Uuid) : Loose (Kept (Idle u)) :=
  Loose.of fun _ _ hs h => by
    refine ⟨?_, by rw [hs.mem]; exact h.obj⟩
    intro r hr
    rw [hs.db] at hr
    exact h.row r hr

instance (u : Uuid) : Tame (Kept (Idle u)) where
  assign hf h := h.setMem hf.status
  save hrow h := h.saved hrow

instance (u : Uuid) : Loose (Kept (RowIdle u)) :=
  Loose.of fun _ _ hs h r hr => by
    rw [hs.db] at hr
    exact h r hr

/-- Assigning `task_state` keeps all three. -/
theorem idle_setTaskState (t : Option TaskState) :
    Kept (Idle u) s (s.setMem u (Obj.setTaskState t)) := fun h => h.setMem fun _ _ => rfl

theorem hostless_setTaskState (t : Option TaskState) :
    Kept (Hostless u) s (s.setMem u (Obj.setTaskState t)) := fun h => h.setMem fun _ => .inl rfl

/-! ## A record that fails -/

/-- A record that is marked as failed is idle, if its row was. -/
theorem wp_markFailed_idle {error : String} {unset : Bool} (h : RowIdle u s) :
    wp (markFailed env (.container u) error unset) (fun _ s' => Idle u s') s := by
  have hset : ∀ v : Status, v.live = false → Idle u (s.setMem u (Obj.setStatus v)) := by
    intro v hv
    refine ⟨h, ?_⟩
    rw [setMem_mem_self]
    exact hv
  unfold markFailed
  rw [wp_bind, wp_obj, seqPost_ok, wp_ite]
  split
  · rw [wp_bind, wp_assign, seqPost_ok]
    have hrest : Within (Kept (Idle u)) (do
        assign u (Obj.setStatusReason (some error)); save env u) :=
      (within_meek (meek_setStatusReason _)).bind fun _ => within_save u
    exact hrest _ (hset _ rfl)
  · rw [wp_bind, wp_assign, seqPost_ok]
    have hrest : Within (Kept (Idle u)) (do
        assign u (Obj.setStatusReason (some error))
        onlyIf unset (assign u (Obj.setHost none))
        save env u
        (pure () : Prog World Exn Unit)) := by
      refine (within_meek (meek_setStatusReason _)).bind fun _ => ?_
      refine (within_slight slight_unsetHost).onlyIf.bind fun _ => ?_
      exact (within_save u).bind fun _ => within_pure _
    exact hrest _ (hset _ rfl)

/-- The row of a container that is being failed does not come to life. -/
theorem rowIdle_failContainer (depth : Nat) (error : String) (unset : Bool) :
    Within (Kept (RowIdle u)) (failContainer env depth (.container u) error unset) := by
  induction depth generalizing error unset with
  | zero => exact within_halt
  | succ depth ih =>
      refine Within.bind (within_detachVolumesOf (fun msg => ih msg true) true).swallow fun _ => ?_
      refine (within_releaseAllocation _).onlyIf.bind fun _ => ?_
      intro s h
      exact (wp_markFailed_idle h).row

/-- The row is idle, and so is the object of a thread that goes on. -/
structure Downed {α : Type} (u : Uuid) (r : Result Exn α) (s : World) : Prop where
  row : RowIdle u s
  obj : r ≠ .halt → (s.mem u).val.status.live = false

theorem wp_failContainer_downed {depth : Nat} {error : String} {unset : Bool}
    (h : RowIdle u s) : wp (failContainer env depth (.container u) error unset) (Downed u) s := by
  cases depth with
  | zero => exact ⟨h, fun hne => absurd rfl hne⟩
  | succ depth =>
      have hdetach : Within (Kept (RowIdle u)) (detachVolumes env
          (fun y msg => failContainer env depth y msg true) true (.container u)) :=
        within_detachVolumesOf (fun msg => rowIdle_failContainer depth msg true) true
      have hstop : ∀ s', RowIdle u s' → Downed u (.halt : Result Exn Unit) s' :=
        fun s' h => ⟨h, fun hne => absurd rfl hne⟩
      have hmark : ∀ s', RowIdle u s' →
          wp (markFailed env (.container u) error unset) (Downed u) s' :=
        fun s' h => wp_mono (wp_markFailed_idle h) fun _ _ h' => ⟨h'.row, fun _ => h'.obj⟩
      unfold failContainer
      refine wp_bind_swallow hdetach h (fun s₁ h₁ => ?_) hstop
      cases unset with
      | false => exact hmark s₁ h₁
      | true => exact wp_bind_swallow (within_deleteAllocation u) h₁ hmark hstop

/-! ## The start -/

theorem rowIdle_assign {v : Uuid} {f : Obj → Obj} :
    Within (Kept (RowIdle u)) (assign v f) := within_modify fun _ h => h

theorem wp_markMissing_idle {b : Bool} (h : RowIdle u s) :
    wp (Docker.markMissing u b) (fun _ s' => Idle u s') s := by
  unfold Docker.markMissing
  cases b with
  | true =>
      rw [if_pos rfl, wp_assign]
      refine ⟨h, ?_⟩
      rw [setMem_mem_self]
      rfl
  | false =>
      rw [if_neg Bool.false_ne_true, wp_bind, wp_assign, seqPost_ok, wp_assign]
      refine ⟨h, ?_⟩
      rw [setMem_mem_self, setMem_mem_self]
      rfl

theorem rowIdle_handleNotFound : Within (Kept (RowIdle u)) (Docker.handleNotFound env u) := by
  refine (within_read _).bind fun r => Within.onlyIf ?_
  intro s h
  have hrest : ∀ e : Status → Exn, Within (Kept (Idle u)) (do
      save env u
      let status ← obj u (·.status)
      (raise (e status) : Prog World Exn Unit)) := by
    intro e
    exact (within_save u).bind fun _ => (within_read _).bind fun _ => within_raise _
  change wp (Docker.markMissing u r.autoRemove >>= _) (fun _ s' => RowIdle u s') s
  rw [wp_bind]
  refine wp_mono (wp_markMissing_idle h) ?_
  intro res s₁ h₁
  cases res with
  | ok _ => exact (hrest _ s₁ h₁).row
  | raise e => exact h₁.row
  | halt => exact h₁.row

/-- Docker's start writes no row of a live container: that is left to the manager. -/
theorem rowIdle_start : Within (Kept (RowIdle u)) (Docker.start env u) := by
  refine Docker.within_guarded rowIdle_handleNotFound ((within_plain _ rfl).bind fun _ => ?_)
  refine Within.bind (rowIdle_assign.bind fun _ => rowIdle_assign) fun _ => ?_
  refine (within_plain _ rfl).tryExcept fun e => (within_plain _ rfl).swallow.bind fun _ => ?_
  exact rowIdle_assign.bind fun _ => rowIdle_assign

/-- How a thread that may start the container leaves it. -/
def Settled {α : Type} (u : Uuid) (r : Result Exn α) (s : World) : Prop := Held u s ∨ Downed u r s

theorem Idle.settled {α : Type} {r : Result Exn α} (h : Idle u s) : Settled u r s :=
  .inr ⟨h.row, fun _ => h.obj⟩

theorem Settled.billed {α : Type} {r : Result Exn α} (h : Settled u r s) : Billed u s := by
  obtain h | h := h
  · exact h.billed
  · exact h.row.billed

theorem wp_startOwned (hidle : RowIdle u s) (hheld : Held u s) :
    wp (startOwned env (defaultDrivers env) u) (Settled u) s := by
  have hfail : ∀ e s', RowIdle u s' →
      wp (andThen (failFor env (.container u) Reasons.notStarted false e) fun _ =>
        (raise e : Prog World Exn Unit)) (Settled u) s' := by
    intro e s' h
    rw [wp_andThen]
    refine wp_mono (wp_failContainer_downed h) ?_
    intro r s'' hr
    cases r with
    | ok _ => exact .inr ⟨hr.row, fun _ => hr.obj nofun⟩
    | raise e' => exact .inr ⟨hr.row, fun _ => hr.obj nofun⟩
    | halt => exact .inr ⟨hr.row, fun h => absurd rfl h⟩
  have hstart : Within (Kept (Held u)) ((defaultDrivers env).driver.start u) :=
    (defaultDrivers_lawful env).driver.start u _
  have hrow : Within (Kept (RowIdle u)) ((defaultDrivers env).driver.start u) := rowIdle_start
  unfold startOwned
  rw [wp_reraising, wp_bind]
  refine wp_mono (wp_and (hstart.wp s) (hrow.wp s)) ?_
  intro r s₁ h
  obtain ⟨h₁, h₂⟩ : Held u s₁ ∧ RowIdle u s₁ := ⟨h.1 hheld, h.2 hidle⟩
  cases r with
  | halt => exact .inl h₁
  | raise e => exact hfail e s₁ h₂
  | ok _ =>
      rw [seqPost_ok, wp_bind, wp_read, seqPost_ok, wp_bind, wp_assign, seqPost_ok]
      refine wp_save (fun _ => hfail _ _ h₂) (fun _ _ _ => .inl h₁) (fun _ e _ _ => hfail e _ h₂)
        (fun _ _ _ => .inl h₁)

/-- `_update_task_state` settles the container if its body does. -/
theorem wp_updateTaskState_settled {α : Type} {t : TaskState} {body : Prog World Exn α}
    (hidle : Idle u s) (hheld : Held u s)
    (hbody : ∀ s, Idle u s → Held u s → wp body (Settled u) s) :
    wp (updateTaskState env u t body) (Settled u) s := by
  have hclear : ∀ s', Held u s' ∨ Idle u s' →
      wp (do assign u (Obj.setTaskState none); save env u)
        (fun _ s'' => Held u s'' ∨ Idle u s'') s' := by
    intro s' h
    have hheld : Within (Kept (Held u)) (do assign u (Obj.setTaskState none); save env u) :=
      Within.bind (within_modify fun _ h => h) fun _ => within_save u
    have hidle : Within (Kept (Idle u)) (do assign u (Obj.setTaskState none); save env u) :=
      Within.bind (within_modify fun _ => idle_setTaskState _) fun _ => within_save u
    obtain h | h := h
    · exact .inl (hheld s' h)
    · exact .inr (hidle s' h)
  have hend : ∀ {β : Type} (r : Result Exn β) s', Held u s' ∨ Idle u s' → Settled u r s' := by
    rintro β r s' (h | h)
    · exact .inl h
    · exact h.settled
  change wp (if (s.mem u).val.taskState.isSome = true then body else _) _ s
  split
  · exact hbody s hidle hheld
  rw [wp_bind, wp_assign, seqPost_ok, wp_bind]
  have hset := idle_setTaskState (some t) hidle
  refine wp_save (fun _ => .inl hheld) (fun row hrow _ => ?_) (fun _ _ _ _ => .inl hheld)
    (fun _ _ _ => .inl hheld)
  rw [seqPost_ok, wp_tryFinally]
  refine wp_mono (hbody _ ?_ hheld) ?_
  · exact Idle.saved hrow ⟨hset.row, hset.obj⟩
  intro r s₁ h₁
  have hdone : r ≠ .halt → Held u s₁ ∨ Idle u s₁ := by
    intro hne
    obtain h | h := h₁
    · exact .inl h
    · exact .inr ⟨h.row, h.obj hne⟩
  cases r with
  | halt => exact h₁
  | ok a =>
      rw [finallyPost_ok]
      refine wp_mono (hclear s₁ (hdone nofun)) ?_
      intro r s₂ h₂
      cases r <;> exact hend _ _ h₂
  | raise e =>
      rw [finallyPost_raise]
      refine wp_mono (hclear s₁ (hdone nofun)) ?_
      intro r s₂ h₂
      cases r <;> exact hend _ _ h₂

theorem wp_doContainerStart (hidle : Idle u s) (hheld : Held u s) :
    wp (doContainerStart env (defaultDrivers env) u) (Settled u) s :=
  wp_updateTaskState_settled hidle hheld fun _ h h' => wp_startOwned h.row h'

/-- Steps that keep the container idle, and its allocation if they return, and then a start. -/
theorem wp_thenStart {steps : Prog World Exn Unit} {run : Bool}
    (hsteps : Within (Kept (Idle u)) steps) (hreturns : Returns (Kept (Held u)) steps)
    (hidle : Idle u s) (hheld : Held u s) :
    wp (do steps; onlyIf run (doContainerStart env (defaultDrivers env) u)) (Settled u) s := by
  rw [wp_bind]
  refine wp_mono (wp_and (hsteps.wp s) (hreturns.wp s)) ?_
  intro r s₁ h
  cases r with
  | raise e => exact (h.1 hidle).settled
  | halt => exact (h.1 hidle).settled
  | ok a =>
      have hheld₁ := h.2 a rfl hheld
      exact wp_onlyIf (fun _ => wp_doContainerStart (h.1 hidle) hheld₁) fun _ => .inl hheld₁

/-! ## Creates and rebuilds -/

section Steps

variable {nets : List RequestedNetwork} {vols : RequestedVolumes} {pci : Bool}

theorem idle_containerClaim : Within (Kept (Idle u)) (containerClaim env u pci) := by
  have hhost : Within (Kept (Idle u)) (assign u (Obj.setHost (some env.host))) :=
    within_modify fun _ h => h.setMem fun _ _ => rfl
  refine (within_read _).bind fun asks => within_ite (within_pure _) ?_
  refine (within_plain _ rfl).bind fun _ => (within_plain _ rfl).bind fun _ => ?_
  refine (within_plain _ rfl).bind fun _ => hhost.bind fun _ => (within_save u).bind fun _ => ?_
  exact (within_plain _ rfl).bind fun _ => within_pure _

theorem idle_doContainerCreateBase : Within (Kept (Idle u))
    (doContainerCreateBase env (defaultDrivers env) (.container u) nets vols) :=
  within_updateTaskState (fun _ _ => idle_setTaskState _)
    (within_createAround ((defaultDrivers_lawful env).driver.create u nets vols _))

/-- A create leaves the container idle, up to its start. -/
theorem idle_createSteps : Within (Kept (Idle u))
    (createSteps env (defaultDrivers env) (.container u) nets vols pci) := by
  refine (within_waitForVolumesAvailable _ _).bind fun _ => ?_
  refine (within_attachVolumesOf _ _ _).bind fun _ => ?_
  refine (within_checkSupportDiskQuota _).bind fun _ => ?_
  refine Within.reraising (idle_containerClaim.bind fun real => ?_) fun e => within_createFailed _ e
  exact within_ite (idle_doContainerCreateBase.reraising fun _ => within_plain _ rfl)
    idle_doContainerCreateBase

theorem raises_refuse (x : Subject) (msg : String) : Raises (refuse env x msg) :=
  Raises.bind fun _ => raises_raise _

theorem held_waitForVolumesAvailable (x : Subject) :
    Returns (Kept (Held u)) (waitForVolumesAvailable env vols x) := by
  refine Returns.bind (Within.returns ?_) fun failure => ?_
  · exact ((within_pollAvailable _ _).bind fun _ => within_pure _).tryExcept fun _ => within_pure _
  cases failure with
  | none => exact (within_pure _).returns
  | some msg => exact (Raises.bind fun _ => Raises.bind fun _ => raises_raise _).returns

theorem held_attachVolumesOf (x : Subject) (isMember : Bool) :
    Returns (Kept (Held u)) (attachVolumesOf env vols x isMember) := by
  refine Returns.reraising (Within.returns (within_forEach fun v _ => ?_))
  refine (within_createVolmap x.uuid v).bind fun _ => (within_read _).bind fun _ => ?_
  exact within_ite (within_pure _) (within_attachVolume v)

theorem held_checkSupportDiskQuota (x : Subject) :
    Returns (Kept (Held u)) (checkSupportDiskQuota env x) := by
  refine (within_plain _ rfl).returns.bind fun _ => (within_read _).returns.bind fun disk => ?_
  refine returns_ite (within_slight (slight_setDisk _)).returns ?_
  refine (raises_refuse x _).returns.onlyIf.bind fun _ => (within_ask _ _ rfl).returns.bind fun _ => ?_
  refine (raises_refuse x _).returns.onlyIf.bind fun _ => (within_plain _ rfl).returns.bind fun _ => ?_
  refine (raises_refuse x _).returns.onlyIf.bind fun _ => (within_plain _ rfl).returns.bind fun _ => ?_
  exact (within_slight (slight_setDisk _)).onlyIf.returns

theorem held_containerClaim : Within (Kept (Held u)) (containerClaim env u pci) := by
  refine (within_read _).bind fun asks => within_ite (within_pure _) ?_
  refine (within_plain _ rfl).bind fun _ => (within_plain _ rfl).bind fun _ => ?_
  refine (within_plain _ rfl).bind fun _ => Within.bind (within_modify fun _ h => h) fun _ => ?_
  exact (within_save u).bind fun _ => (within_plain _ rfl).bind fun _ => within_pure _

/-- Inside `_do_container_create_base` only a handler that raises gives the allocation back. -/
theorem held_doContainerCreateBase : Returns (Kept (Held u))
    (doContainerCreateBase env (defaultDrivers env) (.container u) nets vols) := by
  have hcreate : Within (Kept (Held u)) (Docker.create env u nets vols) :=
    (defaultDrivers_lawful env).driver.create u nets vols _
  have hbody : Returns (Kept (Held u))
      (createOwned env (defaultDrivers env) (.container u) nets vols) := by
    refine (within_plain _ rfl).returns.bind fun _ => (within_plain _ rfl).returns.bind fun _ => ?_
    refine Returns.bind (Returns.onlyIf (Returns.reraising (Within.returns ?_))) fun _ => ?_
    · exact (within_plain _ rfl).bind fun _ => (within_plain _ rfl).onlyIf
    refine (within_save u).returns.bind fun _ => Returns.reraising (Within.returns ?_)
    exact (within_plain _ rfl).onlyIf.bind fun _ => hcreate
  have hset : ∀ t, Within (Kept (Held u)) (assign u (Obj.setTaskState t)) :=
    fun t => within_modify fun _ h => h
  refine (within_read _).returns.bind fun current => returns_ite hbody ?_
  refine (hset _).returns.bind fun _ => (within_save u).returns.bind fun _ => ?_
  exact hbody.tryFinally ((hset _).bind fun _ => within_save u).returns

/-- A create that comes to its start has its allocation. -/
theorem held_createSteps : Returns (Kept (Held u))
    (createSteps env (defaultDrivers env) (.container u) nets vols pci) := by
  refine (held_waitForVolumesAvailable _).bind fun _ => ?_
  refine (held_attachVolumesOf _ _).bind fun _ => (held_checkSupportDiskQuota _).bind fun _ => ?_
  refine Returns.reraising (held_containerClaim.returns.bind fun real => ?_)
  exact returns_ite held_doContainerCreateBase.reraising held_doContainerCreateBase

theorem idle_rebuildSteps : Within (Kept (Idle u)) (rebuildSteps env (defaultDrivers env) u) :=
  within_rebuildSteps (defaultDrivers_lawful env) fun _ _ => idle_doContainerCreateBase

theorem held_rebuildSteps : Returns (Kept (Held u)) (rebuildSteps env (defaultDrivers env) u) := by
  have hd := (defaultDrivers_lawful env).driver
  refine (within_ask _ _ rfl).returns.bind fun volmaps => (within_read _).returns.bind fun _ => ?_
  refine Returns.bind (Returns.reraising (within_getNetworkInfo _).returns) fun nets => ?_
  refine Returns.bind (hd.checkContainerExist u _).returns fun there => Returns.bind ?_ fun _ => ?_
  · refine Returns.onlyIf (Returns.bind (within_meek meek_preservePorts).returns fun _ => ?_)
    exact Returns.reraising (hd.delete u true _).returns
  refine Returns.reraising (held_doContainerCreateBase.bind fun _ => Within.returns ?_)
  refine (within_meek (meek_setStatus rfl)).bind fun _ => ?_
  exact (within_meek (meek_setStatusReason _)).bind fun _ => within_save u

theorem wp_containerCreate {run : Bool} (hidle : Idle u s) (hheld : Held u s) :
    wp (containerCreate env (defaultDrivers env) (.container u) nets vols pci run) (Settled u) s :=
  wp_thenStart idle_createSteps held_createSteps hidle hheld

end Steps

/-! ## Threads -/

section Threads

variable {op : Prog World Exn Unit} {row : Record}

theorem Idle.caughtUp (hrow : s.db u = some row) (h : Idle u s) :
    Idle u ((s.turn env (.readRow u)).setMem u (catchUp row)) := by
  refine ⟨h.row, ?_⟩
  rw [setMem_mem_self, turn_mem]
  change (if keepsStatus (s.mem u).val then (s.mem u).val.status else row.status).live = false
  split
  · exact h.obj
  · exact h.row row hrow

theorem Hostless.caughtUp (hrow : s.db u = some row) (h : Hostless u s) :
    Hostless u ((s.turn env (.readRow u)).setMem u (catchUp row)) := by
  refine ⟨h.row, ?_⟩
  rw [setMem_mem_self]
  exact h.row row hrow

theorem held_whenCaughtUp (hop : Within (Kept (Held u)) op) :
    Within (Kept (Held u)) (whenCaughtUp env u op) := fun _ h =>
  wp_whenCaughtUp_cases (Q := fun _ s' => Held u s') (fun _ _ => hop _ h) (fun _ => h) (fun _ => h) h

theorem hostless_whenCaughtUp (hop : Within (Kept (Hostless u)) op) :
    Within (Kept (Hostless u)) (whenCaughtUp env u op) := fun _ h =>
  wp_whenCaughtUp_cases (Q := fun _ s' => Hostless u s') (fun _ hrow => hop _ (h.caughtUp hrow))
    (fun _ => ⟨h.row, h.obj⟩) (fun _ => ⟨h.row, h.obj⟩) ⟨h.row, h.obj⟩

/-- A queued operation that settles an idle container. -/
theorem wp_whenCaughtUp_settled (hidle : Idle u s) (hheld : Held u s)
    (hop : ∀ s, Idle u s → Held u s → wp op (Settled u) s) :
    wp (whenCaughtUp env u op) (Settled u) s :=
  wp_whenCaughtUp_cases (fun _ hrow => hop _ (hidle.caughtUp hrow) hheld) (fun _ => .inl hheld)
    (fun _ => .inl hheld) (.inl hheld)

theorem hostless_updateTaskState {t : TaskState} {body : Prog World Exn Unit}
    (hbody : Within (Kept (Hostless u)) body) :
    Within (Kept (Hostless u)) (updateTaskState env u t body) :=
  within_updateTaskState (fun _ _ => hostless_setTaskState _) hbody

theorem held_updateTaskState {t : TaskState} {body : Prog World Exn Unit}
    (hbody : Within (Kept (Held u)) body) :
    Within (Kept (Held u)) (updateTaskState env u t body) :=
  within_updateTaskState (fun _ _ h => h) hbody

theorem hostless_doContainerStart :
    Within (Kept (Hostless u)) (doContainerStart env (defaultDrivers env) u) :=
  hostless_updateTaskState (within_startOwned (defaultDrivers_lawful env) u)

/-- Without a host a container is without one after a start or a rebuild too. -/
theorem hostless_rebuildOwned (run : Bool) :
    Within (Kept (Hostless u)) (rebuildOwned env (defaultDrivers env) u run) := by
  have hd := defaultDrivers_lawful env
  refine Within.bind ?_ fun _ => hostless_doContainerStart.onlyIf
  refine within_rebuildSteps hd fun nets vols => hostless_updateTaskState ?_
  exact within_createAround (hd.driver.create u nets vols _)

/-- The operations that do not touch placement whatever happens. -/
theorem held_quietly {t : TaskState} {method : Uuid → Prog World Exn Unit}
    (hm : ∀ u, Gentle (method u)) :
    Within (Kept (Held u)) (whenCaughtUp env u (quietly env u t method)) :=
  held_whenCaughtUp (held_updateTaskState (hm u _)).swallow

theorem hostless_quietly {t : TaskState} {method : Uuid → Prog World Exn Unit}
    (hm : ∀ u, Gentle (method u)) :
    Within (Kept (Hostless u)) (whenCaughtUp env u (quietly env u t method)) :=
  hostless_whenCaughtUp (hostless_updateTaskState (hm u _)).swallow

/-! ## Deletes -/

theorem idle_destroy : Within (Kept (Idle u)) (destroy env u) := by
  intro s h
  exact wp_destroy (Q := fun _ s' => Idle u s') (fun _ => h)
    ⟨fun r hr => h.row r (db_of_dropRows hr).2, h.obj⟩ (fun _ => ⟨h.row, h.obj⟩) ⟨h.row, h.obj⟩

/-- What comes after the driver's delete. -/
theorem idle_afterDelete : Within (Kept (Idle u)) (do
    swallow (call env (.removeUsage u))
    releaseAllocation env (.container u)
    destroy env u) :=
  (within_plain _ rfl).swallow.bind fun _ => (within_releaseAllocation _).bind fun _ => idle_destroy

theorem idle_deleteOwned (force : Bool) :
    Within (Kept (Idle u)) (deleteOwned env (defaultDrivers env) (.container u) force) :=
  within_deleteAround ((defaultDrivers_lawful env).driver.delete u force _)

theorem idle_doContainerDelete (force : Bool) :
    Within (Kept (Idle u)) (doContainerDelete env (defaultDrivers env) (.container u) force) := by
  refine (within_ask _ _ rfl).bind fun _ => Within.bind ?_ fun _ => idle_afterDelete
  exact within_updateTaskState (fun _ _ => idle_setTaskState _) (idle_deleteOwned force)

/-- An object that says it is being deleted writes so. -/
theorem idle_saved_deleting (hstatus : (s.mem u).val.status = .deleting)
    (hchanged : (s.mem u).changed.status = true) : Idle u (s.saved u row) := by
  refine ⟨fun r hr => ?_, ?_⟩
  · rw [saved_db_self, Option.some.injEq] at hr
    subst hr
    unfold World.merged Changed.merge
    dsimp only
    rw [if_pos hchanged, hstatus]
    rfl
  · rw [saved_val, hstatus]
    rfl

/-- The delete of a live container: that it is being deleted is written to the row, and only
then is anything given back. -/
theorem wp_doContainerDelete_held {force : Bool} (hheld : Held u s)
    (hfree : (s.mem u).val.taskState = none) (hstatus : (s.mem u).val.status = .deleting)
    (hchanged : (s.mem u).changed.status = true) :
    wp (doContainerDelete env (defaultDrivers env) (.container u) force)
      (fun _ s' => Held u s' ∨ Idle u s') s := by
  have hrest : Within (Kept (Idle u)) (do
      tryFinally (deleteOwned env (defaultDrivers env) (.container u) force) do
        assign u (Obj.setTaskState none)
        save env u
      swallow (call env (.removeUsage u))
      releaseAllocation env (.container u)
      destroy env u) := by
    refine Within.bind ((idle_deleteOwned force).tryFinally ?_) fun _ => idle_afterDelete
    exact Within.bind (within_modify fun _ => idle_setTaskState _) fun _ => within_save u
  unfold doContainerDelete freshRecord ask
  rw [wp_bind, wp_bind]
  refine wp_call (fun _ => ?_) (fun _ _ => .inl hheld) (fun _ => .inl hheld)
  rw [seqPost_ok, wp_read, seqPost_ok, wp_bind]
  change wp (if (s.mem u).val.taskState.isSome = true then _ else _) _ _
  rw [if_neg (by rw [hfree]; exact Bool.false_ne_true), wp_bind, wp_assign, seqPost_ok, wp_bind]
  refine wp_save (fun _ => .inl hheld) (fun row hrow _ => ?_) (fun _ _ _ _ => .inl hheld)
    (fun _ _ _ => .inl hheld)
  have hset : ∀ t : World, t.mem = s.mem →
      ((t.setMem u (Obj.setTaskState (some .containerDeleting))).mem u).val.status = .deleting ∧
      ((t.setMem u (Obj.setTaskState (some .containerDeleting))).mem u).changed.status = true := by
    intro t ht
    rw [setMem_mem_self, ht]
    exact ⟨hstatus, hchanged⟩
  obtain ⟨hdeleting, hwritten⟩ := hset (s.turn env (.readRow u)) rfl
  rw [seqPost_ok, ← wp_bind]
  exact Or.inr (hrest _ (idle_saved_deleting hdeleting hwritten))

end Threads

/-! ## Requests -/

section Requests

variable {r : Record} {o : Obj}

/-- The world once a request is on its way. -/
theorem idle_hand (hrow : s.db u = some r) (hidle : r.status.live = false)
    (ho : o.val.status.live = false) : Idle u (s.setMem u fun _ => o) := by
  refine ⟨fun r' hr' => ?_, by rw [setMem_mem_self]; exact ho⟩
  rw [setMem_db, hrow, Option.some.injEq] at hr'
  rw [← hr']
  exact hidle

theorem hostless_hand (hrow : s.db u = some r) (hhost : r.host = none) (ho : o.val.host = none) :
    Hostless u (s.setMem u fun _ => o) := by
  refine ⟨fun r' hr' => ?_, by rw [setMem_mem_self]; exact ho⟩
  rw [setMem_db, hrow, Option.some.injEq] at hr'
  rw [← hr']
  exact hhost

/-- A container that is live, or about to be, has its allocation or no host. -/
def Backed (u : Uuid) (r : Record) (s : World) : Prop := Held u s ∨ r.host = none

theorem Billed.backed (hb : Billed u s) (hrow : s.db u = some r) (hlive : r.status.live = true) :
    Backed u r s := by
  by_cases hhost : r.host = none
  · exact .inr hhost
  · exact .inl (hb r hrow hlive hhost)

/-- A request that does not touch placement keeps what the container has. -/
theorem billed_operate_quietly {op : Operation} (hrow : s.db u = some r) (hback : Backed u r s)
    (hheld : Within (Kept (Held u)) (thread env (defaultDrivers env) (.container u) op))
    (hhostless : Within (Kept (Hostless u)) (thread env (defaultDrivers env) (.container u) op)) :
    wp (Api.operate env (defaultDrivers env) u op r) (fun _ s' => Billed u s') s := by
  unfold Api.operate Api.hand
  rw [wp_bind, wp_assign, seqPost_ok]
  obtain h | h := hback
  · exact wp_mono (hheld.wp _) fun _ _ h' => (h' h).billed
  · exact wp_mono (hhostless.wp _) fun _ _ h' => (h' (hostless_hand hrow h h)).billed

theorem billed_operate_start (hrow : s.db u = some r) (hidle : r.status.live = false)
    (hback : Backed u r s) :
    wp (Api.operate env (defaultDrivers env) u .start r) (fun _ s' => Billed u s') s := by
  unfold Api.operate Api.hand
  rw [wp_bind, wp_assign, seqPost_ok]
  obtain h | h := hback
  · refine wp_mono (wp_whenCaughtUp_settled (idle_hand hrow hidle hidle) h
      fun _ h h' => wp_doContainerStart h h') fun _ _ h' => h'.billed
  · exact wp_mono ((hostless_whenCaughtUp hostless_doContainerStart).wp _) fun _ _ h' =>
      (h' (hostless_hand hrow h h)).billed

theorem billed_rebuild (hrow : s.db u = some r) (hback : Backed u r s) :
    wp (Api.rebuild env (defaultDrivers env) u r) (fun _ s' => Billed u s') s := by
  unfold Api.rebuild Api.hand
  rw [wp_bind, wp_assign, seqPost_ok, wp_bind]
  obtain h | h := hback
  · refine wp_save (fun _ => h.billed) (fun row hrow' _ => ?_) (fun _ _ _ _ => h.billed)
      (fun _ _ _ => h.billed)
    have hidle : Idle u (((s.setMem u fun _ => (Obj.of r).setStatus .rebuilding).turn env
        (.save u ((s.setMem u fun _ => (Obj.of r).setStatus .rebuilding).merged u row))).saved u
          row) := by
      refine ⟨fun r' hr' => ?_, ?_⟩
      · rw [saved_db_self, Option.some.injEq] at hr'
        subst hr'
        unfold World.merged
        rw [turn_mem, setMem_mem_self]
        rfl
      · rw [saved_val, turn_mem, setMem_mem_self]
        rfl
    rw [seqPost_ok]
    refine wp_mono (wp_whenCaughtUp_settled hidle h fun s' hidle' hheld' => ?_)
      fun _ _ h' => h'.billed
    refine wp_updateTaskState_settled hidle' hheld' fun s'' hidle'' hheld'' => ?_
    exact wp_thenStart idle_rebuildSteps held_rebuildSteps hidle'' hheld''
  · have hsaved : Within (Kept (Hostless u)) (save env u) := within_save u
    have hthread : Within (Kept (Hostless u)) (thread env (defaultDrivers env) (.container u)
        (.rebuild (r.status = .running))) :=
      hostless_whenCaughtUp (hostless_updateTaskState (hostless_rebuildOwned _))
    rw [← wp_bind]
    exact wp_mono ((hsaved.bind fun _ => hthread).wp _) fun _ _ h' =>
      (h' (hostless_hand hrow h h)).billed

theorem billed_delete {force : Bool} (hb : Billed u s) (hrow : s.db u = some r)
    (hfree : r.taskState = none ∨ r.status.live = false ∨ r.host = none) :
    wp (Api.delete env (defaultDrivers env) u force r) (fun _ s' => Billed u s') s := by
  unfold Api.delete Api.hand
  rw [wp_bind, wp_assign, seqPost_ok, wp_ite]
  split
  case isFalse hhost =>
    rw [Option.not_isSome_iff_eq_none] at hhost
    have hkept := hostless_hand (o := (Obj.of r).setStatus .deleting) hrow hhost hhost
    refine wp_destroy (fun _ => hkept.billed) (fun r' hr' => ?_)
      (fun _ => Hostless.billed ⟨hkept.row, hkept.obj⟩) (Hostless.billed ⟨hkept.row, hkept.obj⟩)
    exact absurd (List.mem_singleton_self u) (db_of_dropRows hr').1
  case isTrue hhost =>
    cases hlive : r.status.live with
    | false =>
        have hidle : Idle u (s.setMem u fun _ => (Obj.of r).setStatus .deleting) :=
          idle_hand hrow hlive rfl
        refine wp_whenCaughtUp_cases (Q := fun _ s' => Billed u s') (fun row hrow' => ?_)
          (fun _ => hidle.row.billed) (fun _ => hidle.row.billed) hidle.row.billed
        exact (idle_doContainerDelete force _ (hidle.caughtUp hrow')).row.billed
    | true =>
        have hheld : Held u s := hb r hrow hlive (Option.isSome_iff_ne_none.mp hhost)
        have hfree : r.taskState = none := by
          obtain h | h | h := hfree
          · exact h
          · rw [hlive] at h
            cases h
          · rw [h] at hhost
            cases hhost
        refine wp_whenCaughtUp_cases (Q := fun _ s' => Billed u s') (fun row hrow' => ?_)
          (fun _ => Held.billed hheld) (fun _ => Held.billed hheld) (Held.billed hheld)
        cases Option.some.inj (hrow.symm.trans hrow')
        have hobj : (((s.setMem u fun _ => (Obj.of r).setStatus .deleting).turn env
            (.readRow u)).setMem u (catchUp r)).mem u
              = catchUp r ((Obj.of r).setStatus .deleting) := by
          rw [setMem_mem_self, turn_mem, setMem_mem_self]
        refine wp_mono (wp_doContainerDelete_held hheld
          ((congrArg (·.val.taskState) hobj).trans hfree) (congrArg (·.val.status) hobj)
          (congrArg (·.changed.status) hobj)) ?_
        rintro _ s' (h | h)
        · exact h.billed
        · exact h.row.billed

/-- What a request needs, so that none leads to a container that is live without its
allocation.  A start or a rebuild needs the allocation of a record that names a host, and a
delete of a live container has to find no operation that owns it. -/
def Covered (u : Uuid) (a : Action) (s : World) : Prop :=
  ∀ r, s.db u = some r →
    match a with
    | .start | .reboot | .rebuild => Backed u r s
    | .delete | .deleteForce | .deleteAfterStop =>
        r.taskState = none ∨ r.status.live = false ∨ r.host = none
    | _ => True

/-- A covered request keeps a container billed. -/
theorem billed_request {a : Action} (hb : Billed u s) (hc : Covered u a s) :
    Billed u (Api.request env (defaultDrivers env) u a s).2 := by
  have hd := (defaultDrivers_lawful env).driver
  change wp (Api.request env (defaultDrivers env) u a) (fun _ s' => Billed u s') s
  unfold Api.request
  rw [wp_bind, wp_read, seqPost_ok]
  cases hrow : s.db u with
  | none => exact hb
  | some r =>
      refine wp_onlyIf (fun hvalid => ?_) fun _ => hb
      have hcov := hc r hrow
      cases a with
      | delete => exact billed_delete hb hrow hcov
      | deleteForce => exact billed_delete hb hrow hcov
      | deleteAfterStop => exact billed_delete hb hrow hcov
      | rebuild => exact billed_rebuild hrow hcov
      | start =>
          refine billed_operate_start hrow ?_ hcov
          simp only [validStates, List.mem_cons, List.not_mem_nil, or_false] at hvalid
          obtain h | h | h := hvalid <;> rw [h] <;> rfl
      | reboot =>
          exact billed_operate_quietly hrow hcov (held_quietly hd.reboot)
            (hostless_quietly hd.reboot)
      | stop =>
          have hlive : r.status.live = true := by rw [List.mem_singleton.mp hvalid]; rfl
          exact billed_operate_quietly hrow (hb.backed hrow hlive) (held_quietly hd.stop)
            (hostless_quietly hd.stop)
      | pause =>
          have hlive : r.status.live = true := by rw [List.mem_singleton.mp hvalid]; rfl
          exact billed_operate_quietly hrow (hb.backed hrow hlive) (held_quietly hd.pause)
            (hostless_quietly hd.pause)
      | unpause =>
          have hlive : r.status.live = true := by rw [List.mem_singleton.mp hvalid]; rfl
          exact billed_operate_quietly hrow (hb.backed hrow hlive) (held_quietly hd.unpause)
            (hostless_quietly hd.unpause)
      | kill =>
          have hlive : r.status.live = true := by rw [List.mem_singleton.mp hvalid]; rfl
          exact billed_operate_quietly hrow (hb.backed hrow hlive) (held_quietly hd.kill)
            (hostless_quietly hd.kill)

end Requests

/-! ## Runs -/

/-- The scheduler has written the allocation, and the create is handed to the host. -/
structure Scheduled (u : Uuid) (s : World) : Prop where
  held : Held u s
  row : ∃ r, s.db u = some r ∧ r.status = .creating ∧ s.mem u = Obj.of r

/-- A container whose create has ended, well or not. -/
inductive Created (u : Uuid) : World → Prop where
  | create {s : World} (env : Env) (nets : List RequestedNetwork) (vols : RequestedVolumes)
      (pci run : Bool) : Scheduled u s → Created u
        (containerCreate env (defaultDrivers env) (.container u) nets vols pci run s).2

/-- One request of a run, with everything that goes wrong while it is served. -/
def serve (u : Uuid) (q : Env × Action) (s : World) : World :=
  (Api.request q.1 (defaultDrivers q.1) u q.2 s).2

/-- In a run of covered requests a container that is live on a host has its allocation. -/
theorem billed_of_covered {u : Uuid} {s : World}
    (h : Reached (Created u) (serve u) (fun q => Covered u q.2) s) : Billed u s := by
  refine h.invariant (fun s hs => ?_) fun q s hc hb => billed_request hb hc
  cases hs with
  | create env nets vols pci run hsched =>
      obtain ⟨r, hrow, hcreating, hmem⟩ := hsched.row
      refine Settled.billed (wp_containerCreate ⟨fun r' hr' => ?_, ?_⟩ hsched.held)
      · rw [hrow, Option.some.injEq] at hr'
        rw [← hr', hcreating]
        rfl
      · rw [hmem]
        change r.status.live = false
        rw [hcreating]
        rfl

/-- A container that the scheduler has found room for on a host. -/
def scheduledContainer : World :=
  { ofRows [(1, { status := .creating, host := some "node" })] with allocations := fun _ => true }

theorem scheduledContainer_scheduled : Scheduled 1 scheduledContainer :=
  ⟨rfl, _, rfl, rfl, rfl⟩

/-- A container whose create has ended, in this environment. -/
def createdIn (env : Env) : World :=
  (containerCreate env (defaultDrivers env) (.container 1) [{ network := 1 }] [] false false
    scheduledContainer).2

theorem createdIn_created (env : Env) : Created 1 (createdIn env) :=
  .create env _ _ _ _ scheduledContainer_scheduled

/-- A container that was created, and then started with its allocation there. -/
theorem billed_created_started : Billed 1 (serve 1 ({}, .start) (createdIn {})) := by
  refine billed_of_covered (.step _ (.init (createdIn_created {})) fun r hr => .inl ?_)
  change (createdIn {}).allocations 1 = true
  decide

/-- The database refuses the write with which a create releases its record. -/
def refusesRelease : Env where
  answer _ c :=
    match c with
    | .save _ r =>
        if r.status = .created ∧ r.taskState = none then .raise { cls := .other } else .ok
    | _ => .ok

/-- A create whose last write fails gives the allocation back and leaves the container in
Created on its host, from where it is started. -/
theorem started_without_allocation :
    Reached (Created 1) (serve 1) (fun _ _ => True)
      (serve 1 ({}, .start) (createdIn refusesRelease)) ∧
    ((serve 1 ({}, .start) (createdIn refusesRelease)).db 1).map (fun r => (r.status, r.host))
      = some (.running, some "node") ∧
    ¬ Billed 1 (serve 1 ({}, .start) (createdIn refusesRelease)) := by
  have hrow : ((serve 1 ({}, .start) (createdIn refusesRelease)).db 1).map
      (fun r => (r.status, r.host)) = some (.running, some "node") := by decide
  have hgone : (serve 1 ({}, .start) (createdIn refusesRelease)).allocations 1 = false := by decide
  refine ⟨.step _ (.init (createdIn_created _)) trivial, hrow, fun hb => ?_⟩
  obtain ⟨r, hr, hpair⟩ := Option.map_eq_some_iff.mp hrow
  rw [Prod.mk.injEq] at hpair
  obtain ⟨hstatus, hhost⟩ := hpair
  have hheld : (serve 1 ({}, .start) (createdIn refusesRelease)).allocations 1 = true :=
    hb r hr (by rw [hstatus]; rfl) (by rw [hhost]; exact Option.some_ne_none _)
  rw [hgone] at hheld
  cases hheld

end Manager

end Zun
