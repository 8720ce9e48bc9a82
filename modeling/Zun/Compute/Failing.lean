import Zun.Compute.TaskState

/-!
# Marking a record as failed

`_fail_container` is what every handler of the manager calls.  Given that the database takes
its writes and the rows are there, it does not raise, whatever its clean-up runs into, and it
leaves the record in Error, or in Deleted when the record removes itself.  With `unset_host`
it has also asked placement to delete the allocation.
-/

namespace Zun

open Effect Prog World

namespace Manager

variable {env : Env} {d : Drivers} {x : Subject} {u : Uuid} {s : World} {b : Bool}

/-- The database takes every `save`. -/
def SavesOk (env : Env) : Prop := ∀ n u row, env.answer n (.save u row) = .ok

/-- The status a failed record gets. -/
def failedStatus (autoRemove : Bool) : Status := if autoRemove then .deleted else .error

/-- The rows are there, and the object says whether the record removes itself. -/
structure Ready (x : Subject) (b : Bool) (s : World) : Prop where
  rows : ∀ v ∈ x.uuid :: members x, (s.db v).isSome
  obj : (s.mem x.uuid).val.autoRemove = b

/-- The record and its object both have this status. -/
structure HasStatus (u : Uuid) (v : Status) (s : World) : Prop where
  obj : (s.mem u).val.status = v
  row : ∃ r, s.db u = some r ∧ r.status = v

/-- The record and its object are marked as failed. -/
abbrev Marked (u : Uuid) (b : Bool) (s : World) : Prop := HasStatus u (failedStatus b) s

/-- Placement was asked to delete the allocation. -/
def Attempted (u : Uuid) (s : World) : Prop := ∃ a, (Call.deleteAllocation u, a) ∈ s.log

/-! ## What keeps these -/

theorem isSome_saved {v : Uuid} {row : Record} (h : (s.db v).isSome) :
    ((s.saved u row).db v).isSome := by
  by_cases hv : v = u
  · subst hv
    rw [saved_db_self]
    rfl
  · rw [saved_db_of_ne hv]
    exact h

theorem Ready.saved {row : Record} (h : Ready x b s) : Ready x b (s.saved u row) where
  rows v hv := isSome_saved (h.rows v hv)
  obj := by
    rw [saved_val]
    exact h.obj

theorem Ready.setMem {f : Obj → Obj} (hf : ∀ o, (f o).val.autoRemove = o.val.autoRemove)
    (h : Ready x b s) : Ready x b (s.setMem u f) where
  rows := h.rows
  obj := by
    by_cases hu : x.uuid = u
    · rw [hu, setMem_mem_self, hf, ← hu]
      exact h.obj
    · rw [setMem_mem_of_ne hu]
      exact h.obj

instance (x : Subject) (b : Bool) : Loose (Kept (Ready x b)) :=
  Loose.of fun _ _ hs h => ⟨by rw [hs.db]; exact h.rows, by rw [hs.mem]; exact h.obj⟩

instance (x : Subject) (b : Bool) : Tolerant (Kept (Ready x b)) where
  assign hf h := h.setMem hf.autoRemove
  save _ h := h.saved

instance (u : Uuid) : Loose (Kept (Attempted u)) :=
  Loose.of fun _ _ hs h => by
    obtain ⟨a, ha⟩ := h
    exact ⟨a, hs.log.subset ha⟩

instance (u : Uuid) : Tolerant (Kept (Attempted u)) where
  assign _ h := h
  save _ h := h

/-- `_update_task_state` keeps what its body keeps, if assigning `task_state` and saving do. -/
theorem within_updateTaskState {α : Type} {R : World → World → Prop} [Steady R] [Tame R]
    {t : TaskState} {body : Prog World Exn α}
    (htask : ∀ s v, R s (s.setMem u (Obj.setTaskState v))) (hbody : Within R body) :
    Within R (updateTaskState env u t body) := by
  refine (within_read _).bind fun current => within_ite hbody ?_
  refine (within_modify fun s => htask s _).bind fun _ => (within_save u).bind fun _ => ?_
  exact hbody.tryFinally ((within_modify fun s => htask s _).bind fun _ => within_save u)

section HasStatus

variable {st : Status}

theorem HasStatus.saved {v : Uuid} {row : Record} (hrow : s.db v = some row)
    (h : HasStatus u st s) : HasStatus u st (s.saved v row) := by
  obtain ⟨r, hr, hstatus⟩ := h.row
  refine ⟨by rw [saved_val]; exact h.obj, ?_⟩
  by_cases hv : u = v
  · subst hv
    refine ⟨_, saved_db_self .., ?_⟩
    rw [hrow, Option.some.injEq] at hr
    subst hr
    unfold World.merged Changed.merge
    dsimp only
    split
    · exact h.obj
    · exact hstatus
  · exact ⟨r, by rw [saved_db_of_ne hv]; exact hr, hstatus⟩

theorem HasStatus.setMem {v : Uuid} {f : Obj → Obj} (hf : ∀ o, (f o).val.status = o.val.status)
    (h : HasStatus u st s) : HasStatus u st (s.setMem v f) := by
  refine ⟨?_, h.row⟩
  by_cases hv : u = v
  · subst hv
    rw [setMem_mem_self, hf]
    exact h.obj
  · rw [setMem_mem_of_ne hv]
    exact h.obj

end HasStatus

/-! ## Saving -/

/-- A `save` of a row that is there, in a database that takes it. -/
theorem wp_save_ok (hsave : SavesOk env) (hrow : (s.db u).isSome)
    {Q : Result Exn Unit → World → Prop}
    (hok : ∀ row, s.db u = some row →
      Q (.ok ()) ((s.turn env (.save u (s.merged u row))).saved u row)) :
    wp (save env u) Q s := by
  refine wp_save (fun h => ?_) (fun row h _ => hok row h) (fun row e _ h => ?_)
    (fun row _ h => ?_)
  · rw [h] at hrow
    cases hrow
  · rw [hsave] at h
    cases h
  · rw [hsave] at h
    cases h

/-- The result of a clean-up: it may be stopped, but it does not raise. -/
def Calm (I : World → Prop) : Result Exn Unit → World → Prop
  | .ok _, s => I s
  | .raise _, _ => False
  | .halt, _ => True

theorem calm_swallow {p : Prog World Exn Unit} {I : World → Prop} (hp : Within (Kept I) p)
    (hs : I s) : wp (swallow p) (Calm I) s := by
  refine wp_swallow_of ?_
  refine wp_mono (hp.wp s) ?_
  intro r s' h
  cases r with
  | ok a => exact h hs
  | raise e => exact h hs
  | halt => trivial

/-- One calm step after another. -/
theorem calm_bind {I J : World → Prop} {p : Prog World Exn Unit} {f : Unit → Prog World Exn Unit}
    (hp : wp p (Calm I) s) (hf : ∀ s', I s' → wp (f ()) (Calm J) s') :
    wp (p >>= f) (Calm J) s := by
  rw [wp_bind]
  refine wp_mono hp ?_
  intro r s' h
  cases r with
  | ok a => exact hf s' h
  | raise e => exact h.elim
  | halt => trivial

/-! ## Failing -/

/-- What a failed record is left with. -/
def Failed (x : Subject) (b : Bool) (s : World) : Prop := Ready x b s ∧ Marked x.uuid b s

/-- A `save` after the status was assigned marks the row. -/
theorem calm_save_status (hsave : SavesOk env) (hs : Ready x b s)
    (hval : (s.mem x.uuid).val.status = failedStatus b)
    (hchanged : (s.mem x.uuid).changed.status = true) :
    wp (save env x.uuid) (Calm (Failed x b)) s := by
  refine wp_save_ok hsave (hs.rows _ (List.mem_cons_self ..)) fun row hrow => ⟨?_, ?_, ?_⟩
  · exact Ready.saved (s := s.turn env _) ⟨hs.rows, hs.obj⟩
  · rw [saved_val]
    exact hval
  · refine ⟨_, saved_db_self .., ?_⟩
    unfold World.merged Changed.merge
    dsimp only
    rw [turn_mem, hchanged, if_pos rfl]
    exact hval

theorem HasStatus.setError {v : Uuid} (h : Marked u false s) :
    Marked u false (s.setMem v (Obj.setStatus .error)) := by
  refine ⟨?_, h.row⟩
  by_cases hv : u = v
  · subst hv
    rw [setMem_mem_self]
    rfl
  · rw [setMem_mem_of_ne hv]
    exact h.obj

theorem calm_failUnfinishedMembers (hsave : SavesOk env) {c : Capsule} {error : String}
    {lost : Bool} (hs : Failed (.capsule c) false s) :
    wp (failUnfinishedMembers env c error lost) (Calm (Failed (.capsule c) false)) s := by
  refine wp_forEach hs fun m hm s hs => ?_
  rw [wp_bind, wp_obj, seqPost_ok]
  refine wp_onlyIf (fun _ => ?_) fun _ => hs
  rw [wp_bind, wp_assign, seqPost_ok, wp_bind, wp_assign, seqPost_ok]
  have hready := (hs.1.setMem (u := m) (f := Obj.setStatus .error) fun _ => rfl).setMem
    (u := m) (f := Obj.setStatusReason (some error)) fun _ => rfl
  have hmarked := (hs.2.setError (v := m)).setMem
    (v := m) (f := Obj.setStatusReason (some error)) fun _ => rfl
  refine wp_save_ok hsave (hready.rows m (List.mem_cons_of_mem _ hm)) fun row hrow => ⟨?_, ?_⟩
  · exact Ready.saved (s := World.turn env _ _) ⟨hready.rows, hready.obj⟩
  · exact HasStatus.saved (s := World.turn env _ _) hrow ⟨hmarked.obj, hmarked.row⟩

theorem calm_markFailed (hsave : SavesOk env) {error : String} {unset : Bool}
    (hs : Ready x b s) : wp (markFailed env x error unset) (Calm (Failed x b)) s := by
  unfold markFailed
  rw [wp_bind, wp_obj, seqPost_ok, wp_ite, hs.obj]
  have hready : ∀ v, Ready x b ((s.setMem x.uuid (Obj.setStatus v)).setMem x.uuid
      (Obj.setStatusReason (some error))) :=
    fun v => Ready.setMem (fun _ => rfl) (Ready.setMem (fun _ => rfl) hs)
  cases b with
  | true =>
      rw [if_pos rfl, wp_bind, wp_assign, seqPost_ok, wp_bind, wp_assign, seqPost_ok]
      refine calm_save_status hsave (hready _) ?_ ?_
      · rw [setMem_mem_self, setMem_mem_self]
        rfl
      · rw [setMem_mem_self, setMem_mem_self]
        rfl
  | false =>
      rw [if_neg Bool.false_ne_true, wp_bind, wp_assign, seqPost_ok, wp_bind, wp_assign,
        seqPost_ok]
      refine calm_bind (I := fun s' => Ready x false s' ∧
        (s'.mem x.uuid).val.status = .error ∧ (s'.mem x.uuid).changed.status = true) ?_ ?_
      · refine wp_onlyIf (fun _ => ?_) fun _ => ⟨hready _, ?_, ?_⟩
        · rw [wp_assign]
          refine ⟨Ready.setMem (fun _ => rfl) (hready _), ?_, ?_⟩ <;>
            simp only [setMem_mem_self] <;> rfl
        all_goals (simp only [setMem_mem_self]; rfl)
      · intro s' hs'
        refine calm_bind (calm_save_status hsave hs'.1 hs'.2.1 hs'.2.2) fun s'' hs'' => ?_
        cases x with
        | capsule c => exact calm_failUnfinishedMembers hsave hs''
        | container u => exact hs''
        | member u => exact hs''

/-- Asking placement is in the log, whatever it answered. -/
theorem calm_deleteAllocation {I : World → Prop} (hI : Within (Kept I) (deleteAllocation env u))
    (hs : I s) :
    wp (swallow (deleteAllocation env u)) (Calm fun s' => I s' ∧ Attempted u s') s := by
  have hlog : wp (deleteAllocation env u) (fun _ s' => Attempted u s') s :=
    wp_call (fun _ => ⟨_, List.mem_cons_self ..⟩) (fun _ _ => ⟨_, List.mem_cons_self ..⟩)
      (fun _ => ⟨_, List.mem_cons_self ..⟩)
  refine wp_swallow_of (wp_mono (wp_and hlog (hI.wp s)) ?_)
  intro r s' h
  cases r with
  | ok a => exact ⟨h.2 hs, h.1⟩
  | raise e => exact ⟨h.2 hs, h.1⟩
  | halt => trivial

/-- The part of `_fail_container` that gives the allocation back. -/
theorem calm_releaseAllocation {I : World → Prop}
    (hI : Within (Kept I) (deleteAllocation env x.uuid)) (hs : I s) :
    wp (releaseAllocation env x)
      (Calm fun s' => I s' ∧ ((∀ m, x ≠ .member m) → Attempted x.uuid s')) s := by
  have hdelete : wp (swallow (deleteAllocation env x.uuid))
      (Calm fun s' => I s' ∧ ((∀ m, x ≠ .member m) → Attempted x.uuid s')) s := by
    refine wp_mono (calm_deleteAllocation hI hs) ?_
    intro r s' h
    cases r with
    | ok a => exact ⟨h.1, fun _ => h.2⟩
    | raise e => exact h
    | halt => trivial
  cases x with
  | member m => exact ⟨hs, fun hx => absurd rfl (hx m)⟩
  | container u => exact hdelete
  | capsule c => exact hdelete

/-- `_fail_container` does not raise, and marks the record. -/
theorem calm_failContainer (hsave : SavesOk env) {depth : Nat} {error : String} {unset : Bool}
    (hs : Ready x b s) :
    wp (failContainer env depth x error unset)
      (Calm fun s' => Failed x b s' ∧
        (unset = true → (∀ m, x ≠ .member m) → Attempted x.uuid s')) s := by
  cases depth with
  | zero => trivial
  | succ depth =>
      refine calm_bind (I := Ready x b) (calm_swallow ?_ hs) fun s₁ hs₁ => ?_
      · exact within_detachVolumes (fun y msg => within_failContainer depth y msg true) true x
      refine calm_bind (I := fun s' => Ready x b s' ∧
        (unset = true → (∀ m, x ≠ .member m) → Attempted x.uuid s')) ?_ fun s₂ hs₂ => ?_
      · refine wp_onlyIf (fun _ => ?_) fun hu => ⟨hs₁, fun h => absurd h hu⟩
        refine wp_mono (calm_releaseAllocation (within_deleteAllocation _) hs₁) ?_
        intro r s' h
        cases r with
        | ok a => exact ⟨h.1, fun _ => h.2⟩
        | raise e => exact h
        | halt => trivial
      · have hkeep : Within (Kept (Attempted x.uuid)) (markFailed env x error unset) :=
          within_markFailed x error unset
        refine wp_mono (wp_and (calm_markFailed hsave hs₂.1) (hkeep.wp s₂)) ?_
        intro r s' h
        cases r with
        | ok a => exact ⟨h.1, fun hu hx => h.2 (hs₂.2 hu hx)⟩
        | raise e => exact h.1
        | halt => trivial

/-- A handler that fails the record and lets the exception go on. -/
theorem wp_failing {α : Type} (hsave : SavesOk env) {depth : Nat} {error : String} {unset : Bool}
    (hx : unset = true → ∀ m, x ≠ .member m) (hs : Ready x b s) {next : Prog World Exn α}
    {Q : Result Exn α → World → Prop} (hhalt : ∀ s', Q .halt s')
    (hnext : ∀ s', Failed x b s' → (unset = true → Attempted x.uuid s') → wp next Q s') :
    wp (andThen (failContainer env depth x error unset) fun _ => next) Q s := by
  rw [wp_andThen]
  refine wp_mono (calm_failContainer hsave hs) ?_
  intro r s' h
  cases r with
  | ok a => exact hnext s' h.1 fun hu => h.2 hu (hx hu)
  | raise e => exact h.elim
  | halt => exact hhalt s'

end Manager

end Zun
