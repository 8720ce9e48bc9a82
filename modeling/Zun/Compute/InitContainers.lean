import Zun.Compute.Manager

/-!
# Start-up, container by container

`init_containers` of `zun/compute/manager.py`: the loop over the records of this host.  For each the runtime's
answer is looked up, its volumes are mounted again, what was interrupted is given up or run again, and a
container that should run is started.

Nothing in the loop is caught, so what one record raises is the end of it for those behind.
-/

namespace Zun

namespace InitContainers

open Manager

/-! ## The model -/

/-- The options that are read, and what `driver.list` answers. -/
structure Host where
  remountContainerVolume : Bool := false
  resumeContainerState : Bool := false
  localContainers : List (Uuid × Status)

/-- A record, and for each of its volumes whether it can be attached. -/
structure Container where
  uuid : Uuid
  record : Record
  volumes : List Bool := []

/-- What ends the loop. -/
inductive Raised where
  /-- The runtime's answer has no such container. -/
  | keyError (u : Uuid)
  /-- `container_kill` is called without its `signal`. -/
  | typeError
deriving DecidableEq

/-- A record after its turn, and the operations that were started on it. -/
structure Turned where
  uuid : Uuid
  record : Record
  started : List Operation := []
deriving DecidableEq

/-- `uuid_to_status_map`.  The last one of a uuid counts. -/
def uuidToStatusMap (h : Host) (u : Uuid) : Option Status :=
  (h.localContainers.reverse.find? (·.1 = u)).map (·.2)

/-- `_fail_container`, with the host left on the record. -/
def failContainer (error : String) (r : Record) : Record :=
  { r with status := if r.autoRemove then .deleted else .error, statusReason := some error }

/-- `_remount_volume`. -/
def remountVolume (c : Container) : Record :=
  c.volumes.foldl
    (fun r attached => if attached then r else failContainer "Internal error on recovering container volume" r)
    c.record

/-- The record that `_init_container` finds. -/
def remounted (h : Host) (c : Container) : Record :=
  if h.remountContainerVolume && !beingDeleted c.record then remountVolume c else c.record

/-- `_init_container`: the record, and the operation that is resumed. -/
def initRecord (r : Record) : Except Raised (Record × Option Operation) :=
  match initContainer r with
  | .fail =>
      let failed :=
        { r with
          taskState := none
          status := .error
          statusReason := some "Container failed to create correctly" }
      .ok (failed, none)
  | .resume op => .ok ({ r with taskState := none }, some op)
  | .typeError => .error .typeError
  | .nothing => .ok (r, none)

/-- `restore_running_container`. -/
def restoreRunningContainer (r : Record) (currentStatus : Status) : List Operation :=
  if r.status = .running ∧ currentStatus = .stopped then [.start] else []

/-- The turn of one record. -/
def turn (h : Host) (c : Container) : Except Raised Turned :=
  match uuidToStatusMap h c.uuid with
  | none => .error (.keyError c.uuid)
  | some currentStatus =>
      match initRecord (remounted h c) with
      | .error e => .error e
      | .ok (r, some op) => .ok { uuid := c.uuid, record := r, started := [op] }
      | .ok (r, none) =>
          .ok
            { uuid := c.uuid
              record := r
              started := if h.resumeContainerState then restoreRunningContainer r currentStatus else [] }

/-- `init_containers`: the records that had their turn, and what was raised. -/
def initContainers (h : Host) : List Container → List Turned × Option Raised
  | [] => ([], none)
  | c :: cs =>
      match turn h c with
      | .error e => ([], some e)
      | .ok t => (t :: (initContainers h cs).1, (initContainers h cs).2)

/-! ## What start-up should do -/

/-- The operation that the record was left in.  A create is not run again. -/
def operationOf (r : Record) : Option Operation :=
  if beingDeleted r then some (.delete true)
  else match r.taskState with
    | some .containerRebooting => some .reboot
    | some .containerStopping => some .stop
    | some .containerStarting => some .start
    | some .containerPausing => some .pause
    | some .containerUnpausing => some .unpause
    | some .containerKilling => some .kill
    | some .containerRebuilding => some (.rebuild true)
    | _ => none

/-- The record was left in an operation. -/
def Interrupted (r : Record) : Prop :=
  r.taskState ≠ none ∨ r.status = .creating ∨ r.status = .deleting ∨ r.status = .rebuilding

/-- It is marked as failed, or the operation is started again. -/
def Handled (r : Record) (t : Turned) : Prop :=
  t.record.status = .error ∨ ∃ op, operationOf r = some op ∧ op ∈ t.started

/-- Start-up does not raise, and every record that was left in an operation is handled. -/
def ReachesAll (h : Host) (cs : List Container) : Prop :=
  (initContainers h cs).2 = none ∧
    List.Forall₂ (fun c t => t.uuid = c.uuid ∧ (Interrupted c.record → Handled c.record t)) cs (initContainers h cs).1

/-- The runtime reports the container; it is not left being killed; and a rebuild, or a status without a task
state, is one that start-up looks for, or ends in Error for a volume. -/
structure Reachable (h : Host) (c : Container) : Prop where
  reported : uuidToStatusMap h c.uuid ≠ none
  killing : c.record.taskState = some .containerKilling →
    (remounted h c).status = .creating ∨ (remounted h c).status = .deleting
  known : Interrupted c.record →
    c.record.taskState = none ∨ c.record.taskState = some .containerRebuilding →
      (remounted h c).status = .creating ∨ (remounted h c).status = .deleting ∨ (remounted h c).status = .error

/-! ## The turn of a record -/

section

variable {h : Host} {c : Container} {r : Record} {t : Turned}

/-- What a failed volume leaves of a record. -/
theorem remounted_fields (h : Host) (c : Container) : (remounted h c).taskState = c.record.taskState ∧
    ((remounted h c).status = .deleting ↔ c.record.status = .deleting) := by
  rw [remounted]
  split
  · rename_i hremount
    have hdeleting : c.record.status ≠ .deleting := by
      intro hstatus
      simp [beingDeleted, hstatus] at hremount
    have hfold : ∀ (volumes : List Bool) (r : Record), r.status ≠ .deleting →
        (volumes.foldl (fun r attached => if attached then r
          else failContainer "Internal error on recovering container volume" r) r).taskState = r.taskState ∧
        (volumes.foldl (fun r attached => if attached then r
          else failContainer "Internal error on recovering container volume" r) r).status ≠ .deleting := by
      intro volumes
      induction volumes with
      | nil => exact fun r hr => ⟨rfl, hr⟩
      | cons attached volumes ih =>
          intro r hr
          cases attached with
          | true => exact ih r hr
          | false =>
              have hfailed : (failContainer "Internal error on recovering container volume" r).status ≠ .deleting := by
                rw [failContainer]
                cases r.autoRemove <;> simp
              exact ih _ hfailed
    obtain ⟨htask, hstatus⟩ := hfold c.volumes c.record hdeleting
    exact ⟨htask, iff_of_false hstatus hdeleting⟩
  · exact ⟨rfl, Iff.rfl⟩

theorem beingDeleted_remounted (h : Host) (c : Container) : beingDeleted (remounted h c) = beingDeleted c.record := by
  obtain ⟨htask, hstatus⟩ := remounted_fields h c
  have hsame : ((remounted h c).status == Status.deleting) = (c.record.status == Status.deleting) := by
    rw [Bool.eq_iff_iff, beq_iff_eq, beq_iff_eq, hstatus]
  rw [beingDeleted, beingDeleted, htask, hsame]

theorem operationOf_remounted (h : Host) (c : Container) : operationOf (remounted h c) = operationOf c.record := by
  rw [operationOf, operationOf, beingDeleted_remounted, (remounted_fields h c).1]

/-- What is resumed is what the record was left in. -/
theorem operationOf_resume {op : Operation} (hresume : initContainer r = .resume op) : operationOf r = some op := by
  rw [initContainer] at hresume
  rw [operationOf]
  split at hresume
  · cases hresume
  · split at hresume
    · rename_i hdeleted
      rw [if_pos hdeleted]
      injection hresume with hresume
      rw [hresume]
    · rename_i hdeleted
      rw [if_neg hdeleted]
      split at hresume <;> simp_all

/-- A record that nothing is done about was left in nothing that a start is an answer to. -/
theorem start_not_operationOf (hnothing : initContainer r = .nothing) : operationOf r ≠ some .start := by
  rw [initContainer] at hnothing
  rw [operationOf]
  split at hnothing
  · cases hnothing
  · split at hnothing
    · cases hnothing
    · rename_i hdeleted
      rw [if_neg hdeleted]
      split at hnothing <;> simp_all
      split <;> simp_all

theorem initContainer_typeError : initContainer r = .typeError ↔
    r.taskState = some .containerKilling ∧ ¬ (r.status = .creating ∨ r.status = .deleting) := by
  rw [initContainer, beingDeleted]
  cases htask : r.taskState with
  | none => cases r.status <;> simp [givenUp]
  | some t => cases t <;> cases r.status <;> simp [givenUp]

theorem initContainer_nothing : initContainer r = .nothing ↔
    (r.taskState = none ∨ r.taskState = some .containerRebuilding) ∧
      ¬ (r.status = .creating ∨ r.status = .deleting) := by
  rw [initContainer, beingDeleted]
  cases htask : r.taskState with
  | none => cases r.status <;> simp [givenUp]
  | some t => cases t <;> cases r.status <;> simp [givenUp]

/-- A record can be reached, by what `_init_container` does with it. -/
theorem reachable_of_init : Reachable h c ↔ uuidToStatusMap h c.uuid ≠ none ∧
    initContainer (remounted h c) ≠ .typeError ∧
      (Interrupted c.record → initContainer (remounted h c) ≠ .nothing ∨ (remounted h c).status = .error) := by
  have htask := (remounted_fields h c).1
  rw [ne_eq (initContainer _), ne_eq (initContainer _), initContainer_typeError, initContainer_nothing, htask]
  constructor
  · rintro ⟨hreported, hkilling, hknown⟩
    exact ⟨hreported, by tauto, by tauto⟩
  · rintro ⟨hreported, hkilling, hknown⟩
    exact ⟨hreported, by tauto, by tauto⟩

/-- What `_init_container` gives up on is marked. -/
theorem initRecord_fail (hfail : initContainer r = .fail) :
    ∃ r', initRecord r = .ok (r', none) ∧ r'.status = .error := by
  rw [initRecord, hfail]
  exact ⟨_, rfl, rfl⟩

/-- The turn of a record that can be reached, and of no other one, ends with what was interrupted handled. -/
theorem reachable_iff : Reachable h c ↔
    ∃ t, turn h c = .ok t ∧ t.uuid = c.uuid ∧ (Interrupted c.record → Handled c.record t) := by
  rw [reachable_of_init, turn]
  cases hreported : uuidToStatusMap h c.uuid with
  | none =>
      constructor
      · exact fun hreach => absurd rfl hreach.1
      · rintro ⟨t, ht, -⟩
        cases ht
  | some currentStatus =>
      cases hinit : initContainer (remounted h c) with
      | fail =>
          obtain ⟨r', hr', hstatus⟩ := initRecord_fail hinit
          simp only [hr']
          refine iff_of_true ⟨by simp, by simp, fun _ => .inl (by simp)⟩ ⟨_, rfl, rfl, fun _ => ?_⟩
          exact .inl hstatus
      | resume op =>
          have hr' : initRecord (remounted h c) = .ok ({ remounted h c with taskState := none }, some op) := by
            rw [initRecord, hinit]
          have hop := operationOf_resume hinit
          rw [operationOf_remounted] at hop
          simp only [hr']
          refine iff_of_true ⟨by simp, by simp, fun _ => .inl (by simp)⟩ ⟨_, rfl, rfl, fun _ => ?_⟩
          exact .inr ⟨op, hop, List.mem_singleton_self op⟩
      | typeError =>
          have hr' : initRecord (remounted h c) = .error .typeError := by rw [initRecord, hinit]
          simp only [hr']
          refine iff_of_false (fun hreach => hreach.2.1 rfl) ?_
          rintro ⟨t, ht, -⟩
          cases ht
      | nothing =>
          have hr' : initRecord (remounted h c) = .ok (remounted h c, none) := by rw [initRecord, hinit]
          have hstart := start_not_operationOf hinit
          rw [operationOf_remounted] at hstart
          simp only [hr']
          -- only a start can be started here, and it is not what was interrupted
          have hhandled : ∀ started : List Operation, (∀ op ∈ started, op = .start) →
              (Handled c.record { uuid := c.uuid, record := remounted h c, started := started } ↔
                (remounted h c).status = .error) := by
            intro started hstarted
            rw [Handled, or_iff_left]
            rintro ⟨op, hop, hmem⟩
            rw [hstarted op hmem] at hop
            exact hstart hop
          have honly : ∀ op ∈ (if h.resumeContainerState then restoreRunningContainer (remounted h c) currentStatus
              else []), op = .start := by
            intro op hop
            split at hop
            · rw [restoreRunningContainer] at hop
              split at hop
              · exact List.mem_singleton.mp hop
              · cases hop
            · cases hop
          constructor
          · intro hreach
            refine ⟨_, rfl, rfl, fun hinterrupted => (hhandled _ honly).mpr ?_⟩
            exact (hreach.2.2 hinterrupted).resolve_left (fun hnot => hnot rfl)
          · rintro ⟨t, ht, -, hall⟩
            obtain rfl := Except.ok.inj ht
            exact ⟨by simp, by simp, fun hinterrupted => .inr ((hhandled _ honly).mp (hall hinterrupted))⟩

/-- Start-up gets to every record and handles what was interrupted if and only if every record can be reached. -/
theorem reaches_all_iff (h : Host) (cs : List Container) : ReachesAll h cs ↔ ∀ c ∈ cs, Reachable h c := by
  induction cs with
  | nil => simp [ReachesAll, initContainers]
  | cons c cs ih =>
      rw [List.forall_mem_cons, ← ih, reachable_iff, ReachesAll, ReachesAll, initContainers]
      cases hturn : turn h c with
      | error e => simp
      | ok t =>
          simp only [List.forall₂_cons, Except.ok.injEq, exists_eq_left']
          tauto

end

/-! ## Three records -/

/-- A record that runs, and is not among the runtime's containers. -/
def lost : Container := { uuid := 1, record := { status := .running } }

/-- A record whose kill was interrupted. -/
def killed : Container := { uuid := 2, record := { status := .running, taskState := some .containerKilling } }

/-- A record whose rebuild was interrupted. -/
def rebuilt : Container := { uuid := 3, record := { status := .running, taskState := some .containerRebuilding } }

/-- A record whose stop was interrupted. -/
def stopping : Container := { uuid := 4, record := { status := .running, taskState := some .containerStopping } }

/-- The first two keep start-up from the one behind them; nothing is done about the third. -/
theorem not_reaches_all :
    initContainers { localContainers := [(4, .running)] } [lost, stopping] = ([], some (.keyError 1)) ∧
      initContainers { localContainers := [(2, .running), (4, .running)] } [killed, stopping] = ([], some .typeError) ∧
      ¬ ReachesAll { localContainers := [(4, .running)] } [lost, stopping] ∧
      ¬ ReachesAll { localContainers := [(2, .running), (4, .running)] } [killed, stopping] ∧
      ¬ ReachesAll { localContainers := [(3, .running)] } [rebuilt] := by
  refine ⟨by decide, by decide, fun hall => ?_, fun hall => ?_, fun hall => ?_⟩
  · exact absurd hall.1 (by decide)
  · exact absurd hall.1 (by decide)
  · have hone := (List.forall₂_cons.mp hall.2).1.2 (.inl (by decide))
    obtain herror | ⟨op, hop, hmem⟩ := hone
    · revert herror
      decide
    · revert hmem
      decide +revert

end InitContainers

end Zun
