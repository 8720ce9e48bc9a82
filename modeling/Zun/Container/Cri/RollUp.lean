import Zun.Container.Cri.Life

/-!
# The status of a capsule, rolled up

`update_containers_states` of `zun/container/cri/driver.py`, for one capsule, as a function of the records that
the sweep has read and of what the runtime answers for each member.  A member that the runtime does not report,
or that cannot be asked about, keeps its status and is left out of the count; the capsule is running when all
that are counted are.

So a capsule comes out running over a member that is not, when that one was left out.
-/

namespace Zun

namespace Cri

namespace RollUp

/-! ## The model -/

/-- What `ListContainers` says of a member. -/
inductive Listed where
  /-- In a state.  A paused container that runs for the CRI may be held still. -/
  | state (state : ContainerState) (held : Bool)
  | notFound
  | error
deriving DecidableEq

/-- What is answered in the turn of a member. -/
structure Answer where
  listed : Listed
  /-- The exit code that `ContainerStatus` knows. -/
  exitCode : Option Int := none
  /-- The row that `_restart_on_exit` reads again. -/
  fresh : Option Record := none
  sandboxAlive : Bool := true
  /-- `_restart_container` replaced the container. -/
  replaced : Bool := false

/-- A member, as the sweep holds it, and the answers in its turn. -/
structure Member where
  record : Record
  answer : Answer

structure Capsule where
  status : Status
  containers : List Member
  sidecars : List Member := []

/-- What `_show_container` came to. -/
inductive Shown where
  | seen (r : Record)
  | gone
  | failed

/-- `_record_exit`. -/
def recordExit (r : Record) (a : Answer) : Record :=
  match r.statusDetail, a.exitCode with
  | none, some code => { r with statusDetail := some (.exit code), exitCode := some code }
  | _, _ => r

/-- `_populate_container_state`. -/
def populateContainerState (r : Record) (a : Answer) : ContainerState → Bool → Record
  | .created, _ => { r with status := .created }
  | .running, held =>
      if r.status = .paused ∧ held = true then r
      else
        { r with
          status := .running
          statusDetail := if Detail.isExit r.statusDetail ∨ r.statusDetail = some .stopped then none
            else r.statusDetail }
  | .exited, _ => recordExit { r with status := .stopped } a
  | .unknown, _ => { r with status := .unknown }

/-- `_show_container`. -/
def showContainer (r : Record) (a : Answer) : Shown :=
  if r.containerId = none then .seen r
  else match a.listed with
    | .state state held => .seen (populateContainerState r a state held)
    | .notFound => .gone
    | .error => .failed

/-- How `_restart_on_exit` ends. -/
inductive Restart where
  | no
  | yes
  /-- The capsule is handed to a rebuild. -/
  | rebuild
deriving DecidableEq

/-- `_restart_on_exit`, but for the words on a record whose retries are spent. -/
def restartOnExit (sidecar : Bool) (r : Record) (a : Answer) : Restart :=
  if r.restarts = false ∨ r.taskState.isSome then .no
  else match a.fresh with
    | none => .no
    | some fresh =>
        if ownerFirst fresh then .no
        else match decide r with
          | .leave | .spent _ => .no
          | .restart =>
              if a.sandboxAlive then if a.replaced then .yes else .no
              else if sidecar then .no else .rebuild

/-- The record of a new run. -/
def newRun (r : Record) : Record := { r with status := .running, statusDetail := none }

/-- A member after its turn. -/
structure Turn where
  record : Record
  counted : Bool
  rebuild : Bool := false

/-- The turn of a member. -/
def turn (sidecar : Bool) (m : Member) : Turn :=
  match showContainer m.record m.answer with
  | .failed => { record := m.record, counted := false }
  | .gone =>
      if exitMarked m.record then
        match restartOnExit sidecar m.record m.answer with
        | .yes => { record := newRun m.record, counted := true }
        | .no => { record := m.record, counted := false }
        | .rebuild => { record := m.record, counted := false, rebuild := true }
      else { record := m.record, counted := false }
  | .seen r =>
      if r.status = .stopped ∧ exitMarked r then
        match restartOnExit sidecar r m.answer with
        | .yes => { record := newRun r, counted := true }
        | .no => { record := r, counted := true }
        | .rebuild => { record := r, counted := true, rebuild := true }
      else { record := r, counted := true }

/-- What the loop has come to. -/
structure Totals where
  records : List Record := []
  counted : Nat := 0
  running : Nat := 0
  rebuilding : Bool := false

/-- The loop over some members.  A capsule that was handed to a rebuild ends it. -/
def sweepMembers (sidecar : Bool) : List Member → Totals → Totals
  | [], t => t
  | m :: ms, t =>
      if t.rebuilding then sweepMembers sidecar ms { t with records := t.records ++ [m.record] }
      else
        let turned := turn sidecar m
        let main := turned.counted && !sidecar
        sweepMembers sidecar ms
          { records := t.records ++ [turned.record]
            counted := t.counted + (if main then 1 else 0)
            running := t.running + (if main ∧ turned.record.status = .running then 1 else 0)
            rebuilding := turned.rebuild }

/-- A capsule after the sweep: its status and those of its main members. -/
structure Swept where
  status : Status
  containers : List Record

/-- `update_containers_states`, for a capsule.  What is done to the sidecars once the others have finished does not
touch these. -/
def updateContainersStates (c : Capsule) : Swept :=
  if midOperation c.status then { status := c.status, containers := c.containers.map (·.record) }
  else
    let mains := sweepMembers false c.containers {}
    let t := sweepMembers true c.sidecars mains
    if t.rebuilding then { status := .rebuilding, containers := mains.records }
    else if t.counted = 0 then { status := c.status, containers := mains.records }
    else
      { status := if t.running = t.counted then .running else .stopped
        containers := mains.records }

/-! ## What a capsule's status should say -/

/-- A capsule that is running has its main members running. -/
def Swept.Honest (c : Swept) : Prop := c.status = .running → ∀ r ∈ c.containers, r.status = .running

/-- The runtime does not report the member, or cannot be asked, and the member is not restarted. -/
def LeftOut (m : Member) : Prop :=
  m.record.containerId ≠ none ∧ (m.answer.listed = .error ∨
    m.answer.listed = .notFound ∧
      ¬ (exitMarked m.record = true ∧ restartOnExit false m.record m.answer = .yes))

/-- The member finds the sandbox dead and hands the capsule to a rebuild. -/
def Hands (m : Member) : Prop := (turn false m).rebuild = true

/-- The member is read, or restarted, and is not running. -/
def Down (m : Member) : Prop := ¬ LeftOut m ∧ (turn false m).record.status ≠ .running

/-! ## The turn of a member -/

section

variable {m : Member} {ms : List Member} {t : Totals} {c : Capsule}

theorem turn_leftOut : (turn false m).counted = false ↔ LeftOut m := by
  rw [turn, showContainer, LeftOut]
  by_cases hid : m.record.containerId = none
  · simp only [hid, if_true, ne_eq, not_true_eq_false, false_and, iff_false]
    split
    · split <;> simp
    · simp
  · simp only [hid, if_false, ne_eq, not_false_eq_true, true_and]
    cases hlisted : m.answer.listed with
    | state state held =>
        simp only [reduceCtorEq, false_and, or_self, iff_false]
        split
        · split <;> simp
        · simp
    | error => simp
    | notFound =>
        by_cases hexit : exitMarked m.record = true
        · cases hrestart : restartOnExit false m.record m.answer <;> simp [hexit]
        · simp [hexit]

/-- A member that is left out keeps its record. -/
theorem turn_record (hout : LeftOut m) : (turn false m).record = m.record := by
  have hcounted := turn_leftOut.mpr hout
  rw [turn] at hcounted ⊢
  cases hshown : showContainer m.record m.answer with
  | failed => rfl
  | gone =>
      by_cases hexit : exitMarked m.record = true
      · cases hrestart : restartOnExit false m.record m.answer with
        | no => simp [hexit]
        | yes => simp [hshown, hexit, hrestart] at hcounted
        | rebuild => simp [hexit]
      · simp [hexit]
  | seen r =>
      simp only [hshown] at hcounted
      split at hcounted
      · split at hcounted <;> simp at hcounted
      · simp at hcounted

/-- A sidecar hands nothing to a rebuild. -/
theorem restartOnExit_sidecar (r : Record) (a : Answer) : restartOnExit true r a ≠ .rebuild := by
  rw [restartOnExit]
  split
  · simp
  · split
    · simp
    · split
      · simp
      · split
        · simp
        · simp
        · split
          · split <;> simp
          · simp

theorem turn_sidecar : (turn true m).rebuild = false := by
  rw [turn]
  cases showContainer m.record m.answer with
  | failed => rfl
  | gone =>
      have hnot := restartOnExit_sidecar m.record m.answer
      by_cases hexit : exitMarked m.record = true
      · cases hrestart : restartOnExit true m.record m.answer <;> simp_all
      · simp [hexit]
  | seen r =>
      have hnot := restartOnExit_sidecar r m.answer
      by_cases hstopped : r.status = .stopped ∧ exitMarked r = true
      · cases hrestart : restartOnExit true r m.answer <;> simp_all
      · simp [hstopped]

/-! ## The loop -/

theorem sweepMembers_sidecars : ∀ ms t, (sweepMembers true ms t).counted = t.counted ∧
    (sweepMembers true ms t).running = t.running ∧ (sweepMembers true ms t).rebuilding = t.rebuilding := by
  intro ms
  induction ms with
  | nil => exact fun t => ⟨rfl, rfl, rfl⟩
  | cons m ms ih =>
      intro t
      rw [sweepMembers]
      by_cases hrebuilding : t.rebuilding = true
      · rw [if_pos hrebuilding]
        exact ih _
      · rw [if_neg hrebuilding]
        refine ⟨(ih _).1.trans ?_, (ih _).2.1.trans ?_, (ih _).2.2.trans ?_⟩
        · simp
        · simp
        · simp [turn_sidecar, hrebuilding]

theorem sweepMembers_rebuilding : ∀ ms t, t.rebuilding = true → (sweepMembers false ms t).rebuilding = true := by
  intro ms
  induction ms with
  | nil => exact fun t h => h
  | cons m ms ih =>
      intro t hrebuilding
      rw [sweepMembers, if_pos hrebuilding]
      exact ih _ hrebuilding

/-- One member that hands the capsule over is enough. -/
theorem sweepMembers_hands : ∀ ms t, (∃ m ∈ ms, Hands m) → (sweepMembers false ms t).rebuilding = true := by
  intro ms
  induction ms with
  | nil => simp
  | cons m ms ih =>
      intro t hhands
      by_cases hrebuilding : t.rebuilding = true
      · exact sweepMembers_rebuilding _ _ hrebuilding
      · rw [sweepMembers, if_neg hrebuilding]
        by_cases hm : Hands m
        · exact sweepMembers_rebuilding _ _ hm
        · refine ih _ ?_
          obtain ⟨m', hm', hhands⟩ := hhands
          obtain rfl | hm' := List.mem_cons.mp hm'
          · exact absurd hhands hm
          · exact ⟨m', hm', hhands⟩

/-- Otherwise every member has its turn. -/
theorem sweepMembers_all : ∀ ms t, t.rebuilding = false → (∀ m ∈ ms, ¬ Hands m) →
    sweepMembers false ms t =
      { records := t.records ++ ms.map fun m => (turn false m).record
        counted := t.counted + ms.countP fun m => (turn false m).counted
        running := t.running +
          ms.countP fun m => (turn false m).record.status == .running && (turn false m).counted
        rebuilding := false } := by
  intro ms
  induction ms with
  | nil =>
      intro t hrebuilding _
      simp [sweepMembers, ← hrebuilding]
  | cons m ms ih =>
      intro t hrebuilding hnone
      have hm : (turn false m).rebuild = false := by simpa [Hands] using hnone m (List.mem_cons_self ..)
      rw [sweepMembers, if_neg (by simp [hrebuilding]), ih _ hm fun m' hm' => hnone m' (List.mem_cons_of_mem _ hm')]
      cases hcounted : (turn false m).counted with
      | false => simp [hcounted]
      | true =>
          by_cases hrunning : (turn false m).record.status = .running <;>
            simp [hcounted, hrunning] <;> omega

/-! ## The roll-up -/

theorem countP_running : (ms.countP fun m => (turn false m).record.status == .running && (turn false m).counted) =
    ms.countP (fun m => (turn false m).counted) ↔ ∀ m ∈ ms, ¬ Down m := by
  have hlength : ms.countP (fun m => (turn false m).counted) = (ms.filter fun m => (turn false m).counted).length :=
    List.countP_eq_length_filter
  rw [← List.countP_filter, hlength, List.countP_eq_length]
  simp only [List.mem_filter, beq_iff_eq, Down, ← turn_leftOut, Bool.not_eq_false, not_and, not_not, and_imp]

theorem countP_counted : ms.countP (fun m => (turn false m).counted) = 0 ↔ ∀ m ∈ ms, LeftOut m := by
  rw [List.countP_eq_zero]
  simp only [Bool.not_eq_true, turn_leftOut]

/-- The sweep goes through a capsule to the end. -/
structure Through (c : Capsule) : Prop where
  containers : (updateContainersStates c).containers = c.containers.map fun m => (turn false m).record
  uncounted : (∀ m ∈ c.containers, LeftOut m) → (updateContainersStates c).status = c.status
  counted : ¬ (∀ m ∈ c.containers, LeftOut m) →
    ((updateContainersStates c).status = .running ↔ ∀ m ∈ c.containers, ¬ Down m)

theorem through (hmid : midOperation c.status = false) (hnone : ∀ m ∈ c.containers, ¬ Hands m) : Through c := by
  have hmains := sweepMembers_all c.containers {} rfl hnone
  obtain ⟨hcounted, hrunning, hrebuilding⟩ := sweepMembers_sidecars c.sidecars (sweepMembers false c.containers {})
  have hswept : updateContainersStates c =
      if (sweepMembers false c.containers {}).counted = 0 then
        { status := c.status, containers := (sweepMembers false c.containers {}).records }
      else
        { status :=
            if (sweepMembers false c.containers {}).running = (sweepMembers false c.containers {}).counted
            then .running else .stopped
          containers := (sweepMembers false c.containers {}).records } := by
    rw [updateContainersStates]
    simp only [hmid, Bool.false_eq_true, if_false, hrebuilding, hcounted, hrunning]
    rw [if_neg (by simp [hmains])]
  have hrecords : (sweepMembers false c.containers {}).records =
      c.containers.map fun m => (turn false m).record := by rw [hmains]; rfl
  have hcount : (sweepMembers false c.containers {}).counted =
      c.containers.countP fun m => (turn false m).counted := by rw [hmains]; exact Nat.zero_add _
  have hrun : (sweepMembers false c.containers {}).running = c.containers.countP fun m =>
      (turn false m).record.status == .running && (turn false m).counted := by rw [hmains]; exact Nat.zero_add _
  by_cases hall : ∀ m ∈ c.containers, LeftOut m
  · rw [if_pos (hcount.trans (countP_counted.mpr hall)), hrecords] at hswept
    exact ⟨by rw [hswept], fun _ => by rw [hswept], fun hsome => absurd hall hsome⟩
  · rw [if_neg fun hzero => hall (countP_counted.mp (hcount.symm.trans hzero)), hrecords, hrun, hcount] at hswept
    refine ⟨by rw [hswept], fun hall' => absurd hall' hall, fun _ => ?_⟩
    rw [hswept, ← countP_running]
    split <;> simp_all

/-- What was handed to a rebuild is rebuilding. -/
theorem rebuilding_of_hands (hmid : midOperation c.status = false) (hhands : ∃ m ∈ c.containers, Hands m) :
    (updateContainersStates c).status = .rebuilding := by
  have hrebuilding := (sweepMembers_sidecars c.sidecars (sweepMembers false c.containers {})).2.2
  rw [sweepMembers_hands _ _ hhands] at hrebuilding
  rw [updateContainersStates]
  simp only [hmid, Bool.false_eq_true, if_false, hrebuilding, if_true]

/-- A capsule is running only with all its main members if and only if every member that is left out is recorded
running, or something else keeps the capsule from running. -/
theorem honest_iff (c : Capsule) : (updateContainersStates c).Honest ↔
    midOperation c.status = true ∨ (∃ m ∈ c.containers, Hands m) ∨ (∃ m ∈ c.containers, Down m) ∨
      (∀ m ∈ c.containers, LeftOut m → m.record.status = .running) ∨
      (∀ m ∈ c.containers, LeftOut m) ∧ c.status ≠ .running := by
  cases hmid : midOperation c.status with
  | true =>
      simp only [true_or, iff_true]
      intro hrunning
      rw [updateContainersStates, if_pos hmid] at hrunning
      have hrunning : c.status = .running := hrunning
      simp [hrunning, midOperation] at hmid
  | false =>
      by_cases hhands : ∃ m ∈ c.containers, Hands m
      · simp only [hhands, true_or, or_true, iff_true]
        intro hrunning
        rw [rebuilding_of_hands hmid hhands] at hrunning
        cases hrunning
      · have hnone : ∀ m ∈ c.containers, ¬ Hands m := fun m hm hm' => hhands ⟨m, hm, hm'⟩
        obtain ⟨hcontainers, huncounted, hcounted⟩ := through hmid hnone
        simp only [Bool.false_eq_true, hhands, false_or]
        -- a member that comes out running was not left out, or is recorded so
        have hrecords : (∀ r ∈ (updateContainersStates c).containers, r.status = .running) ↔
            (∀ m ∈ c.containers, ¬ Down m) ∧ ∀ m ∈ c.containers, LeftOut m → m.record.status = .running := by
          rw [hcontainers, List.forall_mem_map, ← forall₂_and]
          refine forall₂_congr fun m _ => ?_
          by_cases hout : LeftOut m
          · simp [turn_record hout, Down, hout]
          · simp [Down, hout]
        rw [Swept.Honest, hrecords]
        by_cases hall : ∀ m ∈ c.containers, LeftOut m
        · rw [huncounted hall]
          have hup : ∀ m ∈ c.containers, ¬ Down m := fun m hm hdown => hdown.1 (hall m hm)
          have hup' : ¬ ∃ m ∈ c.containers, Down m := fun ⟨m, hm, hdown⟩ => hup m hm hdown
          tauto
        · rw [hcounted hall]
          by_cases hup : ∀ m ∈ c.containers, ¬ Down m
          · have hup' : ¬ ∃ m ∈ c.containers, Down m := fun ⟨m, hm, hdown⟩ => hup m hm hdown
            simp only [hall, false_and, or_false, hup', false_or]
            exact ⟨fun hhonest => (hhonest hup).2, fun hleft _ => ⟨hup, hleft⟩⟩
          · have hdown : ∃ m ∈ c.containers, Down m := by simpa using hup
            exact ⟨fun _ => .inl hdown, fun _ hup' => absurd hup' hup⟩

end

/-! ## A member that is not found -/

/-- The second member is marked stopped by its owner, and the runtime has forgotten it. -/
def halfForgotten : Capsule :=
  { status := .stopped
    containers :=
      [{ record := { status := .running, containerId := some 1 }
         answer := { listed := .state .running false } },
        { record := { status := .stopped, statusDetail := some .stopped, containerId := some 2 }
          answer := { listed := .notFound } }] }

/-- The capsule is running with one of its two members. -/
theorem not_honest : (updateContainersStates halfForgotten).status = .running ∧
    ¬ (updateContainersStates halfForgotten).Honest := by
  constructor
  · decide
  · intro hhonest
    have hall := hhonest (by decide)
    revert hall
    decide

end RollUp

end Cri

end Zun
