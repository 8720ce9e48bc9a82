import Zun.Effect.Run

/-!
# A show beside an operation

`container_show` of `zun/compute/manager.py`.  A show does not touch a record that an operation owns.
It looks twice: at the copy that the API has read, and, once the runtime has answered, at the row.
What it saves afterwards is the answer.  An operation that begins behind the second look, or that
begins and ends between the two, is not seen; and when the runtime knows the container no more, the
driver saves without the second look.
-/

namespace Zun

open Effect

namespace ShowRecord

/-- The columns that tell how a container stands. -/
inductive Field where
  | status | statusReason | taskState
deriving DecidableEq

/-- A row. -/
abbrev Values := Field → Option String

/-- The columns that a save writes, each with its new value. -/
abbrev Changes := Field → Option (Option String)

/-- `CREATING`, `REBUILDING` and `DELETING`. -/
def inTransition : List String := ["Creating", "Rebuilding", "Deleting"]

/-- `_owned_by_an_operation`. -/
def ownedByAnOperation (r : Values) : Bool :=
  (r .taskState).isSome || (r .status).any fun status => status ∈ inTransition

/-- `save`. -/
def save (changes : Changes) (r : Values) : Values := fun f => (changes f).getD (r f)

/-- `obj_what_changed`. -/
def Changes.any (changes : Changes) : Bool :=
  (changes .status).isSome || (changes .statusReason).isSome || (changes .taskState).isSome

/-- `handle_not_found`, of a container that is not being deleted. -/
def handleNotFound (autoRemove : Bool) : Changes
  | .status => some (some (if autoRemove then "Deleted" else "Error"))
  | .statusReason => if autoRemove then none else some (some "The container is missing from the node")
  | .taskState => none

/-- Where the show is. -/
inductive Phase where
  | idle
  /-- It has the copy that the API read. -/
  | called (copy : Values)
  /-- At `driver.show`. -/
  | asking
  /-- The runtime has answered; at `_fresh_record`. -/
  | asked (changes : Changes)
  /-- At `container.save`. -/
  | saving (changes : Changes)

structure State where
  row : Option Values
  phase : Phase := .idle
  /-- The columns that the operation under way has written.  The code does not keep this, nor what
  follows. -/
  operation : Option (Field → Bool) := none
  /-- The columns that operations have written which had not ended when the runtime was asked. -/
  written : Field → Bool := fun _ => false
  /-- An operation has ended since. -/
  ended : Bool := false
  /-- The row as the last operation left it. -/
  left : Option (Option Values) := none
  /-- The columns that hold what the runtime said after that. -/
  later : Field → Bool := fun _ => false

inductive Event where
  | beginOperation
  /-- The API sets the status or the task state, or the thread of the operation saves. -/
  | write (changes : Changes)
  /-- A delete drops the row. -/
  | destroy
  | endOperation
  /-- The API reads the row and calls. -/
  | call
  | check
  /-- The runtime answers. -/
  | answer (changes : Changes)
  /-- The runtime does not know the container. -/
  | notFound (autoRemove : Bool)
  /-- Asking raises. -/
  | fail
  | reread
  | save

section

variable (s : State)

def stepWrite (changes : Changes) : State :=
  match s.operation with
  | some wrote =>
      { s with
        row := s.row.map (save changes)
        operation := some fun f => wrote f || (changes f).isSome
        written := fun f => s.written f || (changes f).isSome }
  | none => s

def stepEndOperation : State :=
  { s with operation := none, ended := true, left := some s.row, later := fun _ => false }

def stepCheck : State :=
  match s.phase with
  | .called copy => { s with phase := if ownedByAnOperation copy then .idle else .asking }
  | _ => s

/-- The runtime has answered with what the driver changes the copy by. -/
def stepAnswer (next : Phase) : State :=
  match s.phase with
  | .asking =>
      { s with
        phase := next
        written := s.operation.getD fun _ => false
        ended := false }
  | _ => s

def stepReread : State :=
  match s.phase, s.row with
  | .asked changes, some current =>
      { s with phase := if ownedByAnOperation current then .idle else .saving changes }
  | .asked _, none => { s with phase := .idle }
  | _, _ => s

def stepSave : State :=
  match s.phase with
  | .saving changes =>
      { s with
        row := s.row.map (save changes)
        phase := .idle
        later := fun f => if (changes f).isSome then !s.ended else s.later f }
  | _ => s

end

def step : Event → State → State
  | .beginOperation, s => { s with operation := some fun _ => false }
  | .write changes, s => stepWrite s changes
  | .destroy, s => { s with row := none }
  | .endOperation, s => stepEndOperation s
  | .call, s =>
      match s.row with
      | some copy => { s with phase := .called copy }
      | none => s
  | .check, s => stepCheck s
  | .answer changes, s => stepAnswer s (if changes.any then .asked changes else .idle)
  | .notFound autoRemove, s => stepAnswer s (.saving (handleNotFound autoRemove))
  | .fail, s => { s with phase := .idle }
  | .reread, s => stepReread s
  | .save, s => stepSave s

/-! ## What can happen -/

def Possible : Event → State → Prop
  | .beginOperation, s => s.operation = none
  | .write _, s | .destroy, s | .endOperation, s => s.operation.isSome
  | .call, s => s.phase = .idle
  -- the driver leaves the task state alone
  | .answer changes, _ => changes .taskState = none
  | _, _ => True

/-- The record of a container, with nothing under way. -/
structure Begun (s : State) : Prop where
  operation : s.operation = none
  phase : s.phase = .idle
  left : s.left = none

/-- What is to be saved was written by no operation that the answer does not know of, and none has
ended since the runtime was asked. -/
def Current (s : State) (changes : Changes) : Prop :=
  s.ended = false ∧ ∀ f, (changes f).isSome → s.written f = false

/-- An operation that ends, or that writes what a show is to save, between the runtime's answer and
the save leaves the row marked until the show has looked at it again; and none does so behind this
look, or where there is no such look. -/
def Marked : Event → State → Prop
  | .reread, s => ∀ changes current, s.phase = .asked changes → s.row = some current →
      ownedByAnOperation current = false → Current s changes
  | .notFound autoRemove, s => s.phase = .asking → ∀ wrote, s.operation = some wrote →
      ∀ f, (handleNotFound autoRemove f).isSome → wrote f = false
  | .write changes, s => ∀ changes', s.phase = .saving changes' →
      ∀ f, (changes' f).isSome → changes f = none
  | .endOperation, s => ∀ changes, s.phase ≠ .saving changes
  | _, _ => True

structure Safe (s : State) : Prop where
  /-- The show does not write what it read before or during an operation into a column that the
  operation has written. -/
  kept : ∀ changes, s.phase = .saving changes → ∀ f, (changes f).isSome → s.written f = false
  /-- With no operation under way, each column holds what the last one left there, or what the
  runtime said after it. -/
  left : s.operation = none → ∀ old new, s.left = some (some old) → s.row = some new →
    ∀ f, new f = old f ∨ s.later f = true

/-! ## What stays true -/

structure Inv (s : State) : Prop where
  current : ∀ changes, s.phase = .saving changes → Current s changes
  left : s.operation = none → ∀ old, s.left = some old → ∀ new, s.row = some new →
    ∃ row, old = some row ∧ ∀ f, new f = row f ∨ s.later f = true

variable {s : State} {changes : Changes}

theorem inv_write (h : Inv s) (hm : Marked (.write changes) s) : Inv (stepWrite s changes) := by
  unfold stepWrite
  split
  · constructor
    · intro changes' hs
      obtain ⟨hended, hwritten⟩ := h.current changes' hs
      refine ⟨hended, ?_⟩
      intro f hf
      simp [hwritten f hf, hm changes' hs f hf]
    · intro hnone
      cases hnone
  · exact h

theorem inv_destroy (h : Inv s) : Inv (step .destroy s) := by
  constructor
  · exact h.current
  · intro _ old _ new hnew
    cases hnew

theorem inv_endOperation (hm : Marked .endOperation s) : Inv (stepEndOperation s) := by
  constructor
  · intro changes hs
    exact absurd hs (hm changes)
  · intro _ old hold new hnew
    cases hold
    exact ⟨new, hnew, fun _ => .inl rfl⟩

/-- The show goes on, to no save. -/
theorem Inv.withPhase {phase : Phase} (h : Inv s) (hphase : ∀ changes, phase ≠ .saving changes) :
    Inv { s with phase } where
  current changes hs := absurd hs (hphase changes)
  left := h.left

theorem inv_check (h : Inv s) : Inv (stepCheck s) := by
  unfold stepCheck
  split
  · apply h.withPhase
    intro changes
    split <;> exact nofun
  · exact h

theorem inv_answer (h : Inv s) : Inv (step (.answer changes) s) := by
  rw [step]
  unfold stepAnswer
  split
  · constructor
    · intro changes' hs
      have hphase : (if changes.any then Phase.asked changes else .idle) = .saving changes' := hs
      split at hphase <;> cases hphase
    · exact h.left
  · exact h

theorem inv_notFound {autoRemove : Bool} (h : Inv s) (hm : Marked (.notFound autoRemove) s) :
    Inv (step (.notFound autoRemove) s) := by
  rw [step]
  unfold stepAnswer
  split
  next hasking =>
    constructor
    · intro changes hs
      cases hs
      refine ⟨rfl, ?_⟩
      intro f hf
      cases hop : s.operation with
      | none => simp
      | some wrote => exact hm hasking wrote hop f hf
    · exact h.left
  · exact h

theorem inv_reread (h : Inv s) (hm : Marked .reread s) : Inv (stepReread s) := by
  unfold stepReread
  split
  next changes current hs hrow =>
    constructor
    · intro changes' hs'
      have hphase : (if ownedByAnOperation current then Phase.idle else .saving changes) =
          .saving changes' := hs'
      split at hphase
      · cases hphase
      next howned =>
        cases hphase
        exact hm changes current hs hrow (by simpa using howned)
    · exact h.left
  · exact h.withPhase nofun
  · exact h

theorem inv_save (h : Inv s) : Inv (stepSave s) := by
  unfold stepSave
  split
  next changes hs =>
    obtain ⟨hended, -⟩ := h.current changes hs
    constructor
    · exact nofun
    · intro hop old hold new hnew
      obtain ⟨row, hrow, rfl⟩ := Option.map_eq_some_iff.mp hnew
      obtain ⟨before, rfl, hbefore⟩ := h.left hop old hold row hrow
      refine ⟨before, rfl, ?_⟩
      intro f
      show save changes row f = _ ∨ (if (changes f).isSome then !s.ended else s.later f) = true
      -- a column that the show writes holds what was read after the operation
      cases hf : changes f with
      | some v => exact .inr (by simp [hended])
      | none => simpa [save, hf] using hbefore f
  · exact h

theorem inv_step (e : Event) (h : Inv s) (hp : Possible e s) (hm : Marked e s) :
    Inv (step e s) := by
  cases e with
  | beginOperation => exact ⟨h.current, nofun⟩
  | write changes => exact inv_write h hm
  | destroy => exact inv_destroy h
  | endOperation => exact inv_endOperation hm
  | call =>
    rw [step]
    split
    · exact h.withPhase nofun
    · exact h
  | check => exact inv_check h
  | answer changes => exact inv_answer h
  | notFound autoRemove => exact inv_notFound h hm
  | fail => exact h.withPhase nofun
  | reread => exact inv_reread h hm
  | save => exact inv_save h

theorem inv_begun (h : Begun s) : Inv s where
  current changes hs := by
    rw [h.phase] at hs
    cases hs
  left _ old hold := by
    rw [h.left] at hold
    cases hold

theorem Inv.safe (h : Inv s) : Safe s where
  kept changes hs := (h.current changes hs).2
  left hop old new hold hnew := by
    obtain ⟨row, hrow, hf⟩ := h.left hop _ hold new hnew
    cases hrow
    exact hf

/-- The record says that it runs. -/
def webRow : Values
  | .status => some "Running"
  | _ => none

def web : State := { row := some webRow }

theorem begun_web : Begun web := ⟨rfl, rfl, rfl⟩

def died : Changes
  | .status => some (some "Stopped")
  | _ => none

def rebooting : Changes
  | .taskState => some (some "container_rebooting")
  | _ => none

def rebooted : Changes
  | .status => some (some "Running")
  | .taskState => some none
  | .statusReason => none

/-- A reboot from its first to its last step. -/
def reboot : List Event := [.beginOperation, .write rebooting, .write rebooted, .endOperation]

/-- The show is over before the reboot begins. -/
def showThenReboot : List Event := [.call, .check, .answer died, .reread, .save] ++ reboot

/-- The reboot falls between the runtime's answer and the second look. -/
def rebootWithinShow : List Event := [.call, .check, .answer died] ++ reboot ++ [.reread]

end ShowRecord

end Zun
