import Zun.Effect.Run
import Zun.Objects.Container

/-!
# A commit beside an operation

`_commit_to_registry` of `zun/compute/manager.py` pauses a running container, commits it and
unpauses it, and saves the record after the first and after the last.  It works on the copy that the
API has read and does not wait for the container's lock, under which stops, starts, kills, rebuilds
and deletes take turns.  Each of these reads the record again when it gets the lock, and saves what
the driver has set on it at its end.

So a save of the commit can come after the save of an operation that the runtime was asked for
later, an operation can save again the status that it has read during the commit, and a commit can
ask for a container that a rebuild has replaced.
-/

namespace Zun

open Effect

namespace Commit

/-- The state of a container, as docker has it. -/
inductive RunState where
  | created | running | paused | stopped
deriving DecidableEq

/-- A container, as docker has it. -/
structure Made where
  id : Nat
  state : RunState
deriving DecidableEq

/-- The columns of the record that are read or written here. -/
structure Row where
  status : Status
  statusReason : Option String := none
  containerId : Option Nat := none
deriving DecidableEq

/-- The fields that were assigned since the last save, each with its value. -/
structure Changes where
  status : Option Status := none
  statusReason : Option (Option String) := none
  containerId : Option (Option Nat) := none

/-- `save`. -/
def Changes.save (changes : Changes) (r : Row) : Row where
  status := changes.status.getD r.status
  statusReason := changes.statusReason.getD r.statusReason
  containerId := changes.containerId.getD r.containerId

/-- A driver call that has worked sets the status and clears the reason. -/
def sets (status : Status) : Changes := { status := some status, statusReason := some none }

/-- The status that `handle_not_found` sets. -/
def gone (autoRemove : Bool) : Status := if autoRemove then .deleted else .error

/-- `handle_not_found`, of a container that is not being deleted. -/
def handleNotFound (autoRemove : Bool) : Changes where
  status := some (gone autoRemove)
  statusReason := if autoRemove then none else some (some "The container is missing from the node")

/-! ## The operations -/

/-- The actions that are waited for with the lock. -/
def locked : List Action := [.stop, .start, .kill, .rebuild, .delete, .deleteForce, .deleteAfterStop]

/-- `_do_container_delete`. -/
def deletes : Action → Bool
  | .delete | .deleteForce | .deleteAfterStop => true
  | _ => false

/-- What a driver call can do: what docker has before and after it, and what it leaves on the copy. -/
inductive Answers (autoRemove : Bool) : Action → Option Made → Option Made → Changes → Prop where
  | stopped (c : Made) :
      Answers autoRemove .stop (some c) (some { c with state := .stopped }) (sets .stopped)
  | killed (c : Made) :
      Answers autoRemove .kill (some c) (some { c with state := .stopped }) (sets .stopped)
  /-- `kill` with a signal that does not end the container. -/
  | signalled (c : Made) : Answers autoRemove .kill (some c) (some c) (sets .stopped)
  | started (a : Action) (c : Made) : a = .start ∨ a = .rebuild → c.state ≠ .paused →
      Answers autoRemove a (some c) (some { c with state := .running }) (sets .running)
  /-- `start` stops a container again whose network it could not set up, and does not look whether
  this has worked. -/
  | unwired (a : Action) (c : Made) (state : RunState) (e : String) : a = .start ∨ a = .rebuild →
      c.state ≠ .paused → state = .stopped ∨ state = .running →
      Answers autoRemove a (some c) (some { c with state })
        { sets .stopped with statusReason := some (some ("failed to configure network: " ++ e)) }
  /-- A rebuild and a delete remove the container, and say nothing of it. -/
  | removed (a : Action) (before : Option Made) : a = .rebuild ∨ deletes a →
      Answers autoRemove a before none {}
  | created (id : Nat) : Answers autoRemove .rebuild none (some ⟨id, .created⟩)
      { sets .created with containerId := some (some id) }
  | raised (a : Action) (before : Option Made) : Answers autoRemove a before before {}
  | notFound (a : Action) : Answers autoRemove a none none (handleNotFound autoRemove)
  /-- `_fail_container`. -/
  | failed (a : Action) (before : Option Made) (reason : String) :
      a = .start ∨ a = .rebuild ∨ deletes a →
      Answers autoRemove a before before
        { status := some (gone autoRemove), statusReason := some (some reason) }

/-- Who has the container's lock. -/
inductive Thread where
  | idle
  /-- The operation has read the record again, and is to save its task state. -/
  | caughtUp (a : Action) (changes : Changes)
  | working (a : Action) (said : Changes)

/-- A column that the operation brings up to date. -/
def differing {α : Type} [DecidableEq α] (copy current : α) : Option α :=
  if copy = current then none else some current

/-- `_caught_up`.  A delete has set its status on the copy and a rebuild has saved it; both keep it. -/
def caughtUp (a : Action) (copy current : Row) : Changes where
  status :=
    if deletes a then some .deleting
    else if a = .rebuild then none
    else differing copy.status current.status
  statusReason := differing copy.statusReason current.statusReason
  containerId := differing copy.containerId current.containerId

/-- What an operation's API request makes of the record. -/
def requested (a : Action) (r : Row) : Row :=
  if a = .rebuild then { r with status := .rebuilding } else r

/-! ## The commit -/

/-- Where the commit is, with the id that its copy has. -/
inductive Phase where
  | idle
  /-- At `driver.pause`. -/
  | pausing (id : Option Nat)
  /-- At the save after it. -/
  | paused (id : Option Nat)
  /-- At `driver.commit`, with `unpause`. -/
  | committing (id : Option Nat) (unpause : Bool)
  /-- At `driver.unpause`. -/
  | unpausing (id : Option Nat)
  /-- At the save after it. -/
  | unpaused (id : Option Nat)

/-- How a call of the driver ends. -/
inductive Outcome where
  | works
  /-- The runtime answers 404. -/
  | notFound
  | fails

structure State where
  row : Option Row
  made : Option Made
  autoRemove : Bool := false
  phase : Phase := .idle
  /-- The operations that wait for the lock, each with the copy that the API has read. -/
  queue : List (Action × Row) := []
  thread : Thread := .idle
  /-- The status is the word of an operation, and no other that a commit has saved.  The code does
  not keep this, nor what follows. -/
  own : Bool := true
  /-- The container was paused before anything began. -/
  ownersPause : Bool := false
  unpauseFailed : Bool := false

inductive Event where
  /-- The API accepts an operation. -/
  | accept (a : Action)
  /-- One of those that wait gets the lock. -/
  | lock (i : Nat)
  /-- The save of `_update_task_state`. -/
  | mark
  | contact (made : Option Made) (said : Changes)
  | saveOperation
  /-- A delete drops the row. -/
  | destroy
  | finish
  /-- The API reads the row and calls for a commit. -/
  | call (pause : Bool)
  | pause (outcome : Outcome)
  | savePaused (works : Bool)
  | commit (outcome : Outcome)
  | unpause (outcome : Outcome)
  | saveRunning (works : Bool)

section

variable (s : State)

def stepAccept (a : Action) : State :=
  match s.row with
  | some r =>
      { s with
        row := some (requested a r)
        own := s.own || decide (a = .rebuild)
        queue := s.queue ++ [(a, requested a r)] }
  | none => s

def stepLock (i : Nat) : State :=
  match s.queue[i]?, s.row with
  | some (a, copy), some current =>
      { s with queue := s.queue.eraseIdx i, thread := .caughtUp a (caughtUp a copy current) }
  | some _, none => { s with queue := s.queue.eraseIdx i }
  | none, _ => s

def stepMark : State :=
  match s.thread with
  | .caughtUp a changes =>
      { s with
        row := s.row.map changes.save
        own := s.own || deletes a
        thread := .working a {} }
  | _ => s

def stepContact (made : Option Made) (said : Changes) : State :=
  match s.thread with
  | .working a _ => { s with made, thread := .working a said }
  | _ => s

def stepSaveOperation : State :=
  match s.thread with
  | .working a said =>
      { s with
        row := s.row.map said.save
        own := s.own || said.status.isSome
        thread := .working a {} }
  | _ => s

/-- A save of the commit. -/
def saveCommit (changes : Changes) (phase : Phase) : State :=
  { s with
    row := s.row.map changes.save
    own := s.own && (s.row.map (changes.save · |>.status) == s.row.map Row.status)
    phase }

def setRunState (state : RunState) (phase : Phase) : State :=
  { s with made := s.made.map ({ · with state }), phase }

def stepCall (pause : Bool) : State :=
  match s.row with
  | some copy =>
      { s with
        phase := if pause && copy.status = .running then .pausing copy.containerId
          else .committing copy.containerId false }
  | none => s

def stepPause (outcome : Outcome) : State :=
  match s.phase, outcome with
  | .pausing id, .works => setRunState s .paused (.paused id)
  | .pausing _, .notFound => saveCommit s (handleNotFound s.autoRemove) .idle
  | .pausing _, .fails => { s with phase := .idle }
  | _, _ => s

def stepSavePaused (works : Bool) : State :=
  match s.phase, works with
  | .paused id, true => saveCommit s (sets .paused) (.committing id true)
  | .paused _, false => { s with phase := .idle }
  | _, _ => s

/-- Where the commit goes on: at the `finally`. -/
def afterCommit (id : Option Nat) (unpause : Bool) : Phase :=
  if unpause then .unpausing id else .idle

def stepCommit (outcome : Outcome) : State :=
  match s.phase, outcome with
  | .committing id unpause, .notFound =>
      saveCommit s (handleNotFound s.autoRemove) (afterCommit id unpause)
  | .committing id unpause, _ => { s with phase := afterCommit id unpause }
  | _, _ => s

def stepUnpause (outcome : Outcome) : State :=
  match s.phase, outcome with
  | .unpausing id, .works => setRunState s .running (.unpaused id)
  | .unpausing _, .notFound =>
      { saveCommit s (handleNotFound s.autoRemove) .idle with unpauseFailed := true }
  | .unpausing _, .fails => { s with phase := .idle, unpauseFailed := true }
  | _, _ => s

def stepSaveRunning (works : Bool) : State :=
  match s.phase, works with
  | .unpaused _, true => saveCommit s (sets .running) .idle
  | .unpaused _, false => { s with phase := .idle }
  | _, _ => s

end

def step : Event → State → State
  | .accept a, s => stepAccept s a
  | .lock i, s => stepLock s i
  | .mark, s => stepMark s
  | .contact made said, s => stepContact s made said
  | .saveOperation, s => stepSaveOperation s
  | .destroy, s => { s with row := none }
  | .finish, s => { s with thread := .idle }
  | .call pause, s => stepCall s pause
  | .pause outcome, s => stepPause s outcome
  | .savePaused works, s => stepSavePaused s works
  | .commit outcome, s => stepCommit s outcome
  | .unpause outcome, s => stepUnpause s outcome
  | .saveRunning works, s => stepSaveRunning s works

/-! ## What can happen -/

/-- Docker has the container that the id names, in this state. -/
def Has (s : State) (id : Option Nat) (state : RunState) : Prop :=
  ∃ i, id = some i ∧ s.made = some ⟨i, state⟩

/-- Docker has no container that the id names. -/
def Missing (s : State) (id : Option Nat) : Prop :=
  id.isSome ∧ ∀ c, s.made = some c → id ≠ some c.id

def Possible : Event → State → Prop
  | .accept a, s => a ∈ locked ∧ ∀ r, s.row = some r → r.status ∈ validStates a
  | .lock _, s => s.thread = .idle
  | .contact made said, s =>
      ∃ a before, s.thread = .working a before ∧ before.status = none ∧
        Answers s.autoRemove a s.made made said
  | .destroy, s => ∃ a said, s.thread = .working a said ∧ said.status = none ∧ deletes a
  | .finish, s => ∃ a said, s.thread = .working a said ∧ said.status = none
  | .call _, s => s.phase = .idle ∧
      ∀ r, s.row = some r → r.status ∈ [Status.running, .stopped, .paused]
  | .pause .works, s => ∀ id, s.phase = .pausing id → Has s id .running
  | .pause .notFound, s => ∀ id, s.phase = .pausing id → Missing s id
  | .commit .works, s => ∀ id unpause, s.phase = .committing id unpause → ∃ state, Has s id state
  | .commit .notFound, s => ∀ id unpause, s.phase = .committing id unpause → Missing s id
  | .unpause .works, s => ∀ id, s.phase = .unpausing id → Has s id .paused
  | .unpause .notFound, s => ∀ id, s.phase = .unpausing id → Missing s id
  -- a row that is gone cannot be saved
  | .savePaused works, s | .saveRunning works, s => works = true → s.row.isSome
  | _, _ => True

/-- The state of the runtime that a status tells of. -/
def told : Status → Option RunState
  | .created => some .created
  | .running => some .running
  | .paused => some .paused
  | .stopped => some .stopped
  | _ => none

/-- A status fits what docker has.  One that does not tell of the runtime, such as `ERROR`, is the
word of an operation about itself. -/
def Fits (own : Bool) (made : Option Made) (status : Status) : Prop :=
  match told status with
  | some state => made.map Made.state = some state
  | none => own = true

/-- The record tells what docker has. -/
def Settled (s : State) : Prop := ∀ r, s.row = some r → Fits s.own s.made r.status

/-- An operation is under way that has still to save what it has made of the container. -/
def Owed (s : State) : Prop :=
  ∃ a said, s.thread = .working a said ∧ (said.status.isSome ∨ s.made = none)

def Frozen (s : State) : Prop := s.made.map Made.state = some .paused

instance (s : State) : Decidable (Frozen s) :=
  inferInstanceAs (Decidable (s.made.map Made.state = some .paused))

/-- A container that its record tells of, with nothing under way. -/
structure Begun (s : State) : Prop where
  phase : s.phase = .idle
  queue : s.queue = []
  thread : s.thread = .idle
  settled : Settled s
  unpauseFailed : s.unpauseFailed = false
  ownersPause : s.ownersPause = decide (Frozen s)

/-- Neither party saves what does not hold any more.

* Operations say what they have left: no kill sends a signal that the container survives, and no
  start fails to set up the network of a container that it then cannot stop.
* None saves again a status that has changed since it has read it, and a delete that fails once the
  container is removed leaves its own status.
* The commit saves `RUNNING` only while the container runs or an operation is still to save, and is
  not told 404 before the unpause where neither the record is gone nor an operation is still to save.
* The save after the pause does not fail while the container is paused, and the one after the unpause
  only where the record is right without it. -/
def Heeded : Event → State → Prop
  | .mark, s => ∀ a changes, s.thread = .caughtUp a changes → deletes a = false →
      ∀ status, changes.status = some status → ∀ r, s.row = some r → r.status = status
  | .contact made said, _ => ∀ status, said.status = some status → Fits true made status
  | .finish, s => s.made = none → Settled s
  | .pause .notFound, s =>
      s.row = none ∨ Owed s ∨ s.row.map Row.status = some (gone s.autoRemove)
  | .commit .notFound, s => ∀ id, s.phase = .committing id false →
      s.row = none ∨ Owed s ∨ s.row.map Row.status = some (gone s.autoRemove)
  | .savePaused false, s => ¬ Frozen s
  | .saveRunning true, s => s.made.map Made.state = some .running ∨ Owed s
  | .saveRunning false, s => Settled s ∨ Owed s
  | _, _ => True

/-- Everything has ended, and each unpause has worked. -/
structure Ended (s : State) : Prop where
  phase : s.phase = .idle
  queue : s.queue = []
  thread : s.thread = .idle
  unpauseFailed : s.unpauseFailed = false

structure Safe (s : State) : Prop where
  /-- The container is not left frozen. -/
  thawed : Ended s → Frozen s → s.ownersPause = true
  /-- The recorded status is the state that the runtime has, or the word of an operation that the
  commit has not saved. -/
  settled : Ended s → Settled s

/-! ## What stays true -/

/-- The commit has paused the container, and is to unpause it. -/
def thaws : Phase → Bool
  | .paused _ | .committing _ true | .unpausing _ => true
  | _ => false

/-- The record need not be right: the commit is to save it, or what the commit has paused is paused no
more, and the unpause will fail. -/
def Excused (s : State) : Prop :=
  match s.phase with
  | .paused _ => Frozen s
  | .committing _ true | .unpausing _ => True
  | .unpaused _ => s.made.map Made.state = some .running
  | _ => False

structure Sound (s : State) : Prop where
  marks : ∀ a changes, s.thread = .caughtUp a changes → deletes a = true →
    changes.status = some .deleting
  frozen : Frozen s → s.ownersPause = true ∨ thaws s.phase = true
  said : ∀ a said status, s.thread = .working a said → said.status = some status →
    status ≠ .paused ∧
      (Fits true s.made status ∨ status = .running ∧ Frozen s ∧ thaws s.phase = true)
  row : Excused s ∨ Settled s ∨ Owed s

def Inv (s : State) : Prop := s.unpauseFailed = true ∨ Sound s

variable {s : State}

theorem fits_own {own own' : Bool} {made : Option Made} {status : Status}
    (h : Fits own made status) (hown : own = true → own' = true) : Fits own' made status := by
  unfold Fits at *
  split <;> simp_all

namespace Answers

variable {autoRemove : Bool} {a : Action} {before after : Option Made} {said : Changes}

/-- No operation pauses a container. -/
theorem frozen (h : Answers autoRemove a before after said)
    (hafter : after.map Made.state = some .paused) : after = before := by
  cases h with
  | unwired _ _ _ _ _ _ hstate => obtain rfl | rfl := hstate <;> cases hafter
  | signalled | raised | notFound | failed => rfl
  | stopped | killed | started | removed | created => cases hafter

theorem said_ne_paused (h : Answers autoRemove a before after said) {status : Status}
    (hstatus : said.status = some status) : status ≠ .paused := by
  cases h with
  | removed | raised => cases hstatus
  | notFound | failed =>
    cases hstatus
    cases autoRemove <;> exact nofun
  | stopped | killed | signalled | started | unwired | created =>
    cases hstatus
    exact nofun

/-- An operation that has nothing to say of what it did has done nothing, or removed the container. -/
theorem silent (h : Answers autoRemove a before after said) (hsaid : said.status = none) :
    after = before ∨ after = none := by
  cases h with
  | removed => exact .inr rfl
  | raised => exact .inl rfl
  | stopped | killed | signalled | started | unwired | created | notFound | failed => cases hsaid

end Answers

theorem inv_begun (h : Begun s) : Inv s := by
  right
  constructor
  · intro a changes hthread
    rw [h.thread] at hthread
    cases hthread
  · intro hfrozen
    left
    rw [h.ownersPause]
    exact decide_eq_true hfrozen
  · intro a said status hthread
    rw [h.thread] at hthread
    cases hthread
  · exact .inr (.inl h.settled)

/-! ### Steps of an operation -/

theorem sound_accept {a : Action} (h : Sound s) : Sound (stepAccept s a) := by
  unfold stepAccept
  split
  next r hrow =>
    refine ⟨h.marks, h.frozen, h.said, ?_⟩
    obtain hexcused | hsettled | howed := h.row
    · exact .inl hexcused
    · right
      left
      intro r' hr'
      cases hr'
      unfold requested
      split
      next ha => simp [Fits, told, ha]
      · exact fits_own (hsettled r hrow) (by simp +contextual)
    · exact .inr (.inr howed)
  · exact h

theorem sound_lock {i : Nat} (h : Sound s) (hidle : s.thread = .idle) : Sound (stepLock s i) := by
  have hrow : Excused s ∨ Settled s := by
    obtain hexcused | hsettled | ⟨a, said, hthread, -⟩ := h.row
    · exact .inl hexcused
    · exact .inr hsettled
    · rw [hidle] at hthread
      cases hthread
  unfold stepLock
  split
  next a copy current _ _ =>
    refine ⟨?_, h.frozen, ?_, hrow.imp_right .inl⟩
    · intro _ _ heq ha
      cases heq
      simp [caughtUp, ha]
    · intro _ _ _ heq
      cases heq
  · exact ⟨h.marks, h.frozen, h.said, h.row⟩
  · exact h

/-- What the first save of an operation makes of the status fits if what was there did. -/
theorem Fits.save {own : Bool} {made : Option Made} {a : Action} {changes : Changes} {r : Row}
    (h : Fits own made r.status)
    (hdeletes : deletes a = true → changes.status = some .deleting)
    (hkept : deletes a = false → ∀ status, changes.status = some status → r.status = status) :
    Fits (own || deletes a) made (changes.save r).status := by
  cases ha : deletes a with
  | true => simp [Changes.save, hdeletes ha, Fits, told]
  | false =>
    have hsame : (changes.save r).status = r.status := by
      cases hstatus : changes.status with
      | none => simp [Changes.save, hstatus]
      | some status => simp [Changes.save, hstatus, hkept ha status hstatus]
    rw [hsame]
    exact fits_own h (by simp)

theorem sound_mark (h : Sound s) (hm : Heeded .mark s) : Sound (stepMark s) := by
  unfold stepMark
  split
  next a changes hthread =>
    refine ⟨?_, h.frozen, ?_, ?_⟩
    · intro _ _ heq
      cases heq
    · intro _ _ _ heq hstatus
      cases heq
      cases hstatus
    · obtain hexcused | hsettled | ⟨_, _, hworking, -⟩ := h.row
      · exact .inl hexcused
      · right
        left
        intro r' hr'
        obtain ⟨r, hr, rfl⟩ := Option.map_eq_some_iff.mp hr'
        apply (hsettled r hr).save
        · exact h.marks a changes hthread
        · intro ha status hstatus
          exact hm a changes hthread ha status hstatus r hr
      · rw [hthread] at hworking
        cases hworking
  · exact h

/-- The runtime is as it was, or does not have the container any more. -/
theorem sound_contact {made : Option Made} {said : Changes} (h : Sound s)
    (hp : Possible (.contact made said) s) (hm : Heeded (.contact made said) s) :
    Sound (stepContact s made said) := by
  obtain ⟨a, before, hthread, hbefore, hanswers⟩ := hp
  unfold stepContact
  simp only [hthread]
  have hword : ∀ status, said.status = some status → status ≠ .paused :=
    fun _ hstatus => hanswers.said_ne_paused hstatus
  constructor
  · intro _ _ heq
    cases heq
  · intro hfrozen
    have hsame := hanswers.frozen hfrozen
    subst hsame
    exact h.frozen hfrozen
  · intro _ _ status heq hstatus
    cases heq
    exact ⟨hword status hstatus, .inl (hm status hstatus)⟩
  · cases hstatus : said.status with
    | some status => exact .inr (.inr ⟨a, said, rfl, .inl (by simp [hstatus])⟩)
    | none =>
      obtain rfl | rfl := hanswers.silent hstatus
      · obtain hexcused | hsettled | ⟨_, _, hworking, howed⟩ := h.row
        · exact .inl hexcused
        · exact .inr (.inl hsettled)
        · rw [hthread] at hworking
          cases hworking
          simp only [hbefore, Option.isSome_none, Bool.false_eq_true, false_or] at howed
          exact .inr (.inr ⟨a, said, rfl, .inr howed⟩)
      · exact .inr (.inr ⟨a, said, rfl, .inr rfl⟩)

theorem sound_saveOperation (h : Sound s) : Sound (stepSaveOperation s) := by
  unfold stepSaveOperation
  split
  next a said hthread =>
    refine ⟨?_, h.frozen, ?_, ?_⟩
    · intro _ _ heq
      cases heq
    · intro _ _ _ heq hstatus
      cases heq
      cases hstatus
    · cases hstatus : said.status with
      | some status =>
        obtain ⟨-, hfits | ⟨rfl, hfrozen, hthaws⟩⟩ := h.said a said status hthread hstatus
        · right
          left
          intro r' hr'
          obtain ⟨r, hr, rfl⟩ := Option.map_eq_some_iff.mp hr'
          simpa [Changes.save, hstatus] using hfits
        -- the commit has paused what the operation started, and will unpause it
        · left
          unfold Excused
          unfold thaws at hthaws
          split at hthaws
          next hphase =>
            simp only [hphase]
            exact hfrozen
          next hphase => simp only [hphase]
          next hphase => simp only [hphase]
          · cases hthaws
      | none =>
        obtain hexcused | hsettled | ⟨_, _, hworking, howed⟩ := h.row
        · exact .inl hexcused
        · right
          left
          intro r' hr'
          obtain ⟨r, hr, rfl⟩ := Option.map_eq_some_iff.mp hr'
          have hfits := hsettled r hr
          simpa [Changes.save, hstatus] using hfits
        · rw [hthread] at hworking
          cases hworking
          simp only [hstatus, Option.isSome_none, Bool.false_eq_true, false_or] at howed
          exact .inr (.inr ⟨a, {}, rfl, .inr howed⟩)
  · exact h

theorem sound_finish (h : Sound s) (hp : Possible .finish s) (hm : Heeded .finish s) :
    Sound (step .finish s) := by
  obtain ⟨a, said, hthread, hsaid⟩ := hp
  refine ⟨?_, h.frozen, ?_, ?_⟩
  · intro _ _ heq
    cases heq
  · intro _ _ _ heq
    cases heq
  obtain hexcused | hsettled | ⟨_, _, hworking, howed⟩ := h.row
  · exact .inl hexcused
  · exact .inr (.inl hsettled)
  · rw [hthread] at hworking
    cases hworking
    simp only [hsaid, Option.isSome_none, Bool.false_eq_true, false_or] at howed
    exact .inr (.inl (hm howed))

/-! ### Steps of the commit -/

/-- The commit goes on, and may save. -/
theorem Sound.goes {row : Option Row} {own : Bool} {phase : Phase} (h : Sound s)
    (hthaws : Frozen s → thaws s.phase = true → thaws phase = true)
    (hrow : Excused { s with row, own, phase } ∨ Settled { s with row, own, phase } ∨ Owed s) :
    Sound { s with row, own, phase } where
  marks := h.marks
  frozen hfrozen := (h.frozen hfrozen).imp_right (hthaws hfrozen)
  said a said status hthread hstatus := by
    obtain ⟨hne, hfits | ⟨hrunning, hfrozen, hphase⟩⟩ := h.said a said status hthread hstatus
    · exact ⟨hne, .inl hfits⟩
    · exact ⟨hne, .inr ⟨hrunning, hfrozen, hthaws hfrozen hphase⟩⟩
  row := hrow

/-- Where the commit has paused nothing, the record is right or will be. -/
theorem Sound.settled (h : Sound s) (hexcused : ¬ Excused s) : Settled s ∨ Owed s :=
  h.row.resolve_left hexcused

/-- A 404 does no harm where the record is gone, is saved again, or says so already. -/
theorem spared {phase : Phase} (h : Settled s ∨ Owed s)
    (hm : s.row = none ∨ Owed s ∨ s.row.map Row.status = some (gone s.autoRemove)) :
    Settled (saveCommit s (handleNotFound s.autoRemove) phase) ∨ Owed s := by
  obtain hnone | howed | hgone := hm
  · left
    intro r hr
    simp [saveCommit, hnone] at hr
  · exact .inr howed
  · apply h.imp_left
    intro hsettled r' hr'
    obtain ⟨r, hr, rfl⟩ := Option.map_eq_some_iff.mp hr'
    have hstatus : r.status = gone s.autoRemove := by simpa [hr] using hgone
    have hfits := hsettled r hr
    simp only [saveCommit, hr, Option.map_some, Changes.save, handleNotFound, Option.getD_some,
      hstatus, beq_self_eq_true, Bool.and_true]
    rwa [hstatus] at hfits

theorem sound_call {pause : Bool} (h : Sound s) (hp : Possible (.call pause) s) :
    Sound (stepCall s pause) := by
  have hidle : s.phase = .idle := hp.1
  have hsettled : Settled s ∨ Owed s := by
    apply h.settled
    simp [Excused, hidle]
  unfold stepCall
  split
  · apply h.goes
    · simp [hidle, thaws]
    · exact .inr hsettled
  · exact h

theorem sound_pause {outcome : Outcome} (h : Sound s) (hp : Possible (.pause outcome) s)
    (hm : Heeded (.pause outcome) s) : Sound (stepPause s outcome) := by
  unfold stepPause
  split
  next id hphase =>
    obtain ⟨i, rfl, hmade⟩ := hp id hphase
    have hpaused : Frozen (setRunState s .paused (.paused (some i))) := by
      simp [Frozen, setRunState, hmade]
    refine ⟨h.marks, fun _ => .inr rfl, ?_, .inl hpaused⟩
    intro a said status hthread hstatus
    obtain ⟨hne, hfits | ⟨-, hfrozen, -⟩⟩ := h.said a said status hthread hstatus
    · refine ⟨hne, ?_⟩
      cases status with
      | running => exact .inr ⟨rfl, hpaused, rfl⟩
      | created | stopped => simp [Fits, told, hmade] at hfits
      | paused => cases hne rfl
      | _ => exact .inl rfl
    · simp [Frozen, hmade] at hfrozen
  next id hphase =>
    have hsettled : Settled s ∨ Owed s := by
      apply h.settled
      simp [Excused, hphase]
    apply h.goes
    · simp [hphase, thaws]
    · exact .inr (spared hsettled hm)
  next id hphase =>
    apply h.goes
    · simp [hphase, thaws]
    · right
      apply h.settled
      simp [Excused, hphase]
  · exact h

theorem sound_savePaused {works : Bool} (h : Sound s) (hm : Heeded (.savePaused works) s) :
    Sound (stepSavePaused s works) := by
  unfold stepSavePaused
  split
  · exact h.goes (fun _ _ => rfl) (.inl trivial)
  next id hphase =>
    have hfrozen : ¬ Frozen s := hm
    apply h.goes
    · exact fun hpaused => absurd hpaused hfrozen
    · right
      apply h.settled
      simpa [Excused, hphase] using hfrozen
  · exact h

theorem sound_commit {outcome : Outcome} (h : Sound s) (hm : Heeded (.commit outcome) s) :
    Sound (stepCommit s outcome) := by
  unfold stepCommit
  split
  next id unpause hphase =>
    cases unpause with
    | true => exact h.goes (fun _ _ => rfl) (.inl trivial)
    | false =>
      apply h.goes
      · simp [hphase, thaws]
      · right
        apply spared
        · apply h.settled
          simp [Excused, hphase]
        · exact hm id hphase
  next id unpause hphase _ =>
    cases unpause with
    | true => exact h.goes (fun _ _ => rfl) (.inl trivial)
    | false =>
      apply h.goes
      · simp [hphase, thaws]
      · right
        apply h.settled
        simp [Excused, hphase]
  · exact h

theorem inv_unpause {outcome : Outcome} (h : Sound s) (hp : Possible (.unpause outcome) s) :
    Inv (stepUnpause s outcome) := by
  unfold stepUnpause
  split
  next id hphase =>
    right
    obtain ⟨i, rfl, hmade⟩ := hp id hphase
    have hruns : (setRunState s .running (.unpaused (some i))).made.map Made.state =
        some .running := by
      simp [setRunState, hmade]
    refine ⟨h.marks, ?_, ?_, .inl hruns⟩
    · intro hfrozen
      rw [Frozen, hruns] at hfrozen
      cases hfrozen
    · intro a said status hthread hstatus
      obtain ⟨hne, hfits | ⟨rfl, -, -⟩⟩ := h.said a said status hthread hstatus
      · refine ⟨hne, .inl ?_⟩
        cases status with
        | running => exact hruns
        | created | stopped => simp [Fits, told, hmade] at hfits
        | paused => cases hne rfl
        | _ => rfl
      · exact ⟨hne, .inl hruns⟩
  · exact .inl rfl
  · exact .inl rfl
  · exact .inr h

theorem sound_saveRunning {works : Bool} (h : Sound s) (hm : Heeded (.saveRunning works) s) :
    Sound (stepSaveRunning s works) := by
  unfold stepSaveRunning
  split
  next id hphase =>
    apply h.goes
    · simp [hphase, thaws]
    · obtain hruns | howed := hm
      · right
        left
        intro r' hr'
        obtain ⟨r, -, rfl⟩ := Option.map_eq_some_iff.mp hr'
        simpa [Changes.save, sets, Fits, told] using hruns
      · exact .inr (.inr howed)
  next id hphase =>
    apply h.goes
    · simp [hphase, thaws]
    · exact .inr hm
  · exact h

/-! ### Runs -/

/-- An unpause that has failed stays so. -/
theorem unpauseFailed_step (e : Event) (h : s.unpauseFailed = true) :
    (step e s).unpauseFailed = true := by
  cases e <;> simp only [step, stepAccept, stepLock, stepMark, stepContact, stepSaveOperation,
    stepCall, stepPause, stepSavePaused, stepCommit, stepUnpause, stepSaveRunning, saveCommit,
    setRunState] <;> (try split) <;> simp_all

theorem inv_step (e : Event) (h : Inv s) (hp : Possible e s) (hm : Heeded e s) :
    Inv (step e s) := by
  obtain hfailed | h := h
  · exact .inl (unpauseFailed_step e hfailed)
  cases e with
  | accept a => exact .inr (sound_accept h)
  | lock i => exact .inr (sound_lock h hp)
  | mark => exact .inr (sound_mark h hm)
  | contact made said => exact .inr (sound_contact h hp hm)
  | saveOperation => exact .inr (sound_saveOperation h)
  | destroy => exact .inr ⟨h.marks, h.frozen, h.said, .inr (.inl nofun)⟩
  | finish => exact .inr (sound_finish h hp hm)
  | call pause => exact .inr (sound_call h hp)
  | pause outcome => exact .inr (sound_pause h hp hm)
  | savePaused works => exact .inr (sound_savePaused h hm)
  | commit outcome => exact .inr (sound_commit h hm)
  | unpause outcome => exact inv_unpause h hp
  | saveRunning works => exact .inr (sound_saveRunning h hm)

theorem Inv.safe (h : Inv s) : Safe s := by
  obtain hfailed | h := h
  · constructor <;> intro hended <;> simp [hended.unpauseFailed] at hfailed
  constructor
  · intro hended hfrozen
    simpa [hended.phase, thaws] using h.frozen hfrozen
  · intro hended
    obtain hexcused | hsettled | ⟨a, said, hworking, -⟩ := h.row
    · simp [Excused, hended.phase] at hexcused
    · exact hsettled
    · rw [hended.thread] at hworking
      cases hworking

/-- Where neither party saves what does not hold any more, a commit leaves the container as it found
it. -/
theorem commit_safe (h : Reached Begun step (fun e s => Possible e s ∧ Heeded e s) s) :
    Safe s := by
  have hinv : Inv s := by
    apply h.invariant
    · exact fun s hs => inv_begun hs
    · exact fun e s he hs => inv_step e hs he.1 he.2
  exact hinv.safe

/-! ### A stop of a container that is being committed -/

def webRow : Row := { status := .running, containerId := some 0 }

/-- The record says that it runs, and it does. -/
def web : State := { row := some webRow, made := some ⟨0, .running⟩ }

theorem begun_web : Begun web := by
  refine ⟨rfl, rfl, rfl, ?_, rfl, rfl⟩
  intro r hr
  cases hr
  rfl

/-- A stop waits for the lock. -/
def asked : State := { web with queue := [(.stop, webRow)] }

/-- The commit is at its last save. -/
def unpaused : State :=
  { asked with
    row := some { webRow with status := .paused }
    phase := .unpaused (some 0)
    own := false }

theorem reached_unpaused :
    Reached Begun step (fun e s => Possible e s ∧ Heeded e s) unpaused := by
  have hbegun : Reached Begun step (fun e s => Possible e s ∧ Heeded e s) web := .init begun_web
  have hasked : Reached Begun step (fun e s => Possible e s ∧ Heeded e s) asked := by
    refine hbegun.step (Event.accept .stop) ⟨⟨by decide, ?_⟩, trivial⟩
    intro r hr
    cases hr
    decide
  have hpausing : Reached Begun step (fun e s => Possible e s ∧ Heeded e s)
      { asked with phase := .pausing (some 0) } := by
    refine hasked.step (Event.call true) ⟨⟨rfl, ?_⟩, trivial⟩
    intro r hr
    cases hr
    decide
  have hpaused : Reached Begun step (fun e s => Possible e s ∧ Heeded e s)
      { asked with made := some ⟨0, .paused⟩, phase := .paused (some 0) } := by
    refine hpausing.step (Event.pause .works) ⟨?_, trivial⟩
    intro id hid
    cases hid
    exact ⟨0, rfl, rfl⟩
  have hcommitting : Reached Begun step (fun e s => Possible e s ∧ Heeded e s)
      { unpaused with made := some ⟨0, .paused⟩, phase := .committing (some 0) true } :=
    hpaused.step (Event.savePaused true) ⟨fun _ => rfl, trivial⟩
  have hunpausing : Reached Begun step (fun e s => Possible e s ∧ Heeded e s)
      { unpaused with made := some ⟨0, .paused⟩, phase := .unpausing (some 0) } := by
    refine hcommitting.step (Event.commit .works) ⟨?_, trivial⟩
    intro id unpause hid
    cases hid
    exact ⟨.paused, 0, rfl, rfl⟩
  refine hunpausing.step (Event.unpause .works) ⟨?_, trivial⟩
  intro id hid
  cases hid
  exact ⟨0, rfl, rfl⟩

/-- The stop, once it has the lock. -/
def stop : List Event :=
  [.lock 0, .mark, .contact (some ⟨0, .stopped⟩) (sets .stopped), .saveOperation, .finish]

/-- The commit has ended before the stop gets the lock. -/
def committed : State := { asked with own := false }

theorem commit_safe_stop : Safe (steps step stop committed) := by
  have hcommitted : Reached Begun step (fun e s => Possible e s ∧ Heeded e s) committed :=
    reached_unpaused.step (Event.saveRunning true) ⟨fun _ => rfl, .inl rfl⟩
  refine commit_safe (hcommitted.steps ⟨⟨rfl, trivial⟩, ⟨trivial, ?_⟩,
    ⟨⟨.stop, {}, rfl, rfl, .stopped ⟨0, .running⟩⟩, ?_⟩, ⟨trivial, trivial⟩,
    ⟨⟨.stop, {}, rfl, rfl⟩, nofun⟩, trivial⟩)
  · intro a changes hthread _ status hstatus
    cases hthread
    cases hstatus
  · intro status hstatus
    cases hstatus
    rfl

theorem not_commit_safe : ¬ ∀ s, Reached Begun step Possible s → Safe s := by
  intro h
  have hunpaused : Reached Begun step Possible unpaused :=
    reached_unpaused.mono fun _ _ hok => hok.1
  -- the stop has the lock between the unpause and the save after it
  have hpossible : Allowed step Possible (stop ++ [.saveRunning true]) unpaused :=
    ⟨rfl, trivial, ⟨.stop, {}, rfl, rfl, .stopped ⟨0, .running⟩⟩, trivial,
      ⟨.stop, {}, rfl, rfl⟩, fun _ => rfl, trivial⟩
  have hsafe := h _ (hunpaused.steps hpossible)
  have hsettled := hsafe.settled ⟨rfl, rfl, rfl, rfl⟩ _ rfl
  cases hsettled

end Commit

end Zun
