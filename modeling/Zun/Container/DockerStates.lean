import Zun.Container.DockerSync

/-!
# Two readings of a container's state

`_populate_container_state` and `format_status_detail` of `zun/container/docker/driver.py`.  Docker describes a
container by flags and times when it is inspected, and by one word in a list.  A show goes by the one and the sync
by the other, through a tree of cases for each.

A case that one of the trees has and the other leaves out lets a container have two statuses, which a show and the
sync write in turn.
-/

namespace Zun

namespace DockerStates

open DockerSync

/-! ## What docker says -/

/-- A time of docker, as far as it is parsed: the seconds since the beginning of year 1, which stands for never. -/
abbrev Time := Option Nat

/-- `State` of an inspected container, with the flag that is in its `Status` alone. -/
structure State where
  running : Bool
  paused : Bool
  restarting : Bool
  removalInProgress : Bool
  dead : Bool
  error : String
  exitCode : Int
  startedAt : Time
  finishedAt : Time
  /-- `Status` of `Health`. -/
  health : Option String
  /-- A container that is paused or restarting is also running. -/
  paused_running : paused = true → running = true
  restarting_running : restarting = true → running = true

/-- `StateString` of docker: the `Status` of an inspected container, and its state in a list. -/
def State.word (state : State) : DockerState :=
  if state.running then
    if state.paused then .paused
    else if state.restarting then .restarting
    else .running
  else if state.removalInProgress then .removing
  else if state.dead then .dead
  else if state.startedAt = some 0 then .created
  else .exited

/-! ## What is recorded -/

structure Record where
  status : Status
  statusReason : Option String := none
  statusDetail : Option String := none
  exitCode : Option Int := none
  health : Option String := none
  taskState : Option TaskState := none
deriving DecidableEq

/-- `format_status_detail`.  Of what is no time there is no detail. -/
def formatStatusDetail (now : Int) : Time → Option String
  | none => none
  | some st =>
      if st = 0 then some ""
      else
        let delta := now - st
        let days := delta / 86400
        let seconds := delta % 86400
        if days ≠ 0 then some (toString days ++ " days")
        else if seconds / 3600 ≠ 0 then some (toString (seconds / 3600) ++ " hours")
        else if seconds % 3600 / 60 ≠ 0 then some (toString (seconds % 3600 / 60) ++ " mins")
        else if seconds ≠ 0 then some (toString seconds ++ " seconds")
        else none

/-- A detail as it is put into a text. -/
def shown (detail : Option String) : String := detail.getD "None"

/-- `capitalize` of a word that is one of the statuses. -/
def capitalized : DockerState → Option Status
  | .created => some .created
  | .running => some .running
  | .paused => some .paused
  | .restarting => some .restarting
  | .dead => some .dead
  | .removing | .exited | .other _ => none

/-- The statuses of a container that was never started and that is left as it is. -/
def unstarted : List Status := [.created, .restarting, .error, .rebuilding]

/-- The branches of `_populate_container_state` for a dictionary, with the detail that each looks at last. -/
def inspected (now : Int) (state : State) (r : Record) : Record × Option String :=
  let startedAt := formatStatusDetail now state.startedAt
  let finishedAt := formatStatusDetail now state.finishedAt
  if state.error ≠ "" then
    let status :=
      if state.word ∈ [DockerState.exited, .removing] then .stopped
      else (capitalized state.word).getD r.status
    ({ r with
       status
       statusDetail := some ("Exited(" ++ toString state.exitCode ++ ") " ++ shown finishedAt ++ " ago (error)") },
      finishedAt)
  else if state.paused then
    ({ r with status := .paused, statusDetail := some ("Up " ++ shown startedAt ++ " (paused)") }, startedAt)
  else if state.restarting then
    ({ r with status := .restarting, statusDetail := some "Restarting" }, some "")
  else if state.running then
    ({ r with status := .running, statusDetail := some ("Up " ++ shown startedAt) }, startedAt)
  else if state.dead then
    ({ r with status := .dead, statusDetail := some "Dead" }, some "")
  else if startedAt = some "" ∧ r.status = .creating then
    ({ r with status := .created, statusDetail := some "Created" }, some "")
  else if startedAt = some "" ∧ r.status ∈ unstarted then
    (r, some "")
  else if startedAt ≠ some "" ∧ finishedAt = some "" then
    ({ r with status := .unknown, statusReason := some "unexpected container state", statusDetail := some "" },
      some "")
  else if startedAt ≠ some "" ∧ finishedAt ≠ some "" then
    ({ r with
       status := .stopped
       statusDetail := some ("Exited(" ++ toString state.exitCode ++ ") " ++ shown finishedAt ++ " ago ") },
      some "")
  else (r, some "")

/-- What is recorded whatever the container went on to become. -/
def noteExit (state : State) (r : Record) : Record :=
  { r with health := state.health, exitCode := if state.running then r.exitCode else some state.exitCode }

/-- A detail that is none leaves none on the record. -/
def dropDetail : Record × Option String → Record
  | (r, none) => { r with statusDetail := none }
  | (r, some _) => r

/-- `_populate_container_state` of an inspected state. -/
def populateInspected (now : Int) (state : State) (r : Record) : Record :=
  if r.taskState.isSome then r else dropDetail (inspected now state (noteExit state r))

/-- `_populate_container_state` of a state as docker lists it. -/
def populateListed (word : DockerState) (r : Record) : Record :=
  if r.taskState.isSome then r
  else
    let r : Record :=
      match word with
      | .created =>
          if r.status = .creating then { r with status := .created }
          else if r.status ∈ unstarted then r
          else { r with status := .unknown, statusReason := some "unexpected container state" }
      | .paused => { r with status := .paused }
      | .running => { r with status := .running }
      | .dead => { r with status := .dead }
      | .restarting => { r with status := .restarting }
      | .exited | .removing => { r with status := .stopped }
      | .other _ => { r with status := .unknown, statusReason := some "unexpected container state" }
    { r with statusDetail := none }

/-! ## Where the readings part -/

variable {now : Int} {state : State} {r : Record} {word : DockerState}

/-- Only the time that stands for never has an empty detail. -/
theorem formatStatusDetail_eq_empty_iff {t : Time} : formatStatusDetail now t = some "" ↔ t = some 0 := by
  have hunit : ∀ (n : Int) (s : String), s ≠ "" → some (toString n ++ s) ≠ some "" := by
    intro n s hs h
    have hlist := congrArg String.toList (Option.some.inj h)
    rw [String.toList_append] at hlist
    exact hs (String.toList_inj.mp (List.append_eq_nil_iff.mp hlist).2)
  cases t with
  | none => exact iff_of_false (Option.some_ne_none _).symm (Option.some_ne_none _).symm
  | some st =>
      rw [formatStatusDetail]
      by_cases hst : st = 0
      · rw [if_pos hst, hst]
        exact iff_of_true rfl rfl
      · rw [if_neg hst]
        refine iff_of_false ?_ fun h => hst (Option.some.inj h)
        dsimp only
        split
        · exact hunit _ " days" (by decide)
        split
        · exact hunit _ " hours" (by decide)
        split
        · exact hunit _ " mins" (by decide)
        split
        · exact hunit _ " seconds" (by decide)
        · exact (Option.some_ne_none _).symm

/-- The status that a list leaves. -/
theorem status_listed (h : r.taskState = none) : (populateListed word r).status =
    match word with
    | .created => if r.status = .creating then .created else if r.status ∈ unstarted then r.status else .unknown
    | .paused => .paused
    | .running => .running
    | .dead => .dead
    | .restarting => .restarting
    | .exited | .removing => .stopped
    | .other _ => .unknown := by
  simp only [populateListed, h, Option.isSome_none, Bool.false_eq_true, if_false]
  cases word with
  | created =>
      dsimp only
      split
      · rfl
      · split
        · rfl
        · rfl
  | _ => rfl

/-- The status that the branches for a dictionary leave. -/
theorem status_inspected (now : Int) (state : State) (r : Record) : (inspected now state r).1.status =
    if state.error ≠ "" then
      if state.word ∈ [DockerState.exited, .removing] then .stopped else (capitalized state.word).getD r.status
    else if state.paused then .paused
    else if state.restarting then .restarting
    else if state.running then .running
    else if state.dead then .dead
    else if state.startedAt = some 0 then if r.status = .creating then .created else r.status
    else if state.finishedAt = some 0 then .unknown
    else .stopped := by
  simp only [inspected, formatStatusDetail_eq_empty_iff, ne_eq]
  repeat' split
  all_goals first | rfl | simp_all

theorem dropDetail_status (p : Record × Option String) : (dropDetail p).status = p.1.status := by
  obtain ⟨r, detail⟩ := p
  cases detail with
  | none => rfl
  | some _ => rfl

/-- The status that an inspection leaves. -/
theorem status_populateInspected (h : r.taskState = none) :
    (populateInspected now state r).status = (inspected now state r).1.status := by
  have hnone : ¬ r.taskState.isSome = true := by rw [h]; decide
  rw [populateInspected, if_neg hnone, dropDetail_status, status_inspected, status_inspected]
  rfl

/-- The readings agree, and neither moves the record again. -/
structure Agree (now : Int) (state : State) (r : Record) : Prop where
  same : (populateInspected now state r).status = (populateListed state.word r).status
  stays : ∀ (later : Int) (r' : Record), r'.taskState = none → r'.status = (populateListed state.word r).status →
    (populateInspected later state r').status = r'.status ∧ (populateListed state.word r').status = r'.status

/-- The states that the two trees tell apart in different ways: one that was never started, one that is being
removed, and one that has stopped at no time. -/
inductive Differ (state : State) (status : Status) : Prop where
  | createdError : state.word = .created → state.error ≠ "" → status ≠ .creating → status ≠ .created →
      Differ state status
  | created : state.word = .created → state.error = "" → status ≠ .creating → status ≠ .unknown →
      status ∉ unstarted → Differ state status
  | removingDead : state.word = .removing → state.error = "" → state.dead = true → Differ state status
  | removingUnstarted : state.word = .removing → state.error = "" → state.startedAt = some 0 →
      status ≠ .stopped → Differ state status
  | unfinished : state.word = .removing ∨ state.word = .exited → state.error = "" → state.startedAt ≠ some 0 →
      state.finishedAt = some 0 → Differ state status

/-- What docker says of a container in one word, and what its flags are. -/
theorem word_cases (state : State) :
    (state.word = .paused ∧ state.paused = true) ∨
      (state.word = .restarting ∧ state.paused = false ∧ state.restarting = true) ∨
      (state.word = .running ∧ state.paused = false ∧ state.restarting = false ∧ state.running = true) ∨
      ((state.paused = false ∧ state.restarting = false ∧ state.running = false) ∧
        (state.word = .removing ∨
          state.word = .dead ∧ state.dead = true ∨
          state.word = .created ∧ state.dead = false ∧ state.startedAt = some 0 ∨
          state.word = .exited ∧ state.dead = false ∧ state.startedAt ≠ some 0)) := by
  have hflag : ∀ {flag : Bool}, (flag = true → state.running = true) → state.running = false → flag = false :=
    fun himp hrun => Bool.eq_false_iff.mpr fun hflag => Bool.false_ne_true (hrun.symm.trans (himp hflag))
  cases hrun : state.running with
  | true =>
      cases hpaused : state.paused with
      | true => exact .inl ⟨by simp [State.word, hrun, hpaused], rfl⟩
      | false =>
          cases hrestarting : state.restarting with
          | true => exact .inr (.inl ⟨by simp [State.word, hrun, hpaused, hrestarting], rfl, rfl⟩)
          | false => exact .inr (.inr (.inl ⟨by simp [State.word, hrun, hpaused, hrestarting], rfl, rfl, rfl⟩))
  | false =>
      refine .inr (.inr (.inr ⟨⟨hflag state.paused_running hrun, hflag state.restarting_running hrun, rfl⟩, ?_⟩))
      cases hremoval : state.removalInProgress with
      | true => exact .inl (by simp [State.word, hrun, hremoval])
      | false =>
          cases hdead : state.dead with
          | true => exact .inr (.inl ⟨by simp [State.word, hrun, hremoval, hdead], rfl⟩)
          | false =>
              by_cases hstarted : state.startedAt = some 0
              · exact .inr (.inr (.inl ⟨by simp [State.word, hrun, hremoval, hdead, hstarted], rfl, hstarted⟩))
              · exact .inr (.inr (.inr ⟨by simp [State.word, hrun, hremoval, hdead, hstarted], rfl, hstarted⟩))

/-- No tree differs about a container that runs, or that docker calls dead. -/
theorem Differ.word_of {status : Status} (h : Differ state status) :
    state.word = .created ∨ state.word = .removing ∨ state.word = .exited := by
  cases h with
  | createdError hword => exact .inl hword
  | created hword => exact .inl hword
  | removingDead hword => exact .inr (.inl hword)
  | removingUnstarted hword => exact .inr (.inl hword)
  | unfinished hword => exact .inr hword

theorem differ_created_iff {status : Status} (hword : state.word = .created) : Differ state status ↔
    if state.error = "" then status ≠ .creating ∧ status ≠ .unknown ∧ status ∉ unstarted
    else status ≠ .creating ∧ status ≠ .created := by
  constructor
  · intro h
    cases h with
    | createdError _ herror hcreating hcreated => simp [herror, hcreating, hcreated]
    | created _ herror hcreating hunknown hunstarted => simp [herror, hcreating, hunknown, hunstarted]
    | removingDead h => simp [hword] at h
    | removingUnstarted h => simp [hword] at h
    | unfinished h => simp [hword] at h
  · intro h
    split at h
    · next herror => exact .created hword herror h.1 h.2.1 h.2.2
    · next herror => exact .createdError hword herror h.1 h.2

theorem differ_removing_iff {status : Status} (hword : state.word = .removing) : Differ state status ↔
    state.error = "" ∧ (state.dead = true ∨
      if state.startedAt = some 0 then status ≠ .stopped else state.finishedAt = some 0) := by
  constructor
  · intro h
    cases h with
    | createdError h => simp [hword] at h
    | created h => simp [hword] at h
    | removingDead _ herror hdead => exact ⟨herror, .inl hdead⟩
    | removingUnstarted _ herror hstarted hstatus => exact ⟨herror, .inr (by simpa [hstarted] using hstatus)⟩
    | unfinished _ herror hstarted hfinished => exact ⟨herror, .inr (by simpa [hstarted] using hfinished)⟩
  · rintro ⟨herror, hdead | h⟩
    · exact .removingDead hword herror hdead
    · split at h
      · next hstarted => exact .removingUnstarted hword herror hstarted h
      · next hstarted => exact .unfinished (.inl hword) herror hstarted h

theorem differ_exited_iff {status : Status} (hword : state.word = .exited) : Differ state status ↔
    state.error = "" ∧ state.startedAt ≠ some 0 ∧ state.finishedAt = some 0 := by
  constructor
  · intro h
    cases h with
    | createdError h => simp [hword] at h
    | created h => simp [hword] at h
    | removingDead h => simp [hword] at h
    | removingUnstarted h => simp [hword] at h
    | unfinished _ herror hstarted hfinished => exact ⟨herror, hstarted, hfinished⟩
  · rintro ⟨herror, hstarted, hfinished⟩
    exact .unfinished (.inr hword) herror hstarted hfinished

/-- The two readings are of one status but for the states that the trees tell apart in different ways. -/
theorem same_iff (now : Int) (h : r.taskState = none) :
    (populateInspected now state r).status = (populateListed state.word r).status ↔ ¬ Differ state r.status := by
  rw [status_populateInspected h, status_inspected, status_listed h]
  rcases word_cases state with ⟨hword, hpaused⟩ | ⟨hword, hpaused, hrestarting⟩ |
    ⟨hword, hpaused, hrestarting, hrunning⟩ | ⟨⟨hpaused, hrestarting, hrunning⟩, hrest⟩
  · refine iff_of_true ?_ fun hdiffer => by simpa [hword] using hdiffer.word_of
    simp [hword, hpaused, capitalized]
  · refine iff_of_true ?_ fun hdiffer => by simpa [hword] using hdiffer.word_of
    simp [hword, hpaused, hrestarting, capitalized]
  · refine iff_of_true ?_ fun hdiffer => by simpa [hword] using hdiffer.word_of
    simp [hword, hpaused, hrestarting, hrunning, capitalized]
  rcases hrest with hword | ⟨hword, hdead⟩ | ⟨hword, hdead, hstarted⟩ | ⟨hword, hdead, hstarted⟩
  · rw [differ_removing_iff hword]
    simp only [hword, hpaused, hrestarting, hrunning]
    by_cases herror : state.error = ""
    · cases hdead : state.dead with
      | true => simp [herror]
      | false =>
          by_cases hstarted : state.startedAt = some 0
          · cases hstatus : r.status <;> simp [herror, hstarted]
          · by_cases hfinished : state.finishedAt = some 0
            · simp [herror, hstarted, hfinished]
            · simp [herror, hstarted, hfinished]
    · simp [herror]
  · refine iff_of_true ?_ fun hdiffer => by simpa [hword] using hdiffer.word_of
    simp [hword, hpaused, hrestarting, hrunning, hdead, capitalized]
  · rw [differ_created_iff hword]
    simp only [hword, hpaused, hrestarting, hrunning, hdead, hstarted, capitalized]
    by_cases herror : state.error = ""
    · cases hstatus : r.status <;> simp [herror, unstarted]
    · cases hstatus : r.status <;> simp [herror, unstarted]
  · rw [differ_exited_iff hword]
    simp only [hword, hpaused, hrestarting, hrunning, hdead]
    by_cases herror : state.error = ""
    · by_cases hfinished : state.finishedAt = some 0
      · simp [herror, hstarted, hfinished]
      · simp [herror, hstarted, hfinished]
    · simp [herror]

/-- A list reads the same again. -/
theorem listed_again {r' : Record} (h : r.taskState = none) (h' : r'.taskState = none)
    (hstatus : r'.status = (populateListed word r).status) : (populateListed word r').status = r'.status := by
  rw [status_listed h] at hstatus
  rw [status_listed h', hstatus]
  cases word with
  | created => cases r.status <;> simp [unstarted]
  | _ => rfl

/-- The trees do not differ about what a list has read, if they did not before. -/
theorem Differ.before (h : r.taskState = none) (hdiffer : Differ state (populateListed state.word r).status) :
    Differ state r.status := by
  rw [status_listed h] at hdiffer
  rcases hdiffer.word_of with hword | hword | hword
  · rw [differ_created_iff hword] at hdiffer ⊢
    rw [hword] at hdiffer
    by_cases herror : state.error = ""
    · cases hstatus : r.status <;> simp_all [unstarted]
    · cases hstatus : r.status <;> simp_all [unstarted]
  · rw [differ_removing_iff hword] at hdiffer ⊢
    rw [hword] at hdiffer
    obtain ⟨herror, hdead | hdiffer⟩ := hdiffer
    · exact ⟨herror, .inl hdead⟩
    · refine ⟨herror, .inr ?_⟩
      by_cases hstarted : state.startedAt = some 0
      · simp [hstarted] at hdiffer
      · simpa [hstarted] using hdiffer
  · rw [differ_exited_iff hword] at hdiffer ⊢
    exact hdiffer

/-- The two readings agree but for the states that the trees tell apart in different ways. -/
theorem agree_iff (now : Int) (state : State) (r : Record) (h : r.taskState = none) :
    Agree now state r ↔ ¬ Differ state r.status := by
  rw [← same_iff now h]
  refine ⟨Agree.same, fun hsame => ⟨hsame, fun later r' h' hstatus => ?_⟩⟩
  have hlisted := listed_again h h' hstatus
  refine ⟨?_, hlisted⟩
  have hagain : ¬ Differ state r'.status := by
    rw [hstatus]
    exact fun hdiffer => (same_iff now h).mp hsame (hdiffer.before h)
  rw [(same_iff later h').mpr hagain, hlisted]

/-- A container that runs. -/
def runningState : State where
  running := true
  paused := false
  restarting := false
  removalInProgress := false
  dead := false
  error := ""
  exitCode := 0
  startedAt := some 63871234567
  finishedAt := some 0
  health := none
  paused_running := by decide
  restarting_running := by decide

theorem agree_running : Agree 63871235000 runningState { status := .stopped } :=
  (agree_iff _ _ _ rfl).mpr fun h => by rcases h.word_of with h | h | h <;> cases h

/-- A container that was made and could not be started. -/
def unstartedState : State where
  running := false
  paused := false
  restarting := false
  removalInProgress := false
  dead := false
  error := "OCI runtime create failed"
  exitCode := 128
  startedAt := some 0
  finishedAt := some 0
  health := none
  paused_running := by decide
  restarting_running := by decide

/-- A show makes a container of it that is created, and a list leaves it in Error. -/
theorem not_agree : ¬ ∀ (now : Int) (state : State) (r : Record), r.taskState = none → Agree now state r := by
  intro h
  have hsame := (h 0 unstartedState { status := .error } rfl).same
  exact absurd hsame (by decide)

end DockerStates

end Zun
