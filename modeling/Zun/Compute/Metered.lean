import Zun.Compute.Metering

/-!
# What is metered is what is held

A record whose allocation has been given back is metered as holding nothing as long as nothing of it has
been started, and its status says that it is being created, that it failed, or that it is going.  Two
handlers give an allocation back, and neither looks.  `Sound` is what a call has to find for the meter to
be right afterwards; it is about the state before the call and about whether the call succeeds.

`Live` is how an operation goes on, `Safe` is how it fails, and `Resting` is how it is left.
-/

namespace Zun

open Effect Prog

namespace Metering

variable {env : Env} {s : State}

/-! ## The property -/

def State.held (s : State) (r : Record) : Option Sizes :=
  Metering.held s.capsule r (s.members.map (·.row))

/-- The container has been started, or a member of the capsule. -/
def State.Started (s : State) (r : Record) : Prop :=
  r.startedAt ≠ none ∨ s.capsule = true ∧ ∃ m ∈ s.members, m.row.startedAt ≠ none

/-- What is metered is what is held. -/
structure Metered (s : State) : Prop where
  released : s.allocation = false → ∀ r ∈ s.row, s.held r = none
  kept : s.allocation = true → ∀ r ∈ s.row, s.Started r → s.held r ≠ none

/-! ## What a call has to find -/

/-- Nothing of the record has been started. -/
structure Unstarted (s : State) : Prop where
  row : ∀ r ∈ s.row, r.startedAt = none
  obj : s.obj.startedAt = none
  members : ∀ m ∈ s.members, m.row.startedAt = none ∧ m.obj.startedAt = none

/-- The statuses that do not say that something is held. -/
def Down (v : Status) : Prop := v ∈ [Status.creating, .error, .deleting, .deleted]

def RowDown (s : State) : Prop := ∀ r ∈ s.row, Down r.status

instance : DecidablePred Unstarted := fun s =>
  decidable_of_iff ((∀ r ∈ s.row, r.startedAt = none) ∧ s.obj.startedAt = none ∧
    ∀ m ∈ s.members, m.row.startedAt = none ∧ m.obj.startedAt = none)
    ⟨fun h => ⟨h.1, h.2.1, h.2.2⟩, fun h => ⟨h.row, h.obj, h.members⟩⟩

instance : DecidablePred Down := fun v =>
  inferInstanceAs (Decidable (v ∈ [Status.creating, .error, .deleting, .deleted]))

instance : DecidablePred RowDown := fun s => inferInstanceAs (Decidable (∀ r ∈ s.row, Down r.status))

/-- A call by which the meter does not go wrong. -/
def Sound (e : Entry State Call Failure) : Prop :=
  match e.call, e.answer with
  | .release .failed, none => Unstarted e.before
  | .release .created, none => Unstarted e.before ∧ RowDown e.before
  | .save, none => e.before.obj.status = .deleted → e.before.allocation = true → Unstarted e.before
  | .save, some _ | .destroy, some _ => e.before.allocation = true ∨ Unstarted e.before ∧ RowDown e.before
  | _, _ => True

instance : DecidablePred Sound := fun e => by
  unfold Sound
  split <;> infer_instance

/-! ## How an operation goes on, fails, and is left -/

/-- An operation that goes on has its allocation. -/
structure Live (s : State) : Prop where
  allocation : s.allocation = true
  obj : s.obj.status ≠ .deleted
  row : ∀ r ∈ s.row, r.status ≠ .deleted

/-- An operation that fails.  Whatever it writes next, the meter is right. -/
structure Safe (s : State) : Prop where
  released : s.allocation = false → Unstarted s ∧ RowDown s ∧ Down s.obj.status
  kept : s.allocation = true → (∃ r ∈ s.row, r.status = .deleted) → Unstarted s

/-- The allocation may be gone, and the record does not say so yet. -/
structure Doubtful (s : State) : Prop where
  released : s.allocation = false → Unstarted s
  kept : s.allocation = true → (∃ r ∈ s.row, r.status = .deleted) → Unstarted s

/-- No row has a start. -/
def RowsUnstarted (s : State) : Prop :=
  (∀ r ∈ s.row, r.startedAt = none) ∧ ∀ m ∈ s.members, m.row.startedAt = none

/-- What is left when no operation is under way: a matter of the rows. -/
structure Resting (s : State) : Prop where
  released : s.allocation = false → s.row ≠ none → RowsUnstarted s ∧ RowDown s
  kept : s.allocation = true → (∃ r ∈ s.row, r.status = .deleted) → RowsUnstarted s

theorem Unstarted.rows (h : Unstarted s) : RowsUnstarted s := ⟨h.row, fun m hm => (h.members m hm).1⟩

theorem Live.safe (h : Live s) : Safe s where
  released ha := by rw [h.allocation] at ha; cases ha
  kept _ hr := by
    obtain ⟨r, hr, hdeleted⟩ := hr
    exact absurd hdeleted (h.row r hr)

theorem Safe.doubtful (h : Safe s) : Doubtful s := ⟨fun ha => (h.released ha).1, h.kept⟩

theorem Safe.resting (h : Safe s) : Resting s where
  released ha _ := ⟨(h.released ha).1.rows, (h.released ha).2.1⟩
  kept ha hr := (h.kept ha hr).rows

theorem Live.resting (h : Live s) : Resting s := h.safe.resting

theorem RowsUnstarted.not_started (h : RowsUnstarted s) {r : Record} (hr : r ∈ s.row) : ¬ s.Started r := by
  rintro (hs | ⟨-, m, hm, hs⟩)
  · exact hs (h.1 r hr)
  · exact hs (h.2 m hm)

/-- Between operations the meter is right. -/
theorem Resting.metered (h : Resting s) : Metered s where
  released ha r hr := by
    have hrow : s.row ≠ none := by
      rw [Option.mem_def] at hr
      simp [hr]
    obtain ⟨hunstarted, hdown⟩ := h.released ha hrow
    have hnone : (r :: if s.capsule then s.members.map (·.row) else []).any (·.startedAt.isSome) = false := by
      rw [List.any_eq_false]
      intro x hx
      rw [List.mem_cons] at hx
      obtain rfl | hx := hx
      · simp [hunstarted.1 x hr]
      · cases hc : s.capsule with
        | false => simp [hc] at hx
        | true =>
            simp only [hc, if_true, List.mem_map] at hx
            obtain ⟨m, hm, rfl⟩ := hx
            simp [hunstarted.2 m hm]
    have hcounts : allocationCounts s.capsule r (s.members.map (·.row)) = false := by
      unfold allocationCounts
      split
      · rfl
      · rename_i hdeleted
        have hlisted : r.status ∈ [Status.creating, .error, .deleting] := by
          have hr := hdown r hr
          simp only [Down, List.mem_cons, List.not_mem_nil, or_false] at hr ⊢
          tauto
        rw [if_neg (not_not_intro hlisted)]
        exact hnone
    simp [State.held, Metering.held, hcounts]
  kept ha r hr hstarted := by
    have hdeleted : r.status ≠ .deleted := fun hd => (h.kept ha ⟨r, hr, hd⟩).not_started hr hstarted
    have hany : (r :: if s.capsule then s.members.map (·.row) else []).any (·.startedAt.isSome) = true := by
      rw [List.any_eq_true]
      obtain hs | ⟨hcapsule, m, hm, hs⟩ := hstarted
      · exact ⟨r, List.mem_cons_self .., by simp [Option.isSome_iff_ne_none, hs]⟩
      · refine ⟨m.row, List.mem_cons_of_mem _ ?_, by simp [Option.isSome_iff_ne_none, hs]⟩
        rw [if_pos hcapsule]
        exact List.mem_map_of_mem hm
    have hcounts : allocationCounts s.capsule r (s.members.map (·.row)) = true := by
      unfold allocationCounts
      rw [if_neg hdeleted]
      split
      · rfl
      · exact hany
    simp [State.held, Metering.held, hcounts]
/-! ## What the operations write -/

theorem forall_mem_modify {α : Type} {P : α → Prop} {f : α → α} (hf : ∀ a, P a → P (f a)) :
    ∀ {l : List α} (i : Nat), (∀ a ∈ l, P a) → ∀ a ∈ l.modify i f, P a := by
  intro l
  induction l with
  | nil => intro i _ a ha; simp at ha
  | cons b l ih =>
      intro i hl
      obtain ⟨hb, hl⟩ := List.forall_mem_cons.mp hl
      cases i with
      | zero => exact List.forall_mem_cons.mpr ⟨hf b hb, hl⟩
      | succ i => exact List.forall_mem_cons.mpr ⟨hb, ih i hl⟩

/-- An assignment that starts nothing. -/
def Startless (f : Record → Record) : Prop := ∀ r, (f r).startedAt = r.startedAt

theorem Unstarted.assign (h : Unstarted s) {f : Record → Record} (hf : Startless f) :
    Unstarted { s with obj := f s.obj } where
  row := h.row
  obj := by rw [hf]; exact h.obj
  members := h.members

theorem Unstarted.assignMember (h : Unstarted s) {f : Record → Record} (hf : Startless f) (i : Nat) :
    Unstarted (s.setMember i fun m => { m with obj := f m.obj }) where
  row := h.row
  obj := h.obj
  members := by
    refine forall_mem_modify (fun m hm => ⟨hm.1, ?_⟩) i h.members
    rw [hf]
    exact hm.2

theorem Unstarted.saved (h : Unstarted s) : Unstarted { s with row := some s.obj } where
  row r hr := by
    cases hr
    exact h.obj
  obj := h.obj
  members := h.members

theorem Unstarted.savedMember (h : Unstarted s) (i : Nat) :
    Unstarted (s.setMember i fun m => { m with row := m.obj }) where
  row := h.row
  obj := h.obj
  members := forall_mem_modify (fun _ hm => ⟨hm.2, hm.2⟩) i h.members

theorem Safe.assign (h : Safe s) {f : Record → Record} (hf : Startless f)
    (hstatus : Down (f s.obj).status ∨ (f s.obj).status = s.obj.status) :
    Safe { s with obj := f s.obj } where
  released ha := by
    obtain ⟨hunstarted, hrow, hobj⟩ := h.released ha
    refine ⟨hunstarted.assign hf, hrow, ?_⟩
    obtain hstatus | hstatus := hstatus
    · exact hstatus
    · show Down (f s.obj).status
      rw [hstatus]
      exact hobj
  kept ha hr := (h.kept ha hr).assign hf

theorem Safe.assignMember (h : Safe s) {f : Record → Record} (hf : Startless f) (i : Nat) :
    Safe (s.setMember i fun m => { m with obj := f m.obj }) where
  released ha := ⟨(h.released ha).1.assignMember hf i, (h.released ha).2⟩
  kept ha hr := (h.kept ha hr).assignMember hf i

theorem Safe.savedMember (h : Safe s) (i : Nat) :
    Safe (s.setMember i fun m => { m with row := m.obj }) where
  released ha := ⟨(h.released ha).1.savedMember i, (h.released ha).2⟩
  kept ha hr := (h.kept ha hr).savedMember i

/-- The next save makes up for the doubt. -/
theorem Doubtful.saved (h : Doubtful s) (hobj : s.allocation = false → Down s.obj.status)
    (hok : s.obj.status = .deleted → s.allocation = true → Unstarted s) :
    Safe { s with row := some s.obj } where
  released ha := by
    refine ⟨(h.released ha).saved, ?_, hobj ha⟩
    rintro r hr
    cases hr
    exact hobj ha
  kept ha hr := by
    obtain ⟨r, hr, hdeleted⟩ := hr
    cases hr
    exact (hok hdeleted ha).saved

/-- A save that is refused leaves a row that is right already. -/
theorem Doubtful.unsaved (h : Doubtful s) (hobj : s.allocation = false → Down s.obj.status)
    (hok : s.allocation = true ∨ Unstarted s ∧ RowDown s) : Safe s where
  released ha := by
    obtain ht | ⟨hunstarted, hrow⟩ := hok
    · rw [ha] at ht
      cases ht
    · exact ⟨hunstarted, hrow, hobj ha⟩
  kept := h.kept

theorem Live.assign (h : Live s) {f : Record → Record} (hf : (f s.obj).status ≠ .deleted) :
    Live { s with obj := f s.obj } := ⟨h.allocation, hf, h.row⟩

theorem Live.saved (h : Live s) : Live { s with row := some s.obj } where
  allocation := h.allocation
  obj := h.obj
  row r hr := by
    cases hr
    exact h.obj

/-! ## Rules -/

/-- From `I`, an operation returns in `J` or fails. -/
abbrev Leads (I J : State → Prop) {α : Type} (p : Op α) : Prop :=
  Traced Sound Resting I (fun _ => J) (fun _ => Safe) p

abbrev Keeps (I : State → Prop) {α : Type} (p : Op α) : Prop := Leads I I p

/-- What an operation that only saves and takes the record keeps. -/
structure Steady (I : State → Prop) : Prop where
  safe : ∀ s, I s → Safe s
  task : ∀ s (t : Option TaskState), I s → I { s with obj := { s.obj with taskState := t } }
  member : ∀ s i f, Startless f → I s → I (s.setMember i fun m => { m with obj := f m.obj })
  memberSaved : ∀ env i, Keeps I (saveMember env i)
  saved : ∀ env, Keeps I (save env)

theorem traced_call {I E : State → Prop} (hI : ∀ s, I s → E s) (c : Call) :
    Traced Sound Resting I (fun _ => I) (fun _ => E) (call env c) :=
  traced_consult (fun _ h _ => h) fun _ s h _ => hI s h

theorem traced_save {I J E : State → Prop} (hI : ∀ s, I s → s.row = none → E s)
    (hok : ∀ s, I s → Sound ⟨.save, none, s⟩ → J { s with row := some s.obj })
    (hrefused : ∀ s e, I s → Sound ⟨.save, some e, s⟩ → E s) :
    Traced Sound Resting I (fun _ => J) (fun _ => E) (save env) := by
  refine traced_look fun row => traced_ite (fun hrow => ?_) fun _ => ?_
  · refine traced_raise fun s hs => hI s hs.1 ?_
    rw [hs.2]
    exact Option.isNone_iff_eq_none.mp hrow
  · exact traced_consult (fun s hs => hok s hs.1) fun e s hs => hrefused s e hs.1

theorem steady_safe : Steady Safe where
  safe _ h := h
  task _ _ h := h.assign (f := fun r => { r with taskState := _ }) (fun _ => rfl) (.inr rfl)
  member _ i _ hf h := h.assignMember hf i
  memberSaved _ i := traced_consult (fun _ h _ => h.savedMember i) fun _ _ h _ => h
  saved _ := traced_save (fun _ h _ => h)
    (fun _ h hok => h.doubtful.saved (fun ha => (h.released ha).2.2) hok) fun _ _ h _ => h

/-- An operation that goes on whatever of it fails. -/
abbrev Firm {α : Type} (p : Op α) : Prop :=
  Traced Sound Resting Live (fun _ => Live) (fun _ => Live) p

theorem live_of_firm {α : Type} {p : Op α} (h : Firm p) : Keeps Live p := Traced.raises h fun _ _ => Live.safe

theorem firm_call (c : Call) : Firm (call env c) := traced_call (fun _ h => h) c

theorem firm_save : Firm (save env) :=
  traced_save (fun _ h _ => h) (fun _ h _ => h.saved) fun _ _ h _ => h

theorem firm_saveMember (i : Nat) : Firm (saveMember env i) :=
  traced_consult (fun _ h _ => ⟨h.allocation, h.obj, h.row⟩) fun _ _ h _ => h

theorem steady_live : Steady Live where
  safe _ h := h.safe
  task _ _ h := ⟨h.allocation, h.obj, h.row⟩
  member _ _ _ _ h := ⟨h.allocation, h.obj, h.row⟩
  memberSaved _ i := live_of_firm (firm_saveMember i)
  saved _ := live_of_firm firm_save

/-- An operation that keeps `I` keeps it with the record taken. -/
theorem Steady.updateTaskState {I : State → Prop} (hI : Steady I) {body : Op Unit}
    (hbody : Keeps I body) (t : TaskState) : Keeps I (updateTaskState env t body) := by
  have hclear : ∀ {I : State → Prop}, Steady I → Keeps I (do
      assign fun r => { r with taskState := none }
      save env) := fun hI =>
    Traced.bind (traced_change (J := fun _ => _) fun s => hI.task s none) fun _ => hI.saved env
  refine traced_look fun owner => traced_ite (fun _ => hbody.pre fun _ h => h.1) fun _ => ?_
  refine Traced.bind (J := fun _ => I) (traced_change fun s h => hI.task s _ h.1) fun _ => ?_
  refine (hI.saved env).bind fun _ => ?_
  exact hbody.tryFinally (fun _ => hclear hI) fun _ => hclear steady_safe

/-! ## Failing -/

theorem startless_setStatus (v : Status) : Startless (setStatus v) := fun _ => rfl

/-- The record is marked, and not saved. -/
structure Marked (s : State) : Prop extends Doubtful s where
  down : s.allocation = false → Down s.obj.status

theorem Doubtful.mark (h : Doubtful s) {f : Record → Record} (hf : Startless f)
    (hdown : Down (f s.obj).status) : Marked { s with obj := f s.obj } where
  released ha := (h.released ha).assign hf
  kept ha hr := (h.kept ha hr).assign hf
  down _ := hdown

theorem Marked.gone (h : Marked s) (hrow : s.row = none) : Safe s where
  released ha := by
    refine ⟨h.released ha, ?_, h.down ha⟩
    intro r hr
    rw [hrow] at hr
    cases hr
  kept := h.kept

theorem leads_save_marked : Leads Marked Safe (save env) :=
  traced_save (fun _ h => h.gone) (fun _ h hok => h.saved h.down hok) fun _ _ h hok => h.unsaved h.down hok

theorem keeps_failUnfinishedMembers {I : State → Prop} (hI : Steady I) (lost : Bool) :
    Keeps I (failUnfinishedMembers env lost) := by
  refine traced_skim fun members => ?_
  refine traced_forEach _ fun i _ => traced_skim fun member => ?_
  refine traced_onlyIf (fun _ => ?_) fun _ _ h => h
  refine Traced.bind (J := fun _ => I) ?_ fun _ => hI.memberSaved env i
  exact traced_change fun s h => hI.member s i _ (startless_setStatus _) h

theorem Marked.assign (h : Marked s) {f : Record → Record} (hf : Startless f)
    (hstatus : (f s.obj).status = s.obj.status) : Marked { s with obj := f s.obj } where
  released ha := (h.released ha).assign hf
  kept ha hr := (h.kept ha hr).assign hf
  down ha := by
    show Down (f s.obj).status
    rw [hstatus]
    exact h.down ha

theorem leads_markFailed (unset : Bool) : Leads Doubtful Safe (markFailed env unset) := by
  have hmark : ∀ v, Down v → Leads Doubtful Marked (assign (setStatus v)) := fun v hv =>
    traced_change fun _ h => h.mark (startless_setStatus v) hv
  refine traced_skim fun autoRemove => traced_ite (fun _ => ?_) fun _ => ?_
  · exact (hmark .deleted (by decide)).bind fun _ => leads_save_marked
  · refine (hmark .error (by decide)).bind fun _ => ?_
    refine Traced.bind (J := fun _ => Marked) ?_ fun _ => leads_save_marked.bind fun _ => ?_
    · refine traced_onlyIf (fun _ => traced_change fun _ h => ?_) fun _ _ h => h
      exact h.assign (f := fun r => { r with host := none }) (fun _ => rfl) rfl
    · refine traced_skim fun capsule => ?_
      exact traced_onlyIf (fun _ => keeps_failUnfinishedMembers steady_safe unset) fun _ _ h => h

/-- A failing operation gives back the allocation of what has not been started. -/
theorem leads_release_failed : Leads Safe Doubtful (releaseAllocation env .failed) := by
  refine Traced.swallow (traced_consult (fun s h hok => ?_) fun _ s h _ => h.doubtful)
  have hunstarted : Unstarted s := hok
  exact ⟨fun _ => ⟨hunstarted.row, hunstarted.obj, hunstarted.members⟩, nofun⟩

theorem leads_unset (unset : Bool) :
    Leads Safe Safe (do onlyIf unset (releaseAllocation env .failed); markFailed env unset) := by
  refine Traced.bind (J := fun _ => Doubtful) ?_ fun _ => leads_markFailed unset
  exact traced_onlyIf (fun _ => leads_release_failed) fun _ _ h => h.doubtful

theorem keeps_swallow_call (c : Call) : Keeps Safe (swallow (call env c)) :=
  Traced.swallow (traced_call (fun _ h => h) c)

theorem keeps_markMemberFailed (i : Nat) : Keeps Safe (markMemberFailed env i) := by
  refine Traced.bind (J := fun _ => Safe) ?_ fun _ => steady_safe.memberSaved env i
  refine traced_change fun s h => h.assignMember (f := fun r =>
    if r.autoRemove then { r with status := .deleted } else { r with status := .error, host := none }) ?_ i
  intro r
  dsimp only
  split <;> rfl

theorem keeps_waitForVolumesDeleted {fail : Op Unit} (hfail : Keeps Safe fail) :
    Keeps Safe (waitForVolumesDeleted env fail) := by
  refine (traced_call (fun _ h => h) _).tryExcept fun e => ?_
  refine Traced.bind (J := fun _ => Safe) ?_ fun _ => traced_raise fun _ h => h
  exact traced_onlyIf (fun _ => hfail) fun _ _ h => h

theorem keeps_detachVolumesOf (member : Option Nat) {fail : Op Unit} (hfail : Keeps Safe fail) :
    Keeps Safe (detachVolumesOf env member fail) :=
  (traced_call (fun _ h => h) _).bind fun _ => keeps_waitForVolumesDeleted hfail

theorem keeps_failUndeleted : Keeps Safe (failUndeleted env) :=
  (keeps_swallow_call _).bind fun _ => leads_unset true

theorem keeps_failMemberUndeleted (i : Nat) : Keeps Safe (failMemberUndeleted env i) :=
  (keeps_swallow_call _).bind fun _ => keeps_markMemberFailed i

theorem keeps_detachVolumes : Keeps Safe (detachVolumes env) := by
  refine traced_skim fun s => traced_ite (fun _ => ?_) fun _ => keeps_detachVolumesOf none keeps_failUndeleted
  exact traced_forEach _ fun i _ => keeps_detachVolumesOf (some i) (keeps_failMemberUndeleted i)

/-- `_fail_container` leaves the meter right, whatever of it fails. -/
theorem keeps_failContainer (unset : Bool) : Keeps Safe (failContainer env unset) :=
  (Traced.swallow keeps_detachVolumes).bind fun _ => leads_unset unset

theorem keeps_failMember (i : Nat) : Keeps Safe (failMember env i) :=
  (Traced.swallow (keeps_detachVolumesOf (some i) (keeps_failMemberUndeleted i))).bind fun _ =>
    keeps_markMemberFailed i

/-- What fails into `_fail_container` fails as before. -/
theorem traced_failing {I J : State → Prop} {α : Type} {p : Op α} (hp : Leads I J p) (unset : Bool) :
    Leads I J (reraising p fun _ => failContainer env unset) :=
  hp.reraising fun _ => keeps_failContainer unset

/-! ## Creating -/

theorem live_call (c : Call) : Keeps Live (call env c) := live_of_firm (firm_call c)

theorem firm_assign {f : Record → Record} (hf : ∀ r, r.status ≠ .deleted → (f r).status ≠ .deleted) :
    Firm (assign f) := traced_change fun s h => h.assign (hf s.obj h.obj)

theorem firm_setStatus {v : Status} (hv : v ≠ .deleted) : Firm (assign (setStatus v)) :=
  firm_assign fun _ _ => hv

theorem live_waitForVolumesAvailable : Keeps Live (waitForVolumesAvailable env) :=
  (live_call _).tryExcept fun _ => (keeps_failContainer true).bind fun _ => traced_raise fun _ h => h

theorem live_attachVolumes : Keeps Live (attachVolumes env) := by
  refine traced_skim fun s => ?_
  refine traced_failing (traced_ite (fun _ => ?_) fun _ => live_call _) true
  exact traced_forEach _ fun i _ => (live_call _).reraising fun _ => keeps_failMember i

theorem live_checkSupportDiskQuota : Keeps Live (checkSupportDiskQuota env) := by
  refine Traced.bind (J := fun _ => Live) ?_ fun _ => live_of_firm (firm_assign ?_)
  · refine (live_call _).tryExcept fun e => ?_
    refine Traced.bind (J := fun _ => Safe) ?_ fun _ => traced_raise fun _ h => h
    exact traced_onlyIf (fun _ => keeps_failContainer true) fun _ _ h => h
  · exact fun _ h => h

theorem firm_containerClaim : Firm (containerClaim env) := by
  refine traced_skim fun r => traced_onlyIf (fun _ => ?_) fun _ _ h => h
  refine (firm_call _).bind fun _ => Traced.bind (firm_assign ?_) fun _ => firm_save
  exact fun _ h => h

theorem firm_driverCreate : Firm (driverCreate env) := by
  refine (firm_call _).bind fun _ => Traced.bind (firm_assign ?_) fun _ => firm_save
  intro r h
  split
  · exact nofun
  · exact h

/-- A member's object may say anything. -/
theorem firm_assignMember (i : Nat) (f : Record → Record) : Firm (assignMember i f) :=
  traced_change fun _ h => ⟨h.allocation, h.obj, h.row⟩

theorem firm_memberStarted (i : Nat) : Firm (memberStarted env i) :=
  traced_told fun _ => (firm_assignMember i _).bind fun _ => firm_saveMember i

theorem firm_memberStopped (i : Nat) : Firm (memberStopped env i) :=
  traced_told fun _ => (firm_assignMember i _).bind fun _ => firm_saveMember i

theorem firm_createContainer (i : Nat) : Firm (createContainer env i) :=
  (firm_call _).bind fun _ => (firm_saveMember i).bind fun _ => firm_call _

theorem firm_tendSidecars (sidecars : List Nat) : Firm (forEach sidecars (tendSidecar env)) :=
  traced_forEach _ fun i _ => Traced.swallow ((firm_call _).bind fun _ => firm_memberStarted i)

theorem firm_runInitOnce (sidecars : List Nat) (i : Nat) (sidecar : Bool) :
    Firm (runInitOnce env sidecars i sidecar) := by
  refine (firm_createContainer i).bind fun _ => (firm_memberStarted i).bind fun _ => ?_
  refine (firm_tendSidecars sidecars).bind fun _ => (firm_call _).bind fun _ => ?_
  refine Traced.bind (J := fun _ => Live) ?_ fun _ => traced_told fun again => ?_
  · exact traced_onlyIf (fun _ => firm_memberStopped i) fun _ _ h => h
  refine traced_ite (fun _ => ?_) fun _ => traced_pure fun _ h => h
  refine firm_save.bind fun _ => (firm_tendSidecars sidecars).bind fun _ => ?_
  exact (firm_call _).bind fun _ => traced_pure fun _ h => h

theorem firm_runInitMember (i : Nat) : Firm (runInitMember env i) := by
  refine traced_skim fun s => traced_loop (fun _ h => h.resting) (fun _ => ?_) _ _
  refine (firm_runInitOnce _ i _).post fun r _ h => ?_
  cases r <;> exact h

theorem firm_startMember (i : Nat) : Firm (startMember env i) :=
  (firm_createContainer i).bind fun _ => firm_memberStarted i

theorem firm_createCapsule : Firm (createCapsule env) := by
  refine Traced.bind (J := fun _ => Live) ?_ fun _ => firm_setStatus (v := .running) nofun
  refine Traced.reraising (E := fun _ => Live) ?_ fun _ => Traced.swallow (firm_call _)
  refine (firm_call _).bind fun _ => firm_save.bind fun _ => traced_skim fun s => ?_
  refine Traced.bind (J := fun _ => Live) ?_ fun _ => traced_forEach _ fun i _ => firm_startMember i
  exact traced_forEach _ fun i _ => firm_runInitMember i

theorem firm_build : Firm (build env) := by
  refine traced_skim fun capsule => traced_ite (fun _ => ?_) fun _ => firm_driverCreate
  refine firm_createCapsule.bind fun _ => traced_told fun now => firm_assign ?_
  exact fun _ h => h

/-- An image that cannot be pulled keeps the allocation, and a container that cannot be built does not. -/
theorem live_doContainerCreateBase : Keeps Live (doContainerCreateBase env) := by
  refine steady_live.updateTaskState ?_ _
  refine (traced_failing (live_call _) false).bind fun _ => (live_of_firm firm_save).bind fun _ => ?_
  exact traced_failing (live_of_firm firm_build) true

/-- A create that fails gives back the allocation of what has not been started. -/
theorem traced_release_created : Traced Sound Resting Safe (fun _ => Resting) (fun _ => Resting)
    (releaseAllocation env .created) := by
  refine Traced.swallow (traced_consult (fun s h hok => ?_) fun _ _ h _ => h.resting)
  obtain ⟨hunstarted, hdown⟩ : Unstarted s ∧ RowDown s := hok
  exact ⟨fun _ _ => ⟨⟨hunstarted.rows.1, hunstarted.rows.2⟩, hdown⟩, nofun⟩

theorem live_doContainerCreate : Traced Sound Resting Live (fun _ => Live) (fun _ => Resting)
    (doContainerCreate env) := by
  refine Traced.reraising (E := fun _ => Safe)
    ((live_of_firm firm_containerClaim).bind fun _ => live_doContainerCreateBase) fun e => ?_
  refine traced_ite (fun _ => ?_) fun _ => traced_release_created
  exact Traced.conseq (keeps_failContainer true) (fun _ h => h) (fun _ _ h => h.resting)
    fun _ _ h => h.resting

/-! ## Starting and stopping -/

theorem keeps_handleNotFound : Keeps Safe (handleNotFound env) := by
  refine traced_skim fun r => traced_onlyIf (fun _ => ?_) fun _ _ h => h
  refine Traced.bind (J := fun _ => Safe) ?_ fun _ => (steady_safe.saved env).bind fun _ =>
    traced_raise fun _ h => h
  refine traced_change fun _ h => h.assign (startless_setStatus _) (.inl ?_)
  show Down (if r.autoRemove = true then .deleted else .error)
  split <;> decide

theorem live_wrapDockerError {p : Op Unit} (hp : Firm p) : Keeps Live (wrapDockerError env p) :=
  (live_of_firm hp).reraising fun _ => traced_onlyIf (fun _ => keeps_handleNotFound) fun _ _ h => h

theorem live_driverStart : Keeps Live (driverStart env) := by
  refine live_wrapDockerError ?_
  refine (firm_call _).bind fun _ => (firm_setStatus (v := .running) nofun).bind fun _ => ?_
  refine Traced.bind (J := fun _ => Live) ?_ fun _ => firm_call _
  refine (firm_call _).tryExcept fun _ => ?_
  exact (Traced.swallow (firm_call _)).bind fun _ => firm_setStatus (v := .stopped) nofun

theorem live_doContainerStart : Keeps Live (doContainerStart env) := by
  refine steady_live.updateTaskState (traced_failing ?_ false) _
  refine live_driverStart.bind fun _ => traced_told fun now => ?_
  refine Traced.bind (live_of_firm (firm_assign ?_)) fun _ => live_of_firm firm_save
  exact fun _ h => h

theorem live_doContainerStop : Keeps Live (doContainerStop env) := by
  refine steady_live.updateTaskState (live_wrapDockerError ?_) _
  exact (firm_call _).bind fun _ => firm_setStatus (v := .stopped) nofun

/-! ## Rebuilding, resizing, deleting -/

theorem live_rebuildOwned : Keeps Live (rebuildOwned env) := by
  refine (live_call _).bind fun _ => (traced_failing (live_call _) false).bind fun _ => ?_
  refine (live_call _).bind fun _ => traced_told fun exist => ?_
  refine Traced.bind (J := fun _ => Live) ?_ fun _ => traced_failing ?_ false
  · exact traced_onlyIf (fun _ => traced_failing (live_call _) false) fun _ _ h => h
  refine live_doContainerCreateBase.bind fun _ => ?_
  exact (live_of_firm (firm_setStatus (v := .created) nofun)).bind fun _ => live_of_firm firm_save

theorem live_doContainerRebuild (run : Bool) : Keeps Live (doContainerRebuild env run) := by
  refine steady_live.updateTaskState (live_rebuildOwned.bind fun _ => ?_) _
  exact traced_onlyIf (fun _ => live_doContainerStart) fun _ _ h => h

theorem live_doContainerUpdate (cpu memory : Option Nat) :
    Keeps Live (doContainerUpdate env cpu memory) := by
  refine Traced.bind (live_of_firm (firm_assign ?_)) fun _ => (live_call _).bind fun _ => ?_
  · exact fun _ h => h
  exact (live_wrapDockerError (firm_call _)).bind fun _ => live_of_firm firm_save

theorem keeps_deleteOwned (force : Bool) : Keeps Safe (deleteOwned env force) := by
  refine Traced.bind (J := fun _ => Safe) ?_ fun _ => keeps_detachVolumes
  have hdelete : Keeps Safe (call env .driverDelete) := traced_call (fun _ h => h) _
  unfold reraisingIf
  refine traced_ite (fun _ => traced_failing hdelete false) fun _ => ?_
  exact hdelete.tryExcept fun _ => keeps_failContainer false

/-- The allocation of a row that is about to go. -/
def Going (s : State) : Prop := s.allocation = true → (∃ r ∈ s.row, r.status = .deleted) → RowsUnstarted s

theorem Safe.going (h : Safe s) : Going s := h.resting.kept

theorem resting_of_gone (h : s.row = none) : Resting s where
  released _ hrow := absurd h hrow
  kept _ hr := by
    obtain ⟨r, hr, -⟩ := hr
    rw [h] at hr
    cases hr

theorem traced_destroy : Traced Sound Resting Going (fun _ => Resting) (fun _ => Resting)
    (destroy env) := by
  refine traced_look fun row => traced_ite (fun hrow => ?_) fun _ => ?_
  · refine traced_raise fun s hs => resting_of_gone ?_
    rw [hs.2]
    exact Option.isNone_iff_eq_none.mp hrow
  · refine traced_consult (fun _ _ _ => resting_of_gone rfl) fun e s hs hok => ⟨fun ha _ => ?_, hs.1⟩
    obtain ht | ⟨hunstarted, hdown⟩ : s.allocation = true ∨ Unstarted s ∧ RowDown s := hok
    · rw [ha] at ht
      cases ht
    · exact ⟨hunstarted.rows, hdown⟩

theorem traced_doContainerDelete (force : Bool) :
    Traced Sound Resting Safe (fun _ => Resting) (fun _ => Resting) (doContainerDelete env force) := by
  refine Traced.bind (J := fun _ => Safe) ?_ fun _ => Traced.bind (J := fun _ => Safe) ?_ fun _ => ?_
  · exact (steady_safe.updateTaskState (keeps_deleteOwned force) _).raises fun _ _ h => h.resting
  · exact (keeps_swallow_call _).raises fun _ _ h => h.resting
  refine Traced.bind (J := fun _ => Going) (Traced.swallow ?_) fun _ => traced_destroy
  exact traced_consult (fun _ _ _ => nofun) fun _ _ h _ => h.going

/-! ## Requests -/

/-- The record is read again from its row. -/
theorem RowsUnstarted.reread (h : RowsUnstarted s) {r : Record} (hr : s.row = some r) {obj : Record}
    (hobj : obj.startedAt = r.startedAt) :
    Unstarted { s with obj := obj, members := s.members.map fun m => { m with obj := m.row } } where
  row := h.1
  obj := by
    rw [hobj]
    exact h.1 r hr
  members := by
    intro m hm
    obtain ⟨m', hm', rfl⟩ := List.mem_map.mp hm
    exact ⟨h.2 m' hm', h.2 m' hm'⟩

theorem Resting.reread (h : Resting s) {r : Record} (hr : s.row = some r) {obj : Record}
    (hobj : obj.startedAt = r.startedAt) (hdown : s.allocation = false → Down obj.status) :
    Safe { s with obj := obj, members := s.members.map fun m => { m with obj := m.row } } where
  released ha := by
    obtain ⟨hunstarted, hrow⟩ := h.released ha (by rw [hr]; nofun)
    exact ⟨hunstarted.reread hr hobj, hrow, hdown ha⟩
  kept ha hdeleted := (h.kept ha hdeleted).reread hr hobj

theorem Safe.reread (h : Safe s) {r : Record} (hr : s.row = some r) : Safe (s.reread r) := by
  refine h.resting.reread hr ?_ fun ha => ?_
  · split <;> rfl
  · split
    · exact (h.released ha).2.2
    · exact (h.released ha).2.1 r hr

theorem Live.reread (h : Live s) {r : Record} (hr : s.row = some r) : Live (s.reread r) where
  allocation := h.allocation
  obj := by
    show (if s.obj.status ∈ _ then _ else r : Record).status ≠ .deleted
    split
    · exact h.obj
    · exact h.row r hr
  row := h.row

theorem traced_caughtUp {I : State → Prop} {op : Op Unit} (hI : ∀ s, I s → Resting s)
    (hreread : ∀ s r, I s → s.row = some r → I (s.reread r))
    (hop : Traced Sound Resting I (fun _ => Resting) (fun _ => Resting) op) :
    Traced Sound Resting I (fun _ => Resting) (fun _ => Resting) (caughtUp env op) := by
  refine Traced.bind (J := fun _ => I) (traced_call hI _) fun _ => traced_look fun row => ?_
  refine traced_onlyIf (fun hrow => ?_) fun _ s hs => hI s hs.1
  obtain ⟨r, rfl⟩ := Option.isSome_iff_exists.mp hrow
  refine Traced.bind (J := fun _ => I) (traced_change fun s hs => ?_) fun _ => hop
  exact hreread s r hs.1 hs.2

theorem traced_deleteFrom (force : Bool) :
    Traced Sound Resting Safe (fun _ => Resting) (fun _ => Resting) (deleteFrom env force) := by
  refine traced_skim fun s => traced_ite (fun _ => ?_) fun _ => ?_
  · exact traced_caughtUp (fun _ => Safe.resting) (fun _ _ h hr => h.reread hr)
      (traced_doContainerDelete force)
  · refine Traced.bind (J := fun _ => Safe) ?_ fun _ => traced_destroy.pre fun _ => Safe.going
    refine traced_onlyIf (fun _ => traced_forEach _ fun i _ => ?_) fun _ _ h => h
    exact traced_call (fun _ => Safe.resting) _

/-- The object of a request is what the row has. -/
structure Loaded (backed : Prop) (s : State) : Prop where
  safe : Safe s
  row : s.row = some s.obj
  allocation : backed → s.allocation = true

theorem traced_getResource (backed : Prop) : Traced Sound Resting
    (fun s => Resting s ∧ (backed → s.allocation = true)) (fun _ => Loaded backed) (fun _ => Resting)
    getResource := by
  refine traced_look fun row => traced_ite (fun _ => traced_raise fun _ h => h.1.1) fun hrow => ?_
  refine traced_change fun s hs => ?_
  obtain ⟨⟨h, hbacked⟩, rfl⟩ := hs
  rw [Bool.not_eq_true, Option.isNone_eq_false_iff] at hrow
  obtain ⟨r, hr⟩ := Option.isSome_iff_exists.mp hrow
  have hget : s.row.getD s.obj = r := by rw [hr]; rfl
  simp only [hget]
  refine ⟨?_, hr, hbacked⟩
  exact h.reread hr rfl fun ha => (h.released ha (by rw [hr]; nofun)).2 r hr

theorem traced_getContainer (backed : Prop) (states : List Status) : Traced Sound Resting
    (fun s => Resting s ∧ (backed → s.allocation = true))
    (fun _ s => Loaded backed s ∧ s.obj.status ∈ states) (fun _ => Resting) (getContainer states) := by
  refine (traced_getResource backed).bind fun _ => traced_skim fun capsule => ?_
  refine traced_ite (fun _ => traced_raise fun _ h => h.safe.resting) fun _ => traced_look fun status => ?_
  refine traced_ite (fun hstatus => traced_ret fun s h => ⟨h.1, ?_⟩) fun _ =>
    traced_raise fun _ h => h.1.safe.resting
  rw [h.2]
  exact hstatus

/-- A container in a state that says it holds something has its allocation. -/
theorem Loaded.live {backed : Prop} (h : Loaded backed s) {states : List Status}
    (hstatus : s.obj.status ∈ states) (hdeleted : .deleted ∉ states)
    (hbacked : backed ∨ ∀ v ∈ states, ¬ Down v) : Live s := by
  have hobj : s.obj.status ≠ .deleted := fun h => hdeleted (by rwa [h] at hstatus)
  refine ⟨?_, hobj, fun r hr => ?_⟩
  · obtain hbacked | hup := hbacked
    · exact h.allocation hbacked
    · rw [← Bool.not_eq_false]
      exact fun ha => hup _ hstatus (h.safe.released ha).2.2
  · rw [h.row] at hr
    cases hr
    exact hobj

/-- An operation on a container, from the API to its end. -/
theorem traced_request {backed : Prop} {states : List Status} {op : Op Unit}
    (hop : Traced Sound Resting Live (fun _ => Resting) (fun _ => Resting) op)
    (hdeleted : .deleted ∉ states) (hbacked : backed ∨ ∀ v ∈ states, ¬ Down v) :
    Traced Sound Resting (fun s => Resting s ∧ (backed → s.allocation = true)) (fun _ => Resting)
      (fun _ => Resting) (do getContainer states; op) :=
  (traced_getContainer backed states).bind fun _ => hop.pre fun _ h => h.1.live h.2 hdeleted hbacked

theorem traced_of_live {op : Op Unit} (h : Keeps Live op) :
    Traced Sound Resting Live (fun _ => Resting) (fun _ => Resting) op :=
  Traced.conseq h (fun _ h => h) (fun _ _ => Live.resting) fun _ _ => Safe.resting

theorem traced_caughtUp_live {op : Op Unit} (h : Keeps Live op) :
    Traced Sound Resting Live (fun _ => Resting) (fun _ => Resting) (caughtUp env op) :=
  traced_caughtUp (fun _ => Live.resting) (fun _ _ h hr => h.reread hr) (traced_of_live h)

/-! ## Creates -/

theorem traced_containerCreate (run : Bool) :
    Traced Sound Resting Live (fun _ => Resting) (fun _ => Resting) (containerCreate env run) := by
  refine Traced.bind (J := fun _ => Live) ?_ fun _ => Traced.bind (J := fun _ => Live) ?_ fun _ => ?_
  · exact live_waitForVolumesAvailable.raises fun _ _ => Safe.resting
  · exact live_attachVolumes.raises fun _ _ => Safe.resting
  refine Traced.bind (J := fun _ => Live) ?_ fun _ => live_doContainerCreate.bind fun _ => ?_
  · exact live_checkSupportDiskQuota.raises fun _ _ => Safe.resting
  · exact traced_onlyIf (fun _ => traced_of_live live_doContainerStart) fun _ _ => Live.resting

/-- The record of a create that has no host yet. -/
structure Fresh (s : State) : Prop where
  safe : Safe s
  obj : s.obj.status ≠ .deleted
  row : ∀ r ∈ s.row, r.status ≠ .deleted

theorem fresh_asked (capsule : Bool) (r : Record) (members : List (Bool × Record)) :
    Fresh (State.asked capsule r members) := by
  have hunstarted : Unstarted (State.asked capsule r members) := by
    refine ⟨fun r' hr => by cases hr; rfl, rfl, fun m hm => ?_⟩
    cases capsule with
    | false => cases hm
    | true =>
        obtain ⟨m', -, rfl⟩ := List.mem_map.mp hm
        exact ⟨rfl, rfl⟩
  have hdown : Down .creating := by decide
  refine ⟨⟨fun _ => ⟨hunstarted, ?_, hdown⟩, nofun⟩, nofun, ?_⟩
  · rintro r' hr
    cases hr
    exact hdown
  · rintro r' hr
    cases hr
    nofun

/-- A create goes on if there is a host. -/
structure Placed (placed : Bool) (s : State) : Prop where
  safe : Safe s
  live : placed = true → Live s

theorem traced_schedule :
    Traced Sound Resting Fresh Placed (fun _ => Safe) (schedule env) := by
  refine Traced.tryExcept (E := fun _ => Safe) ?_ fun e => ?_
  · refine Traced.bind (J := fun _ => Live) ?_ fun _ => traced_pure fun _ h => ⟨h.safe, fun _ => h⟩
    exact traced_consult (fun _ h _ => ⟨rfl, h.obj, h.row⟩) fun _ _ h _ => h.safe
  · refine Traced.bind (J := fun _ => Safe) ?_ fun _ => (steady_safe.saved env).bind fun _ => ?_
    · have hdown : Down .error := by decide
      exact traced_change fun _ h => h.assign (startless_setStatus .error) (.inl hdown)
    · exact traced_ite (fun _ => traced_pure fun _ h => ⟨h, nofun⟩) fun _ => traced_raise fun _ h => h

theorem traced_place : Traced Sound Resting Fresh Placed (fun _ => Safe) (place env) := by
  refine traced_schedule.bind fun placed => ?_
  refine Traced.bind (J := fun _ => Placed placed) ?_ fun _ => traced_pure fun _ h => h
  refine traced_onlyIf (fun _ => ?_) fun _ _ h => h
  exact traced_call (fun _ h => h.safe) _

theorem traced_create (capsule run : Bool) (r : Record) (members : List (Bool × Record)) :
    Traced Sound Resting Resting (fun _ => Resting) (fun _ => Resting)
      ((Request.create capsule run r members).op env) := by
  refine traced_skim fun row => traced_onlyIf (fun _ => ?_) fun _ _ h => h
  refine Traced.bind (J := fun _ => Fresh) (traced_change fun _ _ => fresh_asked capsule r members) ?_
  refine fun _ => Traced.bind (J := Placed) ?_ fun placed => ?_
  · refine traced_place.reraising fun _ => traced_onlyIf (fun _ => Traced.swallow ?_) fun _ _ => Safe.resting
    exact traced_destroy.pre fun _ => Safe.going
  · refine traced_onlyIf (fun hplaced => ?_) fun _ _ h => h.safe.resting
    exact (traced_containerCreate run).pre fun _ h => h.live hplaced

/-! ## Runs -/

/-- The requests that have a container run again. -/
def Request.Restarts : Request → Prop
  | .start => True
  | .rebuild => True
  | _ => False

theorem traced_op (r : Request) : Traced Sound Resting
    (fun s => Resting s ∧ (r.Restarts → s.allocation = true)) (fun _ => Resting) (fun _ => Resting)
    (r.op env) := by
  cases r with
  | create capsule run r members => exact (traced_create capsule run r members).pre fun _ h => h.1
  | start =>
      exact traced_request (traced_caughtUp_live live_doContainerStart) (by decide) (.inl trivial)
  | stop => exact traced_request (traced_caughtUp_live live_doContainerStop) (by decide) (.inr (by decide))
  | rebuild =>
      refine traced_request (traced_skim fun status => ?_) (by decide) (.inl trivial)
      refine Traced.bind (J := fun _ => Live) ?_ fun _ => Traced.bind (J := fun _ => Live) ?_ fun _ =>
        traced_caughtUp_live (live_doContainerRebuild _)
      · exact (firm_setStatus (v := .rebuilding) nofun).raises fun _ _ => Live.resting
      · exact firm_save.raises fun _ _ => Live.resting
  | resize cpu memory =>
      exact traced_request (traced_of_live (live_doContainerUpdate cpu memory)) (by decide)
        (.inr (by decide))
  | delete force stops =>
      refine (traced_getContainer _ _).bind fun _ => ?_
      refine Traced.bind (J := fun _ => Safe) ?_ fun _ => traced_deleteFrom force
      have hdown : Down .deleting := by decide
      exact traced_change fun _ h => h.1.safe.assign (startless_setStatus .deleting) (.inl hdown)
  | deleteCapsule =>
      refine (traced_getResource _).bind fun _ => traced_skim fun capsule => ?_
      refine traced_onlyIf (fun _ => ?_) fun _ _ h => h.safe.resting
      refine Traced.bind (J := fun _ => Safe) ?_ fun _ => Traced.bind (J := fun _ => Safe) ?_ fun _ =>
        traced_deleteFrom false
      · exact traced_change fun s h => steady_safe.task s _ h.safe
      · exact (steady_safe.saved env).raises fun _ _ => Safe.resting

/-- No record, and nothing of one. -/
def NoRecord (s : State) : Prop := s.row = none

/-- The event is a request whose calls are all sound, and that has nothing run without an allocation. -/
def Event.Sound (e : Event) (s : State) : Prop :=
  (∀ entry ∈ (e.run s).log, Metering.Sound entry) ∧ (e.request.Restarts → s.allocation = true)

theorem Resting.serve (h : Resting s) {e : Event} (he : e.Sound s) : Resting (serve e s) :=
  Traced.final (traced_op e.request) ⟨h, he.2⟩ he.1

/-- In a run whose calls are all sound, what is metered is what is held. -/
theorem metered_of_reached (h : Reached NoRecord serve Event.Sound s) : Metered s :=
  (h.invariant (I := Resting) (fun _ => resting_of_gone) fun _ _ he hs => hs.serve he).metered

/-- A run with every kind of request, in which nothing fails. -/
theorem metered_of_calm_run : Metered (steps serve
    [⟨{}, .create false true { status := .creating, cpu := 1, memory := 512 } []⟩, ⟨{}, .stop⟩, ⟨{}, .start⟩,
      ⟨{}, .rebuild⟩, ⟨{}, .resize (some 2) none⟩] {}) := by
  have hinit : NoRecord {} := rfl
  refine metered_of_reached (Reached.steps (.init hinit) ?_)
  refine ⟨⟨by decide +kernel, nofun⟩, ⟨by decide +kernel, nofun⟩, ⟨by decide +kernel, fun _ => ?_⟩,
    ⟨by decide +kernel, fun _ => ?_⟩, ⟨by decide +kernel, nofun⟩, trivial⟩
  · decide +kernel
  · decide +kernel

/-- Docker cannot make the container. -/
def noCreate : Env where
  answer _ c := if c = .driverCreate then some .other else none

/-- A container that ran is rebuilt, and the rebuild fails: the allocation is gone, and the record is
metered as holding what it held. -/
theorem not_metered : ¬ ∀ es : List Event, Metered (steps serve es {}) := by
  intro h
  have hmetered := h [⟨{}, .create false true { status := .creating, cpu := 1, memory := 512 } []⟩,
    ⟨noCreate, .rebuild⟩]
  have hbad : ∃ s : State, s = steps serve [⟨{}, .create false true
      { status := .creating, cpu := 1, memory := 512 } []⟩, ⟨noCreate, .rebuild⟩] {} ∧
      s.allocation = false ∧ ∃ r ∈ s.row, s.held r ≠ none := ⟨_, rfl, by decide +kernel⟩
  obtain ⟨s, rfl, hreleased, r, hr, hheld⟩ := hbad
  exact hheld (hmetered.released hreleased r hr)

end Metering

end Zun
