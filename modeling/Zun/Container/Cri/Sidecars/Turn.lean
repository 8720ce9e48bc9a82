import Zun.Container.Cri.Sidecars.Rest

/-!
# A member's turn in a sweep

One lemma for each function of the sweep, in the order of the code.  A member of which nothing is known
may be restarted, and its new container is not one that the others have ended with.  A member that has
given up is looked at and no more, and so is one that has ended, whose code can only become known to be
what it was.
-/

namespace Zun

open Effect Prog

namespace Cri

namespace Sidecars

variable {env : Env} {c : Capsule} {v : View} {s : World} {u : Uuid}

/-! ## What the runtime says of a member -/

theorem tells_containerStatus {T : World → Prop} (hT : ∀ s k, T s → T (s.turn env k)) (id : RuntimeId) :
    Tells c v T (fun x s => T s ∧ find id s = some x) (containerStatus env id) := by
  refine Watched.bind (J := fun a s => Inv c v s ∧ T s ∧ find id s = a)
    (tells_ask (harmless_of rfl) fun s hs => hT s _ hs) fun found => ?_
  cases found with
  | none => exact fun _ hs => hs.1
  | some x => exact fun _ hs => hs

theorem keeps_containerStatus (id : RuntimeId) : Keeps c v (containerStatus env id) :=
  (tells_containerStatus (T := fun _ => True) (fun _ _ h => h) id).conseq (fun _ hs => ⟨hs, trivial⟩)
    (fun _ _ hs => hs.1) fun _ _ hs => hs

theorem keeps_recordStart (u : Uuid) : Keeps c v (recordStart env u) := by
  refine keeps_despiteRpc (keeps_read fun id => (keeps_containerStatus id).bind fun x => ?_)
  exact watched_onlyIf (fun _ => keeps_setStartedAt u _) fun _ _ hs => hs

/-- The exit of a member that has not ended. -/
theorem keeps_recordExit (hu : ¬ v.ended u) : Keeps c v (recordExit env u) := by
  refine keeps_read fun detail => watched_onlyIf (fun _ => keeps_despiteRpc ?_) fun _ _ hs => hs
  refine keeps_read fun id => (keeps_containerStatus id).bind fun x => ?_
  refine (keeps_setStatusDetail hu _).bind fun _ => (keeps_setExitCode hu _).bind fun _ => ?_
  exact watched_onlyIf (fun _ => keeps_setStartedAt u _) fun _ _ hs => hs

/-- Two assignments one after the other are one. -/
theorem assign_assign (a b : Obj → Obj) (q : Unit → Prog World Exn Unit) :
    (assign u a >>= fun _ => assign u b >>= q) = assign u (b ∘ a) >>= q := by
  funext s
  show q () _ = q () _
  simp [World.setMem, Function.update_idem]

/-- The code of a member that has ended is read as what it is. -/
theorem keeps_readEnd {limit : Nat}
    (hpolicy : v.policy u = some { name := .onFailure, maximumRetryCount := limit }) :
    Keeps c v (assign u (Obj.setExitCode (some 0) ∘ Obj.setStatusDetail (some (.exit 0)))) := by
  refine keeps_assign ((sets_setExitCode _).comp (sets_setStatusDetail _)) (fun s x hx => ?_) fun _ => rfl
  refine ⟨hx.policy, hx.issued, hx.given, fun hi => ⟨(hx.ended hi).still, fun h => ?_, fun _ => ?_⟩,
    hx.below⟩
  · cases h
  · refine ⟨⟨limit, hx.policy.trans hpolicy⟩, fun code hcode => ?_⟩
    cases hcode
    rfl

/-- What is known of the object of a member that has ended. -/
theorem Inv.val (h : Inv c v s) (hm : u ∈ members c) :
    Fit (v.policy u) (v.given u) (v.ended u) v.bound s (s.mem u).val := by
  obtain ⟨_, _, hheld⟩ := h.member u hm
  exact hheld.val

/-- The exit of a member that has ended. -/
theorem keeps_recordExit_ended (hm : u ∈ members c) (hu : v.ended u) (id : RuntimeId) :
    Watched (Inv c v) (fun s => Inv c v s ∧ (s.mem u).val.containerId = some id) (fun _ => Inv c v)
      (fun _ => Inv c v) (recordExit env u) := by
  refine watched_look fun detail => watched_onlyIf (fun hdetail => ?_) fun _ _ hs => hs.1.1
  rw [Option.isNone_iff_eq_none] at hdetail
  subst hdetail
  refine Watched.tryExcept (E := fun _ => Inv c v) ?_ fun e =>
    watched_ite (fun _ => watched_ret (J := fun _ => Inv c v) ()) fun _ => watched_raise (E := fun _ => Inv c v) e
  refine watched_known (a := id) (fun s hs => by simp [hs.1.2]) ?_
  refine Watched.bind ((tells_containerStatus (T := fun s => (s.mem u).val.containerId = some id ∧
    (s.mem u).val.statusDetail = none) (fun _ _ h => h) id).pre fun s hs => ⟨hs.1.1, hs.1.2, hs.2⟩)
    fun x => ?_
  refine Watched.pre (I := fun s => (x.exitCode = 0 ∧ ∃ limit, v.policy u =
    some { name := .onFailure, maximumRetryCount := limit }) ∧ Inv c v s)
    (watched_assuming fun hx => ?_) fun s hs => ⟨?_, hs.1⟩
  · obtain ⟨hcode, limit, hpolicy⟩ := hx
    rw [hcode, assign_assign]
    refine (keeps_readEnd hpolicy).bind fun _ => ?_
    exact watched_onlyIf (fun _ => keeps_setStartedAt u _) fun _ _ h => h
  · obtain ⟨hinv, ⟨hid, hdetail⟩, hfind⟩ := hs
    have hval := hinv.val hm
    obtain ⟨⟨limit, hpolicy⟩, hcode⟩ := (hval.ended hu).unread hdetail
    exact ⟨hcode id x hid hfind, limit, hval.policy ▸ hpolicy⟩

/-! ## A look at a member -/

theorem keeps_pausedNow (u : Uuid) (id : RuntimeId) : Keeps c v (pausedNow env u id) :=
  keeps_read fun _ => watched_ite (fun _ => keeps_default (keeps_ask (harmless_of rfl)) _)
    fun _ => keeps_pure _

theorem keeps_populateRunning (hu : ¬ v.ended u) : Keeps c v (populateRunning env u) := by
  refine (keeps_setStatus u _).bind fun _ => keeps_read fun r => ?_
  refine Watched.bind (watched_onlyIf (fun _ => keeps_setStatusDetail hu _) fun _ _ hs => hs) fun _ => ?_
  exact watched_onlyIf (fun _ => keeps_recordStart u) fun _ _ hs => hs

theorem keeps_populateContainerState (hu : ¬ v.ended u) (x : CriContainer) :
    Keeps c v (populateContainerState env u x) := by
  unfold populateContainerState
  cases x.state with
  | created => exact keeps_setStatus u _
  | running =>
      exact (keeps_pausedNow u x.id).bind fun paused =>
        watched_onlyIf (fun _ => keeps_populateRunning hu) fun _ _ hs => hs
  | exited => exact (keeps_setStatus u _).bind fun _ => keeps_recordExit hu
  | unknown => exact keeps_setStatus u _

/-- A member that has ended is not seen running. -/
theorem keeps_populate_ended (hm : u ∈ members c) (hu : v.ended u) (id : RuntimeId) (x : CriContainer) :
    Watched (Inv c v) (fun s => Inv c v s ∧ (s.mem u).val.containerId = some id ∧ find id s = some x)
      (fun _ => Inv c v) (fun _ => Inv c v) (populateContainerState env u x) := by
  unfold populateContainerState
  cases hstate : x.state with
  | created => exact (keeps_setStatus u _).pre fun _ hs => hs.1
  | running =>
      intro s hs
      exact absurd hstate (((hs.1.val hm).ended hu).still id x hs.2.1 hs.2.2)
  | exited =>
      refine Watched.bind (J := fun _ s => Inv c v s ∧ (s.mem u).val.containerId = some id) ?_
        fun _ => keeps_recordExit_ended hm hu id
      refine watched_modify fun s hs => ⟨keeps_setStatus u .stopped s hs.1, ?_⟩
      simpa [Obj.setStatus] using hs.2.1
  | unknown => exact (keeps_setStatus u _).pre fun _ hs => hs.1

theorem keeps_showContainer (hm : u ∈ members c) : Keeps c v (showContainer env u) := by
  refine watched_look fun id => ?_
  cases id with
  | none => exact watched_ret (J := fun _ => Inv c v) () |>.pre fun _ hs => hs.1
  | some id =>
      refine Watched.bind (tells_ask (T := fun s => (s.mem u).val.containerId = some id)
        (harmless_of rfl) fun _ hs => hs) fun found => ?_
      cases found with
      | none => exact (watched_raise (E := fun _ => Inv c v) _).pre fun _ hs => hs.1
      | some x =>
          by_cases hu : v.ended u
          · exact keeps_populate_ended hm hu id x
          · exact (keeps_populateContainerState hu x).pre fun _ hs => hs.1

theorem keeps_look (hm : u ∈ members c) : Keeps c v (look env u) := by
  refine Watched.tryExcept (E := fun _ => Inv c v) ((keeps_showContainer hm).bind fun _ => keeps_pure _)
    fun e => ?_
  exact watched_ite (fun _ => keeps_pure _) fun _ => keeps_pure _

/-! ## The restart of a member -/

theorem keeps_bumpTally (hu : ¬ v.Down u) : Keeps c v (bumpTally u) :=
  keeps_assignFree hu (fun _ => rfl) (fun _ => rfl) fun _ => rfl

/-- The container of a member that is not down may be replaced. -/
theorem keeps_createContainerIn (hu : ¬ v.Down u) (owner : Uuid) (attempt : Option Nat) :
    Keeps c v (createContainerIn env owner u true attempt) := by
  refine (keeps_plain rfl).bind fun _ => ?_
  refine (keeps_read fun _ => watched_onlyIf (fun _ => watched_raise (E := fun _ => Inv c v) _)
    fun _ _ hs => hs).bind fun _ => ?_
  refine (keeps_plain rfl).bind fun _ => keeps_read fun pod => keeps_read fun tally => ?_
  refine (tells_createContainer hu pod _).bind fun _ => watched_look fun made => ?_
  refine Watched.pre (I := fun s => (∃ id, made = some id ∧ v.bound ≤ id) ∧
    Inv c v s ∧ ∃ id, made = some id ∧ id < s.nextId) (watched_assuming fun hmade => ?_) fun s hs => ?_
  · obtain ⟨id, rfl, hid⟩ := hmade
    refine Watched.bind (J := fun _ => Inv c v) (watched_modify fun s hs => hs.1.setMem
      fun _ r _ hheld => hheld.set (sets_setContainerId _) (fun x hx => ?_) fun _ _ _ => rfl)
      fun _ => (keeps_save u).bind fun _ => watched_onlyIf (fun _ => keeps_startContainer hid)
        fun _ _ h => h
    obtain ⟨id', hsame, hnext⟩ := hs.2
    cases hsame
    refine ⟨hx.policy, fun id' h => ?_, fun h => absurd (.inl h) hu, fun h => absurd (.inr h) hu,
      fun h => absurd (.inr h) hu⟩
    cases h
    exact hnext
  · obtain ⟨⟨hinv, id, hhead, hbound, hnext⟩, hmade⟩ := hs
    rw [hhead] at hmade
    exact ⟨⟨id, hmade.symm, hbound⟩, hinv, id, hmade.symm, hnext⟩

theorem keeps_restartContainer (hu : ¬ v.Down u) (owner : Uuid) :
    Keeps c v (restartContainer env owner u) := by
  refine keeps_read fun old => (keeps_bumpTally hu).bind fun _ => ?_
  refine Watched.tryExcept (E := fun _ => Inv c v) ?_ fun _ => keeps_pure _
  refine (keeps_despiteRpc (keeps_stopContainer old)).bind fun _ => (keeps_plain rfl).bind fun _ => ?_
  refine (keeps_createContainerIn hu owner none).bind fun _ => ?_
  exact (keeps_despiteRpc (keeps_removeContainer old)).bind fun _ => keeps_pure _

/-- A main member, or a sidecar. -/
def Swept (c : Capsule) (v : View) (u : Uuid) : Prop :=
  u ∈ c.containers ∨ u ∈ c.initContainers ∧ (v.policy u).map (·.name) = some .always

theorem Swept.mem (h : Swept c v u) : u ∈ members c := by
  rcases h with h | h
  · exact List.mem_append_right _ h
  · exact List.mem_append_left _ h.1

/-- A rebuild is asked for by a main member that is not down. -/
theorem keeps_handToRebuild (h : ¬ ∀ w ∈ c.containers, v.Down w) : Keeps c v (handToRebuild env c) := by
  refine (keeps_assignCapsule _).bind fun _ => (keeps_save c.uuid).bind fun _ => ?_
  refine watched_modify fun s hs => ⟨hs.bound, fun w hw => ?_, hs.calls, fun hall => absurd hall h⟩
  obtain ⟨r, hr, hheld⟩ := hs.member w hw
  exact ⟨r, hr, hheld.calmer (calmer_of_same rfl (Nat.le_refl _))⟩

theorem keeps_sandboxAlive (pod : Option RuntimeId) : Keeps c v (sandboxAlive env pod) := by
  cases pod with
  | none => exact keeps_pure _
  | some pod => exact keeps_default (keeps_ask (harmless_of rfl)) _

theorem keeps_restartMember (hswept : Swept c v u) (hu : ¬ v.Down u) : Keeps c v (restartMember env c u) := by
  refine keeps_read fun pod => (keeps_sandboxAlive pod).bind fun alive => ?_
  refine watched_ite (fun _ => keeps_restartContainer hu _) fun _ => watched_look fun sidecar => ?_
  rcases hswept with hmain | ⟨hinit, hpolicy⟩
  · refine Watched.pre (I := Inv c v) ?_ fun s hs => hs.1
    refine Watched.bind (J := fun _ => Inv c v) (watched_onlyIf (fun _ => ?_) fun _ _ hs => hs)
      fun _ => keeps_pure _
    exact keeps_handToRebuild fun hall => hu (hall u hmain)
  · refine Watched.pre (I := fun s => sidecar = true ∧ Inv c v s)
      (watched_assuming fun hsidecar => ?_) fun s hs => ⟨?_, hs.1⟩
    · refine Watched.bind (J := fun _ => Inv c v) (watched_onlyIf (fun h => ?_) fun _ _ hs => hs)
        fun _ => keeps_pure _
      rw [hsidecar] at h
      cases h
    · have hval := hs.1.val (List.mem_append_left _ hinit)
      rw [← hs.2]
      simpa [sidecarsOf, hinit, Record.isSidecar, hval.policy] using hpolicy

theorem keeps_recordNewRun (hu : ¬ v.Down u) : Keeps c v (recordNewRun env u) := by
  refine (keeps_setStatus u _).bind fun _ => ?_
  refine (keeps_setStatusDetail (fun h => hu (.inr h)) _).bind fun _ => ?_
  exact (keeps_recordStart u).bind fun _ => keeps_save u

theorem keeps_restartAndRecord (hswept : Swept c v u) (hu : ¬ v.Down u) :
    Keeps c v (restartAndRecord env (.capsule c) u) := by
  refine (keeps_restartMember hswept hu).bind fun done => ?_
  exact Watched.bind (J := fun _ => Inv c v) (watched_onlyIf (fun _ => keeps_recordNewRun hu)
    fun _ _ hs => hs) fun _ => keeps_pure _

/-- What the policy says is asked for, once more, on the object. -/
theorem keeps_restartLocked (hswept : Swept c v u) :
    Watched (Inv c v) (fun s => Inv c v s ∧ (v.Down u → decide (s.mem u).val ≠ .restart))
      (fun _ => Inv c v) (fun _ => Inv c v) (restartLocked env (.capsule c) u) := by
  have hno : Keeps c v (pure false) := keeps_pure false
  refine Watched.bind (tells_ask (T := fun s => v.Down u → decide (s.mem u).val ≠ .restart)
    (harmless_of rfl) fun _ hs => hs) fun fresh => ?_
  cases fresh with
  | none => exact hno.pre fun _ hs => hs.1
  | some fresh =>
      refine watched_ite (fun _ => hno.pre fun _ hs => hs.1) fun _ => watched_look fun r => ?_
      refine Watched.pre (I := fun s => (v.Down u → decide r ≠ .restart) ∧ Inv c v s)
        (watched_assuming fun hdown => ?_) fun s hs => ⟨hs.2 ▸ hs.1.2.1, hs.1.1⟩
      cases hdecided : decide r with
      | leave => exact hno
      | spent reason =>
          refine Watched.bind (J := fun _ => Inv c v) (watched_onlyIf (fun _ => ?_) fun _ _ hs => hs)
            fun _ => hno
          exact (keeps_setStatusReason u _).bind fun _ => keeps_save u
      | restart => exact keeps_restartAndRecord hswept fun h => hdown h hdecided

theorem keeps_restartOnExit (hswept : Swept c v u) :
    Watched (Inv c v) (fun s => Inv c v s ∧ (v.ended u → exitMarked (s.mem u).val = true))
      (fun _ => Inv c v) (fun _ => Inv c v) (restartOnExit env (.capsule c) u) := by
  refine watched_look fun r => watched_ite (fun _ => ?_) fun hr => ?_
  · exact (keeps_pure false).pre fun _ hs => hs.1.1
  · refine (keeps_restartLocked hswept).pre fun s hs => ⟨hs.1.1, fun hdown => ?_⟩
    obtain ⟨⟨hinv, hmark⟩, hread⟩ := hs
    have hval := hinv.val hswept.mem
    have hrestarts : (s.mem u).val.restarts = true := by
      simp only [id_eq] at hread
      simp only [not_or, Bool.not_eq_false] at hr
      rw [hread]
      exact hr.1
    rcases hdown with hgiven | hended
    · exact decide_givenUp (hval.given hgiven) hrestarts
    · rw [decide_ended (hval.ended hended) (hmark hended)]
      simp

theorem keeps_afterLook (hswept : Swept c v u) (looked : Look) :
    Keeps c v (afterLook env (.capsule c) u looked) := by
  cases looked with
  | seen => exact keeps_pure true
  | failed => exact keeps_pure false
  | gone =>
      refine watched_look fun r => watched_ite (fun hr => ?_) fun _ => ?_
      · exact (keeps_restartOnExit hswept).pre fun s hs =>
          ⟨hs.1, fun _ => (congrArg exitMarked hs.2).trans hr⟩
      · exact (keeps_pure false).pre fun _ hs => hs.1

theorem keeps_restartStopped (hswept : Swept c v u) : Keeps c v (restartStopped env (.capsule c) u) := by
  refine watched_look fun r => watched_onlyIf (fun hr => ?_) fun _ _ hs => hs.1
  refine Watched.bind (J := fun _ => Inv c v) ?_ fun _ => keeps_pure ()
  exact (keeps_restartOnExit hswept).pre fun s hs =>
    ⟨hs.1, fun _ => (congrArg exitMarked hs.2).trans hr.2⟩

theorem keeps_settle (old : Record) : Keeps c v (settle env u old) := by
  refine keeps_read fun r => Watched.bind (J := fun _ => Inv c v) ?_ fun _ => keeps_pure _
  exact watched_onlyIf (fun _ => keeps_save u) fun _ _ hs => hs

theorem keeps_sweepMember (hswept : Swept c v u) : Keeps c v (sweepMember env (.capsule c) u) := by
  refine keeps_read fun old => (keeps_look hswept.mem).bind fun looked => ?_
  refine (keeps_afterLook hswept looked).bind fun goOn => watched_ite (fun _ => ?_) fun _ => keeps_pure _
  exact (keeps_restartStopped hswept).bind fun _ => keeps_settle old

theorem keeps_sweepMembers {ms : List (Uuid × Bool)} (hswept : ∀ m ∈ ms, Swept c v m.1) (t : Totals) :
    Keeps c v (sweepMembers env (.capsule c) ms t) := by
  induction ms generalizing t with
  | nil => exact keeps_pure t
  | cons m ms ih =>
      obtain ⟨m, main⟩ := m
      refine keeps_read fun status => watched_ite (fun _ => keeps_pure t) fun _ => ?_
      refine (keeps_sweepMember (hswept _ (List.mem_cons_self ..))).bind fun found => ?_
      exact ih (fun m' hm' => hswept m' (List.mem_cons_of_mem _ hm')) _

end Sidecars

end Cri

end Zun
