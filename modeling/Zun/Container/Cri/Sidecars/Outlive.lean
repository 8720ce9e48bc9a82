import Zun.Container.Cri.Sidecars.Turn

/-!
# Sidecars outlive the work they serve

A run is a list of sweeps of a capsule and of what others do: an owner stops a member, a sandbox dies, the
runtime forgets a container.  A sweep reads its objects first, and others may come between that and the
capsule's turn.

A sweep that finds the main members finished stops the sidecars.  It asks the objects, and an exit whose
code could not be read, or a tally that was counted for a restart that failed, looks finished there while
the row and the runtime say that the member will be restarted.  `outlive_of_over` says that this and a
mark that is not saved are all there is: where the rows say it too, no later sweep restarts a main member
or the sidecar.
-/

namespace Zun

open Effect Prog

namespace Cri

namespace Sidecars

variable {env : Env} {c : Capsule} {v : View} {s s' : World} {u m : Uuid}

/-! ## The end of a turn -/

/-- The turn of a capsule, as far as the totals.  `none` when nothing is rolled up. -/
def lookOver (env : Env) (c : Capsule) : Prog World Exn (Option (List Uuid × Totals)) := do
  let status ← obj c.uuid (·.status)
  if midOperation status = false then do
    let sidecars ← read (sidecarsOf c)
    let t ← sweepMembers env (.capsule c)
      (c.containers.map (·, true) ++ sidecars.map (·, false)) {}
    let status ← obj c.uuid (·.status)
    pure (if status ≠ .rebuilding ∧ t.counted ≠ 0 then some (sidecars, t) else none)
  else pure none

def rollUpSome (env : Env) (c : Capsule) : Option (List Uuid × Totals) → Prog World Exn Unit
  | some (sidecars, t) => rollUp env c sidecars t
  | none => pure ()

theorem sweepCapsule_eq : sweepCapsule env c = lookOver env c >>= rollUpSome env c := by
  funext s
  by_cases hmid : midOperation (s.mem c.uuid).val.status = false
  · have hleft : sweepCapsule env c s = (sweepMembers env (.capsule c)
        (c.containers.map (·, true) ++ (sidecarsOf c s).map (·, false)) {} >>= fun t =>
          obj c.uuid (·.status) >>= fun status =>
            onlyIf (status ≠ .rebuilding ∧ t.counted ≠ 0) (rollUp env c (sidecarsOf c s) t)) s := by
      show onlyIf (midOperation (s.mem c.uuid).val.status = false) _ s = _
      rw [onlyIf, if_pos hmid]
      rfl
    have hright : (lookOver env c >>= rollUpSome env c) s = ((sweepMembers env (.capsule c)
        (c.containers.map (·, true) ++ (sidecarsOf c s).map (·, false)) {} >>= fun t =>
          obj c.uuid (·.status) >>= fun status => pure (if status ≠ .rebuilding ∧ t.counted ≠ 0
            then some (sidecarsOf c s, t) else none)) >>= rollUpSome env c) s := by
      have hlook : lookOver env c s = (sweepMembers env (.capsule c)
          (c.containers.map (·, true) ++ (sidecarsOf c s).map (·, false)) {} >>= fun t =>
            obj c.uuid (·.status) >>= fun status => pure (if status ≠ .rebuilding ∧ t.counted ≠ 0
              then some (sidecarsOf c s, t) else none)) s := by
        show (if midOperation (s.mem c.uuid).val.status = false then _ else pure none :
          Prog World Exn (Option (List Uuid × Totals))) s = _
        rw [if_pos hmid]
        rfl
      show andThen (lookOver env c) _ s = andThen _ _ s
      rw [andThen, andThen, hlook]
    rw [hleft, hright]
    show andThen _ _ s = andThen (andThen _ _) _ s
    unfold andThen
    cases hrun : sweepMembers env (.capsule c)
        (c.containers.map (·, true) ++ (sidecarsOf c s).map (·, false)) {} s with
    | mk r s' =>
        cases r with
        | raise e => rfl
        | halt => rfl
        | ok t =>
            show onlyIf _ _ s' = rollUpSome env c (if _ then _ else _) s'
            unfold onlyIf
            split <;> rfl
  · show onlyIf (midOperation (s.mem c.uuid).val.status = false) _ s = andThen (lookOver env c) _ s
    have hlook : lookOver env c s = (.ok none, s) := by
      show (if midOperation (s.mem c.uuid).val.status = false then _ else pure none :
        Prog World Exn (Option (List Uuid × Totals))) s = _
      rw [if_neg hmid]
      rfl
    rw [onlyIf, if_neg hmid, andThen, hlook]
    rfl

/-- The sidecars of a turn are init containers of the capsule. -/
theorem keeps_lookOver : Watched (Inv c v) (Inv c v)
    (fun found s => Inv c v s ∧ ∀ sidecars t, found = some (sidecars, t) →
      ∀ w ∈ sidecars, w ∈ c.initContainers) (fun _ => Inv c v) (lookOver env c) := by
  have hnone : Watched (Inv c v) (Inv c v)
      (fun found s => Inv c v s ∧ ∀ sidecars t, found = some (sidecars, t) →
        ∀ w ∈ sidecars, w ∈ c.initContainers) (fun _ => Inv c v)
      (pure none : Prog World Exn (Option (List Uuid × Totals))) :=
    fun _ hs => ⟨hs, fun _ _ h => by cases h⟩
  refine watched_look fun status => Watched.pre (I := Inv c v)
    (watched_ite (fun _ => ?_) fun _ => hnone) fun _ hs => hs.1
  refine watched_look fun sidecars => Watched.pre (I := fun s =>
    (∀ w ∈ sidecars, w ∈ c.initContainers ∧ (v.policy w).map (·.name) = some .always) ∧ Inv c v s)
    (watched_assuming fun hsidecars => ?_) fun s hs => ⟨fun w hw => ?_, hs.1⟩
  · refine Watched.bind (J := fun _ => Inv c v) (keeps_sweepMembers (fun w hw => ?_) _) fun t => ?_
    · rcases List.mem_append.mp hw with hw | hw
      · obtain ⟨w', hw', rfl⟩ := List.mem_map.mp hw
        exact .inl hw'
      · obtain ⟨w', hw', rfl⟩ := List.mem_map.mp hw
        exact .inr (hsidecars w' hw')
    · refine watched_look fun status s hs => ⟨hs.1, fun sidecars' t' hfound => ?_⟩
      by_cases h : status ≠ .rebuilding ∧ t.counted ≠ 0
      · rw [if_pos h] at hfound
        cases hfound
        exact fun w hw => (hsidecars w hw).1
      · rw [if_neg h] at hfound
        cases hfound
  · obtain ⟨hinv, rfl⟩ := hs
    simp only [sidecarsOf, List.mem_filter, Record.isSidecar, decide_eq_true_eq] at hw
    exact ⟨hw.1, (hinv.val (List.mem_append_left _ hw.1)).policy ▸ hw.2⟩

/-- The owner's mark restarts nothing. -/
theorem Fit.mark {p : Option RestartPolicy} {g i : Prop} {n : RuntimeId} {r : Record}
    (h : Fit p g i n s r) : Fit p g i n s { r with statusDetail := some .stopped } :=
  ⟨h.policy, h.issued, h.given, fun hi => ⟨(h.ended hi).still, fun h' => (by cases h'), fun h' => (by cases h')⟩,
    h.below⟩

theorem keeps_mark (u : Uuid) : Keeps c v (assign u (Obj.setStatusDetail (some .stopped))) :=
  keeps_assign (sets_setStatusDetail _) (fun _ _ h => h.mark) fun _ => rfl

theorem keeps_stopSidecars (sidecars : List Uuid) : Keeps c v (stopSidecars env sidecars) := by
  refine watched_forEach _ fun w _ => keeps_read fun r => watched_onlyIf (fun _ => ?_) fun _ _ hs => hs
  refine Watched.bind (J := fun _ => Inv c v)
    (keeps_default ((keeps_stopContainer _).bind fun _ => keeps_pure true) false) fun stopped => ?_
  refine watched_onlyIf (fun _ => ?_) fun _ _ hs => hs
  exact (keeps_setStatus w _).bind fun _ => (keeps_mark w).bind fun _ => keeps_save w

/-- The end of the roll-up. -/
def writeStatus (env : Env) (c : Capsule) (t : Totals) : Prog World Exn Unit := do
  let status ← obj c.uuid (·.status)
  let new := if t.running = t.counted then Status.running else .stopped
  onlyIf (status ≠ new) (assign c.uuid (Obj.setStatus new))
  onlyIf (status ≠ new ∨ t.changed = true) (save env c.uuid)

theorem keeps_writeStatus (t : Totals) : Keeps c v (writeStatus env c t) := by
  refine keeps_read fun status => Watched.bind (J := fun _ => Inv c v) ?_ fun _ => ?_
  · exact watched_onlyIf (fun _ => keeps_assignCapsule _) fun _ _ hs => hs
  · exact watched_onlyIf (fun _ => keeps_save c.uuid) fun _ _ hs => hs

theorem keeps_rollUp (sidecars : List Uuid) (t : Totals) : Keeps c v (rollUp env c sidecars t) := by
  refine keeps_read fun done => Watched.bind (J := fun _ => Inv c v) ?_ fun _ => keeps_writeStatus t
  exact watched_onlyIf (fun _ => keeps_stopSidecars sidecars) fun _ _ hs => hs

theorem keeps_sweepCapsule : Keeps c v (sweepCapsule env c) := by
  rw [sweepCapsule_eq]
  refine keeps_lookOver.bind fun found => ?_
  cases found with
  | none => exact (keeps_pure ()).pre fun _ hs => hs.1
  | some found => exact (keeps_rollUp _ _).pre fun _ hs => hs.1

/-- The world after the turn of a capsule. -/
def afterTurn (env : Env) (c : Capsule) (s : World) : World := (sweepCapsule env c s).2

theorem Inv.afterTurn (h : Inv c v s) : Inv c v (afterTurn env c s) := keeps_sweepCapsule.final h

/-! ## The turn that stops the sidecars -/

/-- The row of a member says that no sweep restarts it. -/
def Rests (s : World) (u : Uuid) : Prop := ∃ r, s.db u = some r ∧ (GivenUp r ∨ Ended s r)

theorem Rests.calmer {n : RuntimeId} (h : Rests s u) (hc : Calmer n s s') (hdb : s'.db u = s.db u)
    (hissued : ∀ r, s.db u = some r → Issued n r) : Rests s' u := by
  obtain ⟨r, hr, hrest⟩ := h
  exact ⟨r, hdb.trans hr, hrest.imp_right fun hended => hc.ended (hissued r hr) hended⟩

theorem Inv.issued (h : Inv c v s) (hu : u ∈ members c) {r : Record} (hr : s.db u = some r) :
    Issued s.nextId r := by
  obtain ⟨r', hr', hheld⟩ := h.member u hu
  rw [hr] at hr'
  cases hr'
  exact hheld.row.issued

/-- A save of the row of `u` was refused since the log was `log`. -/
def Refused (u : Uuid) (log : List (Call × Answer)) (s : World) : Prop :=
  ∃ calls, s.log = calls ++ log ∧ ∃ r a, (Call.save u r, a) ∈ calls ∧ a ≠ .ok

theorem Refused.cons {log : List (Call × Answer)} {e : Call × Answer} (h : Refused u log s)
    (hlog : s'.log = e :: s.log) : Refused u log s' := by
  obtain ⟨calls, hcalls, r, a, hmem, ha⟩ := h
  exact ⟨e :: calls, by simp [hlog, hcalls], r, a, List.mem_cons_of_mem _ hmem, ha⟩

/-- While the sidecars are stopped: the main members rest, and the row of a sidecar that is put down as
stopped does, unless its save was refused. -/
structure Stopping (c : Capsule) (v : View) (m : Uuid) (since : List (Call × Answer)) (s : World) :
    Prop where
  inv : Inv c v s
  log : ∃ calls, s.log = calls ++ since
  mains : ∀ u ∈ c.containers, Rests s u
  noted : (s.mem m).val.status ≠ .stopped ∨ Rests s m ∨ Refused m since s

variable {since : List (Call × Answer)}

theorem Stopping.turn (h : Stopping c v m since s) (hm : m ∈ members c) {k : Call}
    (hk : makesContainer k = false) : Stopping c v m since (s.turn env k) where
  inv := h.inv.turn (harmless_of hk)
  log := by
    obtain ⟨calls, hcalls⟩ := h.log
    exact ⟨(k, env.answer s.tick k) :: calls, by simp [World.turn, hcalls]⟩
  mains w hw := (h.mains w hw).calmer (calmer_turn k) rfl
    fun r hr => h.inv.issued (List.mem_append_right _ hw) hr
  noted := by
    rcases h.noted with hstatus | hrests | hrefused
    · exact .inl hstatus
    · exact .inr (.inl (hrests.calmer (calmer_turn k) rfl fun r hr => h.inv.issued hm hr))
    · exact .inr (.inr (hrefused.cons rfl))

theorem Stopping.calmer (h : Stopping c v m since s) (hm : m ∈ members c) (hc : ∀ n, Calmer n s s')
    (hdb : s'.db = s.db) (hmem : s'.mem = s.mem) (hlog : s'.log = s.log)
    (hrebuilds : s'.rebuilds = s.rebuilds) : Stopping c v m since s' where
  inv := h.inv.calmer (hc _) hdb hmem hlog hrebuilds
  log := hlog ▸ h.log
  mains w hw := (h.mains w hw).calmer (hc s.nextId) (congrFun hdb w)
    fun r hr => h.inv.issued (List.mem_append_right _ hw) hr
  noted := by
    rcases h.noted with hstatus | hrests | hrefused
    · exact .inl (hmem ▸ hstatus)
    · exact .inr (.inl (hrests.calmer (hc s.nextId) (congrFun hdb m) fun r hr => h.inv.issued hm hr))
    · obtain ⟨calls, hcalls, hrest⟩ := hrefused
      exact .inr (.inr ⟨calls, hlog.trans hcalls, hrest⟩)

/-- The container of a member does not run. -/
def Still (u : Uuid) (s : World) : Prop :=
  ∀ id x, (s.mem u).val.containerId = some id → find id s = some x → x.state ≠ .running

/-- An object that is put down as stopped. -/
def asStopped : Obj → Obj := Obj.setStatusDetail (some .stopped) ∘ Obj.setStatus .stopped

/-- The marks of a sidecar that was stopped, and their save. -/
def putDown (env : Env) (w : Uuid) : Prog World Exn Unit := do
  assign w (Obj.setStatus .stopped)
  assign w (Obj.setStatusDetail (some .stopped))
  save env w

theorem putDown_eq (w : Uuid) : putDown env w =
    assign w asStopped >>= fun _ => save env w :=
  assign_assign _ _ _

theorem sets_asStopped : Sets asStopped
    ((fun x => { x with statusDetail := some .stopped }) ∘ fun x => { x with status := .stopped }) :=
  (sets_setStatusDetail _).comp (sets_setStatus _)

theorem Inv.putDown (h : Inv c v s) (w : Uuid) :
    Inv c v (s.setMem w asStopped) :=
  h.setMem fun _ _ _ hheld => hheld.set sets_asStopped (fun _ hx => (hx.setStatus _).mark)
    fun _ _ hid => hid

/-- The row of a sidecar that does not run, after its marks are saved. -/
theorem rests_putDown (h : Inv c v s) (hm : m ∈ members c) (hstill : Still m s) {r : Record}
    (hr : s.db m = some r) (k : Call) :
    Rests (((s.setMem m asStopped).turn env k).saved m r)
      m := by
  refine ⟨_, World.saved_db_self r, .inr ?_⟩
  obtain ⟨r', hr', hheld⟩ := h.member m hm
  rw [hr] at hr'
  cases hr'
  have hmerged : World.merged m r
      ((s.setMem m asStopped).turn env k)
      = { { merged (s.mem m) r with status := .stopped } with statusDetail := some .stopped } := by
    have hsave := sets_asStopped.save (s.mem m) r
    simpa [World.merged, merged] using hsave
  have hcalm : Calmer s.nextId s (((s.setMem m asStopped).turn env k).saved m r) :=
    (calmer_of_same rfl (Nat.le_refl _)).trans ((calmer_turn k).trans (calmer_of_same rfl (Nat.le_refl _)))
  refine ⟨fun id x hid hx => ?_, fun h => ?_, fun h => ?_⟩
  · rw [hmerged] at hid
    obtain ⟨x₀, hx₀, hsame⟩ := hcalm.left id x (hheld.save.issued id hid) hx
    have hrun := hstill id x₀ (hheld.same ▸ hid) hx₀
    rw [hsame hrun]
    exact hrun
  · rw [hmerged] at h
    cases h
  · rw [hmerged] at h
    cases h

theorem stopping_putDown {w : Uuid} (hm : m ∈ c.initContainers) (hw : w ∈ c.initContainers) :
    Watched (Stopping c v m since) (fun s => Stopping c v m since s ∧ (w = m → Still m s))
      (fun _ => Stopping c v m since) (fun _ => Stopping c v m since) (putDown env w) := by
  intro s hs
  obtain ⟨hstop, hstill⟩ := hs
  have hmem : m ∈ members c := List.mem_append_left _ hm
  have hwmem : w ∈ members c := List.mem_append_left _ hw
  have hinv := hstop.inv.putDown w
  have hcalm : ∀ n k, Calmer n s ((s.setMem w asStopped).turn env k) := fun _ k =>
    Calmer.trans (t := s.setMem w asStopped) (calmer_of_same rfl (Nat.le_refl _)) (calmer_turn k)
  have hsaved : ∀ n k r, Calmer n s (((s.setMem w asStopped).turn env k).saved w r) := fun n k _ =>
    (hcalm n k).trans (calmer_of_same rfl (Nat.le_refl _))
  have hmains : ∀ {t : World}, (∀ x, x ≠ w → t.db x = s.db x) → (∀ n, Calmer n s t) →
      ∀ x ∈ c.containers, Rests t x := by
    intro t hdb hc x hx
    have hne : x ≠ w := fun h => not_main_of_init hw (h ▸ hx)
    exact (hstop.mains x hx).calmer (hc s.nextId) (hdb x hne)
      fun r' hr' => hstop.inv.issued (List.mem_append_right _ hx) hr'
  have hlog : ∀ {t : World} {e : Call × Answer}, t.log = e :: s.log →
      ∃ calls, t.log = calls ++ since := by
    intro t e ht
    obtain ⟨calls, hcalls⟩ := hstop.log
    exact ⟨e :: calls, by simp [ht, hcalls]⟩
  have hrefused : ∀ r a, a ≠ .ok → env.answer s.tick (.save w r) = a → Stopping c v m since
      ((s.setMem w asStopped).turn env (.save w r)) := by
    intro r a ha hanswer
    refine ⟨hinv.turn (harmless_save w r), hlog rfl, hmains (fun _ _ => rfl) fun n => hcalm n _, ?_⟩
    by_cases hwm : w = m
    · subst hwm
      obtain ⟨calls, hcalls⟩ := hstop.log
      refine .inr (.inr ⟨(.save w r, a) :: calls, ?_, r, a, List.mem_cons_self .., ha⟩)
      rw [← hanswer, List.cons_append, ← hcalls]
      rfl
    · rcases hstop.noted with hstatus | hrests | hrefused
      · exact .inl (by simpa [World.setMem_mem_of_ne (Ne.symm hwm)] using hstatus)
      · exact .inr (.inl (hrests.calmer (hcalm s.nextId _) rfl
          fun r hr => hstop.inv.issued hmem hr))
      · exact .inr (.inr (hrefused.cons rfl))
  rw [putDown_eq, wp_bind, wp_assign, seqPost_ok]
  refine wp_save (fun hgone => ?_) (fun r hr hok => ?_) (fun r e hr hraise => ?_) fun r hr hhalt => ?_
  · obtain ⟨r, hr, _⟩ := hstop.inv.member w hwmem
    rw [World.setMem_db, hr] at hgone
    cases hgone
  · refine ⟨(hinv.turn (harmless_save w _)).saved hr, hlog rfl,
      hmains (fun x hx => World.saved_db_of_ne hx r) fun n => hsaved n _ _, ?_⟩
    by_cases hwm : w = m
    · subst hwm
      exact .inr (.inl (rests_putDown hstop.inv hmem (hstill rfl) hr _))
    · rcases hstop.noted with hstatus | hrests | hrefused
      · refine .inl ?_
        rw [World.saved_mem_of_ne (Ne.symm hwm)]
        simpa [World.setMem_mem_of_ne (Ne.symm hwm)] using hstatus
      · refine .inr (.inl (hrests.calmer (hsaved s.nextId _ _) (World.saved_db_of_ne (Ne.symm hwm) r)
          fun r hr => hstop.inv.issued hmem hr))
      · exact .inr (.inr (hrefused.cons rfl))
  · exact hrefused _ _ (by simp) hraise
  · exact hrefused _ _ (by simp) hhalt

theorem stopping_stopContainer {w : Uuid} {r : Record} (hm : m ∈ c.initContainers) :
    Watched (Stopping c v m since) (fun s => Stopping c v m since s ∧ (s.mem w).val = r)
      (fun _ s => Stopping c v m since s ∧ (w = m → Still m s)) (fun _ => Stopping c v m since)
      (stopContainer env (r.containerId.getD 0)) := by
  intro s hs
  have hmem : m ∈ members c := List.mem_append_left _ hm
  have hturn : ∀ k, makesContainer k = false → Stopping c v m since (s.turn env k) :=
    fun k hk => hs.1.turn hmem hk
  refine wp_call (fun _ => ⟨?_, ?_⟩) (fun _ _ => hturn _ rfl) fun _ => hturn _ rfl
  · exact (hturn _ rfl).calmer hmem (fun _ => calmer_stopped _) rfl rfl rfl rfl
  · intro hwm id x hid hx
    have hsame : r.containerId = some id := by
      rw [← hs.2, hwm]
      exact hid
    rw [hsame] at hx
    exact still_of_stopped hx

theorem stopping_stopSidecars {sidecars : List Uuid} (hm : m ∈ c.initContainers)
    (hsidecars : ∀ w ∈ sidecars, w ∈ c.initContainers) :
    Watched (Stopping c v m since) (Stopping c v m since) (fun _ => Stopping c v m since)
      (fun _ => Stopping c v m since) (stopSidecars env sidecars) := by
  refine watched_forEach _ fun w hw => watched_look fun r => watched_onlyIf (fun _ => ?_) fun _ _ hs => hs.1
  refine Watched.bind (J := fun stopped s => Stopping c v m since s ∧ (stopped = true → w = m → Still m s))
    (Watched.tryExcept (E := fun _ => Stopping c v m since) ?_ fun e => ?_) fun stopped => ?_
  · exact (stopping_stopContainer hm).bind fun _ _ hs => ⟨hs.1, fun _ => hs.2⟩
  · exact watched_ite (fun _ _ hs => ⟨hs, fun h => by cases h⟩) fun _ _ hs => hs
  · refine watched_onlyIf (fun hstopped => ?_) fun _ _ hs => hs.1
    exact (stopping_putDown hm (hsidecars w (List.mem_reverse.mp hw))).pre fun _ hs =>
      ⟨hs.1, hs.2 hstopped⟩

theorem stopping_writeStatus (t : Totals) (hm : m ∈ c.initContainers) :
    Watched (Stopping c v m since) (Stopping c v m since) (fun _ => Stopping c v m since)
      (fun _ => Stopping c v m since) (writeStatus env c t) := by
  have hmem : m ∈ members c := List.mem_append_left _ hm
  have hne : ∀ x ∈ members c, x ≠ c.uuid := fun x hx h => uuid_not_mem_members c (h ▸ hx)
  have hassign : ∀ a, Watched (Stopping c v m since) (Stopping c v m since)
      (fun _ => Stopping c v m since) (fun _ => Stopping c v m since) (assign c.uuid a) := by
    refine fun a => watched_modify fun s hs => ?_
    have hcalm : ∀ n, Calmer n s (s.setMem c.uuid a) := fun _ => calmer_of_same rfl (Nat.le_refl _)
    refine ⟨hs.inv.setMem fun h => absurd h (uuid_not_mem_members c), hs.log, fun x hx => ?_, ?_⟩
    · exact (hs.mains x hx).calmer (hcalm s.nextId) rfl
        fun r' hr' => hs.inv.issued (List.mem_append_right _ hx) hr'
    · rw [World.setMem_mem_of_ne (hne m hmem)]
      rcases hs.noted with hstatus | hrests | hrefused
      · exact .inl hstatus
      · exact .inr (.inl (hrests.calmer (hcalm s.nextId) rfl fun r' hr' => hs.inv.issued hmem hr'))
      · exact .inr (.inr hrefused)
  have hsave : Watched (Stopping c v m since) (Stopping c v m since)
      (fun _ => Stopping c v m since) (fun _ => Stopping c v m since) (save env c.uuid) := by
    intro s hs
    refine wp_save (fun _ => hs) (fun r hr _ => ?_) (fun _ _ _ _ => hs.turn hmem rfl)
      fun _ _ _ => hs.turn hmem rfl
    have hturn : Stopping c v m since (s.turn env (.save c.uuid (s.merged c.uuid r))) := hs.turn hmem rfl
    have hcalm : ∀ n t, Calmer n t (t.saved c.uuid r) := fun _ _ => calmer_of_same rfl (Nat.le_refl _)
    refine ⟨hturn.inv.saved hr, hturn.log, fun x hx => ?_, ?_⟩
    · exact (hturn.mains x hx).calmer (hcalm s.nextId _)
        (World.saved_db_of_ne (hne x (List.mem_append_right _ hx)) r)
        fun r' hr' => hs.inv.issued (List.mem_append_right _ hx) hr'
    · rw [World.saved_mem_of_ne (hne m hmem)]
      rcases hturn.noted with hstatus | hrests | hrefused
      · exact .inl hstatus
      · exact .inr (.inl (hrests.calmer (hcalm s.nextId _) (World.saved_db_of_ne (hne m hmem) r)
          fun r' hr' => hs.inv.issued hmem hr'))
      · exact .inr (.inr hrefused)
  refine watched_look fun status => Watched.pre (I := Stopping c v m since) ?_ fun _ hs => hs.1
  refine Watched.bind (J := fun _ => Stopping c v m since) ?_ fun _ => ?_
  · exact watched_onlyIf (fun _ => hassign _) fun _ _ hs => hs
  · exact watched_onlyIf (fun _ => hsave) fun _ _ hs => hs

theorem stopping_rollUp {sidecars : List Uuid} (t : Totals) (hm : m ∈ c.initContainers)
    (hsidecars : ∀ w ∈ sidecars, w ∈ c.initContainers) :
    Watched (Stopping c v m since) (Stopping c v m since) (fun _ => Stopping c v m since)
      (fun _ => Stopping c v m since) (rollUp env c sidecars t) := by
  refine watched_look fun done => Watched.pre (I := Stopping c v m since) ?_ fun _ hs => hs.1
  refine Watched.bind (J := fun _ => Stopping c v m since) ?_ fun _ => stopping_writeStatus t hm
  exact watched_onlyIf (fun _ => stopping_stopSidecars hm hsidecars) fun _ _ hs => hs

/-! ## What others do -/

/-- What others do between two steps of the sweep. -/
inductive Deed where
  | ownerStops (u : Uuid)
  | sandboxDies (pod : RuntimeId)
  /-- The runtime does not know the container any more. -/
  | forgets (id : RuntimeId)
deriving DecidableEq

/-- A stop by the owner, in a thread with an object of its own. -/
def stopByOwner (env : Env) (u : Uuid) : Prog World Exn Unit := do
  load u
  stop env u
  save env u

def Deed.play (env : Env) : Deed → World → World
  | .ownerStops u, s => { (stopByOwner env u s).2 with mem := s.mem }
  | .sandboxDies pod, s =>
      { s with
        sandboxes := s.sandboxes.map fun b => if b.id = pod then { b with ready := false } else b
        containers := s.containers.map (killIn pod) }
  | .forgets id, s => { s with containers := s.containers.filter (·.id ≠ id) }

/-- A record with the owner's mark. -/
def ownerMarked (r : Record) : Record :=
  { r with status := .stopped, statusReason := none, statusDetail := some .stopped }

/-- A record, or that record with the owner's mark. -/
def Marked (r r' : Record) : Prop := r' = r ∨ r' = ownerMarked r

theorem Marked.trans {r r' r'' : Record} (h : Marked r r') (h' : Marked r' r'') : Marked r r'' := by
  rcases h with rfl | rfl
  · exact h'
  · rcases h' with rfl | rfl
    · exact .inr rfl
    · exact .inr rfl

theorem Marked.givenUp {r r' : Record} (h : Marked r r') : GivenUp r' ↔ GivenUp r := by
  rcases h with rfl | rfl
  · rfl
  · exact Iff.rfl

theorem Marked.ended {r r' : Record} (h : Marked r r') (hr : Ended s r) : Ended s r' := by
  rcases h with rfl | rfl
  · exact hr
  · exact ⟨hr.still, fun h => (by cases h), fun h => (by cases h)⟩

theorem Marked.containerId {r r' : Record} (h : Marked r r') : r'.containerId = r.containerId := by
  rcases h with rfl | rfl <;> rfl

theorem Marked.restartPolicy {r r' : Record} (h : Marked r r') :
    r'.restartPolicy = r.restartPolicy := by
  rcases h with rfl | rfl <;> rfl

/-- What others leave of the world. -/
structure Beside (s s' : World) : Prop where
  calmer : ∀ n, Calmer n s s'
  rebuilds : s'.rebuilds = s.rebuilds
  row : ∀ w r, s.db w = some r → ∃ r', s'.db w = some r' ∧ Marked r r'

theorem Beside.refl (s : World) : Beside s s :=
  ⟨fun _ => calmer_of_same rfl (Nat.le_refl _), rfl, fun _ r hr => ⟨r, hr, .inl rfl⟩⟩

theorem Beside.trans {t : World} (h : Beside s t) (h' : Beside t s') : Beside s s' where
  calmer n := (h.calmer n).trans (h'.calmer n)
  rebuilds := h'.rebuilds.trans h.rebuilds
  row w r hr := by
    obtain ⟨r', hr', hmarked⟩ := h.row w r hr
    obtain ⟨r'', hr'', hmarked'⟩ := h'.row w r' hr'
    exact ⟨r'', hr'', hmarked.trans hmarked'⟩

theorem Beside.of_same (h : Beside s s') {t : World} (hcalm : ∀ n, Calmer n s' t) (hdb : t.db = s'.db)
    (hrebuilds : t.rebuilds = s'.rebuilds) : Beside s t :=
  h.trans ⟨hcalm, hrebuilds, fun _ r hr => ⟨r, hdb ▸ hr, .inl rfl⟩⟩

theorem Beside.turn (h : Beside s s') (k : Call) : Beside s (s'.turn env k) :=
  h.of_same (fun _ => calmer_turn k) rfl rfl

theorem beside_stopByOwner (u : Uuid) (s : World) : Beside s (stopByOwner env u s).2 := by
  have hload : Watched (Beside s) (fun s' => s' = s) (fun _ s' => Beside s s' ∧ s'.db = s.db ∧
      ∀ r, s.db u = some r → s'.mem u = Obj.of r) (fun _ => Beside s) (load u) := by
    rintro s' rfl
    unfold load
    rw [wp_bind, wp_read, seqPost_ok]
    cases hrow : s'.db u with
    | none => exact ⟨Beside.refl s', rfl, fun r h => by cases h⟩
    | some r =>
        refine ⟨(Beside.refl s').of_same (fun _ => calmer_of_same rfl (Nat.le_refl _)) rfl rfl, rfl,
          fun r' h => ?_⟩
        cases h
        exact World.setMem_mem_self (u := u) (s := s') fun _ => Obj.of r
  have hstop : Watched (Beside s) (fun s' => Beside s s' ∧ s'.db = s.db ∧
      ∀ r, s.db u = some r → s'.mem u = Obj.of r) (fun _ s' => Beside s s' ∧ s'.db = s.db ∧
        ∀ r, s.db u = some r → Marked r (merged (s'.mem u) r)) (fun _ => Beside s) (stop env u) := by
    refine watched_look fun id => ?_
    cases id with
    | none =>
        intro s' hs
        show Beside s s' ∧ s'.db = s.db ∧ ∀ r, s.db u = some r → Marked r (merged (s'.mem u) r)
        refine ⟨hs.1.1, hs.1.2.1, fun r hr => ?_⟩
        rw [hs.1.2.2 r hr]
        exact .inl rfl
    | some id =>
        refine Watched.bind (J := fun _ s' => Beside s s' ∧ s'.db = s.db ∧
          ∀ r, s.db u = some r → s'.mem u = Obj.of r) ?_ fun _ => ?_
        · intro s' hs
          refine wp_call (fun _ => ?_) (fun _ _ => hs.1.1.turn _) fun _ => hs.1.1.turn _
          exact ⟨(hs.1.1.turn _).of_same (fun _ => calmer_stopped id) rfl rfl, hs.1.2.1, hs.1.2.2⟩
        · rw [assign_assign]
          rw [show (assign u (Obj.setStatusReason none ∘ Obj.setStatus .stopped) >>= fun _ =>
              assign u (Obj.setStatusDetail (some .stopped))) = assign u (Obj.setStatusDetail (some .stopped) ∘
                Obj.setStatusReason none ∘ Obj.setStatus .stopped) from assign_assign _ _ pure]
          refine watched_modify fun s' hs => ⟨hs.1.of_same (fun _ => calmer_of_same rfl (Nat.le_refl _)) rfl rfl,
            hs.2.1, fun r hr => ?_⟩
          rw [World.setMem_mem_self, hs.2.2 r hr]
          exact .inr rfl
  have hsave : Watched (Beside s) (fun s' => Beside s s' ∧ s'.db = s.db ∧
      ∀ r, s.db u = some r → Marked r (merged (s'.mem u) r)) (fun _ => Beside s) (fun _ => Beside s)
      (save env u) := by
    intro s' hs
    obtain ⟨hbeside, hdb, hmarked⟩ := hs
    refine wp_save (fun _ => hbeside) (fun r hr _ => ?_) (fun _ _ _ _ => hbeside.turn _)
      fun _ _ _ => hbeside.turn _
    have hturn : Beside s (s'.turn env (.save u (s'.merged u r))) := hbeside.turn _
    refine ⟨fun n => (hturn.calmer n).trans (calmer_of_same rfl (Nat.le_refl _)), hturn.rebuilds,
      fun w r' hr' => ?_⟩
    by_cases hw : w = u
    · subst hw
      rw [hdb, hr'] at hr
      cases hr
      exact ⟨_, World.saved_db_self r, hmarked r hr'⟩
    · obtain ⟨r'', hr'', hm⟩ := hturn.row w r' hr'
      exact ⟨r'', (World.saved_db_of_ne hw r).trans hr'', hm⟩
  exact (hload.bind fun _ => hstop.bind fun _ => hsave).final rfl

theorem beside_play (d : Deed) (s : World) : Beside s (d.play env s) ∧ (d.play env s).mem = s.mem := by
  cases d with
  | ownerStops u =>
      exact ⟨(beside_stopByOwner u s).of_same (fun _ => calmer_of_same rfl (Nat.le_refl _)) rfl rfl, rfl⟩
  | sandboxDies pod =>
      refine ⟨(Beside.refl s).of_same (fun n => calmer_map (f := killIn pod) (fun x => ?_) (fun x _ hx => ?_)
        rfl (Nat.le_refl _)) rfl rfl, rfl⟩
      · unfold killIn
        split <;> rfl
      · simp [killIn, hx]
  | forgets id =>
      exact ⟨(Beside.refl s).of_same (fun n =>
        calmer_drop (p := fun x => Decidable.decide (x ≠ id)) rfl (Nat.le_refl _)) rfl rfl, rfl⟩

theorem beside_plays (ds : List Deed) (s : World) :
    Beside s (steps (Deed.play env) ds s) ∧ (steps (Deed.play env) ds s).mem = s.mem := by
  induction ds generalizing s with
  | nil => exact ⟨Beside.refl s, rfl⟩
  | cons d ds ih =>
      obtain ⟨hfirst, hmem⟩ : Beside s (d.play env s) ∧ (d.play env s).mem = s.mem := beside_play d s
      obtain ⟨hrest, hmem'⟩ := ih (d.play env s)
      exact ⟨hfirst.trans hrest, hmem'.trans hmem⟩

/-! ## Runs -/

/-- The world at the turn of a capsule whose objects were read in `s`. -/
def atTurn (env : Env) (c : Capsule) (meanwhile : List Deed) (s : World) : World :=
  steps (Deed.play env) meanwhile (loadCapsule c s).2

inductive Event where
  | deed (d : Deed)
  /-- A sweep, with what others do between its reads and the capsule's turn. -/
  | sweep (meanwhile : List Deed)
deriving DecidableEq

def Event.play (env : Env) (c : Capsule) : Event → World → World
  | .deed d, s => d.play env s
  | .sweep meanwhile, s => afterTurn env c (atTurn env c meanwhile s)

/-- Every member has a row, and its ids were given out. -/
structure Sound (c : Capsule) (s : World) : Prop where
  row : ∀ u ∈ members c, ∃ r, s.db u = some r ∧ Issued s.nextId r

theorem load_members (us : List Uuid) (s : World) :
    ∃ mem, forEach us load s = (.ok (), { s with mem }) ∧
      (∀ u r, u ∈ us → s.db u = some r → mem u = Obj.of r) ∧ ∀ u, u ∉ us → mem u = s.mem u := by
  induction us generalizing s with
  | nil => exact ⟨s.mem, rfl, fun _ _ h => absurd h List.not_mem_nil, fun _ _ => rfl⟩
  | cons w us ih =>
      have hload : ∃ mem, load w s = (.ok (), { s with mem }) ∧
          (∀ r, s.db w = some r → mem w = Obj.of r) ∧ ∀ u, u ≠ w → mem u = s.mem u := by
        cases hrow : s.db w with
        | none =>
            refine ⟨s.mem, ?_, fun _ h => (by cases h), fun _ _ => rfl⟩
            change wp (load w) (fun r s' => (r, s') = (.ok (), s)) s
            unfold load
            rw [wp_bind, wp_read, seqPost_ok, hrow]
            rfl
        | some r =>
            refine ⟨Function.update s.mem w (Obj.of r), ?_, fun r' h => ?_, fun u hu => Function.update_of_ne hu ..⟩
            · change wp (load w) (fun r' s' => (r', s') = (.ok (), _)) s
              unfold load
              rw [wp_bind, wp_read, seqPost_ok, hrow]
              rfl
            · cases h
              exact Function.update_self ..
      obtain ⟨mem₁, hrun₁, hread₁, hsame₁⟩ := hload
      obtain ⟨mem₂, hrun₂, hread₂, hsame₂⟩ := ih { s with mem := mem₁ }
      refine ⟨mem₂, ?_, fun u r hu hr => ?_, fun u hu => ?_⟩
      · change andThen (load w) _ s = _
        unfold andThen
        rw [hrun₁]
        exact hrun₂
      · by_cases hin : u ∈ us
        · exact hread₂ u r hin hr
        · have huw : u = w := (List.mem_cons.mp hu).resolve_right hin
          subst huw
          rw [hsame₂ u hin]
          exact hread₁ r hr
      · rw [List.mem_cons, not_or] at hu
        rw [hsame₂ u hu.2]
        exact hsame₁ u hu.1

theorem loadCapsule_beside (c : Capsule) (s : World) : Beside s (loadCapsule c s).2 ∧
    ∀ u ∈ members c, ∀ r, s.db u = some r → ((loadCapsule c s).2.mem u) = Obj.of r := by
  obtain ⟨mem, hrun, hread, _⟩ := load_members (c.uuid :: members c) s
  have hworld : (loadCapsule c s).2 = { s with mem } := congrArg Prod.snd hrun
  rw [hworld]
  exact ⟨(Beside.refl s).of_same (fun _ => calmer_of_same rfl (Nat.le_refl _)) rfl rfl,
    fun u hu r hr => hread u r (List.mem_cons_of_mem _ hu) hr⟩

/-- What is known at the turn of a capsule if the members of `D` rest. -/
def viewOf (D : Uuid → Prop) (s : World) : View where
  policy u := (s.mem u).val.restartPolicy
  given u := D u ∧ ∃ r, s.db u = some r ∧ GivenUp r
  ended u := D u ∧ ¬ ∃ r, s.db u = some r ∧ GivenUp r
  bound := s.nextId
  log := s.log
  rebuilds := s.rebuilds

theorem down_viewOf {D : Uuid → Prop} : (viewOf D s).Down u ↔ D u := by
  refine ⟨fun h => h.elim And.left And.left, fun h => ?_⟩
  by_cases hup : ∃ r, s.db u = some r ∧ GivenUp r
  · exact .inl ⟨h, hup⟩
  · exact .inr ⟨h, hup⟩

/-- The members of `D` have a row that rests. -/
def Resting (D : Uuid → Prop) (s : World) : Prop := ∀ u, D u → Rests s u

theorem Sound.beside (h : Sound c s) (hb : Beside s s') : Sound c s' where
  row u hu := by
    obtain ⟨r, hr, hissued⟩ := h.row u hu
    obtain ⟨r', hr', hmarked⟩ := hb.row u r hr
    refine ⟨r', hr', fun id hid => ?_⟩
    exact Nat.lt_of_lt_of_le (hissued id (hmarked.containerId ▸ hid)) (hb.calmer 0).nextId

theorem Resting.beside {D : Uuid → Prop} (h : Resting D s) (hs : Sound c s) (hD : ∀ u, D u → u ∈ members c)
    (hb : Beside s s') : Resting D s' := by
  intro u hu
  obtain ⟨r, hr, hrest⟩ := h u hu
  obtain ⟨r', hr', hmarked⟩ := hb.row u r hr
  obtain ⟨r₀, hr₀, hissued⟩ := hs.row u (hD u hu)
  rw [hr] at hr₀
  cases hr₀
  refine ⟨r', hr', hrest.imp hmarked.givenUp.mpr fun hended => hmarked.ended ?_⟩
  exact (hb.calmer s.nextId).ended hissued hended

theorem inv_atTurn {D : Uuid → Prop} (hs : Sound c s) (hrest : Resting D s) (hD : ∀ u, D u → u ∈ members c)
    (ds : List Deed) : Inv c (viewOf D (atTurn env c ds s)) (atTurn env c ds s) := by
  obtain ⟨hload, hread⟩ := loadCapsule_beside c s
  obtain ⟨hdeeds, hmem⟩ : Beside (loadCapsule c s).2 (atTurn env c ds s) ∧
      (atTurn env c ds s).mem = (loadCapsule c s).2.mem := beside_plays ds _
  have hb : Beside s (atTurn env c ds s) := hload.trans hdeeds
  have hs' := hs.beside hb
  have hrest' := hrest.beside hs hD hb
  refine ⟨Nat.le_refl _, fun u hu => ?_, ⟨[], rfl, fun _ _ _ _ h => absurd h List.not_mem_nil⟩, fun _ => rfl⟩
  obtain ⟨r, hr, hissued⟩ := hs.row u hu
  obtain ⟨r', hr', hmarked⟩ := hb.row u r hr
  have hobj : (atTurn env c ds s).mem u = Obj.of r := by
    rw [hmem]
    exact hread u hu r hr
  have hissued' : Issued (atTurn env c ds s).nextId r := fun id hid =>
    Nat.lt_of_lt_of_le (hissued id hid) (hb.calmer 0).nextId
  have hval : Fit ((viewOf D (atTurn env c ds s)).policy u) ((viewOf D (atTurn env c ds s)).given u)
      ((viewOf D (atTurn env c ds s)).ended u) (atTurn env c ds s).nextId (atTurn env c ds s) r := by
    refine ⟨?_, hissued', fun hgiven => ?_, fun hended => ?_, fun _ => hissued'⟩
    · show r.restartPolicy = ((atTurn env c ds s).mem u).val.restartPolicy
      rw [hobj]
      rfl
    · obtain ⟨_, r'', hr'', hup⟩ := hgiven
      rw [hr'] at hr''
      cases hr''
      exact hmarked.givenUp.mp hup
    · obtain ⟨hDu, hnot⟩ := hended
      obtain ⟨r₀, hr₀, hr₀rest⟩ := hrest u hDu
      rw [hr] at hr₀
      cases hr₀
      rcases hr₀rest with hup | hend
      · exact absurd ⟨r', hr', hmarked.givenUp.mpr hup⟩ hnot
      · exact (hb.calmer s.nextId).ended hissued hend
  have hrow : Fit ((viewOf D (atTurn env c ds s)).policy u) ((viewOf D (atTurn env c ds s)).given u)
      ((viewOf D (atTurn env c ds s)).ended u) (atTurn env c ds s).nextId (atTurn env c ds s) r' :=
    ⟨hmarked.restartPolicy.trans hval.policy, fun id hid => hissued' id (hmarked.containerId ▸ hid),
      fun hgiven => hmarked.givenUp.mpr (hval.given hgiven),
      fun hended => hmarked.ended (hval.ended hended), fun _ id hid => hissued' id (hmarked.containerId ▸ hid)⟩
  refine ⟨r', hr', ?_⟩
  rw [hobj]
  exact ⟨hrow, hval, hrow, hmarked.containerId⟩

theorem Inv.sound (h : Inv c v s) : Sound c s where
  row u hu := by
    obtain ⟨r, hr, hheld⟩ := h.member u hu
    exact ⟨r, hr, hheld.row.issued⟩

theorem Inv.resting {D : Uuid → Prop} (h : Inv c v s) (hD : ∀ u, D u → u ∈ members c)
    (hdown : ∀ u, D u → v.Down u) : Resting D s := by
  intro u hu
  obtain ⟨r, hr, hheld⟩ := h.member u (hD u hu)
  exact ⟨r, hr, (hdown u hu).imp hheld.row.given hheld.row.ended⟩

/-- What holds of every state of a run holds, and the members that rest go on resting. -/
theorem resting_play {D : Uuid → Prop} (hD : ∀ u, D u → u ∈ members c) (e : Event)
    (h : Sound c s ∧ Resting D s) : Sound c (e.play env c s) ∧ Resting D (e.play env c s) := by
  cases e with
  | deed d =>
      have hb : Beside s (d.play env s) := (beside_play d s).1
      exact ⟨h.1.beside hb, h.2.beside h.1 hD hb⟩
  | sweep meanwhile =>
      have hinv : Inv c (viewOf D (atTurn env c meanwhile s)) (afterTurn env c (atTurn env c meanwhile s)) :=
        (inv_atTurn h.1 h.2 hD meanwhile).afterTurn
      exact ⟨hinv.sound, hinv.resting hD fun u hu => down_viewOf.mpr hu⟩

theorem resting_plays {D : Uuid → Prop} (hD : ∀ u, D u → u ∈ members c) (es : List Event)
    (h : Sound c s ∧ Resting D s) :
    Sound c (steps (Event.play env c) es s) ∧ Resting D (steps (Event.play env c) es s) := by
  induction es generalizing s with
  | nil => exact h
  | cons e es ih => exact ih (resting_play hD e h)

/-! ## No later sweep -/

/-- The turn stops the sidecar `m`, since the main members are finished. -/
structure Stops (env : Env) (c : Capsule) (s : World) (m : Uuid) : Prop where
  found : ∃ sidecars t, (lookOver env c s).1 = .ok (some (sidecars, t)) ∧ m ∈ sidecars
  mains : ∀ u ∈ c.containers, finished ((lookOver env c s).2.mem u).val = true
  running : ((lookOver env c s).2.mem m).val.status = .running
  stopped : ((afterTurn env c s).mem m).val.status = .stopped

/-- The turn asks the runtime for a new container of `u`. -/
def Restarts (env : Env) (c : Capsule) (s : World) (u : Uuid) : Prop :=
  ∃ calls, (afterTurn env c s).log = calls ++ s.log ∧
    ∃ pod k a, (Call.createContainer pod u k, a) ∈ calls

/-- The turn restarts no main member, has none rebuilt, and does not restart `m`. -/
structure LeavesAlone (env : Env) (c : Capsule) (m : Uuid) (s : World) : Prop where
  mains : ∀ u ∈ c.containers, ¬ Restarts env c s u
  rebuilds : (afterTurn env c s).rebuilds = s.rebuilds
  sidecar : ¬ Restarts env c s m

/-- Whatever comes after the turn, no later turn restarts a main member, or `m`. -/
def Outlives (env : Env) (c : Capsule) (m : Uuid) (s : World) : Prop :=
  ∀ es ds, LeavesAlone env c m (atTurn env c ds (steps (Event.play env c) es (afterTurn env c s)))

/-- When the turn comes to the sidecars, the rows of the main members and the runtime say that they are
finished. -/
def Over (env : Env) (c : Capsule) (s : World) : Prop := ∀ u ∈ c.containers, Rests (lookOver env c s).2 u

/-- No save of the row of `m` is refused once the turn has come to the sidecars. -/
def Saved (env : Env) (c : Capsule) (m : Uuid) (s : World) : Prop :=
  ∀ calls, (afterTurn env c s).log = calls ++ (lookOver env c s).2.log →
    ∀ r a, (Call.save m r, a) ∈ calls → a = .ok

theorem leavesAlone_of_resting (h : Sound c s) (hm : m ∈ members c)
    (hrest : Resting (fun u => u ∈ c.containers ∨ u = m) s) (ds : List Deed) :
    LeavesAlone env c m (atTurn env c ds s) := by
  have hD : ∀ u, u ∈ c.containers ∨ u = m → u ∈ members c := by
    rintro u (hu | rfl)
    · exact List.mem_append_right _ hu
    · exact hm
  have hinv : Inv c (viewOf (fun u => u ∈ c.containers ∨ u = m) (atTurn env c ds s))
      (afterTurn env c (atTurn env c ds s)) := (inv_atTurn h hrest hD ds).afterTurn
  have hno : ∀ u, u ∈ c.containers ∨ u = m → ¬ Restarts env c (atTurn env c ds s) u := by
    rintro u hu ⟨calls, hcalls, pod, k, a, hmem⟩
    obtain ⟨calls', hcalls', hnone⟩ := hinv.calls
    have hsame : calls = calls' := List.append_cancel_right (hcalls.symm.trans hcalls')
    exact hnone pod u k a (hsame ▸ hmem) (down_viewOf.mpr hu)
  exact ⟨fun u hu => hno u (.inl hu), hinv.rebuilds fun u hu => down_viewOf.mpr (.inl hu), hno m (.inr rfl)⟩

/-- After a turn that has stopped a sidecar, the main members rest if they are finished, and so does the
sidecar if its mark was saved. -/
theorem resting_afterTurn (h : Inv c v s) (hstops : Stops env c s m) (hover : Over env c s)
    (hsaved : Saved env c m s) : m ∈ members c ∧ Sound c (afterTurn env c s) ∧
      Resting (fun u => u ∈ c.containers ∨ u = m) (afterTurn env c s) := by
  obtain ⟨sidecars, t, hfound, hmem⟩ := hstops.found
  obtain ⟨s₁, hs₁⟩ : ∃ s₁, lookOver env c s = (.ok (some (sidecars, t)), s₁) := ⟨_, Prod.ext hfound rfl⟩
  have hlook : Inv c v s₁ ∧ ∀ w ∈ sidecars, w ∈ c.initContainers := by
    have hend : wp (lookOver env c) _ s := keeps_lookOver s h
    unfold wp at hend
    rw [hs₁] at hend
    exact ⟨hend.1, hend.2 sidecars t rfl⟩
  have hm := hlook.2 m hmem
  have hrunning : (s₁.mem m).val.status = .running := by simpa [hs₁] using hstops.running
  have hstopping : Stopping c v m s₁.log s₁ :=
    ⟨hlook.1, ⟨[], rfl⟩, fun u hu => by simpa [hs₁] using hover u hu, .inl (by simp [hrunning])⟩
  have hend : Stopping c v m s₁.log (afterTurn env c s) := by
    have hrun : afterTurn env c s = (rollUp env c sidecars t s₁).2 := by
      unfold afterTurn
      rw [sweepCapsule_eq]
      show (andThen _ _ s).2 = _
      rw [andThen, hs₁]
      rfl
    rw [hrun]
    exact (stopping_rollUp t hm hlook.2).final hstopping
  refine ⟨List.mem_append_left _ hm, hend.inv.sound, fun u hu => ?_⟩
  rcases hu with hu | rfl
  · exact hend.mains u hu
  · rcases hend.noted with hstatus | hrests | ⟨calls, hcalls, r, a, hcall, ha⟩
    · exact absurd hstops.stopped hstatus
    · exact hrests
    · exact absurd (hsaved calls (by simpa [hs₁] using hcalls) r a hcall) ha

/-- In every run from a sound world: once a turn has stopped a sidecar because the main members are
finished, no later turn restarts one of them, or that sidecar, if their rows say that they are finished and
the sidecar's mark was saved. -/
theorem outlives_of_over (h : Sound c s) (es : List Event) (ds : List Deed)
    (hstops : Stops env c (atTurn env c ds (steps (Event.play env c) es s)) m)
    (hover : Over env c (atTurn env c ds (steps (Event.play env c) es s)))
    (hsaved : Saved env c m (atTurn env c ds (steps (Event.play env c) es s))) :
    Outlives env c m (atTurn env c ds (steps (Event.play env c) es s)) := by
  have hnone : ∀ u, False → u ∈ members c := fun _ hu => hu.elim
  have hreached : Sound c (steps (Event.play env c) es s) ∧
      Resting (fun _ => False) (steps (Event.play env c) es s) :=
    resting_plays hnone es ⟨h, fun _ hu => hu.elim⟩
  have hinv : Inv c (viewOf (fun _ => False) (atTurn env c ds (steps (Event.play env c) es s)))
      (atTurn env c ds (steps (Event.play env c) es s)) := inv_atTurn hreached.1 hreached.2 hnone ds
  obtain ⟨hm, hsound, hrest⟩ := resting_afterTurn hinv hstops hover hsaved
  intro es' ds'
  have hD : ∀ u, u ∈ c.containers ∨ u = m → u ∈ members c := by
    rintro u (hu | rfl)
    · exact List.mem_append_right _ hu
    · exact hm
  obtain ⟨hsound', hrest'⟩ : Sound c (steps (Event.play env c) es' _) ∧ Resting _ _ :=
    resting_plays hD es' ⟨hsound, hrest⟩
  exact leavesAlone_of_resting hsound' hm hrest' ds'

/-- A capsule with a sidecar and a main member. -/
def pod : Capsule := { uuid := 4, containers := [3], initContainers := [2] }

/-- Both run, and the main member is to be restarted when it fails. -/
def serving : World :=
  { World.ofRows [(4, { status := .running, containerId := some 1 }),
      (2, { status := .running, containerId := some 2, startedAt := some 0,
            restartPolicy := some { name := .always } }),
      (3, { status := .running, containerId := some 3, startedAt := some 0,
            restartPolicy := some { name := .onFailure } })] with
    sandboxes := [{ id := 1, owner := 4 }]
    containers := [{ id := 2, sandbox := 1, name := 2, attempt := 0, state := .running },
      { id := 3, sandbox := 1, name := 3, attempt := 0, state := .running }]
    nextId := 4 }

theorem sound_serving : Sound pod serving where
  row u hu := by
    have hcases : u = 2 ∨ u = 3 := by simpa [members, pod] using hu
    rcases hcases with rfl | rfl
    · exact ⟨_, rfl, fun id hid => by cases hid; decide⟩
    · exact ⟨_, rfl, fun id hid => by cases hid; decide⟩

/-- The main member exits with a code before the first call. -/
def exitsWith (code : Int) : Env where
  exits n := if n = 0 then [(3, code)] else []

/-- It fails, and its code cannot be read at the first try. -/
def unread : Env where
  exits n := if n = 0 then [(3, 1)] else []
  answer n k := if k = .containerStatus 3 ∧ n < 2 then .raise { cls := .rpcError .unavailable } else .ok

/-- The sidecar is stopped, and the next turn restarts the main member. -/
theorem not_outlives : ¬ ∀ (env : Env) (c : Capsule) (s : World), Sound c s →
    ∀ (es : List Event) (ds : List Deed) (m : Uuid),
      Stops env c (atTurn env c ds (steps (Event.play env c) es s)) m →
        Outlives env c m (atTurn env c ds (steps (Event.play env c) es s)) := by
  intro h
  have hstops : Stops unread pod (atTurn unread pod [] serving) 2 := by
    refine ⟨⟨[2], { counted := 1, running := 0, changed := true }, by decide +kernel, by decide⟩, ?_, ?_, ?_⟩
    · decide +kernel
    · decide +kernel
    · decide +kernel
  have hleft := h unread pod serving sound_serving [] [] 2 hstops [] []
  refine hleft.mains 3 (by decide) ⟨(afterTurn unread pod
    (atTurn unread pod [] (afterTurn unread pod (atTurn unread pod [] serving)))).log.take 17, ?_, 1, 1,
    .ok, ?_⟩
  · decide +kernel
  · decide +kernel

/-- The main member has done its work. -/
theorem over_exitsWell : Over (exitsWith 0) pod (atTurn (exitsWith 0) pod [] serving) := by
  intro u hu
  have hmain : u = 3 := by simpa [pod] using hu
  subst hmain
  have hrow : (lookOver (exitsWith 0) pod (atTurn (exitsWith 0) pod [] serving)).2.db 3
      = some { status := .stopped, statusDetail := some (.exit 0), containerId := some 3, exitCode := some 0,
               startedAt := some 0, restartPolicy := some { name := .onFailure } } := by decide +kernel
  have hfind : find 3 (lookOver (exitsWith 0) pod (atTurn (exitsWith 0) pod [] serving)).2
      = some { id := 3, sandbox := 1, name := 3, attempt := 0, state := .exited } := by decide +kernel
  refine ⟨_, hrow, .inr ⟨fun id x hid hx => ?_, fun h => ?_, fun _ => ⟨⟨0, rfl⟩, fun code h => ?_⟩⟩⟩
  · cases hid
    rw [hfind] at hx
    cases hx
    decide
  · cases h
  · cases h
    rfl

theorem outlives_small : Stops (exitsWith 0) pod (atTurn (exitsWith 0) pod [] serving) 2 ∧
    Outlives (exitsWith 0) pod 2 (atTurn (exitsWith 0) pod [] serving) := by
  have hstops : Stops (exitsWith 0) pod (atTurn (exitsWith 0) pod [] serving) 2 := by
    refine ⟨⟨[2], { counted := 1, running := 0, changed := true }, by decide +kernel, by decide⟩, ?_, ?_, ?_⟩
    · decide +kernel
    · decide +kernel
    · decide +kernel
  refine ⟨hstops, outlives_of_over sound_serving [] [] hstops over_exitsWell fun calls hcalls r a hmem => ?_⟩
  have hlog : (afterTurn (exitsWith 0) pod (atTurn (exitsWith 0) pod [] serving)).log
      = (afterTurn (exitsWith 0) pod (atTurn (exitsWith 0) pod [] serving)).log.take 3 ++
        (lookOver (exitsWith 0) pod (atTurn (exitsWith 0) pod [] serving)).2.log := by decide +kernel
  have hall : ∀ e ∈ (afterTurn (exitsWith 0) pod (atTurn (exitsWith 0) pod [] serving)).log.take 3,
      e.2 = .ok := by decide +kernel
  rw [List.append_cancel_right (hcalls.symm.trans hlog)] at hmem
  exact hall _ hmem

end Sidecars

end Cri

end Zun
