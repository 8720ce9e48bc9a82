import Zun.Container.DockerNetworkUse

/-!
# The hosts that share a Neutron network

The docker networks of one Neutron network share one address pool, which goes with any of them.  The
last host out is to remove it, and only the last.
-/

namespace Zun

open Effect

namespace DockerNetwork

variable {s : State} {j : Nat} {job : Job} {h : Host} {n : Net}

/-- While the Neutron network is there, a host removes its docker network only when no other host has
one. -/
def LastOut (e : Event) (s : State) : Prop :=
  ∀ h n, removes e s = some (h, n) → n ∈ s.neutron → ∀ h', h' ≠ h → (h', n) ∉ s.wrappers

/-- Who looks for other hosts' rows sees them all, and no other host makes its docker network between
that look and the removal. -/
def Patient : Event → State → Prop
  | .list j, s => ∀ job n rest, s.jobs j = some job → job.phase = .listing false n rest →
      ∀ r ∈ s.rows, r.net = n → r.host ≠ job.host → job.ctx.sees r = true
  | .wrap j, s => ∀ job n rest, s.jobs j = some job → job.phase = .wrapping .making n rest →
      n ∈ s.neutron → ∀ j' job' rest', s.jobs j' = some job' → job'.phase = .removing n rest' →
        job'.host = job.host
  | _, _ => True

/-! ## Rows and docker networks -/

/-- Every docker network has its row. -/
def HasRow (s : State) (h : Host) (n : Net) : Prop := ∃ r ∈ s.rows, isRow n h r = true

/-- What a job counts on. -/
def Job.Fine (s : State) (job : Job) : Prop :=
  match job.phase with
  | .wrapping .making n _ => (job.host, n) ∉ s.wrappers ∧ HasRow s job.host n
  | .unrecording n _ => (job.host, n) ∉ s.wrappers
  | .listing gone n _ => gone = true → n ∉ s.neutron
  | .removing n _ => n ∉ s.neutron ∨ ∀ h', h' ≠ job.host → (h', n) ∉ s.wrappers
  | _ => True

structure Recorded (s : State) : Prop where
  mutex : Mutex s
  rows : ∀ h n, (h, n) ∈ s.wrappers → HasRow s h n
  jobs : ∀ j job, s.jobs j = some job → job.Fine s

/-- The world of another job changes only where it is not at work. -/
structure Spares (s s' : State) (job : Job) : Prop where
  wrappers : ∀ n, job.Holds n → (job.host, n) ∈ s'.wrappers → (job.host, n) ∈ s.wrappers
  rows : ∀ n, job.Holds n → HasRow s job.host n → HasRow s' job.host n
  neutron : ∀ n, n ∈ s'.neutron → n ∈ s.neutron
  removing : ∀ n rest h', job.phase = .removing n rest → h' ≠ job.host → (h', n) ∈ s'.wrappers →
    n ∈ s.neutron → (h', n) ∈ s.wrappers

theorem Job.Fine.spared {s' : State} (hfine : job.Fine s) (hspares : Spares s s' job) : job.Fine s' := by
  unfold Job.Fine at hfine ⊢
  cases hphase : job.phase with
  | wrapping stage n rest =>
      cases stage with
      | making =>
          simp only [hphase] at hfine ⊢
          have hholds : job.Holds n := by simp [Job.Holds, hphase]
          exact ⟨fun hmem => hfine.1 (hspares.wrappers n hholds hmem), hspares.rows n hholds hfine.2⟩
      | looking => trivial
      | recording => trivial
  | unrecording n rest =>
      simp only [hphase] at hfine ⊢
      have hholds : job.Holds n := by simp [Job.Holds, hphase]
      exact fun hmem => hfine (hspares.wrappers n hholds hmem)
  | listing gone n rest =>
      simp only [hphase] at hfine ⊢
      exact fun hgone hmem => hfine hgone (hspares.neutron n hmem)
  | removing n rest =>
      simp only [hphase] at hfine ⊢
      rcases hfine with hgone | hothers
      · exact .inl fun hmem => hgone (hspares.neutron n hmem)
      · by_cases hn : n ∈ s.neutron
        · exact .inr fun h' hne hmem => hothers h' hne (hspares.removing n rest h' hphase hne hmem hn)
        · exact .inl fun hmem => hn (hspares.neutron n hmem)
  | _ => trivial

/-- A step of a job: the others are spared, and the job counts on what is there. -/
theorem Recorded.setJob {s' : State} {o : Option Job} (hrec : Recorded s) (hmutex : Mutex s')
    (hjobs : s'.jobs = (s.setJob j o).jobs)
    (hrows : ∀ h n, (h, n) ∈ s'.wrappers → HasRow s' h n)
    (hspares : ∀ j' job', j' ≠ j → s.jobs j' = some job' → Spares s s' job')
    (ho : ∀ job', o = some job' → job'.Fine s') : Recorded s' := by
  refine ⟨hmutex, hrows, fun j' job' hj' => ?_⟩
  rw [hjobs] at hj'
  rcases setJob_cases hj' with ⟨-, heq⟩ | ⟨hne, hold⟩
  · exact ho job' heq
  · exact (hrec.jobs j' job' hold).spared (hspares j' job' hne hold)

/-- A step that changes the job only. -/
theorem Spares.same {s' : State} (hwrappers : s'.wrappers = s.wrappers) (hrows : s'.rows = s.rows)
    (hneutron : s'.neutron = s.neutron) : Spares s s' job := by
  refine ⟨fun n _ hmem => hwrappers ▸ hmem, fun n _ hrow => ?_, fun n hmem => hneutron ▸ hmem,
    fun n rest h' _ _ hmem _ => hwrappers ▸ hmem⟩
  obtain ⟨r, hr, hisRow⟩ := hrow
  exact ⟨r, hrows ▸ hr, hisRow⟩

theorem Recorded.moves {s' : State} {o : Option Job} (hrec : Recorded s) (hmutex : Mutex s')
    (hjobs : s'.jobs = (s.setJob j o).jobs) (hwrappers : s'.wrappers = s.wrappers)
    (hrows : s'.rows = s.rows) (hneutron : s'.neutron = s.neutron)
    (ho : ∀ job', o = some job' → job'.Fine s') : Recorded s' := by
  refine hrec.setJob hmutex hjobs (fun h n hmem => ?_)
    (fun j' job' _ _ => Spares.same hwrappers hrows hneutron) ho
  obtain ⟨r, hr, hisRow⟩ := hrec.rows h n (hwrappers ▸ hmem)
  exact ⟨r, hrows ▸ hr, hisRow⟩

/-- The rows of one network on one host are dropped, by the job that is alone at work on it. -/
theorem HasRow.dropRows {k : Host} {m : Net} {seen : Row → Bool} (hrow : HasRow s h n)
    (hne : ¬ (h = k ∧ n = m)) : HasRow (s.dropRows m k seen) h n := by
  obtain ⟨r, hr, hisRow⟩ := hrow
  refine ⟨r, List.mem_filter.mpr ⟨hr, ?_⟩, hisRow⟩
  simp only [isRow, decide_eq_true_eq] at hisRow
  have hnot : isRow m k r = false := by
    simp only [isRow, decide_eq_false_iff_not]
    rintro ⟨hnet, hhost⟩
    exact hne ⟨hisRow.2.symm.trans hhost, hisRow.1.symm.trans hnet⟩
  simp [hnot]

theorem Spares.dropRows {s' : State} {k : Host} {m : Net} {seen : Row → Bool}
    (hwrappers : s'.wrappers = s.wrappers) (hrows : s'.rows = (s.dropRows m k seen).rows)
    (hneutron : s'.neutron = s.neutron) (hnot : job.host = k → ¬ job.Holds m) : Spares s s' job := by
  refine ⟨fun n _ hmem => hwrappers ▸ hmem, fun n hholds hrow => ?_, fun n hmem => hneutron ▸ hmem,
    fun n rest h' _ _ hmem _ => hwrappers ▸ hmem⟩
  have hkept : HasRow (s.dropRows m k seen) job.host n :=
    hrow.dropRows fun hsame => hnot hsame.1 (hsame.2 ▸ hholds)
  obtain ⟨r, hr, hisRow⟩ := hkept
  exact ⟨r, hrows ▸ hr, hisRow⟩

theorem Recorded.dropRows {s' : State} {o : Option Job} {m : Net} {seen : Row → Bool}
    (hrec : Recorded s) (hmutex : Mutex s') (hj : s.jobs j = some job) (hholds : job.Holds m)
    (hgone : (job.host, m) ∉ s.wrappers) (hjobs : s'.jobs = (s.setJob j o).jobs)
    (hwrappers : s'.wrappers = s.wrappers) (hrows : s'.rows = (s.dropRows m job.host seen).rows)
    (hneutron : s'.neutron = s.neutron) (ho : ∀ job', o = some job' → job'.Fine s') : Recorded s' := by
  refine hrec.setJob hmutex hjobs (fun h n hmem => ?_) (fun j' job' hne hj' => ?_) ho
  · rw [hwrappers] at hmem
    have hkept : HasRow (s.dropRows m job.host seen) h n := by
      refine (hrec.rows h n hmem).dropRows ?_
      rintro ⟨rfl, rfl⟩
      exact hgone hmem
    obtain ⟨r, hr, hisRow⟩ := hkept
    exact ⟨r, hrows ▸ hr, hisRow⟩
  · exact Spares.dropRows hwrappers hrows hneutron fun hhost =>
      hrec.mutex.alone hj hholds j' job' hne hj' hhost

theorem fine_wrapped {s' : State} {m : Net} {rest : List Net} : (job.wrapped m rest).Fine s' := by
  unfold Job.wrapped
  split
  · trivial
  · cases rest <;> trivial

theorem fine_toConnect {s' : State} {id : Nat} {nets : List Net} {phase : Phase}
    (hphase : toConnect id nets = some phase) : ({ job with phase } : Job).Fine s' := by
  cases nets with
  | nil => cases hphase
  | cons m rest =>
      cases hphase
      trivial

theorem recorded_step (e : Event) (hrec : Recorded s) (hpossible : Possible e s)
    (hcourteous : Courteous e s) (hpatient : Patient e s) : Recorded (step e s) := by
  have hmutex := mutex_step e hrec.mutex hpossible hcourteous
  cases e with
  | beginCreate j k ctx nets =>
      refine hrec.moves hmutex rfl rfl rfl rfl fun job' heq => ?_
      cases heq
      cases nets <;> trivial
  | beginAttach j k ctx container m =>
      refine hrec.moves hmutex rfl rfl rfl rfl fun job' heq => ?_
      cases heq
      trivial
  | beginDelete j k ctx container nets =>
      refine hrec.moves hmutex rfl rfl rfl rfl fun job' heq => ?_
      cases heq
      trivial
  | beginSweep j k =>
      refine hrec.moves hmutex rfl rfl rfl rfl fun job' heq => ?_
      cases heq
      trivial
  | look j =>
      obtain ⟨job, hj, m, rest, hphase, -⟩ := hpossible
      simp only [step, State.withJob, hj, stepLook, hphase] at hmutex ⊢
      by_cases hthere : (job.host, m) ∈ s.wrappers
      · rw [if_pos hthere] at hmutex ⊢
        exact hrec.moves hmutex rfl rfl rfl rfl fun job' heq => by cases heq; exact fine_wrapped
      · rw [if_neg hthere] at hmutex ⊢
        exact hrec.moves hmutex rfl rfl rfl rfl fun job' heq => by cases heq; trivial
  | record j =>
      obtain ⟨job, hj, m, rest, hphase, hnone⟩ := hpossible
      simp only [step, State.withJob, hj, stepRecord, hphase] at hmutex ⊢
      have hrow : ∀ h n, HasRow s h n →
          HasRow { s with rows := newRow job m :: s.rows } h n := fun h n hrow => by
        obtain ⟨r, hr, hisRow⟩ := hrow
        exact ⟨r, List.mem_cons_of_mem _ hr, hisRow⟩
      refine hrec.setJob hmutex rfl (fun h n hmem => hrow h n (hrec.rows h n hmem))
        (fun j' job' _ _ => ⟨fun n _ hmem => hmem, fun n _ => hrow _ n, fun n hmem => hmem,
          fun n rest h' _ _ hmem _ => hmem⟩) fun job' heq => ?_
      cases heq
      refine ⟨fun hmem => ?_, newRow job m, List.mem_cons_self, by simp [isRow, newRow]⟩
      obtain ⟨r, hr, hisRow⟩ := hrec.rows _ _ hmem
      cases (hnone r hr).symm.trans hisRow
  | stale j =>
      obtain ⟨job, hj, m, rest, hphase, hgone⟩ := hpossible
      simp only [step, State.withJob, hj, stepStale, hphase] at hmutex ⊢
      have hsame : (s.dropRows m job.host fun _ => true).jobs = (s.setJob j (some job)).jobs := by
        rw [State.setJob, ← hj, Function.update_eq_self]
        rfl
      refine hrec.dropRows hmutex hj (by simp [Job.Holds, hphase]) hgone hsame rfl rfl rfl fun job' heq => ?_
      cases heq
      simp [Job.Fine, hphase]
  | adopt j =>
      obtain ⟨job, hj, m, rest, hphase, -⟩ := hpossible
      simp only [step, State.withJob, hj, stepAdopt, hphase] at hmutex ⊢
      refine hrec.moves hmutex rfl rfl rfl rfl fun job' heq => ?_
      cases heq
      exact fine_wrapped
  | wrap j =>
      obtain ⟨job, hj, m, rest, hphase⟩ := hpossible
      have hholds : job.Holds m := by simp [Job.Holds, hphase]
      have hfine := hrec.jobs j job hj
      simp only [Job.Fine, hphase] at hfine
      simp only [step, State.withJob, hj, stepWrap, hphase] at hmutex ⊢
      refine hrec.setJob hmutex rfl (fun h n hmem => ?_) (fun j' job' hne hj' => ?_) fun job' heq => ?_
      · rcases List.mem_cons.mp hmem with heq | hold
        · cases heq
          exact hfine.2
        · exact hrec.rows h n hold
      · refine ⟨fun n hn hmem => ?_, fun n _ hrow => hrow, fun n hmem => hmem,
          fun n rest' h' hremoving hne' hmem hneutron => ?_⟩
        · rcases List.mem_cons.mp hmem with heq | hold
          · obtain ⟨hhost, rfl⟩ := Prod.mk.inj heq
            exact absurd hn (hrec.mutex.alone hj hholds j' job' hne hj' hhost)
          · exact hold
        · rcases List.mem_cons.mp hmem with heq | hold
          · obtain ⟨hhost, rfl⟩ := Prod.mk.inj heq
            have hsame := hpatient job n rest hj hphase hneutron j' job' rest' hj' hremoving
            exact absurd (hhost.trans hsame.symm) hne'
          · exact hold
      · cases heq
        exact fine_wrapped
  | wrapFails j =>
      obtain ⟨job, hj, m, rest, hphase⟩ := hpossible
      have hfine := hrec.jobs j job hj
      simp only [Job.Fine, hphase] at hfine
      simp only [step, State.withJob, hj, stepWrapFails, hphase] at hmutex ⊢
      exact hrec.dropRows hmutex hj (by simp [Job.Holds, hphase]) hfine.1 rfl rfl rfl rfl (by rintro _ ⟨⟩)
  | make j id =>
      obtain ⟨job, hj, -⟩ := hpossible
      simp only [step, State.withJob, hj, stepMake] at hmutex ⊢
      refine hrec.moves hmutex rfl rfl rfl rfl fun job' heq => ?_
      obtain ⟨phase, hphase, rfl⟩ := Option.map_eq_some_iff.mp heq
      exact fine_toConnect hphase
  | connect j =>
      obtain ⟨job, hj, id, m, rest, hphase⟩ := hpossible
      simp only [step, State.withJob, hj, stepConnect, hphase] at hmutex ⊢
      refine hrec.moves hmutex rfl rfl rfl rfl fun job' heq => ?_
      obtain ⟨phase, hphase, rfl⟩ := Option.map_eq_some_iff.mp heq
      exact fine_toConnect hphase
  | attach j =>
      obtain ⟨job, hj, id, m, hphase⟩ := hpossible
      simp only [step, State.withJob, hj, stepAttach, hphase] at hmutex ⊢
      exact hrec.moves hmutex rfl rfl rfl rfl (by rintro _ ⟨⟩)
  | disconnect j =>
      obtain ⟨job, hj, id, rest, hphase⟩ := hpossible
      cases rest with
      | nil =>
          simp only [step, State.withJob, hj, stepDisconnect, hphase] at hmutex ⊢
          exact hrec.moves hmutex rfl rfl rfl rfl fun job' heq => by cases heq; trivial
      | cons m rest =>
          simp only [step, State.withJob, hj, stepDisconnect, hphase] at hmutex ⊢
          exact hrec.moves hmutex rfl rfl rfl rfl fun job' heq => by cases heq; trivial
  | remove j =>
      obtain ⟨job, hj, id, hphase⟩ := hpossible
      simp only [step, State.withJob, hj, stepRemove, hphase] at hmutex ⊢
      exact hrec.moves hmutex rfl rfl rfl rfl fun job' heq => by cases heq; trivial
  | inspect j =>
      obtain ⟨job, hj, m, rest, hphase, -⟩ := hpossible
      simp only [step, State.withJob, hj, stepInspect, hphase] at hmutex ⊢
      by_cases hgone : (job.host, m) ∉ s.wrappers
      · rw [if_pos hgone] at hmutex ⊢
        exact hrec.moves hmutex rfl rfl rfl rfl fun job' heq => by cases heq; exact hgone
      · rw [if_neg hgone] at hmutex ⊢
        split at hmutex
        case isTrue hused =>
          rw [if_pos hused]
          exact hrec.moves hmutex rfl rfl rfl rfl fun job' heq => by cases heq; trivial
        case isFalse hused =>
          rw [if_neg hused]
          exact hrec.moves hmutex rfl rfl rfl rfl fun job' heq => by cases heq; trivial
  | ask j answers =>
      obtain ⟨job, hj, m, rest, hphase⟩ := hpossible
      simp only [step, State.withJob, hj, stepAsk, hphase] at hmutex ⊢
      refine hrec.moves hmutex rfl rfl rfl rfl fun job' heq => ?_
      cases heq
      intro hgone
      exact (of_decide_eq_true hgone).2
  | list j =>
      obtain ⟨job, hj, gone, m, rest, hphase⟩ := hpossible
      have hfine := hrec.jobs j job hj
      simp only [Job.Fine, hphase] at hfine
      simp only [step, State.withJob, hj, stepList, hphase] at hmutex ⊢
      by_cases hkeep : elsewhere s job.ctx job.host m ≠ [] ∧ gone = false
      · rw [if_pos hkeep] at hmutex ⊢
        exact hrec.moves hmutex rfl rfl rfl rfl fun job' heq => by cases heq; trivial
      · rw [if_neg hkeep] at hmutex ⊢
        refine hrec.moves hmutex rfl rfl rfl rfl fun job' heq => ?_
        cases heq
        cases gone with
        | true => exact .inl (hfine rfl)
        | false =>
            refine .inr fun h' hne hmem => hkeep ⟨?_, rfl⟩
            -- The other host's docker network has its row, and the job sees it.
            obtain ⟨r, hr, hisRow⟩ := hrec.rows h' m hmem
            simp only [isRow, decide_eq_true_eq] at hisRow
            have hother : r.host ≠ job.host := fun hsame => hne (hisRow.2.symm.trans hsame)
            have hsees := hpatient job m rest hj hphase r hr hisRow.1 hother
            have hlisted : r ∈ elsewhere s job.ctx job.host m :=
              List.mem_filter.mpr ⟨hr, by simp [hsees, hisRow.1, hother]⟩
            exact List.ne_nil_of_mem hlisted
  | removeNetwork j ok =>
      obtain ⟨job, hj, m, rest, hphase, -⟩ := hpossible
      simp only [step, State.withJob, hj, stepRemoveNetwork, hphase] at hmutex ⊢
      cases ok with
      | false => exact hrec.moves hmutex rfl rfl rfl rfl fun job' heq => by cases heq; trivial
      | true =>
          have hsub : ∀ {h n}, (h, n) ∈ s.wrappers.filter (· ≠ (job.host, m)) → (h, n) ∈ s.wrappers :=
            fun hmem => (List.mem_filter.mp hmem).1
          refine hrec.setJob hmutex rfl (fun h n hmem => hrec.rows h n (hsub hmem))
            (fun j' job' _ _ => ⟨fun n _ hmem => hsub hmem, fun n _ hrow => hrow, fun n hmem => hmem,
              fun n rest h' _ _ hmem _ => hsub hmem⟩) fun job' heq => ?_
          cases heq
          exact fun hmem => by simpa using (List.mem_filter.mp hmem).2
  | unrecord j =>
      obtain ⟨job, hj, m, rest, hphase⟩ := hpossible
      have hfine := hrec.jobs j job hj
      simp only [Job.Fine, hphase] at hfine
      simp only [step, State.withJob, hj, stepUnrecord, hphase] at hmutex ⊢
      exact hrec.dropRows hmutex hj (by simp [Job.Holds, hphase]) hfine rfl rfl rfl rfl
        fun job' heq => by cases heq; trivial
  | finish j =>
      obtain ⟨job, hj, -⟩ := hpossible
      simp only [step, State.withJob, hj, stepFinish] at hmutex ⊢
      exact hrec.moves hmutex rfl rfl rfl rfl (by rintro _ ⟨⟩)
  | fail j => exact hrec.moves hmutex rfl rfl rfl rfl (by rintro _ ⟨⟩)
  | start id => exact ⟨hmutex, hrec.rows, hrec.jobs⟩
  | stop id => exact ⟨hmutex, hrec.rows, hrec.jobs⟩
  | neutronDeletes m =>
      refine ⟨hmutex, hrec.rows, fun j' job' hj' => (hrec.jobs j' job' hj').spared ?_⟩
      exact ⟨fun n _ hmem => hmem, fun n _ hrow => hrow, fun n hmem => (List.mem_filter.mp hmem).1,
        fun n rest h' _ _ hmem _ => hmem⟩

theorem recorded_of_patient
    (h : Reached Begun step (fun e s => Possible e s ∧ Courteous e s ∧ Patient e s) s) : Recorded s := by
  refine Reached.invariant h (fun s hs => ?_) fun e s hok hs => ?_
  · refine ⟨fun j j' job job' n hj => ?_, hs.rows, fun j job hj => ?_⟩ <;>
      cases (hs.jobs j).symm.trans hj
  · exact recorded_step e hs hok.1 hok.2.1 hok.2.2

theorem Recorded.lastOut (hrec : Recorded s) (e : Event) : LastOut e s := by
  intro h n hremoves hneutron
  unfold removes at hremoves
  split at hremoves
  case h_1 j =>
    obtain ⟨job, hj, hphase⟩ := Option.bind_eq_some_iff.mp hremoves
    split at hphase
    case h_1 m rest hremoving =>
      cases hphase
      have hfine := hrec.jobs j job hj
      simp only [Job.Fine, hremoving] at hfine
      exact hfine.resolve_left fun hgone => hgone hneutron
    · cases hphase
  · cases hremoves

/-! ## Sweeps -/

/-- No job is under way, and no container is on the network. -/
structure Idle (n : Net) (s : State) : Prop where
  jobs : ∀ j, s.jobs j = none
  containers : ∀ h, ¬ OnNet s.containers h n

/-- One host at most has a row of the network, or Neutron does not have it any more. -/
def Sole (n : Net) (s : State) : Prop :=
  (∃ h, ∀ r ∈ s.rows, r.net = n → r.host = h) ∨ n ∉ s.neutron

/-- A step of a sweep whose calls succeed. -/
def Sweeping : Event → Prop
  | .beginSweep _ _ | .inspect _ | .list _ | .unrecord _ | .finish _ => True
  | .ask _ answers => answers = true
  | .removeNetwork _ ok => ok = true
  | _ => False

/-- The network is still ahead of the sweep. -/
def Job.Ahead (job : Job) (n : Net) (gone : Bool) : Prop :=
  match job.phase with
  | .releasing rest => n ∈ rest
  | .asking m rest | .removing m rest | .unrecording m rest => n = m ∨ n ∈ rest
  | .listing gone' m rest => (n = m ∧ (gone = true → gone' = true)) ∨ n ∈ rest
  | _ => False

/-- What the sweeps keep. -/
structure Swept (n : Net) (s : State) : Prop where
  containers : ∀ h, ¬ OnNet s.containers h n
  sole : Sole n s
  rows : ∀ h, (h, n) ∈ s.wrappers → HasRow s h n
  sweeps : ∀ j job, s.jobs j = some job → job.kind = .sweep ∧ job.ctx = adminContext
  unrecording : ∀ j job m rest, s.jobs j = some job → job.phase = .unrecording m rest →
    (job.host, m) ∉ s.wrappers
  ahead : ∀ j job, s.jobs j = some job → HasRow s job.host n → job.Ahead n (n ∉ s.neutron)
  swept : ∀ h ∈ s.swept, ¬ HasRow s h n

theorem adminContext_sees (r : Row) : adminContext.sees r = true := rfl

theorem mem_sweptNets (hrow : HasRow s h n) : n ∈ sweptNets s h := by
  obtain ⟨r, hr, hisRow⟩ := hrow
  simp only [isRow, decide_eq_true_eq] at hisRow
  refine List.mem_dedup.mpr (List.mem_map.mpr ⟨r, List.mem_filter.mpr ⟨hr, ?_⟩, hisRow.1⟩)
  simp [adminContext_sees, hisRow.2]

theorem not_inUse (hcontainers : ¬ OnNet s.containers h n) : inUse s h n = false := by
  unfold inUse
  rw [List.any_eq_false]
  intro c hc hcond
  simp only [decide_eq_true_eq] at hcond
  exact hcontainers ⟨c, hc, hcond.1, hcond.2.2⟩

/-- What holds of a job of the sweeps. -/
structure Job.Sweeps (n : Net) (s : State) (job : Job) : Prop where
  sweeps : job.kind = .sweep ∧ job.ctx = adminContext
  unrecording : ∀ m rest, job.phase = .unrecording m rest → (job.host, m) ∉ s.wrappers
  ahead : HasRow s job.host n → job.Ahead n (n ∉ s.neutron)

/-- A step that changes neither rows nor docker networks. -/
theorem Swept.setJob {o : Option Job} (hs : Swept n s) (ho : ∀ job', o = some job' → job'.Sweeps n s) :
    Swept n (s.setJob j o) := by
  have hjobs : ∀ j' job', (s.setJob j o).jobs j' = some job' → job'.Sweeps n s := by
    intro j' job' hj'
    rcases setJob_cases hj' with ⟨-, heq⟩ | ⟨-, hold⟩
    · exact ho job' heq
    · exact ⟨hs.sweeps j' job' hold, fun m rest => hs.unrecording j' job' m rest hold, hs.ahead j' job' hold⟩
  exact ⟨hs.containers, hs.sole, hs.rows, fun j' job' hj' => (hjobs j' job' hj').sweeps,
    fun j' job' m rest hj' => (hjobs j' job' hj').unrecording m rest,
    fun j' job' hj' => (hjobs j' job' hj').ahead, hs.swept⟩

theorem Swept.goes {phase : Phase} (hs : Swept n s) (hj : s.jobs j = some job)
    (hunrecording : ∀ m rest, phase = .unrecording m rest → (job.host, m) ∉ s.wrappers)
    (hahead : HasRow s job.host n → ({ job with phase } : Job).Ahead n (n ∉ s.neutron)) :
    Swept n (s.goes j job phase) :=
  hs.setJob fun job' heq => by
    cases heq
    exact ⟨hs.sweeps j job hj, hunrecording, hahead⟩

/-- Docker networks and rows go, and the rest is as before. -/
theorem Swept.shrinks {s' : State} (hs : Swept n s) (hcontainers : s'.containers = s.containers)
    (hjobs : s'.jobs = s.jobs) (hneutron : s'.neutron = s.neutron) (hswept : s'.swept = s.swept)
    (hwrappers : ∀ x ∈ s'.wrappers, x ∈ s.wrappers) (hrows : ∀ r ∈ s'.rows, r ∈ s.rows)
    (hrow : ∀ h, (h, n) ∈ s'.wrappers → HasRow s' h n) : Swept n s' := by
  have hback : ∀ h, HasRow s' h n → HasRow s h n := fun h ⟨r, hr, hisRow⟩ => ⟨r, hrows r hr, hisRow⟩
  refine ⟨hcontainers ▸ hs.containers, ?_, hrow, hjobs ▸ hs.sweeps, fun j job m rest hj hphase hmem => ?_,
    fun j job hj hrow => ?_, fun h hh hrow => ?_⟩
  · rcases hs.sole with ⟨h, hsole⟩ | hgone
    · exact .inl ⟨h, fun r hr => hsole r (hrows r hr)⟩
    · exact .inr (hneutron ▸ hgone)
  · exact hs.unrecording j job m rest (hjobs ▸ hj) hphase (hwrappers _ hmem)
  · rw [hneutron]
    exact hs.ahead j job (hjobs ▸ hj) (hback _ hrow)
  · exact hs.swept h (hswept ▸ hh) (hback h hrow)

theorem swept_inspect {m : Net} {rest : List Net} (hs : Swept n s) (hj : s.jobs j = some job)
    (hphase : job.phase = .releasing (m :: rest)) : Swept n (stepInspect s j job) := by
  have hahead : HasRow s job.host n → n = m ∨ n ∈ rest := fun hrow => by
    have h := hs.ahead j job hj hrow
    simp only [Job.Ahead, hphase] at h
    exact List.mem_cons.mp h
  simp only [stepInspect, hphase]
  split
  case isTrue hgone =>
    refine hs.goes hj (fun m' rest' heq => ?_) hahead
    cases heq
    exact hgone
  case isFalse =>
    split
    case isTrue hused =>
      refine hs.goes hj (by rintro _ _ ⟨⟩) fun hrow => ?_
      rcases hahead hrow with rfl | hrest
      · cases hused.symm.trans (not_inUse (hs.containers job.host))
      · exact hrest
    case isFalse => exact hs.goes hj (by rintro _ _ ⟨⟩) hahead

theorem swept_ask {m : Net} {rest : List Net} (hs : Swept n s) (hj : s.jobs j = some job)
    (hphase : job.phase = .asking m rest) : Swept n (stepAsk s j job true) := by
  simp only [stepAsk, hphase]
  refine hs.goes hj (by rintro _ _ ⟨⟩) fun hrow => ?_
  have h := hs.ahead j job hj hrow
  simp only [Job.Ahead, hphase] at h
  rcases h with rfl | hrest
  · exact .inl ⟨rfl, fun hgone => by simpa using hgone⟩
  · exact .inr hrest

/-- Nobody else is in the way of a host that has a row. -/
theorem Swept.elsewhere_nil (hs : Swept n s) (hrow : HasRow s h n) (hneutron : n ∈ s.neutron)
    (ctx : Context) : elsewhere s ctx h n = [] := by
  rcases hs.sole with ⟨k, hsole⟩ | hgone
  · obtain ⟨r, hr, hisRow⟩ := hrow
    simp only [isRow, decide_eq_true_eq] at hisRow
    have hk : k = h := (hsole r hr hisRow.1).symm.trans hisRow.2
    refine List.filter_eq_nil_iff.mpr fun r' hr' hcond => ?_
    simp only [decide_eq_true_eq] at hcond
    exact hcond.2.2 ((hsole r' hr' hcond.2.1).trans hk)
  · exact absurd hneutron hgone

theorem swept_list {gone : Bool} {m : Net} {rest : List Net} (hs : Swept n s)
    (hj : s.jobs j = some job) (hphase : job.phase = .listing gone m rest) :
    Swept n (stepList s j job) := by
  have hahead : HasRow s job.host n →
      (n = m ∧ (n ∉ s.neutron → gone = true)) ∨ n ∈ rest := fun hrow => by
    have h := hs.ahead j job hj hrow
    simp only [Job.Ahead, hphase, decide_eq_true_eq] at h
    exact h
  simp only [stepList, hphase]
  split
  case isTrue hkeep =>
    refine hs.goes hj (by rintro _ _ ⟨⟩) fun hrow => ?_
    rcases hahead hrow with ⟨rfl, hgone⟩ | hrest
    · by_cases hneutron : n ∈ s.neutron
      · exact absurd (hs.elsewhere_nil hrow hneutron job.ctx) hkeep.1
      · cases hkeep.2.symm.trans (hgone hneutron)
    · exact hrest
  case isFalse => exact hs.goes hj (by rintro _ _ ⟨⟩) fun hrow => (hahead hrow).imp_left And.left

theorem swept_removeNetwork {m : Net} {rest : List Net} (hs : Swept n s) (hj : s.jobs j = some job)
    (hphase : job.phase = .removing m rest) : Swept n (stepRemoveNetwork s j job true) := by
  simp only [stepRemoveNetwork, hphase, if_true]
  have hsub : ∀ x ∈ s.wrappers.filter (· ≠ (job.host, m)), x ∈ s.wrappers :=
    fun x hx => (List.mem_filter.mp hx).1
  have hshrunk : Swept n { s with wrappers := s.wrappers.filter (· ≠ (job.host, m)) } :=
    hs.shrinks rfl rfl rfl rfl hsub (fun _ hr => hr) fun h hmem => hs.rows h (hsub _ hmem)
  refine hshrunk.goes hj (fun m' rest' heq => ?_) fun hrow => ?_
  · cases heq
    exact fun hmem => by simpa using (List.mem_filter.mp hmem).2
  · have h := hs.ahead j job hj hrow
    simp only [Job.Ahead, hphase] at h
    exact h

theorem swept_unrecord {m : Net} {rest : List Net} (hs : Swept n s) (hj : s.jobs j = some job)
    (hphase : job.phase = .unrecording m rest) : Swept n (stepUnrecord s j job) := by
  simp only [stepUnrecord, hphase]
  have hgone := hs.unrecording j job m rest hj hphase
  have hshrunk : Swept n (s.dropRows m job.host job.ctx.sees) := by
    refine hs.shrinks rfl rfl rfl rfl (fun _ hx => hx) (fun _ hr => (List.mem_filter.mp hr).1)
      fun h hmem => (hs.rows h hmem).dropRows ?_
    rintro ⟨rfl, rfl⟩
    exact hgone hmem
  refine hshrunk.goes hj (by rintro _ _ ⟨⟩) fun hrow => ?_
  have h := hs.ahead j job hj (by
    obtain ⟨r, hr, hisRow⟩ := hrow
    exact ⟨r, (List.mem_filter.mp hr).1, hisRow⟩)
  simp only [Job.Ahead, hphase] at h
  rcases h with rfl | hrest
  · -- Its own row is among those that were destroyed.
    obtain ⟨r, hr, hisRow⟩ := hrow
    have hkept := (List.mem_filter.mp hr).2
    rw [(hs.sweeps j job hj).2] at hkept
    simp [adminContext_sees, hisRow] at hkept
  · exact hrest

theorem swept_finish (hs : Swept n s) (hj : s.jobs j = some job) (hphase : job.phase = .releasing []) :
    Swept n (stepFinish s j job) := by
  have hnone : ¬ HasRow s job.host n := fun hrow => by
    have h := hs.ahead j job hj hrow
    simp only [Job.Ahead, hphase] at h
    exact absurd h List.not_mem_nil
  have hover : Swept n (s.setJob j none) := hs.setJob (by rintro _ ⟨⟩)
  unfold stepFinish
  rw [if_pos (hs.sweeps j job hj).1]
  refine ⟨hover.containers, hover.sole, hover.rows, hover.sweeps, hover.unrecording, hover.ahead,
    fun h hh => ?_⟩
  rcases List.mem_cons.mp hh with rfl | hold
  · exact hnone
  · exact hs.swept h hold

theorem swept_step (e : Event) (hs : Swept n s) (hpossible : Possible e s) (hsweeping : Sweeping e) :
    Swept n (step e s) := by
  cases e with
  | beginSweep j k =>
      refine hs.setJob fun job' heq => ?_
      cases heq
      exact ⟨⟨rfl, rfl⟩, by rintro _ _ ⟨⟩, fun hrow => mem_sweptNets hrow⟩
  | inspect j =>
      obtain ⟨job, hj, m, rest, hphase, -⟩ := hpossible
      simp only [step, State.withJob, hj]
      exact swept_inspect hs hj hphase
  | ask j answers =>
      obtain ⟨job, hj, m, rest, hphase⟩ := hpossible
      cases show answers = true from hsweeping
      simp only [step, State.withJob, hj]
      exact swept_ask hs hj hphase
  | list j =>
      obtain ⟨job, hj, gone, m, rest, hphase⟩ := hpossible
      simp only [step, State.withJob, hj]
      exact swept_list hs hj hphase
  | removeNetwork j ok =>
      obtain ⟨job, hj, m, rest, hphase, -⟩ := hpossible
      cases show ok = true from hsweeping
      simp only [step, State.withJob, hj]
      exact swept_removeNetwork hs hj hphase
  | unrecord j =>
      obtain ⟨job, hj, m, rest, hphase⟩ := hpossible
      simp only [step, State.withJob, hj]
      exact swept_unrecord hs hj hphase
  | finish j =>
      obtain ⟨job, hj, hphase⟩ := hpossible
      simp only [step, State.withJob, hj]
      exact swept_finish hs hj hphase
  | _ => exact hsweeping.elim

theorem rows_of_sweeping (e : Event) (hpossible : Possible e s) (hsweeping : Sweeping e) :
    ∀ r ∈ (step e s).rows, r ∈ s.rows := by
  cases e with
  | beginSweep j k => exact fun r hr => hr
  | inspect j =>
      obtain ⟨job, hj, m, rest, hphase, -⟩ := hpossible
      simp only [step, State.withJob, hj, stepInspect, hphase]
      split
      · exact fun r hr => hr
      · split <;> exact fun r hr => hr
  | ask j answers =>
      obtain ⟨job, hj, m, rest, hphase⟩ := hpossible
      simp only [step, State.withJob, hj, stepAsk, hphase]
      exact fun r hr => hr
  | list j =>
      obtain ⟨job, hj, gone, m, rest, hphase⟩ := hpossible
      simp only [step, State.withJob, hj, stepList, hphase]
      split <;> exact fun r hr => hr
  | removeNetwork j ok =>
      obtain ⟨job, hj, m, rest, hphase, -⟩ := hpossible
      simp only [step, State.withJob, hj, stepRemoveNetwork, hphase]
      split <;> exact fun r hr => hr
  | unrecord j =>
      obtain ⟨job, hj, m, rest, hphase⟩ := hpossible
      simp only [step, State.withJob, hj, stepUnrecord, hphase]
      exact fun r hr => (List.mem_filter.mp hr).1
  | finish j =>
      obtain ⟨job, hj, -⟩ := hpossible
      simp only [step, State.withJob, hj, stepFinish]
      exact fun r hr => hr
  | _ => exact hsweeping.elim

theorem Idle.swept (hidle : Idle n s) (hrec : Recorded s) (hsole : Sole n s) :
    Swept n { s with swept := [] } := by
  have hnone : ∀ {p : Prop} {j : Nat} {job : Job}, s.jobs j = some job → p := fun {_ j _} hj => by
    cases (hidle.jobs j).symm.trans hj
  exact ⟨hidle.containers, hsole, fun h => hrec.rows h n, fun _ _ hj => hnone hj,
    fun _ _ _ _ hj => hnone hj, fun _ _ hj => hnone hj, fun _ hno => absurd hno List.not_mem_nil⟩

/-- No docker network and no row is left of the network. -/
def Removed (n : Net) (s : State) : Prop := (∀ h, (h, n) ∉ s.wrappers) ∧ ∀ r ∈ s.rows, r.net ≠ n

/-- Every host that has a row of the network was swept. -/
theorem Swept.removed {s₀ : State} (hs : Swept n s) (hrows : ∀ r ∈ s.rows, r ∈ s₀.rows)
    (hall : ∀ r ∈ s₀.rows, r.net = n → r.host ∈ s.swept) : Removed n s := by
  have hnone : ∀ r ∈ s.rows, r.net ≠ n := fun r hr hnet =>
    hs.swept r.host (hall r (hrows r hr) hnet) ⟨r, hr, by simp [isRow, hnet]⟩
  refine ⟨fun h hmem => ?_, hnone⟩
  obtain ⟨r, hr, hisRow⟩ := hs.rows h hmem
  simp only [isRow, decide_eq_true_eq] at hisRow
  exact hnone r hr hisRow.1

/-- In every run in which attaches are as good as locked, who looks for other hosts' rows sees them
all, and no host makes its docker network between another's look and removal, the last host out
removes the network, and only the last; and from a state in which no container is on the network and
one host at most has a row of it, the sweeps of all hosts leave nothing of it. -/
theorem lastOut_of_patient (s₀ : State)
    (h₀ : Reached Begun step (fun e s => Possible e s ∧ Courteous e s ∧ Patient e s) s₀) :
    (∀ e : Event, LastOut e s₀) ∧
    ∀ (s : State) (n : Net), Idle n s₀ → Sole n s₀ →
      Reached (· = { s₀ with swept := [] }) step (fun e s => Possible e s ∧ Sweeping e) s →
      (∀ r ∈ s₀.rows, r.net = n → r.host ∈ s.swept) → Removed n s := by
  constructor
  · intro e
    exact (recorded_of_patient h₀).lastOut e
  · intro s n hidle hsole h hall
    have hboth : Swept n s ∧ ∀ r ∈ s.rows, r ∈ s₀.rows := by
      refine Reached.invariant (I := fun s => Swept n s ∧ ∀ r ∈ s.rows, r ∈ s₀.rows) h
        (fun s hs => ?_) fun e s hok hs => ?_
      · cases hs
        exact ⟨hidle.swept (recorded_of_patient h₀) hsole, fun _ hr => hr⟩
      · exact ⟨swept_step e hs.1 hok.1 hok.2,
          fun r hr => hs.2 r (rows_of_sweeping e hok.1 hok.2 r hr)⟩
    exact hboth.1.removed hboth.2 hall

/-- The sweep of a host that has one docker network. -/
def sweep (j : Nat) (h : Host) : List Event :=
  [.beginSweep j h, .inspect j, .ask j true, .list j, .removeNetwork j true, .unrecord j, .finish j]

/-- A container is created and started, and removed by its delete. -/
def comesAndGoes : List Event :=
  [.start 10, .beginDelete 1 0 tenant 10 [5], .disconnect 1, .disconnect 1, .remove 1]

def emptied : State := steps step comesAndGoes (steps step created { neutron := [5] })

/-- The release looks at the network. -/
def looked : List Event := [.inspect 1, .ask 1 true, .list 1]

/-- The delete has failed before the release, and the sweep is left to do it. -/
def abandoned : State := { step (.fail 1) emptied with swept := [] }

theorem lastOut_emptied :
    LastOut (.removeNetwork 1 true) (steps step looked emptied) ∧
      Removed 5 (steps step (sweep 2 0) abandoned) := by
  have hbegun : Begun { neutron := [5] } := ⟨fun _ => rfl, fun _ _ hno => by cases hno⟩
  have hcreated : Reached Begun step (fun e s => Possible e s ∧ Courteous e s ∧ Patient e s)
      (steps step created { neutron := [5] }) := by
    refine .steps (.init hbegun) ⟨⟨rfl, trivial, trivial⟩,
      ⟨⟨_, rfl, _, _, rfl, fun _ => alone_of_none fun j' hj' => ?_⟩, fun job n rest _ _ =>
        alone_of_none fun j' hj' => ?_, trivial⟩,
      ⟨⟨_, rfl, _, _, rfl, nofun⟩, trivial, trivial⟩,
      ⟨⟨_, rfl, _, _, rfl⟩, trivial, fun job n rest _ _ _ j' job' rest' hj' hphase => ?_⟩,
      ⟨⟨_, rfl, rfl, nofun⟩, trivial, trivial⟩, trivial⟩
    · match j', hj' with
      | 0, hj' => exact absurd rfl hj'
      | _ + 1, _ => rfl
    · match j', hj' with
      | 0, hj' => exact absurd rfl hj'
      | _ + 1, _ => rfl
    · match j', hj' with
      | 0, hj' => cases hj'; cases hphase
      | _ + 1, hj' => cases hj'
  have hemptied : Reached Begun step (fun e s => Possible e s ∧ Courteous e s ∧ Patient e s) emptied :=
    hcreated.steps ⟨⟨trivial, trivial, trivial⟩, ⟨rfl, trivial, trivial⟩,
      ⟨⟨_, rfl, _, _, rfl⟩, trivial, trivial⟩, ⟨⟨_, rfl, _, _, rfl⟩, trivial, trivial⟩,
      ⟨⟨_, rfl, _, rfl⟩, trivial, trivial⟩, trivial⟩
  have hothers : ∀ j', j' ≠ 1 → emptied.jobs j' = none := fun j' hj' =>
    match j', hj' with
    | 0, _ => rfl
    | 1, hj' => absurd rfl hj'
    | _ + 2, _ => rfl
  have hrows : ∀ r ∈ emptied.rows, r.host = 0 := by
    intro r hr
    cases List.mem_singleton.mp hr
    rfl
  have hlooked : Allowed step (fun e s => Possible e s ∧ Courteous e s ∧ Patient e s) looked emptied := by
    refine ⟨⟨⟨_, rfl, _, _, rfl, alone_of_none hothers⟩, fun _ _ _ _ _ => alone_of_none hothers, trivial⟩,
      ⟨⟨_, rfl, _, _, rfl⟩, trivial, trivial⟩,
      ⟨⟨_, rfl, _, _, _, rfl⟩, trivial, fun job n rest hj _ r hr _ hother => ?_⟩, trivial⟩
    cases hj
    exact absurd (hrows r hr) hother
  have hidle : Idle 5 (step (.fail 1) emptied) :=
    ⟨fun j => match j with
      | 0 => rfl
      | 1 => rfl
      | _ + 2 => rfl, fun _ ⟨_, hc, _⟩ => by cases hc⟩
  have hswept : Reached (· = abandoned) step (fun e s => Possible e s ∧ Sweeping e)
      (steps step (sweep 2 0) abandoned) := by
    have hbefore : Reached (· = abandoned) step (fun e s => Possible e s ∧ Sweeping e) abandoned :=
      .init rfl
    refine hbefore.steps ⟨⟨rfl, trivial⟩, ⟨⟨_, rfl, _, _, rfl, alone_of_none fun j' hj' => ?_⟩, trivial⟩,
      ⟨⟨_, rfl, _, _, rfl⟩, rfl⟩, ⟨⟨_, rfl, _, _, _, rfl⟩, trivial⟩,
      ⟨⟨_, rfl, _, _, rfl, fun _ => rfl⟩, rfl⟩, ⟨⟨_, rfl, _, _, rfl⟩, trivial⟩, ⟨⟨_, rfl, rfl⟩, trivial⟩,
      trivial⟩
    match j', hj' with
    | 0, _ => rfl
    | 1, _ => rfl
    | 2, hj' => exact absurd rfl hj'
    | _ + 3, _ => rfl
  have hfailed := hemptied.step (Event.fail 1) ⟨⟨_, rfl, nofun⟩, trivial, trivial⟩
  refine ⟨(lastOut_of_patient _ (hemptied.steps hlooked)).1 _,
    (lastOut_of_patient _ hfailed).2 _ 5 hidle (.inl ⟨0, fun r hr _ => hrows r hr⟩) hswept
      fun r hr _ => ?_⟩
  rw [hrows r hr]
  exact List.mem_cons_self

/-- Another project has its container on another host. -/
def neighbour : Context := { project := some 2, user := some 2 }

/-- Both hosts wrap the network, and the container of the first is deleted. -/
def deletedBeside : List Event :=
  created ++ [.beginCreate 2 1 neighbour [5], .look 2, .record 2, .wrap 2, .make 2 11,
    .beginDelete 1 0 tenant 10 [5], .disconnect 1, .disconnect 1, .remove 1, .inspect 1, .ask 1 true,
    .list 1]

theorem unseen_host_cut_off :
    Reached Begun step Possible (steps step deletedBeside { neutron := [5] }) ∧
      Possible (.removeNetwork 1 true) (steps step deletedBeside { neutron := [5] }) ∧
      ¬ LastOut (.removeNetwork 1 true) (steps step deletedBeside { neutron := [5] }) := by
  have hbegun : Begun { neutron := [5] } := ⟨fun _ => rfl, fun _ _ hno => by cases hno⟩
  refine ⟨.steps (.init hbegun) ⟨rfl, ⟨_, rfl, _, _, rfl, fun _ => alone_of_none fun j' hj' => ?_⟩,
    ⟨_, rfl, _, _, rfl, nofun⟩, ⟨_, rfl, _, _, rfl⟩, ⟨_, rfl, rfl, nofun⟩, rfl,
    ⟨_, rfl, _, _, rfl, fun _ => alone_of_none fun j' hj' => ?_⟩,
    ⟨_, rfl, _, _, rfl, by decide⟩, ⟨_, rfl, _, _, rfl⟩, ⟨_, rfl, rfl, by decide⟩, rfl,
    ⟨_, rfl, _, _, rfl⟩, ⟨_, rfl, _, _, rfl⟩, ⟨_, rfl, _, rfl⟩,
    ⟨_, rfl, _, _, rfl, alone_of_none fun j' hj' => ?_⟩, ⟨_, rfl, _, _, rfl⟩, ⟨_, rfl, _, _, _, rfl⟩,
    trivial⟩, ⟨_, rfl, _, _, rfl, fun _ => rfl⟩, fun h => ?_⟩
  · match j', hj' with
    | 0, hj' => exact absurd rfl hj'
    | _ + 1, _ => rfl
  · match j', hj' with
    | 0, _ => rfl
    | 1, _ => rfl
    | 2, hj' => exact absurd rfl hj'
    | _ + 3, _ => rfl
  · match j', hj' with
    | 0, _ => rfl
    | 1, hj' => exact absurd rfl hj'
    | 2, _ => rfl
    | _ + 3, _ => rfl
  · exact h 0 5 rfl (by decide) 1 (by decide) List.mem_cons_self

end DockerNetwork

end Zun
