import Zun.Container.DockerNetwork

/-!
# The users of a docker network

A docker network of a host outlives its users: the containers of the host that are on it, running or
stopped, and the creates that have provisioned it and are still to put their container on it.
-/

namespace Zun

open Effect

namespace DockerNetwork

/-- The job is a create that has provisioned the network, and whose container is not on it yet. -/
def Job.Uses (job : Job) (n : Net) : Prop :=
  match job.phase with
  | .wrapping _ _ _ | .toMake => n ∈ job.provisioned
  | .connecting _ m rest => n = m ∨ n ∈ rest
  | _ => False

/-- A container of the host is on the network. -/
def OnNet (containers : List Container) (h : Host) (n : Net) : Prop :=
  ∃ c ∈ containers, c.host = h ∧ n ∈ c.nets

structure Used (s : State) (h : Host) (n : Net) : Prop where
  used : OnNet s.containers h n ∨ ∃ j job, s.jobs j = some job ∧ job.host = h ∧ job.Uses n

/-- The docker network that a step removes. -/
def removes : Event → State → Option (Host × Net)
  | .removeNetwork j true, s =>
      (s.jobs j).bind fun job =>
        match job.phase with
        | .removing n _ => some (job.host, n)
        | _ => none
  | _, _ => none

/-- A docker network is removed only when nothing uses it. -/
def Outlives (e : Event) (s : State) : Prop :=
  ∀ h n, removes e s = some (h, n) → ¬ Used s h n

/-- Where dockerd lists no running container, there is no stopped one either, nor a create that has
provisioned the network. -/
def Honest : Event → State → Prop
  | .inspect j, s => ∀ job n rest, s.jobs j = some job → job.phase = .releasing (n :: rest) →
      inUse s job.host n = false → ¬ Used s job.host n
  | _, _ => True

/-- The job takes the network for one that nothing uses. -/
def Job.Condemns (job : Job) (n : Net) : Prop :=
  match job.phase with
  | .asking m _ | .listing _ m _ | .removing m _ => m = n
  | _ => False

variable {s : State} {j : Nat} {job : Job} {h : Host} {n : Net}

theorem Job.Condemns.holds (hc : job.Condemns n) : job.Holds n := by
  unfold Job.Condemns at hc
  unfold Job.Holds
  cases hphase : job.phase <;> simp only [hphase] at hc ⊢ <;> exact hc

/-! ## What a step does to the users -/

/-- The containers and the jobs use no network more, but for what one job does. -/
theorem Used.of_setJob {s' : State} {o : Option Job} (hu : Used s' h n)
    (hjobs : s'.jobs = (s.setJob j o).jobs)
    (hcontainers : OnNet s'.containers h n → Used s h n) :
    Used s h n ∨ ∃ job', o = some job' ∧ job'.host = h ∧ job'.Uses n := by
  rcases hu.used with hon | ⟨j', job', hj', hhost, huses⟩
  · exact .inl (hcontainers hon)
  · rw [hjobs] at hj'
    rcases setJob_cases hj' with ⟨-, ho⟩ | ⟨-, hold⟩
    · exact .inr ⟨job', ho, hhost, huses⟩
    · exact .inl ⟨.inr ⟨j', job', hold, hhost, huses⟩⟩

theorem Used.of_onNet (hon : OnNet s.containers h n) : Used s h n := ⟨.inl hon⟩

theorem Used.of_job (hj : s.jobs j = some job) (hhost : job.host = h) (huses : job.Uses n) :
    Used s h n := ⟨.inr ⟨j, job, hj, hhost, huses⟩⟩

/-- What is used after a step was used before it. -/
theorem Used.before {s' : State} {o : Option Job} (hu : Used s' h n)
    (hjobs : s'.jobs = (s.setJob j o).jobs) (hcontainers : OnNet s'.containers h n → Used s h n)
    (huses : ∀ job', o = some job' → job'.host = h → job'.Uses n → Used s h n) : Used s h n := by
  rcases hu.of_setJob hjobs hcontainers with hold | ⟨job', ho, hhost, hn⟩
  · exact hold
  · exact huses job' ho hhost hn

/-- A job that goes on with what it has used. -/
theorem Used.of_goes {s' : State} {job' : Job} (hu : Used s' h n)
    (hjobs : s'.jobs = (s.setJob j (some job')).jobs) (hcontainers : s'.containers = s.containers)
    (huses : job'.host = h → job'.Uses n → Used s h n) : Used s h n := by
  refine hu.before hjobs (fun hon => Used.of_onNet (hcontainers ▸ hon)) fun job'' ho => ?_
  cases ho
  exact huses

/-- A job that is over. -/
theorem Used.of_over {s' : State} (hu : Used s' h n) (hjobs : s'.jobs = (s.setJob j none).jobs)
    (hcontainers : s'.containers = s.containers) : Used s h n :=
  hu.before hjobs (fun hon => Used.of_onNet (hcontainers ▸ hon)) (by rintro _ ⟨⟩)

theorem uses_wrapped {m : Net} {rest : List Net} (hn : (job.wrapped m rest).Uses n) :
    n = m ∨ n ∈ job.provisioned := by
  unfold Job.wrapped at hn
  split at hn
  · exact hn.elim
  · cases rest <;> exact List.mem_cons.mp hn

/-- A job that has one network more. -/
theorem Used.of_wrapped {s' : State} {m : Net} {stage : Wrap} {rest rest' : List Net} (hu : Used s' h n)
    (hj : s.jobs j = some job) (hphase : job.phase = .wrapping stage m rest')
    (hjobs : s'.jobs = (s.setJob j (some (job.wrapped m rest))).jobs)
    (hcontainers : OnNet s'.containers h n → Used s h n) : Used s h n ∨ (job.host = h ∧ n = m) := by
  rcases hu.of_setJob hjobs hcontainers with hold | ⟨job', ho, hhost, huses⟩
  · exact .inl hold
  · cases ho
    rw [wrapped_host] at hhost
    rcases uses_wrapped huses with rfl | hmem
    · exact .inr ⟨hhost, rfl⟩
    · refine .inl (Used.of_job hj hhost ?_)
      simp only [Job.Uses, hphase]
      exact hmem

/-- A container that gets a network. -/
theorem OnNet.of_onContainer {id : Nat} {k : Host} {f : List Net → List Net}
    (hon : OnNet (s.onContainer k id f).containers h n) :
    OnNet s.containers h n ∨ (k = h ∧ ∃ c ∈ s.containers, c.host = h ∧ n ∈ f c.nets) := by
  obtain ⟨c', hc', hhost, hn⟩ := hon
  obtain ⟨c, hc, rfl⟩ := List.mem_map.mp hc'
  by_cases hid : c.id = id ∧ c.host = k
  · rw [if_pos hid] at hhost hn
    exact .inr ⟨hid.2.symm.trans hhost, c, hc, hhost, hn⟩
  · rw [if_neg hid] at hhost hn
    exact .inl ⟨c, hc, hhost, hn⟩

/-- What is connected is one network more. -/
theorem OnNet.of_connected {id : Nat} {k : Host} {m : Net}
    (hon : OnNet (s.onContainer k id fun nets => m :: nets).containers h n) :
    OnNet s.containers h n ∨ (k = h ∧ n = m) := by
  rcases hon.of_onContainer with hold | ⟨hk, c, hc, hhost, hn⟩
  · exact .inl hold
  · rcases List.mem_cons.mp hn with rfl | hmem
    · exact .inr ⟨hk, rfl⟩
    · exact .inl ⟨c, hc, hhost, hmem⟩

theorem uses_toConnect {id : Nat} {nets : List Net} {phase : Phase}
    (hphase : toConnect id nets = some phase) (hn : ({ job with phase } : Job).Uses n) : n ∈ nets := by
  cases nets with
  | nil => cases hphase
  | cons m rest =>
      cases hphase
      exact List.mem_cons.mpr hn

/-! ## Condemned networks -/

/-- What a job has condemned, nothing uses. -/
def Unused (s : State) : Prop :=
  ∀ j job n, s.jobs j = some job → job.Condemns n → ¬ Used s job.host n

/-- A network gets a user only by a job that is alone at work on it. -/
theorem Unused.of_setJob {s' : State} {o : Option Job} (hunused : Unused s)
    (hjobs : s'.jobs = (s.setJob j o).jobs)
    (hused : ∀ h n, Used s' h n → Used s h n ∨ Alone Job.Holds s j h n)
    (ho : ∀ job' n, o = some job' → job'.Condemns n → ¬ Used s' job'.host n) : Unused s' := by
  intro j' job' n hj' hcondemns
  rw [hjobs] at hj'
  rcases setJob_cases hj' with ⟨-, heq⟩ | ⟨hne, hold⟩
  · exact ho job' n heq hcondemns
  · intro hu
    rcases hused _ n hu with hbefore | halone
    · exact hunused j' job' n hold hcondemns hbefore
    · exact halone j' job' hne hold rfl hcondemns.holds

/-- The job condemns nothing. -/
theorem Unused.of_mild {s' : State} {o : Option Job} (hunused : Unused s)
    (hjobs : s'.jobs = (s.setJob j o).jobs) (ho : ∀ job' n, o = some job' → ¬ job'.Condemns n)
    (hused : ∀ h n, Used s' h n → Used s h n ∨ Alone Job.Holds s j h n) : Unused s' :=
  hunused.of_setJob hjobs hused fun job' n heq hcondemns => absurd hcondemns (ho job' n heq)

/-- The job goes on condemning what it has condemned, and nothing else changes. -/
theorem Unused.goes {phase : Phase} (hunused : Unused s)
    (huses : ∀ n, ¬ ({ job with phase } : Job).Uses n)
    (hcondemns : ∀ n, ({ job with phase } : Job).Condemns n → ¬ Used s job.host n) :
    Unused (s.goes j job phase) := by
  have hused : ∀ h n, Used (s.goes j job phase) h n → Used s h n := fun h n hu =>
    hu.of_goes rfl rfl fun _ hn => absurd hn (huses n)
  refine hunused.of_setJob rfl (fun h n hu => .inl (hused h n hu)) fun job' n heq hn hu => ?_
  cases heq
  exact hcondemns n hn (hused _ n hu)

theorem not_condemns_wrapped {m : Net} {rest : List Net} : ¬ (job.wrapped m rest).Condemns n := by
  unfold Job.wrapped
  split
  · exact id
  · cases rest <;> exact id

theorem Unused.wrapped {s' : State} {m : Net} {stage : Wrap} {rest : List Net} (hunused : Unused s)
    (hj : s.jobs j = some job) (hphase : job.phase = .wrapping stage m rest)
    (hjobs : s'.jobs = (s.setJob j (some (job.wrapped m rest))).jobs)
    (hcontainers : s'.containers = s.containers) (halone : Alone Job.Holds s j job.host m) :
    Unused s' := by
  refine hunused.of_mild hjobs (fun job' n heq => ?_) fun h n hu => ?_
  · cases heq
    exact not_condemns_wrapped
  · rcases hu.of_wrapped hj hphase hjobs (fun hon => Used.of_onNet (hcontainers ▸ hon)) with hold | ⟨rfl, rfl⟩
    · exact .inl hold
    · exact .inr halone

theorem Unused.setRunning (hunused : Unused s) (id : Nat) (running : Bool) :
    Unused (s.setRunning id running) := by
  intro j' job' n hj' hcondemns hu
  refine hunused j' job' n hj' hcondemns ⟨?_⟩
  rcases hu.used with ⟨c', hc', hhost, hn⟩ | hjob
  · obtain ⟨c, hc, rfl⟩ := List.mem_map.mp hc'
    refine .inl ⟨c, hc, ?_⟩
    by_cases hid : c.id = id
    · rw [if_pos hid] at hhost hn
      exact ⟨hhost, hn⟩
    · rw [if_neg hid] at hhost hn
      exact ⟨hhost, hn⟩
  · exact .inr hjob

theorem unused_step (e : Event) (hunused : Unused s) (hmutex : Mutex s) (hpossible : Possible e s)
    (hcourteous : Courteous e s) (hhonest : Honest e s) : Unused (step e s) := by
  cases e with
  | beginCreate j k ctx nets =>
      refine hunused.of_mild rfl (fun job' n heq => ?_) fun h n hu => .inl ?_
      · cases heq
        cases nets <;> exact id
      · refine hu.of_goes rfl rfl fun _ hn => ?_
        cases nets <;> exact absurd hn List.not_mem_nil
  | beginAttach j k ctx container m =>
      refine hunused.of_mild rfl (fun job' n heq => ?_) fun h n hu => .inl ?_
      · cases heq
        exact id
      · exact hu.of_goes rfl rfl fun _ hn => absurd hn List.not_mem_nil
  | beginDelete j k ctx container nets =>
      refine hunused.of_mild rfl (fun job' n heq => ?_) fun h n hu => .inl ?_
      · cases heq
        exact id
      · exact hu.of_goes rfl rfl fun _ hn => hn.elim
  | beginSweep j k =>
      refine hunused.of_mild rfl (fun job' n heq => ?_) fun h n hu => .inl ?_
      · cases heq
        exact id
      · exact hu.of_goes rfl rfl fun _ hn => hn.elim
  | look j =>
      obtain ⟨job, hj, m, rest, hphase, -⟩ := hpossible
      have halone := hcourteous job m rest hj hphase
      simp only [step, State.withJob, hj, stepLook, hphase]
      split
      · exact hunused.wrapped hj hphase rfl rfl halone
      · refine hunused.of_mild rfl (fun job' n heq => ?_) fun h n hu => .inl ?_
        · cases heq
          exact id
        · refine hu.of_goes rfl rfl fun hhost hn => Used.of_job hj hhost ?_
          simp only [Job.Uses, hphase]
          exact hn
  | record j =>
      obtain ⟨job, hj, m, rest, hphase, -⟩ := hpossible
      simp only [step, State.withJob, hj, stepRecord, hphase]
      refine hunused.of_mild rfl (fun job' n heq => ?_) fun h n hu => .inl ?_
      · cases heq
        exact id
      · refine hu.of_goes rfl rfl fun hhost hn => Used.of_job hj hhost ?_
        simp only [Job.Uses, hphase]
        exact hn
  | stale j =>
      obtain ⟨job, hj, m, rest, hphase, -⟩ := hpossible
      simp only [step, State.withJob, hj, stepStale, hphase]
      intro j' job' n hj' hcondemns hu
      exact hunused j' job' n hj' hcondemns ⟨hu.used⟩
  | adopt j =>
      obtain ⟨job, hj, m, rest, hphase, -⟩ := hpossible
      simp only [step, State.withJob, hj, stepAdopt, hphase]
      exact hunused.wrapped hj hphase rfl rfl (hmutex.alone hj (by simp [Job.Holds, hphase]))
  | wrap j =>
      obtain ⟨job, hj, m, rest, hphase⟩ := hpossible
      simp only [step, State.withJob, hj, stepWrap, hphase]
      exact hunused.wrapped hj hphase rfl rfl (hmutex.alone hj (by simp [Job.Holds, hphase]))
  | wrapFails j =>
      obtain ⟨job, hj, m, rest, hphase⟩ := hpossible
      simp only [step, State.withJob, hj, stepWrapFails, hphase]
      exact hunused.of_mild rfl (by rintro _ _ ⟨⟩) fun h n hu => .inl (hu.of_over rfl rfl)
  | make j id =>
      obtain ⟨job, hj, hphase, -⟩ := hpossible
      have hbefore : ∀ h n, job.host = h → n ∈ job.provisioned → Used s h n := fun h n hhost hn =>
        Used.of_job hj hhost (by simp only [Job.Uses, hphase]; exact hn)
      simp only [step, State.withJob, hj, stepMake]
      refine hunused.of_mild rfl (fun job' n heq => ?_) fun h n hu => .inl ?_
      · obtain ⟨phase, hphase', rfl⟩ := Option.map_eq_some_iff.mp heq
        cases hnets : job.provisioned.tail.reverse with
        | nil => rw [hnets] at hphase'; cases hphase'
        | cons k rest => rw [hnets] at hphase'; cases hphase'; exact fun hno => hno
      · refine hu.before (s := s) rfl (fun hon => ?_) fun job' heq hhost hn => ?_
        · obtain ⟨c, hc, hhost, hn⟩ := hon
          rcases List.mem_cons.mp hc with rfl | hc
          · refine hbefore h n hhost ?_
            simp only [Option.mem_toList] at hn
            exact List.mem_of_mem_head? hn
          · exact Used.of_onNet ⟨c, hc, hhost, hn⟩
        · obtain ⟨phase, hphase', rfl⟩ := Option.map_eq_some_iff.mp heq
          refine hbefore h n hhost (List.mem_of_mem_tail ?_)
          exact List.mem_reverse.mp (uses_toConnect hphase' hn)
  | connect j =>
      obtain ⟨job, hj, id, m, rest, hphase⟩ := hpossible
      have hbefore : ∀ h n, job.host = h → n = m ∨ n ∈ rest → Used s h n := fun h n hhost hn =>
        Used.of_job hj hhost (by simp only [Job.Uses, hphase]; exact hn)
      simp only [step, State.withJob, hj, stepConnect, hphase]
      refine hunused.of_mild rfl (fun job' n heq => ?_) fun h n hu => .inl ?_
      · obtain ⟨phase, hphase', rfl⟩ := Option.map_eq_some_iff.mp heq
        cases rest with
        | nil => cases hphase'
        | cons k rest => cases hphase'; exact fun hno => hno
      · refine hu.before (s := s) rfl (fun hon => ?_) fun job' heq hhost hn => ?_
        · rcases OnNet.of_connected hon with hold | ⟨hhost, rfl⟩
          · exact Used.of_onNet hold
          · exact hbefore h n hhost (.inl rfl)
        · obtain ⟨phase, hphase', rfl⟩ := Option.map_eq_some_iff.mp heq
          exact hbefore h n hhost (.inr (uses_toConnect hphase' hn))
  | attach j =>
      obtain ⟨job, hj, id, m, hphase⟩ := hpossible
      have halone := hmutex.alone hj (show job.Holds m by simp [Job.Holds, hphase])
      simp only [step, State.withJob, hj, stepAttach, hphase]
      refine hunused.of_mild rfl (by rintro _ _ ⟨⟩) fun h n hu => ?_
      rcases hu.used with hon | ⟨j', job', hj', hhost, huses⟩
      · rcases OnNet.of_connected hon with hold | ⟨rfl, rfl⟩
        · exact .inl (Used.of_onNet hold)
        · exact .inr halone
      · rcases setJob_cases hj' with ⟨-, hno⟩ | ⟨-, hold⟩
        · cases hno
        · exact .inl (Used.of_job hold hhost huses)
  | disconnect j =>
      obtain ⟨job, hj, id, rest, hphase⟩ := hpossible
      cases rest with
      | nil =>
          simp only [step, State.withJob, hj, stepDisconnect, hphase]
          exact hunused.goes (fun n hn => hn) fun n hn => hn.elim
      | cons m rest =>
          simp only [step, State.withJob, hj, stepDisconnect, hphase]
          refine hunused.of_mild rfl (fun job' n heq => ?_) fun h n hu => .inl ?_
          · cases heq
            exact fun hno => hno
          · refine hu.before (s := s) rfl (fun hon => ?_) fun job' heq _ hn => ?_
            · rcases OnNet.of_onContainer hon with hold | ⟨-, c, hc, hhost, hn⟩
              · exact Used.of_onNet hold
              · exact Used.of_onNet ⟨c, hc, hhost, (List.mem_filter.mp hn).1⟩
            · cases heq
              exact hn.elim
  | remove j =>
      obtain ⟨job, hj, id, hphase⟩ := hpossible
      simp only [step, State.withJob, hj, stepRemove, hphase]
      refine hunused.of_mild rfl (fun job' n heq => ?_) fun h n hu => .inl ?_
      · cases heq
        exact fun hno => hno
      · refine hu.before (s := s) rfl (fun hon => ?_) fun job' heq _ hn => ?_
        · obtain ⟨c, hc, hhost, hn⟩ := hon
          exact Used.of_onNet ⟨c, (List.mem_filter.mp hc).1, hhost, hn⟩
        · cases heq
          exact hn.elim
  | inspect j =>
      obtain ⟨job, hj, m, rest, hphase, -⟩ := hpossible
      simp only [step, State.withJob, hj, stepInspect, hphase]
      split
      · exact hunused.goes (fun n hn => hn) fun n hn => hn.elim
      · split
        · exact hunused.goes (fun n hn => hn) fun n hn => hn.elim
        case isFalse hidle =>
          refine hunused.goes (fun n hn => hn) fun n hn => ?_
          cases show m = n from hn
          exact hhonest job m rest hj hphase (by simpa using hidle)
  | ask j answers =>
      obtain ⟨job, hj, m, rest, hphase⟩ := hpossible
      simp only [step, State.withJob, hj, stepAsk, hphase]
      refine hunused.goes (fun n hn => hn) fun n hn => ?_
      exact hunused j job n hj (by simpa only [Job.Condemns, hphase] using hn)
  | list j =>
      obtain ⟨job, hj, gone, m, rest, hphase⟩ := hpossible
      simp only [step, State.withJob, hj, stepList, hphase]
      split
      · exact hunused.goes (fun n hn => hn) fun n hn => hn.elim
      · refine hunused.goes (fun n hn => hn) fun n hn => ?_
        exact hunused j job n hj (by simpa only [Job.Condemns, hphase] using hn)
  | removeNetwork j ok =>
      obtain ⟨job, hj, m, rest, hphase, -⟩ := hpossible
      simp only [step, State.withJob, hj, stepRemoveNetwork, hphase]
      split
      · refine hunused.of_mild rfl (fun job' n heq => ?_) fun h n hu => .inl ?_
        · cases heq
          exact fun hno => hno
        · exact hu.of_goes rfl rfl fun _ hn => hn.elim
      · exact hunused.goes (fun n hn => hn) fun n hn => hn.elim
  | unrecord j =>
      obtain ⟨job, hj, m, rest, hphase⟩ := hpossible
      simp only [step, State.withJob, hj, stepUnrecord, hphase]
      refine hunused.of_mild rfl (fun job' n heq => ?_) fun h n hu => .inl ?_
      · cases heq
        exact fun hno => hno
      · exact hu.of_goes rfl rfl fun _ hn => hn.elim
  | finish j =>
      obtain ⟨job, hj, -⟩ := hpossible
      simp only [step, State.withJob, hj]
      exact hunused.of_mild rfl (by rintro _ _ ⟨⟩) fun h n hu => .inl (hu.of_over rfl rfl)
  | fail j =>
      exact hunused.of_mild rfl (by rintro _ _ ⟨⟩) fun h n hu => .inl (hu.of_over rfl rfl)
  | start id => exact hunused.setRunning id true
  | stop id => exact hunused.setRunning id false
  | neutronDeletes m =>
      intro j' job' n hj' hcondemns hu
      exact hunused j' job' n hj' hcondemns ⟨hu.used⟩

/-- In every run in which attaches are as good as locked and dockerd's lists are honest, a docker
network is removed only when nothing of the host uses it. -/
theorem outlives_of_honest (s : State) (e : Event)
    (h : Reached Begun step (fun e s => Possible e s ∧ Courteous e s ∧ Honest e s) s) :
    Outlives e s := by
  have hboth : Mutex s ∧ Unused s := by
    refine Reached.invariant (I := fun s => Mutex s ∧ Unused s) h (fun s hs => ?_) fun e s hok hs => ?_
    · refine ⟨fun j j' job job' n hj => ?_, fun j job n hj => ?_⟩ <;> cases (hs.jobs j).symm.trans hj
    · obtain ⟨hpossible, hcourteous, hhonest⟩ := hok
      exact ⟨mutex_step e hs.1 hpossible hcourteous,
        unused_step e hs.2 hs.1 hpossible hcourteous hhonest⟩
  intro k n hremoves
  unfold removes at hremoves
  split at hremoves
  case h_1 j =>
    obtain ⟨job, hj, hphase⟩ := Option.bind_eq_some_iff.mp hremoves
    split at hphase
    case h_1 m rest hremoving =>
      cases hphase
      exact hboth.2 j job n hj (by simp only [Job.Condemns, hremoving])
    · cases hphase
  · cases hremoves

/-- No other job is under way. -/
theorem alone_of_none {p : Job → Net → Prop} (hnone : ∀ j', j' ≠ j → s.jobs j' = none) :
    Alone p s j h n := fun j' _ hne hj' => by
  cases (hnone j' hne).symm.trans hj'

def tenant : Context := { project := some 1, user := some 1 }

/-- A container is created on a network, and its create is over. -/
def created : List Event := [.beginCreate 0 0 tenant [5], .look 0, .record 0, .wrap 0, .make 0 10]

/-- It is started and deleted, and the release looks at the network. -/
def deleted : List Event :=
  created ++ [.start 10, .beginDelete 1 0 tenant 10 [5], .disconnect 1, .disconnect 1, .remove 1,
    .inspect 1, .ask 1 true, .list 1]

theorem outlives_deleted :
    Outlives (.removeNetwork 1 true) (steps step deleted { neutron := [5] }) ∧
      removes (.removeNetwork 1 true) (steps step deleted { neutron := [5] }) = some (0, 5) := by
  have hbegun : Begun { neutron := [5] } := ⟨fun _ => rfl, fun _ _ hno => by cases hno⟩
  refine ⟨outlives_of_honest _ _ (.steps (.init hbegun) ?_), rfl⟩
  refine ⟨⟨rfl, trivial, trivial⟩,
    ⟨⟨_, rfl, _, _, rfl, fun _ => alone_of_none fun j' hj' => ?_⟩, fun job n rest _ _ =>
      alone_of_none fun j' hj' => ?_, trivial⟩,
    ⟨⟨_, rfl, _, _, rfl, nofun⟩, trivial, trivial⟩, ⟨⟨_, rfl, _, _, rfl⟩, trivial, trivial⟩,
    ⟨⟨_, rfl, rfl, nofun⟩, trivial, trivial⟩, ⟨trivial, trivial, trivial⟩, ⟨rfl, trivial, trivial⟩,
    ⟨⟨_, rfl, _, _, rfl⟩, trivial, trivial⟩, ⟨⟨_, rfl, _, _, rfl⟩, trivial, trivial⟩,
    ⟨⟨_, rfl, _, rfl⟩, trivial, trivial⟩,
    ⟨⟨_, rfl, _, _, rfl, alone_of_none fun j' hj' => ?_⟩, fun job n rest _ _ =>
      alone_of_none fun j' hj' => ?_, fun job n rest hj hphase _ hu => ?_⟩,
    ⟨⟨_, rfl, _, _, rfl⟩, trivial, trivial⟩, ⟨⟨_, rfl, _, _, _, rfl⟩, trivial, trivial⟩, trivial⟩
  · match j', hj' with
    | 0, hj' => exact absurd rfl hj'
    | _ + 1, _ => rfl
  · match j', hj' with
    | 0, hj' => exact absurd rfl hj'
    | _ + 1, _ => rfl
  · match j', hj' with
    | 0, _ => rfl
    | 1, hj' => exact absurd rfl hj'
    | _ + 2, _ => rfl
  · match j', hj' with
    | 0, _ => rfl
    | 1, hj' => exact absurd rfl hj'
    | _ + 2, _ => rfl
  · rcases hu.used with ⟨c, hc, -⟩ | ⟨j', job', hj', -, huses⟩
    · cases hc
    · match j', hj' with
      | 0, hj' => cases hj'
      | 1, hj' => cases hj'; exact huses
      | _ + 2, hj' => cases hj'

/-- A container is created and not started yet when the networks are swept. -/
def sweptEarly : List Event := created ++ [.beginSweep 1 0, .inspect 1, .ask 1 true, .list 1]

theorem sweep_removes_used :
    Reached Begun step Possible (steps step sweptEarly { neutron := [5] }) ∧
      Possible (.removeNetwork 1 true) (steps step sweptEarly { neutron := [5] }) ∧
      ¬ Outlives (.removeNetwork 1 true) (steps step sweptEarly { neutron := [5] }) := by
  have hbegun : Begun { neutron := [5] } := ⟨fun _ => rfl, fun _ _ hno => by cases hno⟩
  refine ⟨.steps (.init hbegun) ⟨rfl, ⟨_, rfl, _, _, rfl, fun _ => alone_of_none fun j' hj' => ?_⟩,
    ⟨_, rfl, _, _, rfl, nofun⟩, ⟨_, rfl, _, _, rfl⟩, ⟨_, rfl, rfl, nofun⟩, rfl,
    ⟨_, rfl, _, _, rfl, alone_of_none fun j' hj' => ?_⟩, ⟨_, rfl, _, _, rfl⟩, ⟨_, rfl, _, _, _, rfl⟩,
    trivial⟩, ⟨_, rfl, _, _, rfl, fun _ => rfl⟩, fun h => ?_⟩
  · match j', hj' with
    | 0, hj' => exact absurd rfl hj'
    | _ + 1, _ => rfl
  · match j', hj' with
    | 0, _ => rfl
    | 1, hj' => exact absurd rfl hj'
    | _ + 2, _ => rfl
  · exact h 0 5 rfl (Used.of_onNet ⟨_, List.mem_cons_self, rfl, List.mem_cons_self⟩)

end DockerNetwork

end Zun
