import Mathlib.Data.List.Dedup
import Mathlib.Logic.Function.Basic
import Zun.Effect.Run

/-!
# The docker networks of the hosts

`_provision_network`, `delete`, `_release_networks_left_unused`, `reclaim_stale_networks` and
`network_attach` of `zun/container/docker/driver.py`, and `get_or_create_network` of
`zun/network/kuryr_network.py`.  A docker network wraps a Neutron network on one host, and a row of
`ZunNetwork` says so.

Each operation is a job of its host.  A step is one call of docker, Neutron or the database.  The lock
of a network on a host is held by a job from its look at the network to its last step on it; an attach
takes no lock.  dockerd lists under a network the running containers on it, and lets a network that
has none be removed.
-/

namespace Zun

open Effect

namespace DockerNetwork

abbrev Host := Nat
abbrev Net := Nat

structure Context where
  isAdmin : Bool := false
  allProjects : Bool := false
  project : Option Nat := none
  user : Option Nat := none
deriving DecidableEq

/-- `get_admin_context(all_projects=True)`. -/
def adminContext : Context := { isAdmin := true, allProjects := true }

/-- A row of `ZunNetwork`. -/
structure Row where
  project : Option Nat
  user : Option Nat
  net : Net
  host : Host
deriving DecidableEq

/-- `_add_project_filters`. -/
def Context.sees (ctx : Context) (r : Row) : Bool :=
  if ctx.isAdmin && ctx.allProjects then true
  else if ctx.project.isSome then r.project = ctx.project
  else r.user = ctx.user

structure Container where
  id : Nat
  host : Host
  nets : List Net
  running : Bool := false
deriving DecidableEq

inductive Kind where
  | create
  | attach (container : Nat)
  | delete
  | sweep
deriving DecidableEq

/-- Where `get_or_create_network` is. -/
inductive Wrap where
  /-- At `docker.networks`. -/
  | looking
  /-- At `network.create`, in `_create_network_attempt`. -/
  | recording
  /-- At `docker.create_network`. -/
  | making
deriving DecidableEq

inductive Phase where
  | wrapping (stage : Wrap) (n : Net) (rest : List Net)
  /-- At `docker.create_container`. -/
  | toMake
  /-- At `docker.connect_container_to_network`, in a create. -/
  | connecting (container : Nat) (n : Net) (rest : List Net)
  /-- At the same call, in an attach. -/
  | attaching (container : Nat) (n : Net)
  | disconnecting (container : Nat) (rest : List Net)
  /-- At `docker.remove_container`. -/
  | deleting (container : Nat)
  /-- At the head of the loop of `_release_networks_left_unused`. -/
  | releasing (rest : List Net)
  /-- At `_neutron_network_is_gone`. -/
  | asking (n : Net) (rest : List Net)
  /-- At `ZunNetwork.list`. -/
  | listing (gone : Bool) (n : Net) (rest : List Net)
  /-- At `docker.remove_network`. -/
  | removing (n : Net) (rest : List Net)
  /-- At the loop over the rows of the host. -/
  | unrecording (n : Net) (rest : List Net)
deriving DecidableEq

structure Job where
  kind : Kind
  host : Host
  ctx : Context
  /-- The networks asked for, or those of the record. -/
  nets : List Net
  /-- Those that are provisioned, the last one first. -/
  provisioned : List Net := []
  phase : Phase
deriving DecidableEq

structure State where
  /-- The docker networks. -/
  wrappers : List (Host × Net) := []
  rows : List Row := []
  containers : List Container := []
  jobs : Nat → Option Job := fun _ => none
  /-- The networks of Neutron. -/
  neutron : List Net := []
  /-- The hosts that a sweep has gone through. -/
  swept : List Host := []

inductive Event where
  | beginCreate (j : Nat) (h : Host) (ctx : Context) (nets : List Net)
  | beginAttach (j : Nat) (h : Host) (ctx : Context) (container : Nat) (n : Net)
  | beginDelete (j : Nat) (h : Host) (ctx : Context) (container : Nat) (nets : List Net)
  | beginSweep (j : Nat) (h : Host)
  | look (j : Nat)
  | record (j : Nat)
  /-- The row that is in the way is stale, and destroyed. -/
  | stale (j : Nat)
  /-- The docker network was made meanwhile. -/
  | adopt (j : Nat)
  | wrap (j : Nat)
  | wrapFails (j : Nat)
  | make (j : Nat) (id : Nat)
  | connect (j : Nat)
  | attach (j : Nat)
  | disconnect (j : Nat)
  | remove (j : Nat)
  | inspect (j : Nat)
  /-- Neutron answers, or it cannot be asked. -/
  | ask (j : Nat) (answers : Bool)
  | list (j : Nat)
  | removeNetwork (j : Nat) (ok : Bool)
  | unrecord (j : Nat)
  | finish (j : Nat)
  /-- A call raises, and the job is over. -/
  | fail (j : Nat)
  | start (id : Nat)
  /-- A container is stopped, or exits. -/
  | stop (id : Nat)
  | neutronDeletes (n : Net)
deriving DecidableEq

def State.setJob (s : State) (j : Nat) (job : Option Job) : State :=
  { s with jobs := Function.update s.jobs j job }

/-- The job goes on at another place. -/
def State.goes (s : State) (j : Nat) (job : Job) (phase : Phase) : State :=
  s.setJob j (some { job with phase })

/-- Where a job begins that provisions some networks. -/
def toWrap : List Net → Phase
  | [] => .toMake
  | n :: rest => .wrapping .looking n rest

/-- The job after a network of its own is there. -/
def Job.wrapped (job : Job) (n : Net) (rest : List Net) : Job :=
  match job.kind with
  | .attach container => { job with phase := .attaching container n }
  | _ => { job with provisioned := n :: job.provisioned, phase := toWrap rest }

/-- Where a create goes on once its container is on some networks. -/
def toConnect (container : Nat) : List Net → Option Phase
  | [] => none
  | n :: rest => some (.connecting container n rest)

/-- The row of a network on a host. -/
def isRow (n : Net) (h : Host) (r : Row) : Bool := r.net = n ∧ r.host = h

/-- dockerd lists the network's running containers. -/
def inUse (s : State) (h : Host) (n : Net) : Bool :=
  s.containers.any fun c => c.host = h ∧ c.running = true ∧ n ∈ c.nets

/-- `elsewhere`. -/
def elsewhere (s : State) (ctx : Context) (h : Host) (n : Net) : List Row :=
  s.rows.filter fun r => ctx.sees r ∧ r.net = n ∧ r.host ≠ h

def newRow (job : Job) (n : Net) : Row :=
  { project := job.ctx.project, user := job.ctx.user, net := n, host := job.host }

/-- A container of a host is changed. -/
def State.onContainer (s : State) (h : Host) (id : Nat) (f : List Net → List Net) : State :=
  { s with containers := s.containers.map fun c =>
      if c.id = id ∧ c.host = h then { c with nets := f c.nets } else c }

def State.setRunning (s : State) (id : Nat) (running : Bool) : State :=
  { s with containers := s.containers.map fun c => if c.id = id then { c with running } else c }

/-- The rows of a network on a host are destroyed, of those that are seen. -/
def State.dropRows (s : State) (n : Net) (h : Host) (seen : Row → Bool) : State :=
  { s with rows := s.rows.filter fun r => ¬ (seen r = true ∧ isRow n h r = true) }

section

variable (s : State) (j : Nat) (job : Job)

def stepLook : State :=
  match job.phase with
  | .wrapping .looking n rest =>
      if (job.host, n) ∈ s.wrappers then s.setJob j (some (job.wrapped n rest))
      else s.goes j job (.wrapping .recording n rest)
  | _ => s

def stepRecord : State :=
  match job.phase with
  | .wrapping .recording n rest =>
      { s with rows := newRow job n :: s.rows }.goes j job (.wrapping .making n rest)
  | _ => s

def stepStale : State :=
  match job.phase with
  | .wrapping .recording n _ => s.dropRows n job.host fun _ => true
  | _ => s

def stepAdopt : State :=
  match job.phase with
  | .wrapping .recording n rest => s.setJob j (some (job.wrapped n rest))
  | _ => s

def stepWrap : State :=
  match job.phase with
  | .wrapping .making n rest =>
      { s with wrappers := (job.host, n) :: s.wrappers }.setJob j (some (job.wrapped n rest))
  | _ => s

def stepWrapFails : State :=
  match job.phase with
  | .wrapping .making n _ => (s.dropRows n job.host fun _ => true).setJob j none
  | _ => s

/-- The first network of the container is the one that `pop` gives, the last of the list. -/
def stepMake (id : Nat) : State :=
  let made : Container := { id, host := job.host, nets := job.provisioned.head?.toList }
  { s with containers := made :: s.containers }.setJob j
    ((toConnect id job.provisioned.tail.reverse).map fun phase => { job with phase })

def stepConnect : State :=
  match job.phase with
  | .connecting id n rest =>
      (s.onContainer job.host id fun nets => n :: nets).setJob j
        ((toConnect id rest).map fun phase => { job with phase })
  | _ => s

def stepAttach : State :=
  match job.phase with
  | .attaching id n => (s.onContainer job.host id fun nets => n :: nets).setJob j none
  | _ => s

def stepDisconnect : State :=
  match job.phase with
  | .disconnecting id (n :: rest) =>
      (s.onContainer job.host id fun nets => nets.filter (· ≠ n)).goes j job (.disconnecting id rest)
  | .disconnecting id [] => s.goes j job (.deleting id)
  | _ => s

def stepRemove : State :=
  match job.phase with
  | .deleting id =>
      { s with containers := s.containers.filter fun c => ¬ (c.id = id ∧ c.host = job.host) }.goes
        j job (.releasing job.nets)
  | _ => s

def stepInspect : State :=
  match job.phase with
  | .releasing (n :: rest) =>
      if (job.host, n) ∉ s.wrappers then s.goes j job (.unrecording n rest)
      else if inUse s job.host n = true then s.goes j job (.releasing rest)
      else s.goes j job (.asking n rest)
  | _ => s

def stepAsk (answers : Bool) : State :=
  match job.phase with
  | .asking n rest => s.goes j job (.listing (answers = true ∧ n ∉ s.neutron) n rest)
  | _ => s

def stepList : State :=
  match job.phase with
  | .listing gone n rest =>
      if elsewhere s job.ctx job.host n ≠ [] ∧ gone = false then s.goes j job (.releasing rest)
      else s.goes j job (.removing n rest)
  | _ => s

def stepRemoveNetwork (ok : Bool) : State :=
  match job.phase with
  | .removing n rest =>
      if ok = true then
        { s with wrappers := s.wrappers.filter (· ≠ (job.host, n)) }.goes j job (.unrecording n rest)
      else s.goes j job (.releasing rest)
  | _ => s

def stepUnrecord : State :=
  match job.phase with
  | .unrecording n rest => (s.dropRows n job.host job.ctx.sees).goes j job (.releasing rest)
  | _ => s

def stepFinish : State :=
  { s with swept := if job.kind = Kind.sweep then job.host :: s.swept else s.swept }.setJob j none

end

/-- The networks that a sweep goes through. -/
def sweptNets (s : State) (h : Host) : List Net :=
  ((s.rows.filter fun r => adminContext.sees r = true ∧ r.host = h).map (·.net)).dedup

/-- What the job does. -/
def State.withJob (s : State) (j : Nat) (f : Job → State) : State :=
  match s.jobs j with
  | none => s
  | some job => f job

def step : Event → State → State
  | .beginCreate j h ctx nets, s =>
      s.setJob j (some { kind := .create, host := h, ctx, nets, phase := toWrap nets })
  | .beginAttach j h ctx container n, s =>
      s.setJob j (some { kind := .attach container, host := h, ctx, nets := [n],
                         phase := .wrapping .looking n [] })
  | .beginDelete j h ctx container nets, s =>
      s.setJob j (some { kind := .delete, host := h, ctx, nets,
                         phase := .disconnecting container nets })
  | .beginSweep j h, s =>
      s.setJob j (some { kind := .sweep, host := h, ctx := adminContext, nets := sweptNets s h,
                         phase := .releasing (sweptNets s h) })
  | .look j, s => s.withJob j (stepLook s j)
  | .record j, s => s.withJob j (stepRecord s j)
  | .stale j, s => s.withJob j (stepStale s)
  | .adopt j, s => s.withJob j (stepAdopt s j)
  | .wrap j, s => s.withJob j (stepWrap s j)
  | .wrapFails j, s => s.withJob j (stepWrapFails s j)
  | .make j id, s => s.withJob j fun job => stepMake s j job id
  | .connect j, s => s.withJob j (stepConnect s j)
  | .attach j, s => s.withJob j (stepAttach s j)
  | .disconnect j, s => s.withJob j (stepDisconnect s j)
  | .remove j, s => s.withJob j (stepRemove s j)
  | .inspect j, s => s.withJob j (stepInspect s j)
  | .ask j answers, s => s.withJob j fun job => stepAsk s j job answers
  | .list j, s => s.withJob j (stepList s j)
  | .removeNetwork j ok, s => s.withJob j fun job => stepRemoveNetwork s j job ok
  | .unrecord j, s => s.withJob j (stepUnrecord s j)
  | .finish j, s => s.withJob j (stepFinish s j)
  | .fail j, s => s.setJob j none
  | .start id, s => s.setRunning id true
  | .stop id, s => s.setRunning id false
  | .neutronDeletes n, s => { s with neutron := s.neutron.filter (· ≠ n) }

/-! ## What can happen -/

/-- The job has the lock of a network. -/
def Job.Locks (job : Job) (n : Net) : Prop :=
  match job.phase with
  | .wrapping .recording m _ | .wrapping .making m _ => job.kind = .create ∧ m = n
  | .asking m _ | .listing _ m _ | .removing m _ | .unrecording m _ => m = n
  | _ => False

/-- The job is at work on a network, with its lock or, in an attach, without it. -/
def Job.Holds (job : Job) (n : Net) : Prop :=
  match job.phase with
  | .wrapping .recording m _ | .wrapping .making m _ => m = n
  | .attaching _ m => m = n
  | .asking m _ | .listing _ m _ | .removing m _ | .unrecording m _ => m = n
  | _ => False

/-- No other job of the host is in the way. -/
def Alone (p : Job → Net → Prop) (s : State) (j : Nat) (h : Host) (n : Net) : Prop :=
  ∀ j' job', j' ≠ j → s.jobs j' = some job' → job'.host = h → ¬ p job' n

/-- The job is at a place. -/
def At (s : State) (j : Nat) (p : Job → Prop) : Prop := ∃ job, s.jobs j = some job ∧ p job

def Possible : Event → State → Prop
  | .beginCreate j _ _ _, s | .beginAttach j _ _ _ _, s | .beginDelete j _ _ _ _, s
  | .beginSweep j _, s => s.jobs j = none
  | .look j, s => At s j fun job => ∃ n rest, job.phase = .wrapping .looking n rest ∧
      (job.kind = .create → Alone Job.Locks s j job.host n)
  | .record j, s => At s j fun job => ∃ n rest, job.phase = .wrapping .recording n rest ∧
      ∀ r ∈ s.rows, isRow n job.host r = false
  | .stale j, s => At s j fun job => ∃ n rest, job.phase = .wrapping .recording n rest ∧
      (job.host, n) ∉ s.wrappers
  | .adopt j, s => At s j fun job => ∃ n rest, job.phase = .wrapping .recording n rest ∧
      (job.host, n) ∈ s.wrappers ∧ ∃ r ∈ s.rows, isRow n job.host r = true
  | .wrap j, s | .wrapFails j, s => At s j fun job => ∃ n rest, job.phase = .wrapping .making n rest
  -- Docker gives no id twice.
  | .make j id, s => At s j fun job => job.phase = .toMake ∧ ∀ c ∈ s.containers, c.id ≠ id
  | .connect j, s => At s j fun job => ∃ id n rest, job.phase = .connecting id n rest
  | .attach j, s => At s j fun job => ∃ id n, job.phase = .attaching id n
  | .disconnect j, s => At s j fun job => ∃ id rest, job.phase = .disconnecting id rest
  | .remove j, s => At s j fun job => ∃ id, job.phase = .deleting id
  | .inspect j, s => At s j fun job => ∃ n rest, job.phase = .releasing (n :: rest) ∧
      Alone Job.Locks s j job.host n
  | .ask j _, s => At s j fun job => ∃ n rest, job.phase = .asking n rest
  | .list j, s => At s j fun job => ∃ gone n rest, job.phase = .listing gone n rest
  | .removeNetwork j ok, s => At s j fun job => ∃ n rest, job.phase = .removing n rest ∧
      (ok = true → inUse s job.host n = false)
  | .unrecord j, s => At s j fun job => ∃ n rest, job.phase = .unrecording n rest
  | .finish j, s => At s j fun job => job.phase = .releasing []
  | .fail j, s => At s j fun job => ∀ n rest, job.phase ≠ .wrapping .making n rest
  | .start _, _ | .stop _, _ | .neutronDeletes _, _ => True

/-- No job is under way, and every docker network has its row. -/
structure Begun (s : State) : Prop where
  jobs : ∀ j, s.jobs j = none
  rows : ∀ h n, (h, n) ∈ s.wrappers → ∃ r ∈ s.rows, isRow n h r = true

/-- An attach is as good as locked: no two jobs of a host are at work on one network. -/
def Courteous : Event → State → Prop
  | .look j, s => ∀ job n rest, s.jobs j = some job → job.phase = .wrapping .looking n rest →
      Alone Job.Holds s j job.host n
  | .inspect j, s => ∀ job n rest, s.jobs j = some job → job.phase = .releasing (n :: rest) →
      Alone Job.Holds s j job.host n
  | _, _ => True

/-! ## Jobs that exclude each other -/

variable {s : State} {j : Nat} {job : Job}

@[simp] theorem State.setJob_jobs_self (o : Option Job) : (s.setJob j o).jobs j = o :=
  Function.update_self ..

theorem State.setJob_jobs_of_ne {j' : Nat} (o : Option Job) (h : j' ≠ j) :
    (s.setJob j o).jobs j' = s.jobs j' := Function.update_of_ne h ..

theorem setJob_cases {o : Option Job} {j' : Nat} {job' : Job} (h : (s.setJob j o).jobs j' = some job') :
    (j' = j ∧ o = some job') ∨ (j' ≠ j ∧ s.jobs j' = some job') := by
  by_cases hj : j' = j
  · subst hj
    rw [State.setJob_jobs_self] at h
    exact .inl ⟨rfl, h⟩
  · rw [State.setJob_jobs_of_ne o hj] at h
    exact .inr ⟨hj, h⟩

def Mutex (s : State) : Prop :=
  ∀ j j' job job' n, s.jobs j = some job → s.jobs j' = some job' → job'.host = job.host →
    job.Holds n → job'.Holds n → j' = j

theorem Mutex.alone {n : Net} (h : Mutex s) (hj : s.jobs j = some job) (hn : job.Holds n) :
    Alone Job.Holds s j job.host n :=
  fun j' job' hne hj' hhost hn' => hne (h j j' job job' n hj hj' hhost hn hn')

/-- A job goes on to what it may be alone at. -/
theorem Mutex.setJob {s' : State} {o : Option Job} (h : Mutex s) (hjobs : s'.jobs = (s.setJob j o).jobs)
    (ho : ∀ job' n, o = some job' → job'.Holds n → Alone Job.Holds s j job'.host n) : Mutex s' := by
  intro j₁ j₂ job₁ job₂ n h₁ h₂ hhost hn₁ hn₂
  rw [hjobs] at h₁ h₂
  rcases setJob_cases h₁ with ⟨rfl, ho₁⟩ | ⟨hne₁, hold₁⟩
  · rcases setJob_cases h₂ with ⟨rfl, -⟩ | ⟨hne₂, hold₂⟩
    · rfl
    · exact absurd hn₂ (ho job₁ n ho₁ hn₁ j₂ job₂ hne₂ hold₂ hhost)
  · rcases setJob_cases h₂ with ⟨rfl, ho₂⟩ | ⟨-, hold₂⟩
    · exact absurd hn₁ (ho job₂ n ho₂ hn₂ j₁ job₁ hne₁ hold₁ hhost.symm)
    · exact h j₁ j₂ job₁ job₂ n hold₁ hold₂ hhost hn₁ hn₂

/-- The job goes on, at work on what it was at work on before. -/
theorem Mutex.goes {s' : State} {phase : Phase} (h : Mutex s) (hj : s.jobs j = some job)
    (hjobs : s'.jobs = (s.goes j job phase).jobs)
    (hholds : ∀ n, ({ job with phase } : Job).Holds n → job.Holds n ∨ Alone Job.Holds s j job.host n) :
    Mutex s' := by
  refine h.setJob hjobs fun job' n ho hn => ?_
  cases ho
  have halone : Alone Job.Holds s j job.host n := (hholds n hn).elim (h.alone hj) id
  exact halone

theorem holds_wrapped {n m : Net} {rest : List Net} (h : (job.wrapped n rest).Holds m) : m = n := by
  unfold Job.wrapped at h
  split at h
  · exact h.symm
  · cases rest with
    | nil => exact h.elim
    | cons k rest => exact h.elim

theorem wrapped_host (n : Net) (rest : List Net) : (job.wrapped n rest).host = job.host := by
  unfold Job.wrapped
  split <;> rfl

theorem Mutex.wrapped {s' : State} {n : Net} {rest : List Net} (h : Mutex s)
    (hjobs : s'.jobs = (s.setJob j (some (job.wrapped n rest))).jobs)
    (halone : Alone Job.Holds s j job.host n) : Mutex s' := by
  refine h.setJob hjobs fun job' m ho hm => ?_
  cases ho
  rw [wrapped_host, holds_wrapped hm]
  exact halone

/-- The job is over, or has nothing to be alone at. -/
theorem Mutex.idles {s' : State} {o : Option Job} (h : Mutex s) (hjobs : s'.jobs = (s.setJob j o).jobs)
    (ho : ∀ job' n, o = some job' → ¬ job'.Holds n) : Mutex s' :=
  h.setJob hjobs fun job' n hjob hn => absurd hn (ho job' n hjob)

theorem not_holds_toConnect {id : Nat} {nets : List Net} {phase : Phase} {n : Net}
    (h : toConnect id nets = some phase) : ¬ ({ job with phase } : Job).Holds n := by
  cases nets with
  | nil => cases h
  | cons m rest =>
      cases h
      exact fun hholds => hholds

theorem mutex_step (e : Event) (h : Mutex s) (hpossible : Possible e s) (hcourteous : Courteous e s) :
    Mutex (step e s) := by
  cases e with
  | beginCreate j k ctx nets =>
      refine h.idles rfl fun job' n ho => ?_
      cases ho
      cases nets <;> exact id
  | beginAttach j k ctx container n =>
      refine h.idles rfl fun job' n ho => ?_
      cases ho
      exact id
  | beginDelete j k ctx container nets =>
      refine h.idles rfl fun job' n ho => ?_
      cases ho
      exact id
  | beginSweep j k =>
      refine h.idles rfl fun job' n ho => ?_
      cases ho
      exact id
  | look j =>
      obtain ⟨job, hj, n, rest, hphase, -⟩ := hpossible
      have halone := hcourteous job n rest hj hphase
      simp only [step, State.withJob, hj, stepLook, hphase]
      split
      · exact h.wrapped rfl halone
      · refine h.goes hj rfl fun m hm => .inr ?_
        cases show n = m from hm
        exact halone
  | record j =>
      obtain ⟨job, hj, n, rest, hphase, -⟩ := hpossible
      simp only [step, State.withJob, hj, stepRecord, hphase]
      refine h.goes hj rfl fun m hm => .inl ?_
      simp only [Job.Holds, hphase]
      exact hm
  | stale j =>
      obtain ⟨job, hj, n, rest, hphase, -⟩ := hpossible
      simp only [step, State.withJob, hj, stepStale, hphase]
      exact h
  | adopt j =>
      obtain ⟨job, hj, n, rest, hphase, -⟩ := hpossible
      simp only [step, State.withJob, hj, stepAdopt, hphase]
      exact h.wrapped rfl (h.alone hj (by simp [Job.Holds, hphase]))
  | wrap j =>
      obtain ⟨job, hj, n, rest, hphase⟩ := hpossible
      simp only [step, State.withJob, hj, stepWrap, hphase]
      exact h.wrapped rfl (h.alone hj (by simp [Job.Holds, hphase]))
  | wrapFails j =>
      obtain ⟨job, hj, n, rest, hphase⟩ := hpossible
      simp only [step, State.withJob, hj, stepWrapFails, hphase]
      exact h.idles rfl (by rintro _ _ ⟨⟩)
  | make j id =>
      obtain ⟨job, hj, -⟩ := hpossible
      simp only [step, State.withJob, hj]
      refine h.idles rfl fun job' n ho => ?_
      obtain ⟨phase, hphase, rfl⟩ := Option.map_eq_some_iff.mp ho
      exact not_holds_toConnect hphase
  | connect j =>
      obtain ⟨job, hj, id, n, rest, hphase⟩ := hpossible
      simp only [step, State.withJob, hj, stepConnect, hphase]
      refine h.idles rfl fun job' n ho => ?_
      obtain ⟨phase, hphase, rfl⟩ := Option.map_eq_some_iff.mp ho
      exact not_holds_toConnect hphase
  | attach j =>
      obtain ⟨job, hj, id, n, hphase⟩ := hpossible
      simp only [step, State.withJob, hj, stepAttach, hphase]
      exact h.idles rfl (by rintro _ _ ⟨⟩)
  | disconnect j =>
      obtain ⟨job, hj, id, rest, hphase⟩ := hpossible
      cases rest with
      | nil =>
          simp only [step, State.withJob, hj, stepDisconnect, hphase]
          exact h.goes hj rfl fun m hm => hm.elim
      | cons n rest =>
          simp only [step, State.withJob, hj, stepDisconnect, hphase]
          exact h.goes hj rfl fun m hm => hm.elim
  | remove j =>
      obtain ⟨job, hj, id, hphase⟩ := hpossible
      simp only [step, State.withJob, hj, stepRemove, hphase]
      exact h.goes hj rfl fun m hm => hm.elim
  | inspect j =>
      obtain ⟨job, hj, n, rest, hphase, -⟩ := hpossible
      have halone := hcourteous job n rest hj hphase
      simp only [step, State.withJob, hj, stepInspect, hphase]
      have hat : ∀ m, n = m → Alone Job.Holds s j job.host m := by
        rintro m rfl
        exact halone
      split
      · exact h.goes hj rfl fun m hm => .inr (hat m hm)
      · split
        · exact h.goes hj rfl fun m hm => hm.elim
        · exact h.goes hj rfl fun m hm => .inr (hat m hm)
  | ask j answers =>
      obtain ⟨job, hj, n, rest, hphase⟩ := hpossible
      simp only [step, State.withJob, hj, stepAsk, hphase]
      exact h.goes hj rfl fun m hm => .inl (by simpa only [Job.Holds, hphase] using hm)
  | list j =>
      obtain ⟨job, hj, gone, n, rest, hphase⟩ := hpossible
      simp only [step, State.withJob, hj, stepList, hphase]
      split
      · exact h.goes hj rfl fun m hm => hm.elim
      · exact h.goes hj rfl fun m hm => .inl (by simpa only [Job.Holds, hphase] using hm)
  | removeNetwork j ok =>
      obtain ⟨job, hj, n, rest, hphase, -⟩ := hpossible
      simp only [step, State.withJob, hj, stepRemoveNetwork, hphase]
      split
      · exact h.goes hj rfl fun m hm => .inl (by simpa only [Job.Holds, hphase] using hm)
      · exact h.goes hj rfl fun m hm => hm.elim
  | unrecord j =>
      obtain ⟨job, hj, n, rest, hphase⟩ := hpossible
      simp only [step, State.withJob, hj, stepUnrecord, hphase]
      exact h.goes hj rfl fun m hm => hm.elim
  | finish j =>
      obtain ⟨job, hj, -⟩ := hpossible
      simp only [step, State.withJob, hj]
      exact h.idles rfl (by rintro _ _ ⟨⟩)
  | fail j => exact h.idles rfl (by rintro _ _ ⟨⟩)
  | start id => exact h
  | stop id => exact h
  | neutronDeletes n => exact h

end DockerNetwork

end Zun
