import Mathlib.Data.List.AList
import Zun.Effect.Run
import Zun.Objects.Container

/-!
# The registry of the CNI daemon

`ZunCNIRegistryPlugin` of `zun/cni/plugins/zun_cni_registry.py` and `CNIDaemonWatcherService` of
`zun/cni/daemon/service.py`.  Each request of the runtime is run by a worker process of its own,
and the watcher is one more process.  They share the registry, and nothing else.

A step of a process is one access to the registry, the database or the binding driver.  What runs
under the lock of a uuid is one step, since every write to the registry is under it.  Between two
steps of a process the others may do any number of theirs.

The runtime numbers the sandboxes of the node in the order in which it makes them.
-/

namespace Zun

open Effect

namespace Cni

/-! ## State -/

structure Vif where
  id : Nat
  active : Bool := false
deriving DecidableEq

/-- The VIFs of a record, by the name of the interface. -/
abbrev Vifs := List (String × Vif)

/-- An entry of the registry. -/
structure Entry where
  /-- `containerid`; `none` when there is no id in it. -/
  containerId : Option Nat
  vifUnplugged : Bool := false
  delReceived : Bool := false
  vifs : Vifs := []
deriving DecidableEq

/-- The row of a capsule or of a container. -/
structure Row where
  capsule : Bool := true
  host : Option String := none
  vifs : Vifs := []
deriving DecidableEq

/-- What a request says: `K8S_POD_NAME` and `CNI_CONTAINERID`. -/
structure Request where
  uuid : Uuid
  containerId : Nat
deriving DecidableEq

/-- Where an ADD is. -/
inductive AddPhase where
  | finding
  /-- Its VIFs, and those that are still to be connected. -/
  | connecting (rest vifs : Vifs)
  | waiting
deriving DecidableEq

/-- Where a DEL is. -/
inductive DelPhase where
  /-- It has not compared the ids yet. -/
  | checking
  | finding
  /-- The VIFs that are still to be disconnected. -/
  | disconnecting (rest : Vifs)
deriving DecidableEq

/-- A worker process with its request. -/
inductive Worker where
  | add (r : Request) (phase : AddPhase)
  | del (r : Request) (phase : DelPhase)
deriving DecidableEq

/-- Where the watcher is.  Its two passes are run by one thread. -/
inductive Watcher where
  | idle
  /-- `sync_containers` has the capsules of the host. -/
  | capsules (known : List Uuid)
  /-- It has the containers too. -/
  | records (known : List Uuid)
  /-- The entries it takes for those of deleted records. -/
  | removing (gone : List Uuid)
  /-- `poll_vif_status` has its copy of the registry. -/
  | polling (copy : List (Uuid × Entry))
  /-- The interfaces it is going to mark. -/
  | updating (todo : List (Uuid × String))
deriving DecidableEq

/-- What was done. -/
inductive Act where
  /-- A VIF of the record was connected to the sandbox. -/
  | connect (u : Uuid) (containerId : Nat)
  | disconnect (u : Uuid) (containerId : Nat)
  /-- A DEL of the sandbox came to its end. -/
  | handled (u : Uuid) (containerId : Nat)
deriving DecidableEq

structure State where
  registry : AList fun _ : Uuid => Entry := ∅
  /-- The rows of the database. -/
  rows : AList fun _ : Uuid => Row := ∅
  /-- Every uuid that a row has had. -/
  uuids : List Uuid := []
  workers : Nat → Option Worker := fun _ => none
  watcher : Watcher := .idle
  /-- What was done, newest first. -/
  log : List Act := []

namespace State

def setWorker (s : State) (i : Nat) (w : Option Worker) : State :=
  { s with workers := Function.update s.workers i w }

def setEntry (s : State) (u : Uuid) (e : Entry) : State :=
  { s with registry := s.registry.insert u e }

def dropEntry (s : State) (u : Uuid) : State := { s with registry := s.registry.erase u }

def logged (s : State) (a : Act) : State := { s with log := a :: s.log }

end State

/-! ## Steps -/

/-- The next step of `add`.  `ok` is false when its call fails, or when the wait is over. -/
def stepAdd (s : State) (i : Nat) (r : Request) (ok : Bool) : AddPhase → State
  | .finding =>
      match ok, s.rows.lookup r.uuid with
      | true, some row => s.setWorker i (some (.add r (.connecting row.vifs row.vifs)))
      | _, _ => s.setWorker i none
  | .connecting (_ :: rest) vifs =>
      (s.logged (.connect r.uuid r.containerId)).setWorker i
        (if ok then some (.add r (.connecting rest vifs)) else none)
  | .connecting [] vifs =>
      (s.setEntry r.uuid { containerId := some r.containerId, vifs }).setWorker i
        (some (.add r .waiting))
  | .waiting =>
      match ok, s.registry.lookup r.uuid with
      | true, some e => if e.vifs.all (·.2.active) then s.setWorker i none else s
      | _, _ => s.setWorker i none

/-- The DEL is for the sandbox of the entry, or there is no id to compare with. -/
def passes (r : Request) : Option Entry → Bool
  | none => true
  | some e => e.containerId.all (· = r.containerId)

/-- What a DEL does to the entry when it has disconnected. -/
def unplugged (s : State) (u : Uuid) : State :=
  match s.registry.lookup u with
  | none => s
  | some e => if e.delReceived then s.dropEntry u else s.setEntry u { e with vifUnplugged := true }

/-- The next step of `delete`. -/
def stepDel (s : State) (i : Nat) (r : Request) (ok : Bool) : DelPhase → State
  | .checking =>
      s.setWorker i (if passes r (s.registry.lookup r.uuid) then some (.del r .finding) else none)
  | .finding =>
      -- A record that is not found is no reason to stop.
      s.setWorker i (if ok then some (.del r (.disconnecting
        (((s.rows.lookup r.uuid).map (·.vifs)).getD []))) else none)
  | .disconnecting (_ :: rest) =>
      (s.logged (.disconnect r.uuid r.containerId)).setWorker i
        (if ok then some (.del r (.disconnecting rest)) else none)
  | .disconnecting [] =>
      ((unplugged s r.uuid).logged (.handled r.uuid r.containerId)).setWorker i none

def stepWorker (s : State) (i : Nat) (ok : Bool) : State :=
  match s.workers i with
  | none => s
  | some (.add r phase) => stepAdd s i r ok phase
  | some (.del r phase) => stepDel s i r ok phase

/-- `_on_container_deleted`. -/
def onContainerDeleted (s : State) (u : Uuid) : State :=
  match s.registry.lookup u with
  | none => s
  | some e => if e.vifUnplugged then s.dropEntry u else s.setEntry u { e with delReceived := true }

/-- The rows of a kind that are on the host. -/
def listByHost (host : String) (capsule : Bool) (s : State) : List Uuid :=
  (s.rows.entries.filter fun x => x.2.capsule = capsule ∧ x.2.host = some host).map (·.1)

/-- The interfaces to mark: those of the ports that have become active, on every entry. -/
def activated (copy : List (Uuid × Entry)) (active : List Nat) : List (Uuid × String) :=
  let inactive := copy.flatMap fun x =>
    (x.2.vifs.filter fun v => v.2.active = false).map fun v => (v.2.id, v.1)
  copy.flatMap fun x => active.filterMap fun p =>
    ((inactive.reverse.find? (·.1 = p)).map (·.2)).map fun ifname => (x.1, ifname)

/-- Mark an interface of the entry, if it has it. -/
def Entry.activate (e : Entry) (ifname : String) : Entry :=
  { e with vifs := e.vifs.map fun v => if v.1 = ifname then (v.1, { v.2 with active := true }) else v }

/-- `_update_vif_status`. -/
def updateVifStatus (s : State) (u : Uuid) (ifname : String) : State :=
  match s.registry.lookup u with
  | none => s
  | some e => s.setEntry u (e.activate ifname)

/-- The next step of the watcher's pass.  `ok` is false when its call fails, and `active` is what
Neutron says of the ports. -/
def stepWatcher (host : String) (s : State) (ok : Bool) (active : List Nat) : State :=
  match s.watcher with
  | .idle => s
  | .capsules known =>
      { s with watcher := if ok then .records (known ++ listByHost host false s) else .idle }
  | .records known =>
      { s with watcher := .removing (s.registry.keys.filter (· ∉ known)) }
  | .removing [] => { s with watcher := .idle }
  | .removing (u :: gone) => { onContainerDeleted s u with watcher := .removing gone }
  | .polling copy => { s with watcher := if ok then .updating (activated copy active) else .idle }
  | .updating [] => { s with watcher := .idle }
  | .updating ((u, ifname) :: todo) =>
      -- An interface that an entry does not have ends the pass.
      { updateVifStatus s u ifname with watcher := if ok then .updating todo else .idle }

/-- What happens next on the node. -/
inductive Event where
  | add (i : Nat) (r : Request)
  | del (i : Nat) (r : Request)
  | work (i : Nat) (ok : Bool)
  /-- `sync_containers` begins, with the capsules of the host. -/
  | sync
  /-- `poll_vif_status` begins. -/
  | poll
  | watch (ok : Bool) (active : List Nat)
  /-- A row is made or changed. -/
  | save (u : Uuid) (row : Row)
  | destroy (u : Uuid)
deriving DecidableEq

def step (host : String) : Event → State → State
  | .add i r, s => s.setWorker i (some (.add r .finding))
  | .del i r, s => s.setWorker i (some (.del r .checking))
  | .work i ok, s => stepWorker s i ok
  | .sync, s => { s with watcher := .capsules (listByHost host true s) }
  | .poll, s => { s with watcher := .polling (s.registry.entries.map fun x => (x.1, x.2)) }
  | .watch ok active, s => stepWatcher host s ok active
  | .save u row, s => { s with rows := s.rows.insert u row, uuids := u :: s.uuids }
  | .destroy u, s => { s with rows := s.rows.erase u }

/-- What can happen: a request reaches a process that is free, the watcher has one pass at a time,
a row that was destroyed does not come back, and a row stays of its kind. -/
def Possible : Event → State → Prop
  | .add i _, s | .del i _, s => s.workers i = none
  | .sync, s | .poll, s => s.watcher = .idle
  | .save u row, s => u ∈ s.uuids → ∃ old, s.rows.lookup u = some old ∧ old.capsule = row.capsule
  | _, _ => True

/-! ## A late DEL -/

/-- A disconnect of a sandbox does not come after a connect of a newer one of the same uuid. -/
def NotLate (later earlier : Act) : Prop :=
  ∀ u c c', later = .disconnect u c → earlier = .connect u c' → c' ≤ c

/-- No DEL has run `disconnect` once an ADD of a newer sandbox had begun to connect. -/
def InTime (s : State) : Prop := s.log.Pairwise NotLate

/-- The DEL has passed the comparison of the ids and may still disconnect. -/
def DelPhase.armed : DelPhase → Bool
  | .checking | .disconnecting [] => false
  | .finding | .disconnecting (_ :: _) => true

/-- A DEL compares its id, once an ADD of a newer sandbox has begun to connect, with an entry of
another sandbox; and an ADD connects when no DEL of an older sandbox has passed the comparison. -/
def Ordered : Event → State → Prop
  | .work i _, s =>
      match s.workers i with
      | some (.del r .checking) =>
          ∀ c, .connect r.uuid c ∈ s.log → r.containerId < c →
            passes r (s.registry.lookup r.uuid) = false
      | some (.add r (.connecting (_ :: _) _)) =>
          ∀ j r' phase, s.workers j = some (.del r' phase) → r'.uuid = r.uuid →
            r'.containerId < r.containerId → phase.armed = false
      | _ => True
  | _, _ => True

/-- No request has begun. -/
structure Started (s : State) : Prop where
  workers : ∀ i, s.workers i = none
  log : s.log = []

/-- A DEL that may still disconnect has met no connect of a newer sandbox. -/
structure Timely (s : State) : Prop where
  inTime : InTime s
  armed : ∀ i r phase c, s.workers i = some (.del r phase) → phase.armed = true →
    .connect r.uuid c ∈ s.log → c ≤ r.containerId

namespace State

variable {s : State} {i j : Nat} {w : Option Worker}

@[simp] theorem setWorker_log : (s.setWorker i w).log = s.log := rfl

@[simp] theorem setWorker_registry : (s.setWorker i w).registry = s.registry := rfl

@[simp] theorem setWorker_rows : (s.setWorker i w).rows = s.rows := rfl

@[simp] theorem setWorker_uuids : (s.setWorker i w).uuids = s.uuids := rfl

@[simp] theorem setWorker_watcher : (s.setWorker i w).watcher = s.watcher := rfl

@[simp] theorem setWorker_self : (s.setWorker i w).workers i = w := Function.update_self ..

theorem setWorker_of_ne (h : j ≠ i) : (s.setWorker i w).workers j = s.workers j :=
  Function.update_of_ne h ..

end State

section Late

variable {s s' : State} {i : Nat} {w : Option Worker}

/-- What the log and the workers are is all that counts. -/
theorem Timely.congr (h : Timely s) (hlog : s'.log = s.log) (hworkers : s'.workers = s.workers) :
    Timely s' := by
  refine ⟨?_, fun i r phase c hw harmed hc => ?_⟩
  · unfold InTime
    rw [hlog]
    exact h.inTime
  · rw [hworkers] at hw
    rw [hlog] at hc
    exact h.armed i r phase c hw harmed hc

/-- A worker goes on to a phase that is in time. -/
theorem Timely.setWorker (h : Timely s)
    (hw : ∀ r phase c, w = some (.del r phase) → phase.armed = true →
      .connect r.uuid c ∈ s.log → c ≤ r.containerId) : Timely (s.setWorker i w) := by
  refine ⟨h.inTime, fun j r phase c hj harmed hc => ?_⟩
  by_cases hji : j = i
  · subst hji
    rw [State.setWorker_self] at hj
    exact hw r phase c hj harmed hc
  · rw [State.setWorker_of_ne hji] at hj
    exact h.armed j r phase c hj harmed hc

/-- An act that is neither late itself nor makes a DEL late. -/
theorem Timely.logged {a : Act} (h : Timely s) (ha : ∀ b ∈ s.log, NotLate a b)
    (harmed : ∀ i r phase c, s.workers i = some (.del r phase) → phase.armed = true →
      a = .connect r.uuid c → c ≤ r.containerId) : Timely (s.logged a) := by
  refine ⟨List.Pairwise.cons ha h.inTime, fun i r phase c hw hphase hc => ?_⟩
  rcases List.mem_cons.mp hc with hnew | hold
  · exact harmed i r phase c hw hphase hnew.symm
  · exact h.armed i r phase c hw hphase hold

theorem timely_stepAdd {r : Request} {phase : AddPhase} {ok : Bool} (h : Timely s)
    (hw : s.workers i = some (.add r phase)) (hordered : Ordered (.work i ok) s) :
    Timely (stepAdd s i r ok phase) := by
  cases phase with
  | finding =>
      simp only [stepAdd]
      split
      · exact h.setWorker nofun
      · exact h.setWorker nofun
  | connecting rest vifs =>
      cases rest with
      | nil =>
          have hwritten : Timely (s.setEntry r.uuid { containerId := some r.containerId, vifs }) :=
            h.congr rfl rfl
          exact hwritten.setWorker nofun
      | cons v rest =>
          simp only [Ordered, hw] at hordered
          have hlogged : Timely (s.logged (.connect r.uuid r.containerId)) := by
            refine h.logged (fun b _ => nofun) fun j r' phase' c hj harmed hc => ?_
            obtain ⟨huuid, rfl⟩ := Act.connect.inj hc
            by_contra hlt
            have hfalse := hordered j r' phase' hj huuid.symm (Nat.not_le.mp hlt)
            rw [harmed] at hfalse
            cases hfalse
          cases ok with
          | true => exact hlogged.setWorker nofun
          | false => exact hlogged.setWorker nofun
  | waiting =>
      simp only [stepAdd]
      split
      · split
        · exact h.setWorker nofun
        · exact h
      · exact h.setWorker nofun

theorem unplugged_log (u : Uuid) : (unplugged s u).log = s.log := by
  unfold unplugged
  split
  · rfl
  · split <;> rfl

theorem unplugged_workers (u : Uuid) : (unplugged s u).workers = s.workers := by
  unfold unplugged
  split
  · rfl
  · split <;> rfl

theorem timely_stepDel {r : Request} {phase : DelPhase} {ok : Bool} (h : Timely s)
    (hw : s.workers i = some (.del r phase)) (hordered : Ordered (.work i ok) s) :
    Timely (stepDel s i r ok phase) := by
  cases phase with
  | checking =>
      simp only [Ordered, hw] at hordered
      refine h.setWorker fun r' phase' c hgo _ hc => ?_
      by_contra hlt
      -- A newer sandbox is being connected, so the comparison stops the DEL.
      cases hpass : passes r (s.registry.lookup r.uuid) with
      | false =>
          rw [hpass] at hgo
          cases hgo
      | true =>
          rw [hpass] at hgo
          cases hgo
          have hfalse := hordered c hc (Nat.not_le.mp hlt)
          rw [hpass] at hfalse
          cases hfalse
  | finding =>
      refine h.setWorker fun r' phase' c hgo _ hc => ?_
      cases ok with
      | false => cases hgo
      | true =>
          cases hgo
          exact h.armed i r .finding c hw rfl hc
  | disconnecting rest =>
      cases rest with
      | nil =>
          have hlogged : Timely ((unplugged s r.uuid).logged (.handled r.uuid r.containerId)) :=
            (h.congr (unplugged_log _) (unplugged_workers _)).logged (fun b _ => nofun)
              fun _ _ _ _ _ _ => nofun
          exact hlogged.setWorker nofun
      | cons v rest =>
          have hmine : ∀ c, .connect r.uuid c ∈ s.log → c ≤ r.containerId :=
            fun c => h.armed i r _ c hw rfl
          have hlogged : Timely (s.logged (.disconnect r.uuid r.containerId)) := by
            refine h.logged (fun b hb u c c' hlater hearlier => ?_) fun _ _ _ _ _ _ => nofun
            cases hlater
            subst hearlier
            exact hmine c' hb
          refine hlogged.setWorker fun r' phase' c hgo _ hc => ?_
          cases ok with
          | false => cases hgo
          | true =>
              cases hgo
              rcases List.mem_cons.mp hc with hnew | hold
              · cases hnew
              · exact hmine c hold

theorem stepWatcher_log (host : String) (ok : Bool) (active : List Nat) :
    (stepWatcher host s ok active).log = s.log := by
  unfold stepWatcher
  split <;> try rfl
  · unfold onContainerDeleted
    split
    · rfl
    · split <;> rfl
  · unfold updateVifStatus
    split <;> rfl

theorem stepWatcher_workers (host : String) (ok : Bool) (active : List Nat) :
    (stepWatcher host s ok active).workers = s.workers := by
  unfold stepWatcher
  split <;> try rfl
  · unfold onContainerDeleted
    split
    · rfl
    · split <;> rfl
  · unfold updateVifStatus
    split <;> rfl

theorem timely_step {host : String} (e : Event) (h : Timely s) (hordered : Ordered e s) :
    Timely (step host e s) := by
  cases e with
  | add i r => exact h.setWorker nofun
  | del i r =>
      refine h.setWorker fun r' phase c hgo harmed _ => ?_
      cases hgo
      cases harmed
  | work i ok =>
      simp only [step, stepWorker]
      split
      · exact h
      · exact timely_stepAdd h ‹_› hordered
      · exact timely_stepDel h ‹_› hordered
  | sync => exact h.congr rfl rfl
  | poll => exact h.congr rfl rfl
  | watch ok active => exact h.congr (stepWatcher_log ..) (stepWatcher_workers ..)
  | save u row => exact h.congr rfl rfl
  | destroy u => exact h.congr rfl rfl

/-- In every run whose requests come in order, from any registry, no DEL of an older sandbox
disconnects once an ADD of a newer one has begun to connect. -/
theorem inTime_of_ordered (host : String) (s : State)
    (h : Reached Started (step host) (fun e s => Possible e s ∧ Ordered e s) s) : InTime s := by
  have htimely : Timely s := by
    refine h.invariant (fun s hs => ⟨?_, fun i r phase c hw => ?_⟩) fun e s hok hs =>
      timely_step e hs hok.2
    · unfold InTime
      rw [hs.log]
      exact List.Pairwise.nil
    · rw [hs.workers i] at hw
      cases hw
  exact htimely.inTime

end Late

/-- A record with one VIF, and the entry of its first sandbox. -/
def oneSandbox : State where
  registry := AList.insert 7 { containerId := some 1 } ∅
  rows := AList.insert 7 { host := some "node", vifs := [("eth0", { id := 3 })] } ∅
  uuids := [7]

theorem started_oneSandbox : Started oneSandbox := ⟨fun _ => rfl, rfl⟩

/-- The first sandbox goes, and the second one comes while its DEL is being answered. -/
def inTurn : List Event :=
  [.del 0 ⟨7, 1⟩, .work 0 true, .work 0 true, .work 0 true, .add 1 ⟨7, 2⟩, .work 1 true, .work 1 true]

theorem inTime_inTurn :
    InTime (steps (step "node") inTurn oneSandbox) ∧
      .connect 7 2 ∈ (steps (step "node") inTurn oneSandbox).log := by
  refine ⟨inTime_of_ordered "node" _ (.steps (.init started_oneSandbox) ?_), by decide⟩
  refine ⟨⟨rfl, trivial⟩, ⟨trivial, nofun⟩, ⟨trivial, trivial⟩, ⟨trivial, trivial⟩, ⟨rfl, trivial⟩,
    ⟨trivial, trivial⟩, ⟨trivial, fun j r phase hj _ _ => ?_⟩, trivial⟩
  match j, hj with
  | 0, hj =>
      cases hj
      rfl
  | 1, hj => cases hj
  | _ + 2, hj => cases hj

/-- The DEL of the first sandbox comes when the ADD of the second one has connected and not yet
written its entry. -/
def overtaken : List Event :=
  [.add 1 ⟨7, 2⟩, .work 1 true, .work 1 true, .del 0 ⟨7, 1⟩, .work 0 true, .work 0 true, .work 0 true]

theorem late_del_disconnects :
    Reached Started (step "node") Possible (steps (step "node") overtaken oneSandbox) ∧
      ¬ InTime (steps (step "node") overtaken oneSandbox) := by
  refine ⟨.steps (.init started_oneSandbox)
    ⟨rfl, trivial, trivial, rfl, trivial, trivial, trivial, trivial⟩, fun h => ?_⟩
  have hlate := (List.pairwise_cons.mp h).1 (.connect 7 2) (by decide) 7 1 2 rfl rfl
  exact absurd hlate (by decide)

end Cni

end Zun
