import Zun.Container.Cri.Probes

/-!
# Probes and the containers of a member

The state of a member's probes is on its record, and a member has one container after another.  There are
seven ways to another container in `zun/container/cri/driver.py`.  The restart for a probe, the start of a
sidecar, its retry and its restart while the capsule starts leave nothing of the state but the tally of
restarts.  The restart policy and the rebuild of a capsule keep it.

Beside the record goes the state that the member would have if its container were the first one.  As long as
the two agree but for the tally, the container is judged by what it did itself.

The start on the record is what a first probe waits from.  A restart for a probe does not write it.
-/

namespace Zun.Probes

namespace Member

/-! ## The model -/

/-- What the record of a member has for its probes. -/
structure Record where
  state : State := {}
  startedAt : Option ℚ := none
  createdAt : Option ℚ := none

/-- The ways to another container, but for the restart for a probe. -/
inductive Path where
  /-- `_restart_on_exit` of a container of its own, with `_restart_exited`. -/
  | restartExited
  /-- `_restart_on_exit` of a member, with `_restart_container`. -/
  | restartContainer
  /-- A main container in `_rebuild_capsule`. -/
  | rebuildCapsule
  /-- `_start_sidecar`. -/
  | startSidecar
  /-- `_start_sidecar` again, after `_discard_for_retry`. -/
  | discardForRetry
  /-- `_tend_sidecars`. -/
  | tendSidecars
deriving DecidableEq

/-- `state['restarts'] = _restart_count(container) + 1`. -/
def count (s : State) : State := { s with restarts := s.restarts + 1 }

/-- `{'restarts': _restart_count(container)}`. -/
def tally (s : State) : State := { restarts := s.restarts }

/-- The state that `_create_container` saves with the new container. -/
def Path.created : Path → State → State
  | .restartExited, s => s
  | .restartContainer, s => count s
  | .rebuildCapsule, s => count s
  | .startSidecar, s => tally s
  | .discardForRetry, s => tally (count s)
  | .tendSidecars, s => count s

/-- The state once the new container has been started. -/
def Path.started : Path → State → State
  | .restartExited, s => count s
  | .tendSidecars, s => tally (count s)
  | path, s => path.created s

/-- Only the tally is left of the state. -/
def Path.clears : Path → Bool
  | .restartExited | .restartContainer | .rebuildCapsule => false
  | .startSidecar | .discardForRetry | .tendSidecars => true

inductive Event where
  /-- `_check_probes`: what each probe answers if it is run, and whether a restart it asks for goes well. -/
  | checkProbes (now : ℚ) (ok : Kind → Bool) (replaced : Bool)
  /-- A turn of the loop of `_sidecar_started`. -/
  | sidecarStarted (now : ℚ) (ok : Bool)
  /-- Another container is started; `_record_start` may get no answer. -/
  | started (path : Path) (now : ℚ) (answered : Bool)
  /-- It is not; the new container may have been saved already. -/
  | failed (path : Path) (saved : Bool)
  /-- `_populate_container_state` reads when the container was started. -/
  | populated

/-- A member, and what is said of the container that was started for it last. -/
structure Life where
  record : Record
  start : ℚ
  /-- The record names it. -/
  named : Bool := true
  /-- What the state would be if it were the first one. -/
  own : State := {}

/-- A member whose first container has been started. -/
def first (start : ℚ) (startedAt createdAt : Option ℚ) : Life where
  record := { startedAt, createdAt }
  start := start

/-- `started_at or created_at`. -/
def Record.since (r : Record) : Option ℚ := r.startedAt <|> r.createdAt

def Record.input (r : Record) (now : ℚ) (ok : Kind → Bool) (replaced : Bool) : Input where
  now := now
  since := r.since
  ok := ok
  replaced := replaced

/-- A turn of the loop of `_sidecar_started`. -/
def sidecarStarted (defs : Definitions) (i : Input) (s : State) : State × Pass :=
  let p : Pass := { now := i.now, since := i.since }
  match defs .startup with
  | none => (s, p)
  | some probe =>
      if due s .startup probe i then
        let s := scheduleNext s .startup probe i.now
        let (passed, s) := probePassed s .startup probe (i.ok .startup)
        let p := p.ran .startup (i.ok .startup)
        if passed then ({ s with startupPassed := true }, p) else (s, p)
      else (s, p)

/-- What a look at the probes makes of a state, and of the one that the container would have. -/
def Life.look (l : Life) (looks : State → State × Pass) (now : ℚ) : Life :=
  let record := { l.record with state := (looks l.record.state).1 }
  if (looks l.record.state).2.restarted then { record := record, start := now }
  else { l with
    record := record
    own := (looks l.own).1 }

/-- `_record_start`, of a container that was started at this time. -/
def Record.recordStart (r : Record) (start : ℚ) (answered : Bool) : Record :=
  if answered then { r with startedAt := some start } else r

def step (defs : Definitions) (l : Life) : Event → Life
  | .checkProbes now ok replaced => l.look (Probes.checkProbes defs (l.record.input now ok replaced)) now
  | .sidecarStarted now ok => l.look (sidecarStarted defs (l.record.input now (fun _ => ok) false)) now
  | .started path now answered =>
      let record := { l.record with state := path.started l.record.state }
      { record := record.recordStart now answered
        start := now }
  | .failed path saved =>
      if saved then { l with
        record := { l.record with state := path.created l.record.state }
        named := false }
      else l
  | .populated => if l.named then { l with record := l.record.recordStart l.start true } else l

/-! ## What is claimed -/

/-- What holds at each event of a run, and of the member before it. -/
def Along (defs : Definitions) (P : Life → Event → Prop) : Life → List Event → Prop
  | _, [] => True
  | l, e :: es => P l e ∧ Along defs P (step defs l e) es

/-- A look does what it would if the container were the first one, and comes no earlier than the delay of a
probe that it runs. -/
structure Fair (defs : Definitions) (l : Life) (looks : State → State × Pass) (now : ℚ) : Prop where
  pass : (looks l.record.state).2 = (looks l.own).2
  inTime : ∀ kind probe, defs kind = some probe → (looks l.record.state).2.result kind ≠ none →
    l.start + probe.delay ≤ now

/-- The container is judged by its own results. -/
structure OnItsOwn (defs : Definitions) (l : Life) (e : Event) : Prop where
  ready : l.record.state.ready = l.own.ready
  checkProbes : ∀ now ok replaced, e = .checkProbes now ok replaced →
    Fair defs l (Probes.checkProbes defs (l.record.input now ok replaced)) now
  sidecarStarted : ∀ now ok, e = .sidecarStarted now ok →
    Fair defs l (sidecarStarted defs (l.record.input now (fun _ => ok) false)) now

def Judged (defs : Definitions) (l : Life) (e : Event) : Prop := l.named = true → OnItsOwn defs l e

/-- Nothing but the tally is in the state. -/
def Bare (s : State) : Prop := s = tally s

/-- A probe that has yet to run waits from the start of the container, or the wait is over. -/
def Timed (defs : Definitions) (l : Life) (now : ℚ) : Prop :=
  ∀ kind probe, defs kind = some probe → (l.record.state.track kind).next = none →
    (∃ since, l.record.since = some since ∧ l.start ≤ since) ∨ l.start + probe.delay ≤ now

/-- A path that keeps the state finds nothing in it, and no probe waits from an earlier start. -/
def Clean (defs : Definitions) (l : Life) : Event → Prop
  | .checkProbes now _ _ => l.named = true → Timed defs l now
  | .sidecarStarted now _ => l.named = true → Timed defs l now
  | .started path _ _ => path.clears = true ∨ Bare l.record.state
  | .failed _ _ => True
  | .populated => True

/-! ## One look -/

section

variable {defs : Definitions} {i : Input} {s s₀ : State} {p : Pass} {kind : Kind} {probe : Probe}

/-- The state with another tally. -/
def withTally (s : State) (n : Nat) : State := { s with restarts := n }

@[simp] theorem due_withTally (n : Nat) : due (withTally s n) kind probe i = due s kind probe i := rfl

@[simp] theorem scheduleNext_withTally (n : Nat) (now : ℚ) :
    scheduleNext (withTally s n) kind probe now = withTally (scheduleNext s kind probe now) n := rfl

@[simp] theorem probePassed_withTally (n : Nat) (ok : Bool) : probePassed (withTally s n) kind probe ok =
    ((probePassed s kind probe ok).1, withTally (probePassed s kind probe ok).2 n) := by
  cases ok <;> rfl

@[simp] theorem failedEnough_withTally (n : Nat) :
    failedEnough (withTally s n) kind probe = failedEnough s kind probe := rfl

theorem restart_withTally (n : Nat) (replaced : Bool) :
    ∃ n', (withTally s n).restart replaced = withTally (s.restart replaced) n' := by
  cases replaced with
  | false => exact ⟨n, rfl⟩
  | true => exact ⟨n + 1, rfl⟩

/-- The tally has no part in what is done. -/
def Blind (looks : State → State × Pass) : Prop :=
  ∀ s n, ∃ n', looks (withTally s n) = (withTally (looks s).1 n', (looks s).2)

theorem checkReadiness_withTally (n : Nat) : checkReadiness defs i (withTally s n) p =
    (withTally (checkReadiness defs i s p).1 n, (checkReadiness defs i s p).2) := by
  rw [checkReadiness, checkReadiness]
  cases defs .readiness with
  | none => rfl
  | some probe =>
      simp only [due_withTally, scheduleNext_withTally, probePassed_withTally]
      cases due s .readiness probe i with
      | false => rfl
      | true => rfl

/-- A probe failed; it may be one time too many. -/
theorem failed_withTally (n : Nat) (q : Pass) : ∃ n',
    (if failedEnough s kind probe then ((withTally s n).restart i.replaced, q.ask i.replaced)
      else (withTally s n, q)) =
    (withTally (if failedEnough s kind probe then (s.restart i.replaced, q.ask i.replaced) else (s, q)).1 n',
      (if failedEnough s kind probe then (s.restart i.replaced, q.ask i.replaced) else (s, q)).2) := by
  cases failedEnough s kind probe with
  | false => exact ⟨n, rfl⟩
  | true =>
      obtain ⟨n', hn'⟩ := restart_withTally (s := s) n i.replaced
      exact ⟨n', by simp [hn']⟩

theorem checkLiveness_blind : Blind fun s => checkLiveness defs i s p := by
  intro s n
  simp only [checkLiveness]
  cases defs .liveness with
  | none => exact ⟨n, rfl⟩
  | some probe =>
      simp only [due_withTally, scheduleNext_withTally, probePassed_withTally]
      cases due s .liveness probe i with
      | false => exact ⟨n, rfl⟩
      | true =>
          simp only [if_true, failedEnough_withTally]
          cases (probePassed (scheduleNext s .liveness probe i.now) .liveness probe (i.ok .liveness)).1 with
          | true => exact ⟨n, rfl⟩
          | false => exact failed_withTally n _

theorem checkOthers_blind : Blind fun s => checkOthers defs i s p := by
  intro s n
  obtain ⟨n', hn'⟩ := @checkLiveness_blind defs i (checkReadiness defs i s p).2 (checkReadiness defs i s p).1 n
  exact ⟨n', by simp only [checkOthers, checkReadiness_withTally, hn']⟩

theorem checkProbes_blind : Blind (Probes.checkProbes defs i) := by
  intro s n
  suffices h : ∀ p, ∃ n', checkGated defs i (withTally s n) p =
      (withTally (checkGated defs i s p).1 n', (checkGated defs i s p).2) by
    obtain ⟨n', hn'⟩ := h { now := i.now, since := i.since }
    exact ⟨n', by simp only [Probes.checkProbes, hn']; rfl⟩
  intro p
  simp only [checkGated]
  cases defs .startup with
  | none => exact checkOthers_blind s n
  | some probe =>
      show ∃ n', (if s.startupPassed then _ else _) = _
      cases s.startupPassed with
      | true => exact checkOthers_blind s n
      | false =>
          simp only [due_withTally, scheduleNext_withTally, probePassed_withTally]
          cases due s .startup probe i with
          | false => exact ⟨n, rfl⟩
          | true =>
              simp only [Bool.false_eq_true, if_false, if_true, failedEnough_withTally]
              cases (probePassed (scheduleNext s .startup probe i.now) .startup probe (i.ok .startup)).1 with
              | true =>
                  exact checkOthers_blind { ran s .startup probe i.now (i.ok .startup) with startupPassed := true } n
              | false => exact failed_withTally n _

theorem sidecarStarted_blind : Blind (sidecarStarted defs i) := by
  intro s n
  refine ⟨n, ?_⟩
  simp only [sidecarStarted]
  cases defs .startup with
  | none => rfl
  | some probe =>
      simp only [due_withTally, scheduleNext_withTally, probePassed_withTally]
      cases due s .startup probe i with
      | false => rfl
      | true =>
          cases (probePassed (scheduleNext s .startup probe i.now) .startup probe (i.ok .startup)).1 with
          | true => rfl
          | false => rfl

/-- What a look has done so far: it ran what was due, and set when that is due next. -/
structure Turned (defs : Definitions) (i : Input) (s₀ : State) (r : State × Pass) : Prop where
  ran : ∀ kind, r.2.result kind ≠ none → ∃ probe, defs kind = some probe ∧ due s₀ kind probe i = true
  next : r.2.restarted = false → ∀ kind, r.2.result kind ≠ none → ∃ probe, defs kind = some probe ∧
    (r.1.track kind).next = some (i.now + (probe.period : ℚ))
  idle : r.2.restarted = false → ∀ kind, r.2.result kind = none → (r.1.track kind).next = (s₀.track kind).next
  bare : r.2.restarted = true → Bare r.1

theorem turned_start (h : ∀ kind, p.result kind = none) (hrestarted : p.restarted = false) :
    Turned defs i s (s, p) where
  ran := fun kind hran => absurd (h kind) hran
  next := fun _ kind hran => absurd (h kind) hran
  idle := fun _ _ _ => rfl
  bare := fun htrue => by simp [hrestarted] at htrue

/-- A probe that was due has run. -/
theorem Turned.run (h : Turned defs i s₀ (s, p)) (hrestarted : p.restarted = false)
    (hnone : p.result kind = none) (hdef : defs kind = some probe) (hdue : due s kind probe i = true) (ok : Bool) :
    Turned defs i s₀ (Probes.ran s kind probe i.now ok, p.ran kind ok) where
  ran := fun other hran => by
    by_cases hkind : other = kind
    · subst hkind
      refine ⟨probe, hdef, ?_⟩
      rw [due, ← h.idle hrestarted other hnone]
      exact hdue
    · exact h.ran other (by simpa [Pass.ran, hkind] using hran)
  next := fun _ other hran => by
    rw [ran_track]
    by_cases hkind : other = kind
    · subst hkind
      exact ⟨probe, hdef, by simp⟩
    · simp only [hkind, if_false]
      exact h.next hrestarted other (by simpa [Pass.ran, hkind] using hran)
  idle := fun _ other hidle => by
    rw [ran_track]
    by_cases hkind : other = kind
    · simp [Pass.ran, hkind] at hidle
    · simp only [hkind, if_false]
      exact h.idle hrestarted other (by simpa [Pass.ran, hkind] using hidle)
  bare := fun htrue => by
    have hfalse : (p.ran kind ok).restarted = false := hrestarted
    simp [hfalse] at htrue

/-- It has failed; a restart may be asked for. -/
theorem Turned.failed (h : Turned defs i s₀ (s, p)) (hrestarted : p.restarted = false) :
    Turned defs i s₀ (if failedEnough s kind probe then (s.restart i.replaced, p.ask i.replaced) else (s, p)) := by
  cases failedEnough s kind probe with
  | false => exact h
  | true =>
      cases hreplaced : i.replaced with
      | false =>
          have hquiet : (p.ask false).restarted = true → Bare (s.restart false) := by simp [Pass.ask]
          exact ⟨h.ran, fun _ => h.next hrestarted, fun _ => h.idle hrestarted, by simpa [hreplaced] using hquiet⟩
      | true =>
          have hloud : (p.ask true).restarted ≠ false := by simp [Pass.ask]
          exact ⟨h.ran, (absurd · hloud), (absurd · hloud), fun _ => rfl⟩

theorem checkReadiness_turned (h : Turned defs i s₀ (s, p)) (hrestarted : p.restarted = false)
    (hnone : p.result .readiness = none) : Turned defs i s₀ (checkReadiness defs i s p) ∧
      (checkReadiness defs i s p).2.restarted = false ∧
      (checkReadiness defs i s p).2.result .liveness = p.result .liveness := by
  rw [checkReadiness]
  cases hdef : defs .readiness with
  | none => exact ⟨h, hrestarted, rfl⟩
  | some probe =>
      cases hdue : due s .readiness probe i with
      | false => simpa [hdue] using ⟨h, hrestarted⟩
      | true =>
          have hran := h.run hrestarted hnone hdef hdue (i.ok .readiness)
          simp only [hdue, if_true, probePassed_snd]
          exact ⟨⟨hran.ran, hran.next, hran.idle, fun htrue => by simp [Pass.ran, hrestarted] at htrue⟩,
            hrestarted, by simp [Pass.ran]⟩

theorem checkLiveness_turned (h : Turned defs i s₀ (s, p)) (hrestarted : p.restarted = false)
    (hnone : p.result .liveness = none) : Turned defs i s₀ (checkLiveness defs i s p) := by
  rw [checkLiveness]
  cases hdef : defs .liveness with
  | none => exact h
  | some probe =>
      cases hdue : due s .liveness probe i with
      | false => simpa [hdue] using h
      | true =>
          have hran := h.run hrestarted hnone hdef hdue (i.ok .liveness)
          simp only [hdue, if_true, probePassed_snd]
          cases (probePassed (scheduleNext s .liveness probe i.now) .liveness probe (i.ok .liveness)).1 with
          | true => exact hran
          | false => exact hran.failed hrestarted

theorem checkOthers_turned (h : Turned defs i s₀ (s, p)) (hrestarted : p.restarted = false)
    (hnone : ∀ kind, kind ≠ .startup → p.result kind = none) : Turned defs i s₀ (checkOthers defs i s p) := by
  obtain ⟨hready, hquiet, hlive⟩ := checkReadiness_turned h hrestarted (hnone .readiness (by decide))
  exact checkLiveness_turned hready hquiet (hlive.trans (hnone .liveness (by decide)))

theorem checkProbes_turned : Turned defs i s (Probes.checkProbes defs i s) := by
  suffices h : Turned defs i s (checkGated defs i s { now := i.now, since := i.since }) from
    ⟨h.ran, h.next, h.idle, h.bare⟩
  have hstart : Turned defs i s (s, { now := i.now, since := i.since }) := turned_start (fun _ => rfl) rfl
  rw [checkGated]
  cases hdef : defs .startup with
  | none => exact checkOthers_turned hstart rfl fun _ _ => rfl
  | some probe =>
      show Turned defs i s (if s.startupPassed then _ else _)
      cases s.startupPassed with
      | true => exact checkOthers_turned hstart rfl fun _ _ => rfl
      | false =>
          cases hdue : due s .startup probe i with
          | false => simpa [hdue] using hstart
          | true =>
              have hran := hstart.run rfl rfl hdef hdue (i.ok .startup)
              simp only [Bool.false_eq_true, if_false, if_true, probePassed_snd]
              cases (probePassed (scheduleNext s .startup probe i.now) .startup probe (i.ok .startup)).1 with
              | false => exact hran.failed rfl
              | true =>
                  refine checkOthers_turned ⟨hran.ran, hran.next, hran.idle, fun h => by cases h⟩ rfl fun kind hkind => ?_
                  simp [Pass.ran, hkind]

theorem sidecarStarted_turned : Turned defs i s (sidecarStarted defs i s) ∧
    (sidecarStarted defs i s).2.restarted = false := by
  have hstart : Turned defs i s (s, { now := i.now, since := i.since }) := turned_start (fun _ => rfl) rfl
  rw [sidecarStarted]
  cases hdef : defs .startup with
  | none => exact ⟨hstart, rfl⟩
  | some probe =>
      cases hdue : due s .startup probe i with
      | false => simpa [hdue] using hstart
      | true =>
          have hran := hstart.run rfl rfl hdef hdue (i.ok .startup)
          simp only [hdue, if_true, probePassed_snd]
          cases (probePassed (scheduleNext s .startup probe i.now) .startup probe (i.ok .startup)).1 with
          | false => exact ⟨hran, rfl⟩
          | true => exact ⟨⟨hran.ran, hran.next, hran.idle, nofun⟩, rfl⟩

end

/-! ## Runs -/

section

variable {defs : Definitions} {l : Life} {e : Event}

/-- The state is the container's own but for the tally, and no probe of it comes before its delay. -/
structure Own (defs : Definitions) (l : Life) : Prop where
  state : ∃ n, l.record.state = withTally l.own n
  next : ∀ kind probe next, defs kind = some probe → (l.own.track kind).next = some next →
    l.start + probe.delay ≤ next

theorem due_inTime {kind : Kind} {probe : Probe} {now : ℚ} {ok : Kind → Bool} {replaced : Bool}
    (h : Own defs l) (htimed : Timed defs l now) (hdef : defs kind = some probe)
    (hdue : due l.record.state kind probe (l.record.input now ok replaced) = true) :
    l.start + probe.delay ≤ now := by
  obtain ⟨n, hn⟩ := h.state
  rw [due] at hdue
  cases hnext : (l.record.state.track kind).next with
  | some next =>
      rw [hnext] at hdue
      have hle : next ≤ now := of_decide_eq_true hdue
      have hown : (l.own.track kind).next = some next := by rw [← hnext, hn]; rfl
      exact (h.next kind probe next hdef hown).trans hle
  | none =>
      obtain ⟨since, hsince, hstart⟩ | hlate := htimed kind probe hdef hnext
      · simp only [hnext, Record.input, hsince, decide_eq_true_eq] at hdue
        linarith
      · exact hlate

/-- One look: it is fair, and the state is still the container's own. -/
theorem look_spec {looks : State → State × Pass} {now : ℚ} {ok : Kind → Bool} {replaced : Bool}
    (hblind : Blind looks) (hturned : ∀ s, Turned defs (l.record.input now ok replaced) s (looks s))
    (h : Own defs l) (htimed : Timed defs l now) :
    Fair defs l looks now ∧ Own defs (l.look looks now) := by
  obtain ⟨n, hn⟩ := h.state
  obtain ⟨n', hn'⟩ := hblind l.own n
  have hpass : (looks l.record.state).2 = (looks l.own).2 := by rw [hn, hn']
  have hinTime : ∀ kind probe, defs kind = some probe → (looks l.record.state).2.result kind ≠ none →
      l.start + probe.delay ≤ now := by
    intro kind probe hdef hran
    obtain ⟨probe', hdef', hdue⟩ := (hturned l.record.state).ran kind hran
    obtain rfl := Option.some.inj (hdef.symm.trans hdef')
    exact due_inTime h htimed hdef hdue
  refine ⟨⟨hpass, hinTime⟩, ?_⟩
  rw [Life.look]
  cases hrestarted : (looks l.record.state).2.restarted with
  | true => exact ⟨⟨_, (hturned l.record.state).bare hrestarted⟩, fun kind probe next _ hnext => by simp at hnext⟩
  | false =>
      refine ⟨⟨n', by simp [hn, hn']⟩, fun kind probe next hdef hnext => ?_⟩
      simp only [Bool.false_eq_true, if_false] at hnext ⊢
      have hquiet : (looks l.own).2.restarted = false := hpass ▸ hrestarted
      by_cases hran : (looks l.own).2.result kind = none
      · rw [(hturned l.own).idle hquiet kind hran] at hnext
        exact h.next kind probe next hdef hnext
      · obtain ⟨probe', hdef', hset⟩ := (hturned l.own).next hquiet kind hran
        obtain rfl := Option.some.inj (hdef.symm.trans hdef')
        obtain rfl := Option.some.inj (hset.symm.trans hnext)
        have hle := hinTime kind probe hdef (hpass ▸ hran)
        have hpos : (0 : ℚ) ≤ probe.period := by
          have hone : (1 : ℤ) ≤ probe.period := le_max_right _ _
          exact_mod_cast (by omega : (0 : ℤ) ≤ probe.period)
        show l.start + (probe.delay : ℚ) ≤ now + probe.period
        linarith

theorem look_own {looks : State → State × Pass} {now : ℚ} {ok : Kind → Bool} {replaced : Bool}
    (hblind : Blind looks) (hturned : ∀ s, Turned defs (l.record.input now ok replaced) s (looks s))
    (h : l.named = true → Own defs l) (htimed : l.named = true → Timed defs l now)
    (hnamed : (l.look looks now).named = true) : Own defs (l.look looks now) := by
  cases hbefore : l.named with
  | true => exact (look_spec hblind hturned (h hbefore) (htimed hbefore)).2
  | false =>
      rw [Life.look] at hnamed ⊢
      cases hrestarted : (looks l.record.state).2.restarted with
      | false => simp [hrestarted, hbefore] at hnamed
      | true => exact ⟨⟨_, (hturned l.record.state).bare hrestarted⟩, fun kind probe next _ hnext => by simp at hnext⟩

theorem Path.started_bare {path : Path} {s : State} (h : path.clears = true ∨ Bare s) : Bare (path.started s) := by
  obtain hclears | hbare := h
  · cases path <;> first | rfl | cases hclears
  · rw [hbare]
    cases path <;> rfl

theorem recordStart_state (r : Record) (start : ℚ) (answered : Bool) :
    (r.recordStart start answered).state = r.state := by
  cases answered <;> rfl

/-- What an event preserves. -/
theorem step_own (h : l.named = true → Own defs l) (hclean : Clean defs l e)
    (hnamed : (step defs l e).named = true) : Own defs (step defs l e) := by
  cases e with
  | checkProbes now ok replaced => exact look_own checkProbes_blind (fun _ => checkProbes_turned) h hclean hnamed
  | sidecarStarted now ok =>
      exact look_own sidecarStarted_blind (fun _ => sidecarStarted_turned.1) h hclean hnamed
  | started path now answered =>
      refine ⟨⟨(path.started l.record.state).restarts, ?_⟩, fun kind probe next _ hnext => by simp [step] at hnext⟩
      show (Record.recordStart _ now answered).state = _
      rw [recordStart_state]
      exact path.started_bare hclean
  | failed path saved =>
      cases saved with
      | true => cases hnamed
      | false => exact h hnamed
  | populated =>
      simp only [step] at hnamed ⊢
      cases hbefore : l.named with
      | false => simp [hbefore] at hnamed
      | true =>
          obtain ⟨hstate, hnext⟩ := h hbefore
          exact ⟨hstate, hnext⟩

theorem judged_of_own (h : l.named = true → Own defs l) (hclean : Clean defs l e) : Judged defs l e := by
  intro hnamed
  obtain ⟨n, hn⟩ := (h hnamed).state
  refine ⟨by rw [hn]; rfl, fun now ok replaced he => ?_, fun now ok he => ?_⟩
  · subst he
    exact (look_spec checkProbes_blind (fun _ => checkProbes_turned) (h hnamed) (hclean hnamed)).1
  · subst he
    exact (look_spec sidecarStarted_blind (fun _ => sidecarStarted_turned.1) (h hnamed) (hclean hnamed)).1

theorem along_judged : ∀ {events : List Event} {l : Life}, (l.named = true → Own defs l) →
    Along defs (Clean defs) l events → Along defs (Judged defs) l events := by
  intro events
  induction events with
  | nil => exact fun _ _ => trivial
  | cons e events ih =>
      intro l h hclean
      exact ⟨judged_of_own h hclean.1, ih (step_own h hclean.1) hclean.2⟩

end

/-- In a run in which no path that keeps the state finds anything in it but the tally, and no probe waits from
an earlier start, every container of the member is judged by its own results. -/
theorem judged_on_its_own (defs : Definitions) (start : ℚ) (startedAt createdAt : Option ℚ)
    (events : List Event) (hclean : Along defs (Clean defs) (first start startedAt createdAt) events) :
    Along defs (Judged defs) (first start startedAt createdAt) events :=
  along_judged (fun _ => ⟨⟨0, rfl⟩, fun kind probe next _ hnext => by simp [first] at hnext⟩) hclean

/-- A readiness probe with a delay. -/
def delayed : Definitions
  | .readiness => some { initialDelaySeconds := some 5 }
  | _ => none

theorem judged_on_its_own_sidecar :
    Along delayed (Judged delayed) (first 0 (some 0) none)
      [.checkProbes 6 (fun _ => true) true, .started .tendSidecars 20 true, .checkProbes 26 (fun _ => true) true] :=
  judged_on_its_own delayed 0 (some 0) none _
    ⟨fun _ _ _ _ _ => .inl ⟨0, rfl, le_refl 0⟩, .inl rfl, fun _ _ _ _ _ => .inl ⟨20, rfl, le_refl 20⟩, trivial⟩

/-- A container that its restart policy started is ready because the one before it was. -/
theorem not_judged_on_its_own : ¬ ∀ (defs : Definitions) (start : ℚ) (startedAt createdAt : Option ℚ)
    (events : List Event), Along defs (Judged defs) (first start startedAt createdAt) events := by
  intro h
  obtain ⟨-, -, hjudged, -⟩ := h delayed 0 (some 0) none
    [.checkProbes 6 (fun _ => true) true, .started .restartContainer 20 true, .populated]
  have hready := (hjudged rfl).ready
  revert hready
  decide +kernel

end Member

end Zun.Probes
