import Mathlib.Algebra.Order.Ring.Rat
import Mathlib.Data.List.Induction
import Mathlib.Data.Rat.Defs
import Mathlib.Logic.Function.Basic
import Mathlib.Tactic.Linarith

/-!
# Probes

`_check_probes` of `zun/container/cri/driver.py`.  The state of a container's probes is one dictionary: for
each probe when it is due next and how often it failed or passed in a row, whether the startup probe has
passed, and whether the container is ready.  A pass of the loop copies it, runs what is due and saves it; a
restart starts it over.

What a pass does is said by the passes before it, back to the last restart.
-/

namespace Zun

namespace Probes

/-! ## The model -/

inductive Kind where
  | startup | readiness | liveness
deriving DecidableEq

/-- A probe's numbers.  The command is left to what the probe answers. -/
structure Probe where
  initialDelaySeconds : Option Int := none
  periodSeconds : Option Int := none
  successThreshold : Option Int := none
  failureThreshold : Option Int := none
deriving DecidableEq

/-- `int(value or default)`. -/
def orDefault (default : Int) : Option Int → Int
  | none => default
  | some value => if value = 0 then default else value

def Probe.delay (probe : Probe) : Int := orDefault 0 probe.initialDelaySeconds

def Probe.period (probe : Probe) : Int := max (orDefault 10 probe.periodSeconds) 1

def Probe.successes (probe : Probe) : Int := orDefault 1 probe.successThreshold

def Probe.failures (probe : Probe) : Int := orDefault 3 probe.failureThreshold

/-- `k8s_probes`. -/
abbrev Definitions := Kind → Option Probe

/-- The keys of a probe: `<kind>_next`, `<kind>_failures` and `<kind>_successes`. -/
structure Track where
  next : Option ℚ := none
  failures : Nat := 0
  successes : Nat := 0

/-- `k8s_probe_state`. -/
structure State where
  track : Kind → Track := fun _ => {}
  startupPassed : Bool := false
  ready : Option Bool := none
  restarts : Nat := 0

/-- What a pass comes upon. -/
structure Input where
  now : ℚ
  /-- `started_at`, or `created_at`. -/
  since : Option ℚ := none
  /-- What each probe answers if it is run. -/
  ok : Kind → Bool
  /-- A restart that is asked for replaces the container. -/
  replaced : Bool := true

/-- What a pass did. -/
structure Pass where
  now : ℚ
  since : Option ℚ
  result : Kind → Option Bool := fun _ => none
  /-- `_restart_for_probe` was called. -/
  asked : Bool := false
  /-- It replaced the container. -/
  restarted : Bool := false
  /-- The value of `ready` that is on the record afterwards. -/
  ready : Option Bool := none

/-- `_probe_due`. -/
def due (s : State) (kind : Kind) (probe : Probe) (i : Input) : Bool :=
  match (s.track kind).next with
  | some next => decide (next ≤ i.now)
  | none =>
      match i.since with
      | some since => decide (since + probe.delay ≤ i.now)
      | none => true

def State.setTrack (s : State) (kind : Kind) (t : Track) : State :=
  { s with track := Function.update s.track kind t }

/-- `_schedule_next`. -/
def scheduleNext (s : State) (kind : Kind) (probe : Probe) (now : ℚ) : State :=
  s.setTrack kind { s.track kind with next := some (now + probe.period) }

/-- `_probe_passed`, for what the probe answered. -/
def probePassed (s : State) (kind : Kind) (probe : Probe) (ok : Bool) : Bool × State :=
  let t := s.track kind
  if ok then
    (decide (probe.successes ≤ (t.successes + 1 : Nat)),
      s.setTrack kind { t with failures := 0, successes := t.successes + 1 })
  else (false, s.setTrack kind { t with successes := 0, failures := t.failures + 1 })

/-- `_probe_failed_enough`. -/
def failedEnough (s : State) (kind : Kind) (probe : Probe) : Bool :=
  decide (probe.failures ≤ (s.track kind).failures)

/-- The state once a restart was asked for. -/
def State.restart (s : State) (replaced : Bool) : State :=
  if replaced then { restarts := s.restarts + 1 } else s

def Pass.ran (p : Pass) (kind : Kind) (ok : Bool) : Pass :=
  { p with result := Function.update p.result kind (some ok) }

def Pass.ask (p : Pass) (replaced : Bool) : Pass := { p with asked := true, restarted := replaced }

/-- The readiness probe. -/
def checkReadiness (defs : Definitions) (i : Input) (s : State) (p : Pass) : State × Pass :=
  match defs .readiness with
  | none => (s, p)
  | some readiness =>
      if due s .readiness readiness i then
        let s := scheduleNext s .readiness readiness i.now
        let (ready, s) := probePassed s .readiness readiness (i.ok .readiness)
        ({ s with ready := some ready }, p.ran .readiness (i.ok .readiness))
      else (s, p)

/-- The liveness probe. -/
def checkLiveness (defs : Definitions) (i : Input) (s : State) (p : Pass) : State × Pass :=
  match defs .liveness with
  | none => (s, p)
  | some liveness =>
      if due s .liveness liveness i then
        let s := scheduleNext s .liveness liveness i.now
        let (passed, s) := probePassed s .liveness liveness (i.ok .liveness)
        let p := p.ran .liveness (i.ok .liveness)
        if passed then (s, p)
        else if failedEnough s .liveness liveness then (s.restart i.replaced, p.ask i.replaced)
        else (s, p)
      else (s, p)

/-- Both of them. -/
def checkOthers (defs : Definitions) (i : Input) (s : State) (p : Pass) : State × Pass :=
  let (s, p) := checkReadiness defs i s p
  checkLiveness defs i s p

/-- `_check_probes`, but for the last value of `ready`. -/
def checkGated (defs : Definitions) (i : Input) (s : State) (p : Pass) : State × Pass :=
  match defs .startup with
  | none => checkOthers defs i s p
  | some startup =>
      if s.startupPassed then checkOthers defs i s p
      else if due s .startup startup i then
        let s := scheduleNext s .startup startup i.now
        let (passed, s) := probePassed s .startup startup (i.ok .startup)
        let p := p.ran .startup (i.ok .startup)
        if passed then checkOthers defs i { s with startupPassed := true } p
        else if failedEnough s .startup startup then (s.restart i.replaced, p.ask i.replaced)
        else (s, p)
      else (s, p)

/-- `_check_probes`. -/
def checkProbes (defs : Definitions) (i : Input) (s : State) : State × Pass :=
  let (s, p) := checkGated defs i s { now := i.now, since := i.since }
  (s, { p with ready := s.ready })

/-- The state after some passes, and the passes, the last one first. -/
def passes (defs : Definitions) (inputs : List Input) : State × List Pass :=
  inputs.foldl (fun r i => ((checkProbes defs i r.1).1, (checkProbes defs i r.1).2 :: r.2)) ({}, [])

/-! ## What the passes say -/

/-- How often the last results were the same in a row. -/
def inRow (b : Bool) (rs : List Bool) : Nat := (rs.takeWhile (· = b)).length

/-- The passes since the last restart. -/
def current (h : List Pass) : List Pass := h.takeWhile fun p => !p.restarted

/-- What a probe answered since the last restart. -/
def results (kind : Kind) (h : List Pass) : List Bool := (current h).filterMap (·.result kind)

/-- When it ran last, since then. -/
def lastRun (kind : Kind) (h : List Pass) : Option ℚ :=
  ((current h).find? fun p => (p.result kind).isSome).map (·.now)

/-- The threshold was reached once. -/
def everPassed (threshold : Int) : List Bool → Bool
  | [] => false
  | r :: rs => (r && decide (threshold ≤ inRow true (r :: rs))) || everPassed threshold rs

/-- The startup probe has passed, counting what it answered in this pass. -/
def Started (probe : Probe) (h : List Pass) (p : Pass) : Prop :=
  everPassed probe.successes ((p.result .startup).toList ++ results .startup h) = true

/-- The probe may run: the startup probe until it has passed, the others once it has. -/
def Free (defs : Definitions) (h : List Pass) (p : Pass) (kind : Kind) : Prop :=
  ∀ startup, defs .startup = some startup →
    if kind = .startup then everPassed startup.successes (results .startup h) = false
    else Started startup h p

/-- The pass comes late enough for the probe. -/
def Late (h : List Pass) (p : Pass) (kind : Kind) (probe : Probe) : Prop :=
  match lastRun kind h with
  | some t => t + probe.period ≤ p.now
  | none => ∀ since, p.since = some since → since + probe.delay ≤ p.now

/-- The probe's answer calls for a restart: a failure that is one too many.  With a threshold below zero so
does a success, as long as it is not enough. -/
def Asks (defs : Definitions) (h : List Pass) (p : Pass) (kind : Kind) : Prop :=
  ∃ probe, defs kind = some probe ∧
    (p.result kind = some false ∧ probe.failures ≤ inRow false (false :: results kind h) ∨
      probe.failures < 0 ∧ p.result kind = some true ∧ inRow true (true :: results kind h) < probe.successes)

/-- A pass goes by the thresholds and the periods, after the passes before it. -/
structure Kept (defs : Definitions) (h : List Pass) (p : Pass) : Prop where
  restart : p.asked = true ↔ Asks defs h p .startup ∨ Asks defs h p .liveness
  /-- The startup probe comes before the others. -/
  gate : ∀ kind startup, kind ≠ .startup → p.result kind ≠ none → defs .startup = some startup →
    Started startup h p
  /-- Since the last restart, two runs are a period apart. -/
  apart : ∀ kind probe, defs kind = some probe → p.result kind ≠ none →
    ∀ q ∈ current h, q.result kind ≠ none → q.now + probe.period ≤ p.now
  /-- What may run and is late enough does. -/
  runs : ∀ kind probe, defs kind = some probe → Free defs h p kind → Late h p kind probe →
    p.result kind ≠ none

/-- Every pass of a history does. -/
def AllKept (defs : Definitions) : List Pass → Prop
  | [] => True
  | p :: h => Kept defs h p ∧ AllKept defs h
/-! ## One probe -/

section

variable {defs : Definitions} {h : List Pass} {p : Pass} {s : State} {i : Input} {kind : Kind}
  {probe : Probe}

/-- What a probe answered since the last restart, this pass included. -/
def answers (h : List Pass) (p : Pass) (kind : Kind) : List Bool :=
  (p.result kind).toList ++ results kind h

/-- When it ran last, this pass included. -/
def ranAt (h : List Pass) (p : Pass) (kind : Kind) : Option ℚ :=
  if (p.result kind).isSome then some p.now else lastRun kind h

/-- The state is that of the passes, and of what this one has done. -/
structure Shows (defs : Definitions) (h : List Pass) (p : Pass) (s : State) : Prop where
  next : ∀ kind probe, defs kind = some probe →
    (s.track kind).next = (ranAt h p kind).map fun t => t + (probe.period : ℚ)
  failures : ∀ kind, (s.track kind).failures = inRow false (answers h p kind)
  successes : ∀ kind, (s.track kind).successes = inRow true (answers h p kind)
  started : ∀ startup, defs .startup = some startup →
    s.startupPassed = everPassed startup.successes (answers h p .startup)
  ready : ∀ readiness, defs .readiness = some readiness →
    (s.ready = some true ↔ max readiness.successes 1 ≤ inRow true (answers h p .readiness))

/-- A probe had its turn in the pass. -/
structure Turn (defs : Definitions) (h : List Pass) (kind : Kind) (p p' : Pass) : Prop where
  now : p'.now = p.now
  since : p'.since = p.since
  others : ∀ other, other ≠ kind → p'.result other = p.result other
  runs : ∀ probe, defs kind = some probe → (p'.result kind ≠ none ↔ Late h p kind probe)
  undefined : defs kind = none → p'.result kind = none

theorem inRow_cons (b r : Bool) (rs : List Bool) :
    inRow b (r :: rs) = if r = b then inRow b rs + 1 else 0 := by
  by_cases hr : r = b <;> simp [inRow, hr]

theorem answers_ran (ok : Bool) (other : Kind) :
    answers h (p.ran kind ok) other = if other = kind then ok :: results kind h else answers h p other := by
  by_cases hkind : other = kind
  · simp [answers, Pass.ran, hkind]
  · simp [answers, Pass.ran, hkind]

theorem ranAt_ran (ok : Bool) (other : Kind) :
    ranAt h (p.ran kind ok) other = if other = kind then some p.now else ranAt h p other := by
  by_cases hkind : other = kind <;> simp [ranAt, Pass.ran, hkind]

/-- The state after a probe has run, but for what is done about it. -/
def ran (s : State) (kind : Kind) (probe : Probe) (now : ℚ) (ok : Bool) : State :=
  (probePassed (scheduleNext s kind probe now) kind probe ok).2

theorem probePassed_snd (now : ℚ) (ok : Bool) :
    (probePassed (scheduleNext s kind probe now) kind probe ok).2 = ran s kind probe now ok := rfl

theorem ran_track (now : ℚ) (ok : Bool) (other : Kind) : (ran s kind probe now ok).track other =
    if other = kind then
      { next := some (now + (probe.period : ℚ))
        failures := if ok then 0 else (s.track kind).failures + 1
        successes := if ok then (s.track kind).successes + 1 else 0 }
    else s.track other := by
  by_cases hkind : other = kind <;> cases ok <;>
    simp [ran, probePassed, scheduleNext, State.setTrack, hkind]

theorem ran_startupPassed (now : ℚ) (ok : Bool) : (ran s kind probe now ok).startupPassed = s.startupPassed := by
  cases ok <;> rfl

theorem ran_ready (now : ℚ) (ok : Bool) : (ran s kind probe now ok).ready = s.ready := by
  cases ok <;> rfl

/-- Whether a probe has passed, by what it answered. -/
theorem probePassed_eq (hs : Shows defs h p s) (hnone : p.result kind = none) (ok : Bool) :
    (probePassed (scheduleNext s kind probe i.now) kind probe ok).1 =
      (ok && decide (probe.successes ≤ inRow true (ok :: results kind h))) := by
  have hsuccesses := hs.successes kind
  simp only [answers, hnone, Option.toList_none, List.nil_append] at hsuccesses
  cases ok with
  | false => rfl
  | true => simp [probePassed, scheduleNext, State.setTrack, hsuccesses, inRow_cons]

theorem failedEnough_eq (hs : Shows defs h p s) (hnone : p.result kind = none) (ok : Bool) :
    failedEnough (ran s kind probe i.now ok) kind probe =
      decide (probe.failures ≤ inRow false (ok :: results kind h)) := by
  have hfailures := hs.failures kind
  simp only [answers, hnone, Option.toList_none, List.nil_append] at hfailures
  rw [failedEnough, ran_track, if_pos rfl, inRow_cons, hfailures]
  cases ok <;> rfl

theorem due_iff (hs : Shows defs h p s) (hnone : p.result kind = none) (hdef : defs kind = some probe)
    (hnow : p.now = i.now) (hsince : p.since = i.since) :
    due s kind probe i = true ↔ Late h p kind probe := by
  have hnext := hs.next kind probe hdef
  rw [ranAt, hnone] at hnext
  simp only [Option.isSome_none, Bool.false_eq_true, if_false] at hnext
  rw [due, Late, hnext, hnow, hsince]
  cases lastRun kind h with
  | none => cases i.since <;> simp
  | some t => simp

/-- What a probe that ran leaves, but for the flags. -/
theorem Shows.ran_track_eq (hs : Shows defs h p s) (hnone : p.result kind = none)
    (hdef : defs kind = some probe) (ok : Bool) :
    (∀ other probe', defs other = some probe' → ((ran s kind probe p.now ok).track other).next =
        (ranAt h (p.ran kind ok) other).map fun t => t + (probe'.period : ℚ)) ∧
      (∀ other, ((ran s kind probe p.now ok).track other).failures =
        inRow false (answers h (p.ran kind ok) other)) ∧
      ∀ other, ((ran s kind probe p.now ok).track other).successes =
        inRow true (answers h (p.ran kind ok) other) := by
  have hfailures := hs.failures kind
  have hsuccesses := hs.successes kind
  simp only [answers, hnone, Option.toList_none, List.nil_append] at hfailures hsuccesses
  refine ⟨fun other probe' hdef' => ?_, fun other => ?_, fun other => ?_⟩
  · rw [ran_track, ranAt_ran]
    by_cases hkind : other = kind
    · subst hkind
      simp [Option.some.inj (hdef.symm.trans hdef')]
    · simp only [hkind, if_false]
      exact hs.next other probe' hdef'
  · rw [ran_track, answers_ran]
    by_cases hkind : other = kind
    · cases ok <;> simp [hkind, inRow_cons, hfailures]
    · simp only [hkind, if_false]
      exact hs.failures other
  · rw [ran_track, answers_ran]
    by_cases hkind : other = kind
    · cases ok <;> simp [hkind, inRow_cons, hsuccesses]
    · simp only [hkind, if_false]
      exact hs.successes other

theorem Probe.failures_ne_zero (probe : Probe) : probe.failures ≠ 0 := by
  cases hvalue : probe.failureThreshold with
  | none => simp [Probe.failures, orDefault, hvalue]
  | some value => by_cases hzero : value = 0 <;> simp [Probe.failures, orDefault, hvalue, hzero]

/-- A probe that has passed asks for nothing. -/
theorem not_asks_of_passed (hs : Shows defs h p s) (hnone : p.result kind = none)
    (hdef : defs kind = some probe) {ok : Bool}
    (hpassed : (probePassed (scheduleNext s kind probe i.now) kind probe ok).1 = true) :
    ¬ Asks defs h (p.ran kind ok) kind := by
  rw [probePassed_eq hs hnone, Bool.and_eq_true, decide_eq_true_eq] at hpassed
  rintro ⟨probe', hdef', hasks⟩
  obtain rfl := Option.some.inj (hdef.symm.trans hdef')
  obtain ⟨hfalse, -⟩ | ⟨-, -, hshort⟩ := hasks
  · simp [Pass.ran, hpassed.1] at hfalse
  · rw [hpassed.1] at hpassed
    omega

/-- Another one does if it has failed enough. -/
theorem failedEnough_iff (hs : Shows defs h p s) (hnone : p.result kind = none)
    (hdef : defs kind = some probe) {ok : Bool}
    (hpassed : (probePassed (scheduleNext s kind probe i.now) kind probe ok).1 = false) :
    failedEnough (ran s kind probe i.now ok) kind probe = true ↔ Asks defs h (p.ran kind ok) kind := by
  rw [probePassed_eq hs hnone] at hpassed
  rw [failedEnough_eq hs hnone, decide_eq_true_eq, Asks]
  have hzero := probe.failures_ne_zero
  have hran : (p.ran kind ok).result kind = some ok := by simp [Pass.ran]
  simp only [hdef, Option.some.injEq, exists_eq_left', hran]
  cases ok with
  | false => simp
  | true =>
      have hshort : ¬ probe.successes ≤ inRow true (true :: results kind h) := by simpa using hpassed
      have hnil : inRow false (true :: results kind h) = 0 := by simp [inRow_cons]
      rw [hnil]
      constructor
      · exact fun hle => .inr ⟨by omega, rfl, by omega⟩
      · rintro (⟨hfalse, -⟩ | ⟨hneg, -, -⟩)
        · cases hfalse
        · omega

/-- A turn in which the probe ran. -/
theorem turn_ran (hdef : defs kind = some probe) (hlate : Late h p kind probe) (ok : Bool) :
    Turn defs h kind p (p.ran kind ok) where
  now := rfl
  since := rfl
  others := fun other hother => by simp [Pass.ran, hother]
  runs := fun probe' hdef' => by
    obtain rfl := Option.some.inj (hdef.symm.trans hdef')
    simp [Pass.ran, hlate]
  undefined := fun hnone => by simp [hdef] at hnone

/-- A turn in which it was not late enough. -/
theorem turn_idle (hnone : p.result kind = none)
    (hlate : ∀ probe, defs kind = some probe → ¬ Late h p kind probe) : Turn defs h kind p p where
  now := rfl
  since := rfl
  others := fun _ _ => rfl
  runs := fun probe hdef => by simp [hnone, hlate probe hdef]
  undefined := fun _ => hnone

end

/-! ## One pass -/

section

variable {defs : Definitions} {h : List Pass} {p : Pass} {s : State} {i : Input}

/-- The pass is at the time of the input. -/
structure At (i : Input) (p : Pass) : Prop where
  now : p.now = i.now
  since : p.since = i.since

/-- How a pass ends: with the state of the passes, or with an empty one. -/
def Ends (defs : Definitions) (h : List Pass) (p : Pass) (s : State) : Prop :=
  p.restarted = false ∧ Shows defs h p s ∨ p.restarted = true ∧ ∃ restarts, s = { restarts := restarts }

/-- The readiness probe has its turn. -/
theorem checkReadiness_turn (hs : Shows defs h p s) (hat : At i p) (hnone : p.result .readiness = none) :
    Turn defs h .readiness p (checkReadiness defs i s p).2 ∧
      Shows defs h (checkReadiness defs i s p).2 (checkReadiness defs i s p).1 ∧
      (checkReadiness defs i s p).2.asked = p.asked ∧
      (checkReadiness defs i s p).2.restarted = p.restarted := by
  rw [checkReadiness]
  cases hdef : defs .readiness with
  | none => exact ⟨turn_idle hnone fun probe hprobe => by simp [hdef] at hprobe, hs, rfl, rfl⟩
  | some probe =>
      have hdue := due_iff hs hnone hdef hat.now hat.since
      by_cases hlate : Late h p .readiness probe
      · simp only [hdue.mpr hlate, if_true]
        refine ⟨turn_ran hdef hlate _, ?_, rfl, rfl⟩
        obtain ⟨hnext, hfailures, hsuccesses⟩ := hs.ran_track_eq hnone hdef (i.ok .readiness)
        rw [hat.now] at hnext hfailures hsuccesses
        refine ⟨hnext, hfailures, hsuccesses, fun startup hstartup => ?_, fun readiness hreadiness => ?_⟩
        · rw [answers_ran, if_neg (by decide)]
          exact (ran_startupPassed i.now _).trans (hs.started startup hstartup)
        · obtain rfl := Option.some.inj (hdef.symm.trans hreadiness)
          rw [answers_ran, if_pos rfl, probePassed_eq hs hnone, Option.some.injEq, Bool.and_eq_true,
            decide_eq_true_eq, inRow_cons]
          cases i.ok .readiness with
          | false => simp
          | true => simp
      · rw [← hdue, Bool.not_eq_true] at hlate
        simp only [hlate, Bool.false_eq_true, if_false]
        refine ⟨turn_idle hnone fun probe' hdef' => ?_, hs, trivial, trivial⟩
        obtain rfl := Option.some.inj (hdef.symm.trans hdef')
        rw [← hdue, hlate]
        exact Bool.false_ne_true

/-- A turn that may ask for a restart: it does if the probe asks, and the pass ends with the state for it. -/
structure Judged (defs : Definitions) (h : List Pass) (kind : Kind) (p p' : Pass) (s' : State) : Prop
    extends Turn defs h kind p p' where
  asked : p'.asked = true ↔ p.asked = true ∨ Asks defs h p' kind
  ends : Ends defs h p' s'

theorem Shows.ran_liveness {probe : Probe} (hs : Shows defs h p s) (hat : At i p)
    (hnone : p.result .liveness = none) (hdef : defs .liveness = some probe) (ok : Bool) :
    Shows defs h (p.ran .liveness ok) (ran s .liveness probe i.now ok) := by
  obtain ⟨hnext, hfailures, hsuccesses⟩ := hs.ran_track_eq hnone hdef ok
  rw [hat.now] at hnext hfailures hsuccesses
  refine ⟨hnext, hfailures, hsuccesses, fun startup hstartup => ?_, fun readiness hreadiness => ?_⟩
  · rw [answers_ran, if_neg (by decide)]
    exact (ran_startupPassed i.now _).trans (hs.started startup hstartup)
  · rw [answers_ran, if_neg (by decide), ran_ready]
    exact hs.ready readiness hreadiness

/-- A restart is asked for: the state is that of the pass, or empty. -/
theorem ends_ask {s' : State} (hs : Shows defs h p s') (replaced : Bool) :
    Ends defs h (p.ask replaced) (s'.restart replaced) := by
  cases replaced with
  | false => exact .inl ⟨rfl, ⟨hs.next, hs.failures, hs.successes, hs.started, hs.ready⟩⟩
  | true => exact .inr ⟨rfl, _, rfl⟩

/-- The liveness probe has its turn. -/
theorem checkLiveness_turn (hs : Shows defs h p s) (hat : At i p) (hnone : p.result .liveness = none)
    (hrestarted : p.restarted = false) :
    Judged defs h .liveness p (checkLiveness defs i s p).2 (checkLiveness defs i s p).1 := by
  have hquiet : ¬ Asks defs h p .liveness := by simp [Asks, hnone]
  rw [checkLiveness]
  cases hdef : defs .liveness with
  | none =>
      exact ⟨turn_idle hnone fun probe hprobe => by simp [hdef] at hprobe, by simp [hquiet],
        .inl ⟨hrestarted, hs⟩⟩
  | some probe =>
      have hdue := due_iff hs hnone hdef hat.now hat.since
      by_cases hlate : Late h p .liveness probe
      · have hturn := turn_ran hdef hlate (i.ok .liveness)
        have hshows := hs.ran_liveness hat hnone hdef (i.ok .liveness)
        simp only [hdue.mpr hlate, if_true, probePassed_snd]
        cases hpassed : (probePassed (scheduleNext s .liveness probe i.now) .liveness probe (i.ok .liveness)).1 with
        | true =>
            have hnot := not_asks_of_passed hs hnone hdef hpassed
            exact ⟨hturn, ⟨.inl, fun hor => hor.resolve_right hnot⟩, .inl ⟨hrestarted, hshows⟩⟩
        | false =>
            have henough := failedEnough_iff hs hnone hdef hpassed
            by_cases hasks : Asks defs h (p.ran .liveness (i.ok .liveness)) .liveness
            · simp only [Bool.false_eq_true, if_false, henough.mpr hasks, if_true]
              exact ⟨⟨hturn.now, hturn.since, hturn.others, hturn.runs, hturn.undefined⟩,
                ⟨fun _ => .inr hasks, fun _ => rfl⟩, ends_ask hshows i.replaced⟩
            · simp only [Bool.false_eq_true, if_false, henough, hasks]
              exact ⟨hturn, ⟨.inl, fun hor => hor.resolve_right hasks⟩, .inl ⟨hrestarted, hshows⟩⟩
      · rw [← hdue, Bool.not_eq_true] at hlate
        simp only [hlate, Bool.false_eq_true, if_false]
        refine ⟨turn_idle hnone fun probe' hdef' => ?_, by simp [hquiet], .inl ⟨hrestarted, hs⟩⟩
        obtain rfl := Option.some.inj (hdef.symm.trans hdef')
        rw [← hdue, hlate]
        exact Bool.false_ne_true

/-- What the startup probe leaves: whether it has passed is set with it. -/
theorem Shows.ran_startup {probe : Probe} (hs : Shows defs h p s) (hat : At i p)
    (hnone : p.result .startup = none) (hdef : defs .startup = some probe) (hstarted : s.startupPassed = false)
    (ok : Bool) : Shows defs h (p.ran .startup ok)
      { ran s .startup probe i.now ok with
        startupPassed := (probePassed (scheduleNext s .startup probe i.now) .startup probe ok).1 } := by
  obtain ⟨hnext, hfailures, hsuccesses⟩ := hs.ran_track_eq hnone hdef ok
  rw [hat.now] at hnext hfailures hsuccesses
  refine ⟨hnext, hfailures, hsuccesses, fun startup hstartup => ?_, fun readiness hreadiness => ?_⟩
  · obtain rfl := Option.some.inj (hdef.symm.trans hstartup)
    have hnever := hs.started probe hdef
    rw [hstarted, answers, hnone, Option.toList_none, List.nil_append] at hnever
    show (probePassed (scheduleNext s .startup probe i.now) .startup probe ok).1 = _
    rw [answers_ran, if_pos rfl, probePassed_eq hs hnone, everPassed, ← hnever, Bool.or_false]
  · rw [answers_ran, if_neg (by decide)]
    show (ran s .startup probe i.now ok).ready = some true ↔ _
    rw [ran_ready]
    exact hs.ready readiness hreadiness

/-- The two other probes have theirs, and the liveness probe may ask. -/
structure Others (defs : Definitions) (h : List Pass) (p p' : Pass) (s' : State) : Prop where
  now : p'.now = p.now
  since : p'.since = p.since
  startup : p'.result .startup = p.result .startup
  runs : ∀ kind probe, kind ≠ .startup → defs kind = some probe →
    (p'.result kind ≠ none ↔ Late h p kind probe)
  undefined : ∀ kind, kind ≠ .startup → defs kind = none → p'.result kind = none
  asked : p'.asked = true ↔ p.asked = true ∨ Asks defs h p' .liveness
  ends : Ends defs h p' s'

theorem late_congr {p' : Pass} (hnow : p'.now = p.now) (hsince : p'.since = p.since) (kind : Kind)
    (probe : Probe) : Late h p' kind probe ↔ Late h p kind probe := by
  rw [Late, Late, hnow, hsince]

theorem checkOthers_others (hs : Shows defs h p s) (hat : At i p)
    (hnone : ∀ kind, kind ≠ .startup → p.result kind = none) (hrestarted : p.restarted = false) :
    Others defs h p (checkOthers defs i s p).2 (checkOthers defs i s p).1 := by
  obtain ⟨hready, hshows, hasked, hrest⟩ := checkReadiness_turn hs hat (hnone .readiness (by decide))
  rw [checkOthers]
  generalize checkReadiness defs i s p = r at hready hshows hasked hrest ⊢
  have hlive := checkLiveness_turn (i := i) hshows ⟨hready.now.trans hat.now, hready.since.trans hat.since⟩
    ((hready.others .liveness (by decide)).trans (hnone .liveness (by decide))) (hrest.trans hrestarted)
  refine ⟨hlive.now.trans hready.now, hlive.since.trans hready.since, ?_, fun kind probe hkind hdef => ?_,
    fun kind hkind hdef => ?_, ?_, hlive.ends⟩
  · exact (hlive.others .startup (by decide)).trans (hready.others .startup (by decide))
  · cases kind with
    | startup => exact absurd rfl hkind
    | readiness =>
        rw [hlive.others .readiness (by decide)]
        exact hready.runs probe hdef
    | liveness =>
        rw [hlive.runs probe hdef]
        exact late_congr hready.now hready.since .liveness probe
  · cases kind with
    | startup => exact absurd rfl hkind
    | readiness =>
        rw [hlive.others .readiness (by decide)]
        exact hready.undefined hdef
    | liveness => exact hlive.undefined hdef
  · rw [← hasked]
    exact hlive.asked

/-- What a whole pass did. -/
structure Made (defs : Definitions) (h : List Pass) (p : Pass) (s : State) : Prop where
  runs : ∀ kind probe, defs kind = some probe →
    (p.result kind ≠ none ↔ Free defs h p kind ∧ Late h p kind probe)
  undefined : ∀ kind, defs kind = none → p.result kind = none
  asked : p.asked = true ↔ Asks defs h p .startup ∨ Asks defs h p .liveness
  ends : Ends defs h p s

theorem free_startup {startup : Probe} (hdef : defs .startup = some startup) :
    Free defs h p .startup ↔ everPassed startup.successes (results .startup h) = false := by
  simp [Free, hdef]

theorem free_other {startup : Probe} {kind : Kind} (hkind : kind ≠ .startup) (hdef : defs .startup = some startup) :
    Free defs h p kind ↔ Started startup h p := by
  simp [Free, hdef, hkind]

theorem not_asks_of_none {kind : Kind} (hnone : p.result kind = none) : ¬ Asks defs h p kind := by
  simp [Asks, hnone]

/-- The startup probe has not passed, so nothing else runs. -/
theorem made_gated {startup : Probe} (hdef : defs .startup = some startup)
    (hnone : ∀ kind, kind ≠ .startup → p.result kind = none) (hnot : ¬ Started startup h p)
    (hruns : p.result .startup ≠ none ↔ Free defs h p .startup ∧ Late h p .startup startup)
    (hasked : p.asked = true ↔ Asks defs h p .startup) (hends : Ends defs h p s) : Made defs h p s where
  runs := fun kind probe hkind => by
    by_cases heq : kind = .startup
    · subst heq
      obtain rfl := Option.some.inj (hdef.symm.trans hkind)
      exact hruns
    · simp [hnone kind heq, free_other heq hdef, hnot]
  undefined := fun kind hkind => by
    by_cases heq : kind = .startup
    · simp [← heq, hkind] at hdef
    · exact hnone kind heq
  asked := by simp [hasked, not_asks_of_none (hnone .liveness (by decide))]
  ends := hends

/-- The startup probe, where there is one, has passed, so the others have their turn. -/
theorem made_others {p' : Pass} {s' : State} (hothers : Others defs h p p' s')
    (hfree : ∀ startup, defs .startup = some startup → Started startup h p)
    (hruns : ∀ startup, defs .startup = some startup →
      (p.result .startup ≠ none ↔ Free defs h p .startup ∧ Late h p .startup startup))
    (hundefined : defs .startup = none → p.result .startup = none)
    (hasked : p.asked = true ↔ Asks defs h p .startup) : Made defs h p' s' where
  runs := fun kind probe hkind => by
    rw [late_congr hothers.now hothers.since]
    by_cases heq : kind = .startup
    · subst heq
      rw [hothers.startup, hruns probe hkind, free_startup hkind, free_startup hkind]
    · have hfree' : Free defs h p' kind := fun startup hstartup => by
        rw [if_neg heq, Started, hothers.startup]
        exact hfree startup hstartup
      rw [hothers.runs kind probe heq hkind]
      exact ⟨fun hlate => ⟨hfree', hlate⟩, And.right⟩
  undefined := fun kind hkind => by
    by_cases heq : kind = .startup
    · subst heq
      exact hothers.startup.trans (hundefined hkind)
    · exact hothers.undefined kind heq hkind
  asked := by
    have hstartup : Asks defs h p' .startup ↔ Asks defs h p .startup := by rw [Asks, Asks, hothers.startup]
    rw [hothers.asked, hasked, hstartup]
  ends := hothers.ends

theorem checkGated_made (hs : Shows defs h p s) (hat : At i p) (hnone : ∀ kind, p.result kind = none)
    (hasked : p.asked = false) (hrestarted : p.restarted = false) :
    Made defs h (checkGated defs i s p).2 (checkGated defs i s p).1 := by
  have hquiet : p.asked = true ↔ Asks defs h p .startup := by simp [hasked, not_asks_of_none (hnone .startup)]
  rw [checkGated]
  cases hdef : defs .startup with
  | none =>
      refine made_others (checkOthers_others hs hat (fun kind _ => hnone kind) hrestarted) ?_ ?_ ?_ hquiet
      · exact fun startup hstartup => by simp [hdef] at hstartup
      · exact fun startup hstartup => by simp [hdef] at hstartup
      · exact fun _ => hnone .startup
  | some startup =>
      have hstarted := hs.started startup hdef
      simp only [answers, hnone, Option.toList_none, List.nil_append] at hstarted
      cases hpassed : s.startupPassed with
      | true =>
          -- passed in an earlier pass: it does not run again
          rw [hpassed] at hstarted
          simp only [if_true]
          refine made_others (checkOthers_others hs hat (fun kind _ => hnone kind) hrestarted) ?_ ?_ ?_ hquiet
          · intro startup' hdef'
            obtain rfl := Option.some.inj (hdef.symm.trans hdef')
            simp [Started, hnone, ← hstarted]
          · intro startup' hdef'
            obtain rfl := Option.some.inj (hdef.symm.trans hdef')
            simp [free_startup hdef, hnone, ← hstarted]
          · exact fun _ => hnone .startup
      | false =>
          rw [hpassed] at hstarted
          have hdue := due_iff hs (hnone .startup) hdef hat.now hat.since
          have hfree : ∀ p', Free defs h p' .startup := fun p' => (free_startup hdef).mpr hstarted.symm
          by_cases hlate : Late h p .startup startup
          · have hshows := hs.ran_startup hat (hnone .startup) hdef hpassed (i.ok .startup)
            have hruns : (p.ran .startup (i.ok .startup)).result .startup ≠ none ↔
                Free defs h (p.ran .startup (i.ok .startup)) .startup ∧ Late h p .startup startup :=
              ⟨fun _ => ⟨hfree _, hlate⟩, fun _ => by simp [Pass.ran]⟩
            have hothers : ∀ kind, kind ≠ .startup → (p.ran .startup (i.ok .startup)).result kind = none :=
              fun kind hkind => by simp [Pass.ran, hkind, hnone]
            have hnow := hshows.started startup hdef
            simp only [Bool.false_eq_true, if_false, hdue.mpr hlate, if_true, probePassed_snd]
            cases hok : (probePassed (scheduleNext s .startup startup i.now) .startup startup (i.ok .startup)).1 with
            | true =>
                have hnot := not_asks_of_passed hs (hnone .startup) hdef hok
                rw [hok] at hshows hnow
                simp only [if_true]
                refine made_others (checkOthers_others hshows ⟨hat.now, hat.since⟩ hothers hrestarted) ?_ ?_ ?_ ?_
                · intro startup' hdef'
                  obtain rfl := Option.some.inj (hdef.symm.trans hdef')
                  exact hnow.symm
                · intro startup' hdef'
                  obtain rfl := Option.some.inj (hdef.symm.trans hdef')
                  exact hruns
                · exact fun hundefined => by simp [hdef] at hundefined
                · exact ⟨fun hask => absurd (hasked.symm.trans hask) Bool.false_ne_true,
                    fun hask => absurd hask hnot⟩
            | false =>
                have henough := failedEnough_iff hs (hnone .startup) hdef hok
                rw [hok] at hshows hnow
                rw [← (ran_startupPassed i.now (i.ok .startup)).trans hpassed] at hshows
                have hnot : ¬ Started startup h (p.ran .startup (i.ok .startup)) := by
                  rw [Started, ← answers, ← hnow]
                  exact Bool.false_ne_true
                by_cases hasks : Asks defs h (p.ran .startup (i.ok .startup)) .startup
                · simp only [Bool.false_eq_true, if_false, henough.mpr hasks, if_true]
                  exact made_gated hdef hothers hnot hruns ⟨fun _ => hasks, fun _ => rfl⟩
                    (ends_ask hshows i.replaced)
                · simp only [Bool.false_eq_true, if_false, henough, hasks]
                  refine made_gated hdef hothers hnot hruns ?_ (.inl ⟨hrestarted, hshows⟩)
                  exact ⟨fun hask => absurd (hasked.symm.trans hask) Bool.false_ne_true,
                    fun hask => absurd hask hasks⟩
          · rw [← hdue, Bool.not_eq_true] at hlate
            simp only [Bool.false_eq_true, if_false, hlate]
            refine made_gated hdef (fun kind _ => hnone kind) ?_ ?_ hquiet (.inl ⟨hrestarted, hs⟩)
            · simp [Started, hnone, ← hstarted]
            · simp [hnone, ← hdue, hlate]

end

/-! ## All passes -/

section

variable {defs : Definitions} {h : List Pass} {p : Pass} {s : State}

/-- The state at the start of a pass is that of the passes before it. -/
def Begins (defs : Definitions) (h : List Pass) (s : State) : Prop :=
  ∀ p : Pass, (∀ kind, p.result kind = none) → Shows defs h p s

/-- A run since the last restart is not after the last one. -/
def Latest (h : List Pass) : Prop :=
  ∀ kind, ∀ q ∈ current h, q.result kind ≠ none → ∃ t, lastRun kind h = some t ∧ q.now ≤ t

theorem results_cons (hrestarted : p.restarted = false) (kind : Kind) :
    results kind (p :: h) = answers h p kind := by
  cases hresult : p.result kind <;> simp [results, answers, current, hrestarted, hresult]

theorem lastRun_cons (hrestarted : p.restarted = false) (kind : Kind) :
    lastRun kind (p :: h) = ranAt h p kind := by
  cases hresult : p.result kind <;> simp [lastRun, ranAt, current, hrestarted, hresult]

theorem begins_nil (restarts : Nat) (hnil : current h = []) : Begins defs h { restarts := restarts } := by
  intro p hnone
  have hanswers : ∀ kind, answers h p kind = [] := fun kind => by simp [answers, hnone, results, hnil]
  refine ⟨fun kind probe _ => ?_, fun kind => ?_, fun kind => ?_, fun startup _ => ?_, fun readiness _ => ?_⟩
  · simp [ranAt, hnone, lastRun, hnil]
  · simp [hanswers, inRow]
  · simp [hanswers, inRow]
  · simp [hanswers, everPassed]
  · simp [hanswers, inRow]

theorem Ends.begins (hends : Ends defs h p s) : Begins defs (p :: h) s := by
  obtain ⟨hrestarted, hs⟩ | ⟨hrestarted, restarts, rfl⟩ := hends
  · intro q hnone
    have hanswers : ∀ kind, answers (p :: h) q kind = answers h p kind := fun kind => by
      rw [answers, hnone, Option.toList_none, List.nil_append, results_cons hrestarted]
    have hran : ∀ kind, ranAt (p :: h) q kind = ranAt h p kind := fun kind => by
      simp [ranAt, hnone, lastRun_cons hrestarted]
    refine ⟨fun kind probe hdef => ?_, fun kind => ?_, fun kind => ?_, fun startup hdef => ?_,
      fun readiness hdef => ?_⟩
    · rw [hran]
      exact hs.next kind probe hdef
    · rw [hanswers]
      exact hs.failures kind
    · rw [hanswers]
      exact hs.successes kind
    · rw [hanswers]
      exact hs.started startup hdef
    · rw [hanswers]
      exact hs.ready readiness hdef
  · exact begins_nil restarts (by simp [current, hrestarted])

/-- A pass after what came before it. -/
theorem Made.kept (hmade : Made defs h p s) (hlatest : Latest h) : Kept defs h p where
  restart := hmade.asked
  gate := fun kind startup hkind hresult hdef => by
    cases hprobe : defs kind with
    | none => exact absurd (hmade.undefined kind hprobe) hresult
    | some probe => exact (free_other hkind hdef).mp ((hmade.runs kind probe hprobe).mp hresult).1
  apart := fun kind probe hdef hresult q hq hran => by
    obtain ⟨t, hlast, hle⟩ := hlatest kind q hq hran
    have hlate := ((hmade.runs kind probe hdef).mp hresult).2
    rw [Late, hlast] at hlate
    have hlate : t + (probe.period : ℚ) ≤ p.now := hlate
    linarith
  runs := fun kind probe hdef hfree hlate => (hmade.runs kind probe hdef).mpr ⟨hfree, hlate⟩

theorem Probe.period_pos (probe : Probe) : 0 < probe.period := by
  simp [Probe.period]

theorem Latest.cons (hlatest : Latest h) (hkept : Kept defs h p)
    (hdefined : ∀ kind, defs kind = none → p.result kind = none) : Latest (p :: h) := by
  intro kind q hq hran
  cases hrestarted : p.restarted with
  | true => simp [current, hrestarted] at hq
  | false =>
      rw [lastRun_cons hrestarted, ranAt]
      have hcurrent : current (p :: h) = p :: current h := by simp [current, hrestarted]
      rw [hcurrent, List.mem_cons] at hq
      by_cases hresult : p.result kind = none
      · rcases hq with rfl | hq
        · exact absurd hresult hran
        · simp only [hresult, Option.isSome_none, Bool.false_eq_true, if_false]
          exact hlatest kind q hq hran
      · simp only [Option.isSome_iff_ne_none.mpr hresult, if_true]
        refine ⟨p.now, rfl, ?_⟩
        rcases hq with rfl | hq
        · exact le_rfl
        · cases hdef : defs kind with
          | none => exact absurd (hdefined kind hdef) hresult
          | some probe =>
              have hapart := hkept.apart kind probe hdef hresult q hq hran
              have hpos : (0 : ℚ) < probe.period := by exact_mod_cast probe.period_pos
              linarith

theorem checkProbes_made (hs : Begins defs h s) (i : Input) :
    Made defs h (checkProbes defs i s).2 (checkProbes defs i s).1 := by
  have hmade := checkGated_made (i := i) (hs { now := i.now, since := i.since } fun _ => rfl) ⟨rfl, rfl⟩
    (fun _ => rfl) rfl rfl
  refine ⟨hmade.runs, hmade.undefined, hmade.asked, ?_⟩
  exact hmade.ends.imp (fun hshows => ⟨hshows.1, ⟨hshows.2.next, hshows.2.failures, hshows.2.successes,
    hshows.2.started, hshows.2.ready⟩⟩) id

theorem passes_append (defs : Definitions) (inputs : List Input) (i : Input) :
    passes defs (inputs ++ [i]) = ((checkProbes defs i (passes defs inputs).1).1,
      (checkProbes defs i (passes defs inputs).1).2 :: (passes defs inputs).2) := by
  rw [passes, List.foldl_append]
  rfl

/-- After any passes. -/
theorem passes_kept (defs : Definitions) (inputs : List Input) :
    AllKept defs (passes defs inputs).2 ∧ Begins defs (passes defs inputs).2 (passes defs inputs).1 ∧
      Latest (passes defs inputs).2 := by
  induction inputs using List.reverseRecOn with
  | nil => exact ⟨trivial, begins_nil 0 rfl, fun _ _ hq => nomatch hq⟩
  | append_singleton inputs i ih =>
      obtain ⟨hall, hbegins, hlatest⟩ := ih
      have hmade := checkProbes_made hbegins i
      have hkept := hmade.kept hlatest
      rw [passes_append]
      exact ⟨⟨hkept, hall⟩, hmade.ends.begins, hlatest.cons hkept hmade.undefined⟩

end

/-! ## Restarts and periods -/

/-- Over any passes the probes go by their thresholds and their periods, each container judged on its own
results. -/
theorem probes_kept (defs : Definitions) (inputs : List Input) : AllKept defs (passes defs inputs).2 :=
  (passes_kept defs inputs).1

/-- One probe and no other. -/
def lone (kind : Kind) (probe : Probe) : Definitions := fun other => if other = kind then some probe else none

/-- A pass in which every probe answers the same. -/
def answered (now : ℚ) (ok : Bool) : Input := { now := now, since := some 0, ok := fun _ => ok }

/-- A replaced container is probed again within the period; a startup probe that has passed is not run again;
below zero a threshold is reached by a success that is not enough. -/
theorem not_apart_over_restarts :
    ((passes (lone .liveness { failureThreshold := some 1 }) [answered 0 false, answered 1 false]).2.map
        fun p => (p.now, p.result .liveness)) = [(1, some false), (0, some false)] ∧
      ¬ (0 : ℚ) + (({ failureThreshold := some 1 } : Probe).period : ℚ) ≤ 1 ∧
      ((passes (lone .startup {}) [answered 0 true, answered 100 true]).2.map fun p => p.result .startup) =
        [none, some true] ∧
      ((passes (lone .liveness { successThreshold := some 2, failureThreshold := some (-1) })
        [answered 0 true]).2.map fun p => (p.result .liveness, p.asked)) = [(some true, true)] := by
  decide +kernel

/-! ## Readiness -/

section

variable {defs : Definitions} {probe : Probe}

/-- Ready by both thresholds, after results the last one first: it turns on the `successes`-th success in a
row and on the `failures`-th failure in a row. -/
def ReadyBy (probe : Probe) : List Bool → Bool
  | [] => false
  | true :: rs => ReadyBy probe rs || decide (probe.successes ≤ inRow true (true :: rs))
  | false :: rs => ReadyBy probe rs && decide (¬ probe.failures ≤ inRow false (false :: rs))

/-- The record says ready when the container is. -/
def SaysReady (probe : Probe) (h : List Pass) : Prop :=
  ∀ later p earlier, h = later ++ p :: earlier →
    (p.ready = some true ↔ ReadyBy probe (results .readiness (p :: earlier)) = true)

/-- No probe of a ready container fails. -/
def NeverDrops (probe : Probe) (h : List Pass) : Prop :=
  ∀ later p earlier, h = later ++ p :: earlier → p.restarted = false → p.result .readiness = some false →
    ¬ max probe.successes 1 ≤ inRow true (results .readiness earlier)

/-- What the record says: the last results were successes. -/
theorem passes_ready (hdef : defs .readiness = some probe) (inputs : List Input) :
    ∀ later p earlier, (passes defs inputs).2 = later ++ p :: earlier →
      (p.ready = some true ↔ max probe.successes 1 ≤ inRow true (results .readiness (p :: earlier))) := by
  induction inputs using List.reverseRecOn with
  | nil => exact fun later p earlier hsplit => by simp [passes] at hsplit
  | append_singleton inputs i ih =>
      intro later p earlier hsplit
      rw [passes_append] at hsplit
      cases later with
      | cons q later => exact ih later p earlier (List.cons.inj hsplit).2
      | nil =>
          obtain ⟨rfl, rfl⟩ := List.cons.inj hsplit
          have hends := (checkProbes_made (passes_kept defs inputs).2.1 i).ends
          obtain ⟨hrestarted, hs⟩ | ⟨hrestarted, restarts, hs⟩ := hends
          · rw [results_cons hrestarted]
            exact hs.ready probe hdef
          · have hready : (checkProbes defs i (passes defs inputs).1).1.ready = none := by rw [hs]
            have hsame : (checkProbes defs i (passes defs inputs).1).2.ready = none := hready
            simp [hsame, results, current, hrestarted, inRow]

theorem inRow_pos {b : Bool} {rs : List Bool} (hpos : 1 ≤ inRow b rs) : ∃ rest, rs = b :: rest := by
  cases rs with
  | nil => simp [inRow] at hpos
  | cons r rest =>
      by_cases hr : r = b
      · exact ⟨rest, by rw [hr]⟩
      · simp [inRow_cons, hr] at hpos

/-- Enough successes make it ready. -/
theorem readyBy_of_row {rs : List Bool} (hrow : max probe.successes 1 ≤ inRow true rs) :
    ReadyBy probe rs = true := by
  have hpos : 1 ≤ inRow true rs := by omega
  obtain ⟨rest, rfl⟩ := inRow_pos hpos
  rw [ReadyBy, Bool.or_eq_true, decide_eq_true_eq]
  exact .inr (by omega)

/-- Both thresholds say what the last results say, unless a probe of a ready container fails. -/
theorem readyBy_iff (h : List Pass) (hdrops : probe.failures ≤ 1 ∨ NeverDrops probe h) :
    ReadyBy probe (results .readiness h) = true ↔
      max probe.successes 1 ≤ inRow true (results .readiness h) := by
  induction h with
  | nil => simp [results, current, ReadyBy, inRow]
  | cons p h ih =>
      have ih := ih (hdrops.imp_right fun hnever later q earlier hsplit =>
        hnever (p :: later) q earlier (by rw [hsplit, List.cons_append]))
      cases hrestarted : p.restarted with
      | true => simp [results, current, hrestarted, ReadyBy, inRow]
      | false =>
          rw [results_cons hrestarted, answers]
          cases hresult : p.result .readiness with
          | none => exact ih
          | some ok =>
              rw [Option.toList_some, List.singleton_append]
              cases ok with
              | true =>
                  rw [ReadyBy, Bool.or_eq_true, decide_eq_true_eq, ih, inRow_cons, if_pos rfl]
                  omega
              | false =>
                  have hrow : inRow false (false :: results .readiness h) =
                      inRow false (results .readiness h) + 1 := by rw [inRow_cons, if_pos rfl]
                  have hnil : inRow true (false :: results .readiness h) = 0 := by simp [inRow_cons]
                  rw [ReadyBy, Bool.and_eq_true, decide_eq_true_eq, ih, hrow, hnil]
                  obtain hone | hnever := hdrops
                  · omega
                  · have hnot := hnever [] p h rfl hrestarted hresult
                    omega

/-- The record says when a container is ready if and only if no probe of a ready one fails, or one failure is
enough. -/
theorem says_ready_iff (hdef : defs .readiness = some probe) (inputs : List Input) :
    SaysReady probe (passes defs inputs).2 ↔
      probe.failures ≤ 1 ∨ NeverDrops probe (passes defs inputs).2 := by
  constructor
  · intro hall
    by_contra hnot
    obtain ⟨hmany, hdrops⟩ := not_or.mp hnot
    refine hdrops fun later p earlier hsplit hrestarted hresult hrow => ?_
    -- the probe that fails is the first to do so: the thresholds keep the container ready
    have hresults : results .readiness (p :: earlier) = false :: results .readiness earlier := by
      simp [results_cons hrestarted, answers, hresult]
    have hready := (passes_ready hdef inputs later p earlier hsplit).symm.trans (hall later p earlier hsplit)
    have hpos : 1 ≤ inRow true (results .readiness earlier) := by omega
    obtain ⟨rest, hrest⟩ := inRow_pos hpos
    have hone : inRow false (false :: results .readiness earlier) = 1 := by simp [hrest, inRow_cons]
    have hnil : inRow true (false :: results .readiness earlier) = 0 := by simp [inRow_cons]
    rw [hresults, ReadyBy, readyBy_of_row hrow, hone, hnil, Bool.true_and, decide_eq_true_eq] at hready
    omega
  · intro hdrops later p earlier hsplit
    rw [passes_ready hdef inputs later p earlier hsplit]
    refine (readyBy_iff (p :: earlier) (hdrops.imp_right fun hnever later' q earlier' hsplit' => ?_)).symm
    exact hnever (later ++ later') q earlier' (by rw [hsplit, hsplit', List.append_assoc])

end

theorem says_ready_answered :
    SaysReady {} (passes (lone .readiness {}) [answered 0 false, answered 10 true]).2 ↔
      ({} : Probe).failures ≤ 1 ∨
        NeverDrops {} (passes (lone .readiness {}) [answered 0 false, answered 10 true]).2 :=
  says_ready_iff rfl _

/-- One dropped probe takes a ready container out, with three failures allowed. -/
theorem not_says_ready : ¬ ∀ (defs : Definitions) (probe : Probe), defs .readiness = some probe →
    ∀ inputs, SaysReady probe (passes defs inputs).2 := by
  intro hall
  have hready := hall (lone .readiness {}) {} rfl [answered 0 true, answered 10 false] [] _ _ rfl
  revert hready
  decide +kernel

end Probes

end Zun
