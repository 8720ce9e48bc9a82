import Mathlib.Algebra.Order.Field.Rat
import Mathlib.Tactic.Linarith
import Zun.Db.Api
import Zun.Effect.Run

/-!
# The sweep for orphan sandboxes

`reap_orphans` of `zun/container/cri/driver.py`, with `sweep` of `zun/container/orphan.py`.  It
lists the sandboxes, then the capsules, then the containers, and takes for an orphan each sandbox
whose owner label names none of them.  A record is written before its sandbox is made, so a sandbox
that was listed had its record before: one that is not among the records has lost it for good.
-/

namespace Zun

open Effect

namespace OrphanSweep

abbrev Ident := Nat

/-- What `ListPodSandbox` says of a sandbox. -/
structure PodSandbox where
  /-- `OWNER_LABEL`; none also for an empty label. -/
  owner : Option Uuid
  /-- In nanoseconds, `0` where it is not known. -/
  createdAt : Int
deriving DecidableEq

/-- `orphan.RuntimeObject`, with its `owner_uuid`. -/
structure RuntimeObject where
  ident : Ident
  ageSeconds : Option ℚ
  ownerUuid : Uuid
deriving DecidableEq

/-- The arguments of the pass. -/
structure Conf where
  minAge : ℚ
  dryRun : Bool := false

/-- What `sweep` returns. -/
structure Tally where
  reaped : Nat := 0
  skippedYoung : Nat := 0
  failed : Nat := 0
deriving DecidableEq

/-- Where the pass is, with what it knows there. -/
inductive Pass where
  /-- It has not begun, or was broken off. -/
  | idle
  | listingCapsules (sandboxes : List RuntimeObject)
  | listingContainers (sandboxes : List RuntimeObject) (known : Uuid → Bool)
  /-- At the head of the loop of `sweep`. -/
  | sweeping (rest : List RuntimeObject) (known : Uuid → Bool) (tally : Tally)
  | ended (tally : Tally)

structure State where
  records : Db.Containers := .empty
  sandboxes : Table Ident PodSandbox := .empty
  /-- `time.time() * 1e9`. -/
  clock : ℚ := 0
  pass : Pass := .idle
  /-- The sandboxes that the pass has listed, those it has removed and those it could not remove,
  and the records as they were when it listed them.  The code does not keep these. -/
  listed : List RuntimeObject := []
  reaped : List RuntimeObject := []
  failed : List RuntimeObject := []
  capsulesThen : Db.Containers := .empty
  containersThen : Db.Containers := .empty

inductive Event where
  /-- The API writes the record of a create. -/
  | createRecord (u : Uuid) (r : Db.Container)
  | updateRecord (u : Uuid) (f : Db.Container → Db.Container)
  | destroyRecord (u : Uuid)
  /-- A create or a rebuild makes a sandbox. -/
  | runPodSandbox (i : Ident) (p : PodSandbox)
  /-- A delete or a rebuild removes one. -/
  | removePodSandbox (i : Ident)
  | tick (d : ℚ)
  /-- `ListPodSandbox` answers, or raises an `RpcError`. -/
  | listPodSandbox (answer : Option (List (Ident × PodSandbox)))
  | listCapsules (ok : Bool)
  | listContainers (ok : Bool)
  /-- A turn of the loop of `sweep`.  `RemovePodSandbox`, if it is called, succeeds or raises. -/
  | turn (ok : Bool)

variable (conf : Conf)

/-- The context of a periodic task. -/
def context : Db.Context := Db.getAdminContext true

/-- The age of a sandbox, if it is known. -/
def age (clock : ℚ) (p : PodSandbox) : Option ℚ :=
  if p.createdAt = 0 then none else some ((clock - p.createdAt) / 1000000000)

/-- The sandboxes with an owner label. -/
def inventory (clock : ℚ) (answer : List (Ident × PodSandbox)) : List RuntimeObject :=
  answer.filterMap fun (i, p) => p.owner.map fun u => ⟨i, age clock p, u⟩

inductive Verdict where
  | claimed | young | orphan
deriving DecidableEq

/-- What `sweep` makes of an object. -/
def verdict (known : Uuid → Bool) (o : RuntimeObject) : Verdict :=
  if known o.ownerUuid = true then .claimed
  else if ∃ a ∈ o.ageSeconds, conf.minAge ≤ a then .orphan
  else .young

section

variable (s : State)

def stepListPodSandbox : Option (List (Ident × PodSandbox)) → State
  | some answer =>
      { s with
        pass := .listingCapsules (inventory s.clock answer)
        listed := inventory s.clock answer, reaped := [], failed := [] }
  -- `return (0, 0, 0)`
  | none => { s with pass := .ended {}, listed := [], reaped := [], failed := [] }

def stepListCapsules (ok : Bool) : State :=
  match s.pass, ok with
  | .listingCapsules sandboxes, true =>
      { s with
        pass := .listingContainers sandboxes (Db.list context .capsule s.records)
        capsulesThen := s.records }
  | .listingCapsules _, false => { s with pass := .idle }
  | _, _ => s

def stepListContainers (ok : Bool) : State :=
  match s.pass, ok with
  | .listingContainers sandboxes known, true =>
      { s with
        pass := .sweeping sandboxes
          (fun u => known u || Db.list context .container s.records u) {}
        containersThen := s.records }
  | .listingContainers _ _, false => { s with pass := .idle }
  | _, _ => s

def stepTurn (ok : Bool) : State :=
  match s.pass with
  | .sweeping [] _ tally => { s with pass := .ended tally }
  | .sweeping (o :: rest) known tally =>
      match verdict conf known o with
      | .claimed => { s with pass := .sweeping rest known tally }
      | .young =>
          { s with
            pass := .sweeping rest known { tally with skippedYoung := tally.skippedYoung + 1 } }
      | .orphan =>
          if conf.dryRun = true then
            { s with
              pass := .sweeping rest known { tally with reaped := tally.reaped + 1 }
              reaped := s.reaped ++ [o] }
          else if ok = true then
            { s with
              pass := .sweeping rest known { tally with reaped := tally.reaped + 1 }
              sandboxes := s.sandboxes.erase o.ident
              reaped := s.reaped ++ [o] }
          else
            { s with
              pass := .sweeping rest known { tally with failed := tally.failed + 1 }
              failed := s.failed ++ [o] }
  | _ => s

end

def step : Event → State → State
  | .createRecord u r, s => { s with records := s.records.insert u r }
  | .updateRecord u f, s => { s with records := s.records.modify u f }
  | .destroyRecord u, s => { s with records := s.records.erase u }
  | .runPodSandbox i p, s => { s with sandboxes := s.sandboxes.insert i p }
  | .removePodSandbox i, s => { s with sandboxes := s.sandboxes.erase i }
  | .tick d, s => { s with clock := s.clock + d }
  | .listPodSandbox answer, s => stepListPodSandbox s answer
  | .listCapsules ok, s => stepListCapsules s ok
  | .listContainers ok, s => stepListContainers s ok
  | .turn ok, s => stepTurn conf s ok

/-! ## What can happen -/

/-- A container or a capsule: what a sandbox is made for. -/
def OwnsSandbox (r : Db.Container) : Prop :=
  r.containerType = .container ∨ r.containerType = .capsule

/-- The record of the owner was written before. -/
def Recorded (s : State) (p : PodSandbox) : Prop := ∀ u ∈ p.owner, s.records.Settled OwnsSandbox u

def Possible : Event → State → Prop
  -- A uuid is made up for one record, and an id for one sandbox.
  | .createRecord u _, s => s.records.given u = false
  | .updateRecord u f, s => ∀ r, s.records.row u = some r → (f r).containerType = r.containerType
  | .runPodSandbox i p, s => s.sandboxes.given i = false ∧ Recorded s p
  | .tick d, _ => 0 ≤ d
  | .listPodSandbox (some answer), s => ∀ item ∈ answer, s.sandboxes.row item.1 = some item.2
  | _, _ => True

/-- The database and the runtime may hold anything; each owner label is that of a record that was
written. -/
structure Begun (s : State) : Prop where
  pass : s.pass = .idle
  listed : s.listed = []
  recorded : ∀ i p, s.sandboxes.row i = some p → Recorded s p

/-! ## What the pass promises -/

/-- The next turn of the loop calls `RemovePodSandbox` for the object. -/
def Removes (s : State) (o : RuntimeObject) : Prop :=
  conf.dryRun = false ∧ ∃ rest known tally, s.pass = .sweeping (o :: rest) known tally ∧
    verdict conf known o = .orphan

/-- No capsule and no container of any project had the uuid when they were listed. -/
def Unknown (s : State) (u : Uuid) : Prop :=
  (∀ r, s.capsulesThen.row u = some r → r.containerType ≠ .capsule) ∧
    ∀ r, s.containersThen.row u = some r → r.containerType ≠ .container

/-- A sandbox that is at least that old. -/
def Old (s : State) (p : PodSandbox) : Prop := ∃ a ∈ age s.clock p, conf.minAge ≤ a

/-- An object that was listed is nobody's, and old, or young. -/
def Orphan (s : State) (o : RuntimeObject) : Prop :=
  Unknown s o.ownerUuid ∧ ∃ a ∈ o.ageSeconds, conf.minAge ≤ a

def Young (s : State) (o : RuntimeObject) : Prop :=
  Unknown s o.ownerUuid ∧ ¬ ∃ a ∈ o.ageSeconds, conf.minAge ≤ a

structure Safe (s : State) : Prop where
  /-- A sandbox that is removed has an owner label and is old enough, no record had its uuid when
  the records were listed, and none has it now. -/
  removes : ∀ o, Removes conf s o → ∃ p, s.sandboxes.Settled (· = p) o.ident ∧
    p.owner = some o.ownerUuid ∧ Old conf s p ∧ Unknown s o.ownerUuid ∧
      s.records.Settled (fun _ => False) o.ownerUuid
  /-- Each orphan was removed, or its removal failed, and the counts are those of the objects. -/
  counts : ∀ tally, s.pass = .ended tally → ∃ orphans young : List RuntimeObject,
    (∀ o, o ∈ orphans ↔ o ∈ s.listed ∧ Orphan conf s o) ∧ orphans.Sublist s.listed ∧
    (∀ o, o ∈ young ↔ o ∈ s.listed ∧ Young conf s o) ∧ young.Sublist s.listed ∧
    (s.reaped ++ s.failed).Perm orphans ∧
    tally = ⟨s.reaped.length, young.length, s.failed.length⟩

/-! ## What stays true -/

variable {conf : Conf} {s s' : State} {u : Uuid} {o : RuntimeObject} {p : PodSandbox} {pass : Pass}
  {known : Uuid → Bool} {rest sandboxes : List RuntimeObject} {tally : Tally}

/-- The sandbox of an object, with the record it was made for. -/
def Seen (s : State) (o : RuntimeObject) : Prop :=
  ∃ p, s.sandboxes.Settled (· = p) o.ident ∧ p.owner = some o.ownerUuid ∧
    s.records.Settled OwnsSandbox o.ownerUuid ∧
    ∀ a ∈ o.ageSeconds, ∃ b ∈ age s.clock p, a ≤ b

/-- An object that nothing known claims has lost its record. -/
def Lost (s : State) (known : Uuid → Bool) (P : Db.Container → Prop) : Prop :=
  ∀ o ∈ s.listed, known o.ownerUuid = false → s.records.Settled P o.ownerUuid

/-- The objects of which `sweep` has made that. -/
def judged (conf : Conf) (known : Uuid → Bool) (v : Verdict) (objects : List RuntimeObject) :
    List RuntimeObject :=
  objects.filter fun o => verdict conf known o = v

/-- What `sweep` has done with the objects before those that are left. -/
structure Done (conf : Conf) (s : State) (known : Uuid → Bool) (tally : Tally)
    (objects : List RuntimeObject) : Prop where
  orphans : (s.reaped ++ s.failed).Perm (judged conf known .orphan objects)
  tally : tally = ⟨s.reaped.length, (judged conf known .young objects).length, s.failed.length⟩

def Container (r : Db.Container) : Prop := r.containerType = .container

/-- What the pass knows, where it is. -/
def Informed (conf : Conf) (s : State) : Pass → Prop
  | .idle => True
  | .listingCapsules sandboxes => sandboxes = s.listed ∧ s.reaped = [] ∧ s.failed = []
  | .listingContainers sandboxes known => (sandboxes = s.listed ∧ s.reaped = [] ∧ s.failed = []) ∧
      known = Db.list context .capsule s.capsulesThen ∧ Lost s known Container
  | .sweeping rest known tally => (∀ u, known u = false ↔ Unknown s u) ∧
      Lost s known (fun _ => False) ∧ ∃ before, s.listed = before ++ rest ∧
        Done conf s known tally before
  | .ended tally => s.listed = [] ∧ s.reaped = [] ∧ s.failed = [] ∧ tally = {} ∨
      ∃ known, (∀ u, known u = false ↔ Unknown s u) ∧ Done conf s known tally s.listed

structure Inv (conf : Conf) (s : State) : Prop where
  recorded : ∀ i p, s.sandboxes.row i = some p → Recorded s p
  seen : ∀ o ∈ s.listed, Seen s o
  pass : Informed conf s s.pass

/-! ## Steps of others -/

/-- The condition is one on the type of a record. -/
def OfType (P : Db.Container → Prop) : Prop :=
  ∀ r r' : Db.Container, r'.containerType = r.containerType → P r → P r'

/-- Nothing that the pass was told turns false. -/
structure Keeps (s s' : State) : Prop where
  records : ∀ P u, OfType P → s.records.Settled P u → s'.records.Settled P u
  sandboxes : ∀ P i, s.sandboxes.Settled P i → s'.sandboxes.Settled P i
  clock : s.clock ≤ s'.clock
  listed : s'.listed = s.listed
  reaped : s'.reaped = s.reaped
  failed : s'.failed = s.failed
  capsulesThen : s'.capsulesThen = s.capsulesThen
  containersThen : s'.containersThen = s.containersThen

theorem ownsSandbox_ofType : OfType OwnsSandbox := by
  intro r r' h hr
  rw [OwnsSandbox, h]
  exact hr

theorem container_ofType : OfType Container := by
  intro r r' h hr
  rw [Container, h]
  exact hr

theorem false_ofType : OfType fun _ => False := fun _ _ _ h => h

theorem age_mono {c c' : ℚ} (h : c ≤ c') {a : ℚ} (ha : a ∈ age c p) : ∃ b ∈ age c' p, a ≤ b := by
  unfold age at ha ⊢
  split at ha
  · cases ha
  next hp =>
    simp only [Option.mem_def, Option.some.injEq] at ha
    refine ⟨(c' - p.createdAt) / 1000000000, by simp [hp], ?_⟩
    rw [← ha]
    linarith

theorem Keeps.unknown (hk : Keeps s s') : Unknown s' u ↔ Unknown s u := by
  rw [Unknown, Unknown, hk.capsulesThen, hk.containersThen]

theorem Seen.keeps (h : Seen s o) (hk : Keeps s s') : Seen s' o := by
  obtain ⟨p, hp, howner, hrecord, hage⟩ := h
  refine ⟨p, hk.sandboxes _ _ hp, howner, hk.records _ _ ownsSandbox_ofType hrecord, ?_⟩
  intro a ha
  obtain ⟨b, hb, hab⟩ := hage a ha
  obtain ⟨c, hc, hbc⟩ := age_mono hk.clock hb
  exact ⟨c, hc, hab.trans hbc⟩

theorem Lost.keeps {P : Db.Container → Prop} (h : Lost s known P) (hk : Keeps s s')
    (hP : OfType P) : Lost s' known P := by
  intro o ho hknown
  rw [hk.listed] at ho
  exact hk.records _ _ hP (h o ho hknown)

theorem Done.keeps {objects : List RuntimeObject} (h : Done conf s known tally objects)
    (hk : Keeps s s') : Done conf s' known tally objects := by
  constructor
  · rw [hk.reaped, hk.failed]
    exact h.orphans
  · rw [hk.reaped, hk.failed]
    exact h.tally

theorem Informed.keeps (h : Informed conf s pass) (hk : Keeps s s') : Informed conf s' pass := by
  cases pass with
  | idle => trivial
  | listingCapsules sandboxes =>
    show sandboxes = s'.listed ∧ s'.reaped = [] ∧ s'.failed = []
    rw [hk.listed, hk.reaped, hk.failed]
    exact h
  | listingContainers sandboxes known =>
    obtain ⟨hstart, hknown, hlost⟩ := h
    refine ⟨?_, ?_, hlost.keeps hk container_ofType⟩
    · rw [hk.listed, hk.reaped, hk.failed]
      exact hstart
    · rw [hk.capsulesThen]
      exact hknown
  | sweeping rest known tally =>
    obtain ⟨hknown, hlost, before, hlisted, hdone⟩ := h
    refine ⟨?_, hlost.keeps hk false_ofType, before, ?_, hdone.keeps hk⟩
    · intro u
      rw [hk.unknown]
      exact hknown u
    · rw [hk.listed]
      exact hlisted
  | ended tally =>
    show _ ∨ _
    rw [hk.listed, hk.reaped, hk.failed]
    rcases h with h | ⟨known, hknown, hdone⟩
    · exact .inl h
    · right
      refine ⟨known, ?_, hdone.keeps hk⟩
      intro u
      rw [hk.unknown]
      exact hknown u

theorem Recorded.keeps (h : Recorded s p) (hk : Keeps s s') : Recorded s' p :=
  fun u hu => hk.records _ _ ownsSandbox_ofType (h u hu)

/-- Another service takes a step: the pass stays where it is. -/
theorem Inv.keeps (h : Inv conf s) (hk : Keeps s s') (hpass : s'.pass = s.pass)
    (hrow : ∀ i p, s'.sandboxes.row i = some p → s.sandboxes.row i = some p ∨ Recorded s' p) :
    Inv conf s' where
  recorded i p hp := by
    rcases hrow i p hp with hp | hp
    · exact (h.recorded i p hp).keeps hk
    · exact hp
  seen o ho := by
    rw [hk.listed] at ho
    exact (h.seen o ho).keeps hk
  pass := by
    rw [hpass]
    exact h.pass.keeps hk

theorem inv_records {t : Db.Containers} (h : Inv conf s)
    (ht : ∀ P u, OfType P → s.records.Settled P u → t.Settled P u) :
    Inv conf { s with records := t } :=
  h.keeps ⟨ht, fun _ _ h => h, le_refl _, rfl, rfl, rfl, rfl, rfl⟩ rfl fun _ _ hp => .inl hp

theorem inv_updateRecord {f : Db.Container → Db.Container} (h : Inv conf s)
    (hf : ∀ r, s.records.row u = some r → (f r).containerType = r.containerType) :
    Inv conf (step conf (.updateRecord u f) s) := by
  apply inv_records h
  intro P v hP hset
  constructor
  · exact hset.1
  · intro r hr
    rcases Table.row_of_modify hr with ⟨rfl, r', hr', rfl⟩ | ⟨-, hr⟩
    · exact hP r' _ (hf r' hr') (hset.2 r' hr')
    · exact hset.2 r hr

theorem inv_runPodSandbox {i : Ident} (h : Inv conf s) (hi : s.sandboxes.given i = false)
    (hp : Recorded s p) : Inv conf (step conf (.runPodSandbox i p) s) := by
  have hk : Keeps s (step conf (.runPodSandbox i p) s) :=
    ⟨fun _ _ _ h => h, fun _ _ h => h.insert hi, le_refl _, rfl, rfl, rfl, rfl, rfl⟩
  apply h.keeps hk rfl
  intro j q hq
  by_cases hj : j = i
  · subst hj
    have heq : (s.sandboxes.insert j p).row j = some q := hq
    rw [Table.row_insert_self] at heq
    cases heq
    exact .inr hp
  · exact .inl ((Table.row_insert_of_ne hj).symm.trans hq)

theorem inv_removePodSandbox {i : Ident} (h : Inv conf s) :
    Inv conf { s with sandboxes := s.sandboxes.erase i } := by
  have hk : Keeps s { s with sandboxes := s.sandboxes.erase i } :=
    ⟨fun _ _ _ h => h, fun _ _ h => h.erase, le_refl _, rfl, rfl, rfl, rfl, rfl⟩
  exact h.keeps hk rfl fun _ _ hp => .inl (Table.row_of_erase hp)

theorem inv_tick {d : ℚ} (h : Inv conf s) (hd : 0 ≤ d) : Inv conf (step conf (.tick d) s) := by
  have hk : Keeps s (step conf (.tick d) s) := by
    refine ⟨fun _ _ _ h => h, fun _ _ h => h, ?_, rfl, rfl, rfl, rfl, rfl⟩
    show s.clock ≤ s.clock + d
    linarith
  exact h.keeps hk rfl fun _ _ hp => .inl hp

/-! ## The pass -/

theorem mem_inventory {clock : ℚ} {answer : List (Ident × PodSandbox)}
    (h : o ∈ inventory clock answer) :
    ∃ p, (o.ident, p) ∈ answer ∧ p.owner = some o.ownerUuid ∧ o.ageSeconds = age clock p := by
  obtain ⟨⟨i, p⟩, hmem, heq⟩ := List.mem_filterMap.mp h
  simp only [Option.map_eq_some_iff] at heq
  obtain ⟨u, hu, rfl⟩ := heq
  exact ⟨p, hmem, hu, rfl⟩

theorem inv_stepListPodSandbox {answer : Option (List (Ident × PodSandbox))} (h : Inv conf s)
    (ha : ∀ items, answer = some items → ∀ item ∈ items, s.sandboxes.row item.1 = some item.2) :
    Inv conf (stepListPodSandbox s answer) := by
  cases answer with
  | none =>
    constructor
    · exact h.recorded
    · intro o ho
      cases ho
    · exact .inl ⟨rfl, rfl, rfl, rfl⟩
  | some items =>
    constructor
    · exact h.recorded
    · intro o ho
      obtain ⟨p, hmem, howner, hage⟩ := mem_inventory ho
      have hrow := ha items rfl _ hmem
      refine ⟨p, ⟨s.sandboxes.given_of_row _ _ hrow, ?_⟩, howner, ?_, ?_⟩
      · intro q hq
        exact Option.some.inj (hq.symm.trans hrow)
      · exact h.recorded _ _ hrow _ howner
      · intro a ha'
        rw [hage] at ha'
        exact ⟨a, ha', le_refl _⟩
    · exact ⟨rfl, rfl, rfl⟩

theorem list_eq_false {type : Db.ContainerType} {t : Db.Containers} :
    Db.list context type t u = false ↔ ∀ r, t.row u = some r → r.containerType ≠ type := by
  rw [context, Db.list_admin, ← Bool.not_eq_true, Table.has_iff]
  simp

theorem inv_stepListCapsules {ok : Bool} (h : Inv conf s) : Inv conf (stepListCapsules s ok) := by
  have hpass := h.pass
  unfold stepListCapsules
  split
  next sandboxes hs =>
    rw [hs] at hpass
    refine ⟨h.recorded, h.seen, hpass, rfl, ?_⟩
    intro o ho hknown
    obtain ⟨p, -, -, hrecord, -⟩ := h.seen o ho
    refine ⟨hrecord.1, ?_⟩
    intro r hr
    rcases hrecord.2 r hr with htype | htype
    · exact htype
    · exact absurd htype (list_eq_false.mp hknown r hr)
  · exact ⟨h.recorded, h.seen, trivial⟩
  · exact h

theorem inv_stepListContainers {ok : Bool} (h : Inv conf s) :
    Inv conf (stepListContainers s ok) := by
  have hpass := h.pass
  unfold stepListContainers
  split
  next sandboxes known hs =>
    rw [hs] at hpass
    obtain ⟨⟨hlisted, hreaped, hfailed⟩, hknown, hlost⟩ := hpass
    refine ⟨h.recorded, h.seen, ?_, ?_, [], hlisted.symm, ?_, ?_⟩
    · intro u
      rw [Bool.or_eq_false_iff, hknown, list_eq_false, list_eq_false]
      exact Iff.rfl
    · intro o ho hboth
      rw [Bool.or_eq_false_iff] at hboth
      have hcontainer := hlost o ho hboth.1
      exact ⟨hcontainer.1, fun r hr => list_eq_false.mp hboth.2 r hr (hcontainer.2 r hr)⟩
    · show (s.reaped ++ s.failed).Perm []
      rw [hreaped, hfailed]
      exact List.Perm.refl _
    · show ({} : Tally) = ⟨s.reaped.length, 0, s.failed.length⟩
      rw [hreaped, hfailed]
      rfl
  · exact ⟨h.recorded, h.seen, trivial⟩
  · exact h

theorem judged_append {v : Verdict} {before : List RuntimeObject} :
    judged conf known v (before ++ [o]) =
      judged conf known v before ++ if verdict conf known o = v then [o] else [] := by
  rw [judged, List.filter_append, List.filter_singleton]
  simp [judged]

/-- The turn is over: the object is among those that are done. -/
theorem inv_turn (h : Inv conf s) (hs : s.pass = .sweeping (o :: rest) known tally)
    (hk : Keeps { s with reaped := s'.reaped, failed := s'.failed } s')
    (hrow : ∀ i p, s'.sandboxes.row i = some p → s.sandboxes.row i = some p)
    {tally' : Tally} (hpass : s'.pass = .sweeping rest known tally')
    (hdone : ∀ before, Done conf s known tally before → Done conf s' known tally' (before ++ [o])) :
    Inv conf s' := by
  have hinf := h.pass
  rw [hs] at hinf
  obtain ⟨hknown, hlost, before, hlisted, hbefore⟩ := hinf
  constructor
  · intro i p hp u hu
    exact hk.records _ _ ownsSandbox_ofType (h.recorded i p (hrow i p hp) u hu)
  · intro o ho
    rw [hk.listed] at ho
    have hseen : Seen { s with reaped := s'.reaped, failed := s'.failed } o := h.seen o ho
    exact hseen.keeps hk
  · rw [hpass]
    refine ⟨?_, ?_, before ++ [o], ?_, hdone before hbefore⟩
    · intro u
      rw [hk.unknown]
      exact hknown u
    · have hlost' : Lost { s with reaped := s'.reaped, failed := s'.failed } known fun _ => False :=
        hlost
      exact hlost'.keeps hk false_ofType
    · rw [hk.listed]
      simpa using hlisted

theorem inv_stepTurn {ok : Bool} (h : Inv conf s) : Inv conf (stepTurn conf s ok) := by
  unfold stepTurn
  split
  next known tally hs =>
    have hpass := h.pass
    rw [hs] at hpass
    obtain ⟨hknown, -, before, hlisted, hdone⟩ := hpass
    rw [List.append_nil] at hlisted
    rw [← hlisted] at hdone
    exact ⟨h.recorded, h.seen, .inr ⟨known, hknown, hdone.orphans, hdone.tally⟩⟩
  next o rest known tally hs =>
    split
    next hv =>
      refine inv_turn h hs ⟨fun _ _ _ h => h, fun _ _ h => h, le_refl _, rfl, rfl, rfl, rfl, rfl⟩
        (fun _ _ hp => hp) rfl ?_
      rintro before ⟨horphans, htally⟩
      exact ⟨by simpa [judged_append, hv] using horphans, by simpa [judged_append, hv] using htally⟩
    next hv =>
      refine inv_turn h hs ⟨fun _ _ _ h => h, fun _ _ h => h, le_refl _, rfl, rfl, rfl, rfl, rfl⟩
        (fun _ _ hp => hp) rfl ?_
      rintro before ⟨horphans, rfl⟩
      exact ⟨by simpa [judged_append, hv] using horphans, by simp [judged_append, hv]⟩
    next hv =>
      -- the object comes to those removed, or to those that could not be
      have hreaped : ∀ before, Done conf s known tally before →
          Done conf { s with reaped := s.reaped ++ [o] } known
            { tally with reaped := tally.reaped + 1 } (before ++ [o]) := by
        rintro before ⟨horphans, rfl⟩
        refine ⟨?_, by simp [judged_append, hv]⟩
        rw [judged_append, if_pos hv]
        show (s.reaped ++ [o] ++ s.failed).Perm _
        rw [List.append_assoc]
        refine List.Perm.trans ?_ (horphans.append_right [o])
        rw [List.append_assoc]
        exact List.perm_append_comm.append_left s.reaped
      split
      · exact inv_turn h hs ⟨fun _ _ _ h => h, fun _ _ h => h, le_refl _, rfl, rfl, rfl, rfl, rfl⟩
          (fun _ _ hp => hp) rfl fun before hb => ⟨(hreaped before hb).1, (hreaped before hb).2⟩
      split
      · exact inv_turn h hs ⟨fun _ _ _ h => h, fun _ _ h => h.erase, le_refl _, rfl, rfl, rfl, rfl,
          rfl⟩ (fun _ _ hp => Table.row_of_erase hp) rfl
          fun before hb => ⟨(hreaped before hb).1, (hreaped before hb).2⟩
      · refine inv_turn h hs ⟨fun _ _ _ h => h, fun _ _ h => h, le_refl _, rfl, rfl, rfl, rfl, rfl⟩
          (fun _ _ hp => hp) rfl ?_
        rintro before ⟨horphans, rfl⟩
        refine ⟨?_, by simp [judged_append, hv]⟩
        rw [judged_append, if_pos hv]
        show (s.reaped ++ (s.failed ++ [o])).Perm _
        rw [← List.append_assoc]
        exact horphans.append_right [o]
  · exact h

/-! ## Every run -/

theorem inv_begun (h : Begun s) : Inv conf s where
  recorded := h.recorded
  seen o ho := by
    rw [h.listed] at ho
    cases ho
  pass := by
    rw [h.pass]
    trivial

theorem inv_step (e : Event) (h : Inv conf s) (hp : Possible e s) : Inv conf (step conf e s) := by
  cases e with
  | createRecord u r => exact inv_records h fun _ _ _ hset => hset.insert hp
  | updateRecord u f => exact inv_updateRecord h hp
  | destroyRecord u => exact inv_records h fun _ _ _ hset => hset.erase
  | runPodSandbox i p => exact inv_runPodSandbox h hp.1 hp.2
  | removePodSandbox i => exact inv_removePodSandbox h
  | tick d => exact inv_tick h hp
  | listPodSandbox answer =>
    apply inv_stepListPodSandbox h
    rintro items rfl
    exact hp
  | listCapsules ok => exact inv_stepListCapsules h
  | listContainers ok => exact inv_stepListContainers h
  | turn ok => exact inv_stepTurn h

theorem verdict_orphan : verdict conf known o = .orphan ↔
    known o.ownerUuid = false ∧ ∃ a ∈ o.ageSeconds, conf.minAge ≤ a := by
  unfold verdict
  split
  next h => simp [h]
  next h =>
    rw [Bool.not_eq_true] at h
    split
    next ha => exact ⟨fun _ => ⟨h, ha⟩, fun _ => rfl⟩
    next ha => exact ⟨nofun, fun hboth => absurd hboth.2 ha⟩

theorem verdict_young : verdict conf known o = .young ↔
    known o.ownerUuid = false ∧ ¬ ∃ a ∈ o.ageSeconds, conf.minAge ≤ a := by
  unfold verdict
  split
  next h => simp [h]
  next h =>
    rw [Bool.not_eq_true] at h
    split
    next ha => exact ⟨nofun, fun hboth => absurd ha hboth.2⟩
    next ha => exact ⟨fun _ => ⟨h, ha⟩, fun _ => rfl⟩

theorem Inv.safe (h : Inv conf s) : Safe conf s where
  removes o hremoves := by
    obtain ⟨-, rest, known, tally, hs, hv⟩ := hremoves
    have hpass := h.pass
    rw [hs] at hpass
    obtain ⟨hknown, hlost, before, hlisted, -⟩ := hpass
    have ho : o ∈ s.listed := by simp [hlisted]
    obtain ⟨hunknown, a, ha, hmin⟩ := verdict_orphan.mp hv
    obtain ⟨p, hp, howner, -, hage⟩ := h.seen o ho
    obtain ⟨b, hb, hab⟩ := hage a ha
    exact ⟨p, hp, howner, ⟨b, hb, hmin.trans hab⟩, (hknown _).mp hunknown, hlost o ho hunknown⟩
  counts tally hs := by
    have hpass := h.pass
    rw [hs] at hpass
    rcases hpass with ⟨hlisted, hreaped, hfailed, rfl⟩ | ⟨known, hknown, hdone⟩
    · refine ⟨[], [], ?_, List.nil_sublist _, ?_, List.nil_sublist _, ?_, ?_⟩
      · simp [hlisted]
      · simp [hlisted]
      · rw [hreaped, hfailed]
        exact List.Perm.refl _
      · rw [hreaped, hfailed]
        rfl
    · refine ⟨judged conf known .orphan s.listed, judged conf known .young s.listed, ?_,
        List.filter_sublist, ?_, List.filter_sublist, hdone.orphans, hdone.tally⟩
      · intro o
        simp only [judged, List.mem_filter, decide_eq_true_eq, verdict_orphan, hknown, Orphan]
      · intro o
        simp only [judged, List.mem_filter, decide_eq_true_eq, verdict_young, hknown, Young]

def hourConf : Conf := { minAge := 3600 }

/-- The record of `7` is gone, that of `8` is there. -/
def leaky : State where
  records := ((Table.empty.insert 7 { containerType := .capsule }).insert 8
    { containerType := .container }).erase 7
  sandboxes := (Table.empty.insert 1 ⟨some 7, 1⟩).insert 2 ⟨some 8, 1⟩
  clock := 4000000000000

theorem begun_leaky : Begun leaky where
  pass := rfl
  listed := rfl
  recorded i p hp u hu := by
    have hcases : u = 7 ∨ u = 8 := by
      by_cases h₂ : i = 2
      · subst h₂
        have heq : some (⟨some 8, 1⟩ : PodSandbox) = some p := hp
        cases heq
        cases hu
        exact .inr rfl
      · by_cases h₁ : i = 1
        · subst h₁
          have heq : some (⟨some 7, 1⟩ : PodSandbox) = some p := hp
          cases heq
          cases hu
          exact .inl rfl
        · rw [leaky, Table.row_insert_of_ne h₂, Table.row_insert_of_ne h₁] at hp
          cases hp
    rcases hcases with rfl | rfl
    · exact ⟨rfl, fun r hr => by cases hr⟩
    · refine ⟨rfl, fun r hr => ?_⟩
      have heq : some ({ containerType := .container } : Db.Container) = some r := hr
      cases heq
      exact .inl rfl

/-- A pass over both, up to the removal of the first. -/
def untilRemoval : List Event :=
  [.listPodSandbox (some [(1, ⟨some 7, 1⟩), (2, ⟨some 8, 1⟩)]), .listCapsules true,
    .listContainers true]

end OrphanSweep

end Zun
