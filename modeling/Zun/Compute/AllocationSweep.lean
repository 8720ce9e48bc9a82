import Zun.Db.Api
import Zun.Effect.Run

/-!
# The sweep for stale allocations

`reclaim_stale_allocations` of `zun/compute/manager.py`.  It reads the allocations of the node's
resource provider, lists the records that have this host, and takes for stale each consumer that is
not among them.  What the sweep before found stale too it deletes.

A create writes the record, then the scheduler claims the allocation, then the node waits for
volumes, and only `container_claim` puts the host on the record.  All that time the record is there
and not among those of its host; and a failed create takes the host off again.  Two sweeps meanwhile
are two findings.  A sweep that has read placement and cannot list the records finds nothing, and
keeps what the one before found.
-/

namespace Zun

open Effect

namespace AllocationSweep

abbrev Provider := Nat

structure Conf where
  host : Host
  /-- `rp_uuid` of the resource tracker. -/
  rpUuid : Option Provider
  /-- `host_shared_with_nova`. -/
  shared : Bool := false
deriving DecidableEq

/-- Where the sweep is, with what it knows there. -/
inductive Pass where
  | idle
  /-- At `get_allocations_for_resource_provider`. -/
  | reading (rp : Provider)
  | listingContainers (allocations : List Uuid)
  | listingCapsules (allocations : List Uuid) (live : Uuid → Bool)
  /-- At `_is_our_consumer`. -/
  | judging (allocations : List Uuid) (live : Uuid → Bool)
  /-- At the head of the loop over `second_look`. -/
  | deleting (rest : List Uuid)

structure State where
  records : Db.Containers := .empty
  /-- The provider that a consumer has its allocation of. -/
  placement : Table Uuid Provider := .empty
  /-- `_stale_allocations`. -/
  stale : List Uuid := []
  /-- What each sweep that read placement found stale, the last one first.  The code does not keep
  this. -/
  found : List (List Uuid) := []
  pass : Pass := .idle

inductive Event where
  /-- The API writes the record of a create. -/
  | createRecord (u : Uuid) (r : Db.Container)
  /-- `claim_resources`, in the scheduler. -/
  | claimResources (u : Uuid) (rp : Provider)
  /-- `_set_container_host`. -/
  | setContainerHost (u : Uuid) (h : Host)
  /-- The host is taken off, in `_fail_container`, or another field is written. -/
  | updateRecord (u : Uuid) (f : Db.Container → Db.Container)
  | destroyRecord (u : Uuid)
  /-- `delete_allocation_for_container`, in a failed create or a delete. -/
  | releaseAllocation (u : Uuid)
  /-- Nova claims for an instance. -/
  | novaClaims (u : Uuid) (rp : Provider)
  | begin
  /-- Placement answers, or cannot be read. -/
  | readPlacement (answer : Option (List Uuid))
  | listContainers (ok : Bool)
  | listCapsules (ok : Bool)
  /-- What `_is_our_consumer` says of each consumer. -/
  | judge (ours : Uuid → Bool)
  /-- The sweep's own `delete_allocation_for_container` succeeds, or raises. -/
  | delete (ok : Bool)

variable (conf : Conf)

def context : Db.Context := Db.getAdminContext true

/-- The capsules of the host, and their `containers`. -/
def capsulesOf (t : Db.Containers) (u : Uuid) : Bool :=
  Db.listByHost context .capsule conf.host t u ||
    t.has (fun r => r.containerType = .capsuleContainer &&
      r.capsule.any (Db.listByHost context .capsule conf.host t)) u

section

variable (s : State)

/-- The sweep has read placement and is over. -/
def State.over (s : State) : State := { s with found := [] :: s.found, pass := .idle }

def stepRead (answer : Option (List Uuid)) : State :=
  match s.pass, answer with
  | .reading _, some (u :: us) => { s with pass := .listingContainers (u :: us) }
  | .reading _, some [] => s.over
  | .reading _, none => { s with pass := .idle }
  | _, _ => s

def stepListContainers (ok : Bool) : State :=
  match s.pass, ok with
  | .listingContainers allocations, true =>
      { s with
        pass := .listingCapsules allocations (Db.listByHost context .container conf.host s.records) }
  | .listingContainers _, false => s.over
  | _, _ => s

def stepListCapsules (ok : Bool) : State :=
  match s.pass, ok with
  | .listingCapsules allocations live, true =>
      { s with pass := .judging allocations fun u => live u || capsulesOf conf s.records u }
  | .listingCapsules _ _, false => s.over
  | _, _ => s

/-- The comprehension that makes `stale`. -/
def staleOf (allocations : List Uuid) (live ours : Uuid → Bool) : List Uuid :=
  allocations.filter fun u => !live u && (!conf.shared || ours u)

def stepJudge (ours : Uuid → Bool) : State :=
  match s.pass with
  | .judging allocations live =>
      let stale := staleOf conf allocations live ours
      { s with
        stale
        found := stale :: s.found
        pass := .deleting (stale.filter (· ∈ s.stale)) }
  | _ => s

def stepDelete (ok : Bool) : State :=
  match s.pass with
  | .deleting (u :: rest) =>
      { s with
        placement := if ok = true then s.placement.erase u else s.placement
        pass := .deleting rest }
  | .deleting [] => { s with pass := .idle }
  | _ => s

end

def step : Event → State → State
  | .createRecord u r, s => { s with records := s.records.insert u r }
  | .claimResources u rp, s | .novaClaims u rp, s => { s with placement := s.placement.insert u rp }
  | .setContainerHost u h, s =>
      { s with records := s.records.modify u fun r => { r with host := some h } }
  | .updateRecord u f, s => { s with records := s.records.modify u f }
  | .destroyRecord u, s => { s with records := s.records.erase u }
  | .releaseAllocation u, s => { s with placement := s.placement.erase u }
  | .begin, s =>
      match conf.rpUuid with
      | none => s
      | some rp => { s with pass := .reading rp }
  | .readPlacement answer, s => stepRead s answer
  | .listContainers ok, s => stepListContainers conf s ok
  | .listCapsules ok, s => stepListCapsules conf s ok
  | .judge ours, s => stepJudge conf s ours
  | .delete ok, s => stepDelete s ok

/-! ## What can happen -/

/-- A container or a capsule: what an allocation is claimed for. -/
def HoldsResources (r : Db.Container) : Prop :=
  r.containerType = .container ∨ r.containerType = .capsule

def Possible : Event → State → Prop
  -- A uuid is made up for one record, or for one instance.
  | .createRecord u _, s => s.records.given u = false ∧ s.placement.given u = false
  | .claimResources u _, s => s.records.Settled HoldsResources u ∧ s.placement.given u = false
  | .novaClaims u _, s => s.records.given u = false ∧ s.placement.given u = false
  | .updateRecord u f, s => ∀ r, s.records.row u = some r → (f r).containerType = r.containerType
  | .begin, s => match s.pass with
    | .idle => True
    | _ => False
  | .readPlacement (some answer), s => ∀ rp, s.pass = .reading rp →
      ∀ u, u ∈ answer ↔ s.placement.row u = some rp
  | _, _ => True

/-- The database and placement may hold anything; every consumer is a record's that was written, or
an instance's. -/
structure Begun (s : State) : Prop where
  stale : s.stale = []
  pass : s.pass = .idle
  owned : ∀ u rp, s.placement.row u = some rp → ∀ r, s.records.row u = some r → HoldsResources r

/-- The consumers that the sweep has read and the one before found stale. -/
def Again (s : State) (allocations : List Uuid) (u : Uuid) : Prop := u ∈ allocations ∧ u ∈ s.stale

/-- When a sweep lists the records of its host, each consumer found stale before that is still on
record is among them; and no sweep that meets such a consumer gives up at the listing. -/
def Timely : Event → State → Prop
  | .listContainers true, s => ∀ allocations, s.pass = .listingContainers allocations →
      ∀ u, Again s allocations u → ∀ r, s.records.row u = some r → r.containerType = .container →
        r.host = some conf.host
  | .listCapsules true, s => ∀ allocations live, s.pass = .listingCapsules allocations live →
      ∀ u, Again s allocations u → ∀ r, s.records.row u = some r → r.containerType = .capsule →
        r.host = some conf.host
  | .listContainers false, s => ∀ allocations, s.pass = .listingContainers allocations →
      ∀ u, ¬ Again s allocations u
  | .listCapsules false, s => ∀ allocations live, s.pass = .listingCapsules allocations live →
      ∀ u, ¬ Again s allocations u
  | _, _ => True

/-- The sweep deletes an allocation only of a consumer that has no record, and that the two last
sweeps that read placement found stale. -/
def Safe (s : State) : Prop :=
  ∀ u rest, s.pass = .deleting (u :: rest) →
    s.records.row u = none ∧
      ∃ last before older, s.found = last :: before :: older ∧ u ∈ last ∧ u ∈ before

/-! ## What stays true -/

/-- The consumer has, or had, an allocation, and its record, if it has one, is as `P` says. -/
def Held (s : State) (P : Db.Container → Prop) (u : Uuid) : Prop :=
  s.placement.given u = true ∧ ∀ r, s.records.row u = some r → P r

/-- The allocation is gone. -/
def Freed (s : State) (u : Uuid) : Prop := s.placement.Settled (fun _ => False) u

/-- What the sweep has read of placement, and what it remembers. -/
structure Read (s : State) (rp : Provider) (allocations : List Uuid) : Prop where
  here : ∀ u ∈ allocations, s.placement.Settled (· = rp) u
  held : ∀ u ∈ allocations, Held s HoldsResources u
  again : ∀ u, Again s allocations u → u ∈ s.found.headD []
  missed : ∀ u ∈ s.stale, u ∈ allocations ∨ Freed s u

def Capsule (r : Db.Container) : Prop := r.containerType = .capsule

def TwiceFound (s : State) (u : Uuid) : Prop :=
  ∃ last before older, s.found = last :: before :: older ∧ u ∈ last ∧ u ∈ before

/-- What the sweep knows, where it is. -/
def Informed (conf : Conf) (s : State) : Pass → Prop
  | .idle => True
  | .reading rp => conf.rpUuid = some rp
  | .listingContainers allocations => ∃ rp, conf.rpUuid = some rp ∧ Read s rp allocations
  | .listingCapsules allocations live => (∃ rp, conf.rpUuid = some rp ∧ Read s rp allocations) ∧
      ∀ u, Again s allocations u → live u = false → Held s Capsule u
  | .judging allocations live => (∃ rp, conf.rpUuid = some rp ∧ Read s rp allocations) ∧
      ∀ u, Again s allocations u → live u = false → Held s (fun _ => False) u
  | .deleting rest => ∀ u ∈ rest, Held s (fun _ => False) u ∧ TwiceFound s u

structure Inv (conf : Conf) (s : State) : Prop where
  owned : ∀ u rp, s.placement.row u = some rp → Held s HoldsResources u
  stale : ∀ u ∈ s.stale, ∃ rp, conf.rpUuid = some rp ∧ s.placement.Settled (· = rp) u ∧
    (u ∈ s.found.headD [] ∨ Freed s u)
  pass : Informed conf s s.pass

/-! ## Steps of others -/

variable {conf : Conf} {s s' : State} {rp : Provider} {u : Uuid} {allocations : List Uuid}
  {live : Uuid → Bool} {pass : Pass} {P : Db.Container → Prop}

/-- The condition is one on the type of a record. -/
def OfType (P : Db.Container → Prop) : Prop :=
  ∀ r r' : Db.Container, r'.containerType = r.containerType → P r → P r'

/-- Nothing that the sweep was told turns false. -/
structure Keeps (s s' : State) : Prop where
  held : ∀ P u, OfType P → Held s P u → Held s' P u
  placement : ∀ (P : Provider → Prop) u, s.placement.Settled P u → s'.placement.Settled P u
  stale : s'.stale = s.stale
  found : s'.found = s.found

theorem holdsResources_ofType : OfType HoldsResources := by
  intro r r' h hr
  rw [HoldsResources, h]
  exact hr

theorem capsule_ofType : OfType Capsule := by
  intro r r' h hr
  rw [Capsule, h]
  exact hr

theorem false_ofType : OfType fun _ => False := fun _ _ _ h => h

theorem Read.keeps (h : Read s rp allocations) (hk : Keeps s s') : Read s' rp allocations where
  here u hu := hk.placement _ u (h.here u hu)
  held u hu := hk.held _ u holdsResources_ofType (h.held u hu)
  again u hu := by
    rw [hk.found]
    rw [Again, hk.stale] at hu
    exact h.again u hu
  missed u hu := by
    rw [hk.stale] at hu
    rcases h.missed u hu with hu | hu
    · exact .inl hu
    · exact .inr (hk.placement _ u hu)

theorem Informed.keeps (h : Informed conf s pass) (hk : Keeps s s') : Informed conf s' pass := by
  cases pass with
  | idle => trivial
  | reading rp => exact h
  | listingContainers allocations =>
    obtain ⟨rp, hrp, hread⟩ := h
    exact ⟨rp, hrp, hread.keeps hk⟩
  | listingCapsules allocations live =>
    obtain ⟨⟨rp, hrp, hread⟩, hlive⟩ := h
    constructor
    · exact ⟨rp, hrp, hread.keeps hk⟩
    · intro u hu hl
      rw [Again, hk.stale] at hu
      exact hk.held _ u capsule_ofType (hlive u hu hl)
  | judging allocations live =>
    obtain ⟨⟨rp, hrp, hread⟩, hlive⟩ := h
    constructor
    · exact ⟨rp, hrp, hread.keeps hk⟩
    · intro u hu hl
      rw [Again, hk.stale] at hu
      exact hk.held _ u false_ofType (hlive u hu hl)
  | deleting rest =>
    intro u hu
    obtain ⟨hheld, htwice⟩ := h u hu
    constructor
    · exact hk.held _ u false_ofType hheld
    · rw [TwiceFound, hk.found]
      exact htwice

/-- Another service takes a step: the sweep stays where it is, and new consumers have their record. -/
theorem Inv.keeps (h : Inv conf s) (hk : Keeps s s') (hpass : s'.pass = s.pass)
    (howned : ∀ u rp, s'.placement.row u = some rp →
      s.placement.row u = some rp ∨ Held s' HoldsResources u) : Inv conf s' where
  owned u rp hu := by
    rcases howned u rp hu with hu | hu
    · exact hk.held _ u holdsResources_ofType (h.owned u rp hu)
    · exact hu
  stale u hu := by
    rw [hk.stale] at hu
    obtain ⟨rp, hrp, hset, hfound⟩ := h.stale u hu
    refine ⟨rp, hrp, hk.placement _ u hset, ?_⟩
    rw [hk.found]
    rcases hfound with hfound | hfreed
    · exact .inl hfound
    · exact .inr (hk.placement _ u hfreed)
  pass := by
    rw [hpass]
    exact h.pass.keeps hk

/-- The records change, and a record that a consumer has keeps its type. -/
theorem inv_records {t : Db.Containers} (h : Inv conf s)
    (ht : ∀ u, s.placement.given u = true → ∀ r, t.row u = some r →
      ∃ r', s.records.row u = some r' ∧ r.containerType = r'.containerType) :
    Inv conf { s with records := t } := by
  have hk : Keeps s { s with records := t } := by
    refine ⟨?_, fun _ _ h => h, rfl, rfl⟩
    rintro P u hP ⟨hgiven, hrow⟩
    constructor
    · exact hgiven
    · intro r hr
      obtain ⟨r', hr', htype⟩ := ht u hgiven r hr
      exact hP r' r htype (hrow r' hr')
  exact h.keeps hk rfl fun _ _ hu => .inl hu

theorem inv_createRecord {r : Db.Container} (h : Inv conf s) (hu : s.placement.given u = false) :
    Inv conf (step conf (.createRecord u r) s) := by
  apply inv_records h
  intro v hv r' hr'
  have hne : v ≠ u := by
    rintro rfl
    rw [hu] at hv
    cases hv
  rw [Table.row_insert_of_ne hne] at hr'
  exact ⟨r', hr', rfl⟩

theorem inv_modifyRecord {f : Db.Container → Db.Container} (h : Inv conf s)
    (hf : ∀ r, s.records.row u = some r → (f r).containerType = r.containerType) :
    Inv conf { s with records := s.records.modify u f } := by
  apply inv_records h
  intro v _ r hr
  rcases Table.row_of_modify hr with ⟨rfl, r', hr', rfl⟩ | ⟨-, hr⟩
  · exact ⟨r', hr', hf r' hr'⟩
  · exact ⟨r, hr, rfl⟩

theorem inv_destroyRecord (h : Inv conf s) : Inv conf (step conf (.destroyRecord u) s) :=
  inv_records h fun _ _ r hr => ⟨r, Table.row_of_erase hr, rfl⟩

/-- An allocation is made for a consumer that had none. -/
theorem inv_allocate (h : Inv conf s) (hu : s.placement.given u = false)
    (hrow : ∀ r, s.records.row u = some r → HoldsResources r) :
    Inv conf { s with placement := s.placement.insert u rp } := by
  have hk : Keeps s { s with placement := s.placement.insert u rp } := by
    refine ⟨?_, fun _ _ h => h.insert hu, rfl, rfl⟩
    rintro P v - ⟨hgiven, hv⟩
    exact ⟨Table.given_insert hgiven, hv⟩
  apply h.keeps hk rfl
  intro v rp' hv
  by_cases hne : v = u
  · subst hne
    exact .inr ⟨Table.given_insert_self, hrow⟩
  · rw [Table.row_insert_of_ne hne] at hv
    exact .inl hv

theorem inv_eraseAllocation (h : Inv conf s) :
    Inv conf { s with placement := s.placement.erase u } := by
  have hk : Keeps s { s with placement := s.placement.erase u } :=
    ⟨fun _ _ _ hheld => hheld, fun _ _ hset => hset.erase, rfl, rfl⟩
  exact h.keeps hk rfl fun _ _ hv => .inl (Table.row_of_erase hv)

/-! ## The sweep's own steps -/

theorem Inv.withPass (h : Inv conf s) (hp : Informed conf s pass) : Inv conf { s with pass } where
  owned := h.owned
  stale := h.stale
  pass := by
    apply Informed.keeps hp
    exact ⟨fun _ _ _ h => h, fun _ _ h => h, rfl, rfl⟩

/-- The sweep has found nothing, and of what it remembers no allocation is left. -/
theorem inv_over (h : Inv conf s) (hfreed : ∀ u ∈ s.stale, Freed s u) : Inv conf s.over where
  owned := h.owned
  stale u hu := by
    obtain ⟨rp, hrp, hset, -⟩ := h.stale u hu
    exact ⟨rp, hrp, hset, .inr (hfreed u hu)⟩
  pass := trivial

/-- A sweep that gives up has met nothing that it remembers. -/
theorem inv_giveUp (h : Inv conf s) (hread : Read s rp allocations)
    (hagain : ∀ u, ¬ Again s allocations u) : Inv conf s.over := by
  apply inv_over h
  intro u hu
  rcases hread.missed u hu with hin | hfreed
  · exact absurd ⟨hin, hu⟩ (hagain u)
  · exact hfreed

/-- A consumer settled for the provider has its allocation there, or none any more. -/
theorem freed_of_settled (h : s.placement.Settled (· = rp) u) (hu : s.placement.row u ≠ some rp) :
    Freed s u := by
  constructor
  · exact h.1
  · rintro rp' hrp'
    rw [h.2 rp' hrp'] at hrp'
    exact hu hrp'

theorem Inv.read (h : Inv conf s) (hrp : conf.rpUuid = some rp)
    (ha : ∀ u, u ∈ allocations ↔ s.placement.row u = some rp) : Read s rp allocations where
  here u hu := by
    have hrow := (ha u).mp hu
    constructor
    · exact s.placement.given_of_row u rp hrow
    · intro rp' hrp'
      rw [hrow] at hrp'
      cases hrp'
      rfl
  held u hu := h.owned u rp ((ha u).mp hu)
  again u hu := by
    obtain ⟨rp', -, -, hfound⟩ := h.stale u hu.2
    rcases hfound with hfound | hfreed
    · exact hfound
    · exact absurd ((ha u).mp hu.1) (by simp [hfreed.row_eq_none fun _ hf => hf])
  missed u hu := by
    obtain ⟨rp', hrp', hset, -⟩ := h.stale u hu
    rw [hrp] at hrp'
    cases hrp'
    by_cases hin : u ∈ allocations
    · exact .inl hin
    · exact .inr (freed_of_settled hset fun hrow => hin ((ha u).mpr hrow))

theorem inv_stepRead {answer : Option (List Uuid)} (h : Inv conf s)
    (ha : ∀ allocations, answer = some allocations → ∀ rp, s.pass = .reading rp →
      ∀ u, u ∈ allocations ↔ s.placement.row u = some rp) : Inv conf (stepRead s answer) := by
  have hpass := h.pass
  unfold stepRead
  split
  · rename_i rp u us hs
    rw [hs] at hpass
    exact h.withPass ⟨rp, hpass, h.read hpass (ha _ rfl rp hs)⟩
  · rename_i rp hs
    rw [hs] at hpass
    have hread := h.read hpass (ha _ rfl rp hs)
    apply inv_giveUp h hread
    rintro u ⟨hin, -⟩
    cases hin
  · exact h.withPass trivial
  · exact h

theorem inv_stepListContainers {ok : Bool} (h : Inv conf s)
    (ht : Timely conf (.listContainers ok) s) : Inv conf (stepListContainers conf s ok) := by
  have hpass := h.pass
  unfold stepListContainers
  split
  · rename_i allocations hs
    rw [hs] at hpass
    apply h.withPass
    refine ⟨hpass, ?_⟩
    intro u hu hlive
    obtain ⟨rp, hrp, hread⟩ := hpass
    obtain ⟨hgiven, hheld⟩ := hread.held u hu.1
    refine ⟨hgiven, ?_⟩
    intro r hr
    rcases hheld r hr with htype | htype
    · have hhost := ht allocations hs u hu r hr htype
      have hshown : Db.listByHost context .container conf.host s.records u = true := by
        rw [context, Db.listByHost_admin, Table.has_iff]
        exact ⟨r, hr, by simp [htype, hhost]⟩
      rw [hlive] at hshown
      cases hshown
    · exact htype
  · rename_i allocations hs
    rw [hs] at hpass
    obtain ⟨rp, -, hread⟩ := hpass
    exact inv_giveUp h hread (ht allocations hs)
  · exact h

theorem inv_stepListCapsules {ok : Bool} (h : Inv conf s)
    (ht : Timely conf (.listCapsules ok) s) : Inv conf (stepListCapsules conf s ok) := by
  have hpass := h.pass
  unfold stepListCapsules
  split
  · rename_i allocations live hs
    rw [hs] at hpass
    obtain ⟨hread, hcapsule⟩ := hpass
    apply h.withPass
    refine ⟨hread, ?_⟩
    intro u hu hlive
    rw [Bool.or_eq_false_iff] at hlive
    obtain ⟨hgiven, hheld⟩ := hcapsule u hu hlive.1
    refine ⟨hgiven, ?_⟩
    intro r hr
    have hhost := ht allocations live hs u hu r hr (hheld r hr)
    have hshown : capsulesOf conf s.records u = true := by
      rw [capsulesOf, Bool.or_eq_true, context, Db.listByHost_admin, Table.has_iff]
      have htype : r.containerType = .capsule := hheld r hr
      exact .inl ⟨r, hr, by simp [htype, hhost]⟩
    rw [hlive.2] at hshown
    cases hshown
  · rename_i allocations live hs
    rw [hs] at hpass
    obtain ⟨⟨rp, -, hread⟩, -⟩ := hpass
    exact inv_giveUp h hread (ht allocations live hs)
  · exact h

theorem mem_staleOf {ours : Uuid → Bool} (h : u ∈ staleOf conf allocations live ours) :
    u ∈ allocations ∧ live u = false := by
  simp only [staleOf, List.mem_filter, Bool.and_eq_true, Bool.not_eq_true'] at h
  exact ⟨h.1, h.2.1⟩

theorem inv_stepJudge {ours : Uuid → Bool} (h : Inv conf s) : Inv conf (stepJudge conf s ours) := by
  have hpass := h.pass
  unfold stepJudge
  split
  · rename_i allocations live hs
    rw [hs] at hpass
    obtain ⟨⟨rp, hrp, hread⟩, hgone⟩ := hpass
    constructor
    · exact h.owned
    · intro u hu
      exact ⟨rp, hrp, hread.here u (mem_staleOf hu).1, .inl hu⟩
    · intro u hu
      rw [List.mem_filter, decide_eq_true_eq] at hu
      obtain ⟨hnow, hbefore⟩ := hu
      obtain ⟨hin, hlive⟩ := mem_staleOf hnow
      have hfound := hread.again u ⟨hin, hbefore⟩
      refine ⟨hgone u ⟨hin, hbefore⟩ hlive, ?_⟩
      cases hf : s.found with
      | nil =>
        rw [hf] at hfound
        cases hfound
      | cons before older =>
        rw [hf] at hfound
        exact ⟨_, before, older, rfl, hnow, hfound⟩
  · exact h

theorem inv_stepDelete {ok : Bool} (h : Inv conf s) : Inv conf (stepDelete s ok) := by
  have hpass := h.pass
  unfold stepDelete
  split
  · rename_i u rest hs
    rw [hs] at hpass
    have hrest : Informed conf s (.deleting rest) :=
      fun v hv => hpass v (List.mem_cons_of_mem _ hv)
    have hinv := h.withPass hrest
    cases ok with
    | false => exact hinv
    | true => exact inv_eraseAllocation hinv
  · exact h.withPass trivial
  · exact h

/-! ## Every run -/

theorem inv_begun (h : Begun s) : Inv conf s where
  owned u rp hu := ⟨s.placement.given_of_row u rp hu, h.owned u rp hu⟩
  stale u hu := by
    rw [h.stale] at hu
    cases hu
  pass := by
    rw [h.pass]
    trivial

theorem inv_step (e : Event) (h : Inv conf s) (hp : Possible e s) (ht : Timely conf e s) :
    Inv conf (step conf e s) := by
  cases e with
  | createRecord u r => exact inv_createRecord h hp.2
  | claimResources u rp => exact inv_allocate h hp.2 hp.1.2
  | setContainerHost u host => exact inv_modifyRecord h fun _ _ => rfl
  | updateRecord u f => exact inv_modifyRecord h hp
  | destroyRecord u => exact inv_destroyRecord h
  | releaseAllocation u => exact inv_eraseAllocation h
  | novaClaims u rp =>
    apply inv_allocate h hp.2
    intro r hr
    have hgiven := s.records.given_of_row u r hr
    rw [hp.1] at hgiven
    cases hgiven
  | begin =>
    rw [step]
    split
    · exact h
    · rename_i rp hrp
      exact h.withPass hrp
  | readPlacement answer =>
    apply inv_stepRead h
    rintro allocations rfl
    exact hp
  | listContainers ok => exact inv_stepListContainers h ht
  | listCapsules ok => exact inv_stepListCapsules h ht
  | judge ours => exact inv_stepJudge h
  | delete ok => exact inv_stepDelete h

/-- Where every record still there has its host by the time it is looked for again, the sweep takes
nothing from a container that exists. -/
theorem deletes_stale_only
    (h : Reached Begun (step conf) (fun e s => Possible e s ∧ Timely conf e s) s) : Safe s := by
  have hinv : Inv conf s := by
    apply h.invariant
    · exact fun s hs => inv_begun hs
    · exact fun e s he hs => inv_step e hs he.1 he.2
  intro u rest hs
  have hpass := hinv.pass
  rw [hs] at hpass
  obtain ⟨hheld, htwice⟩ := hpass u List.mem_cons_self
  have hnone : s.records.row u = none := by
    cases hr : s.records.row u with
    | none => rfl
    | some r => exact (hheld.2 r hr).elim
  exact ⟨hnone, htwice⟩

/-! ### A consumer whose record is gone -/

def nodeConf : Conf := { host := "node", rpUuid := some 1 }

/-- The node died in a create, and an operator has removed the record. -/
def leaked : State := { placement := Table.empty.insert 7 1 }

theorem begun_leaked : Begun leaked where
  stale := rfl
  pass := rfl
  owned _ _ _ _ h := by cases h

/-- A sweep that finds the consumer stale. -/
def sweep (u : Uuid) : List Event :=
  [.begin, .readPlacement (some [u]), .listContainers true, .listCapsules true, .judge fun _ => true]

def twoSweeps (u : Uuid) : List Event := sweep u ++ .delete true :: sweep u

theorem leaked_read (rp : Provider) (h : Pass.reading 1 = .reading rp) (u : Uuid) :
    u ∈ [7] ↔ (Table.empty.insert 7 1).row u = some rp := by
  cases h
  rw [List.mem_singleton]
  constructor
  · rintro rfl
    exact Table.row_insert_self
  · intro h
    by_contra hne
    rw [Table.row_insert_of_ne hne] at h
    cases h

theorem leaked_timely : Allowed (step nodeConf) (fun e s => Possible e s ∧ Timely nodeConf e s)
    (twoSweeps 7) leaked := by
  refine ⟨⟨trivial, trivial⟩, ⟨leaked_read, trivial⟩, ⟨trivial, ?_⟩, ⟨trivial, ?_⟩,
    ⟨trivial, trivial⟩, ⟨trivial, trivial⟩, ⟨trivial, trivial⟩, ⟨leaked_read, trivial⟩,
    ⟨trivial, ?_⟩, ⟨trivial, ?_⟩, ⟨trivial, trivial⟩, trivial⟩
  · rintro _ _ _ _ _ ⟨⟩
  · rintro _ _ _ _ _ _ ⟨⟩
  · rintro _ _ _ _ _ ⟨⟩
  · rintro _ _ _ _ _ _ ⟨⟩

theorem safe_leaked : Safe (steps (step nodeConf) (twoSweeps 7) leaked) := by
  have hbegun : Reached Begun (step nodeConf) (fun e s => Possible e s ∧ Timely nodeConf e s)
      leaked := .init begun_leaked
  exact deletes_stale_only (hbegun.steps leaked_timely)

/-! ### A create that waits for its volumes -/

def webRecord : Db.Container := { containerType := .container }

/-- The API has written the record and the scheduler has claimed, and two sweeps pass. -/
def slowCreate : List Event := .createRecord 7 webRecord :: .claimResources 7 1 :: twoSweeps 7

theorem begun_empty : Begun {} where
  stale := rfl
  pass := rfl
  owned _ _ h := by cases h

theorem slowCreate_possible : Allowed (step nodeConf) Possible slowCreate {} := by
  have hrecord : (Table.empty.insert 7 webRecord).Settled HoldsResources 7 := by
    constructor
    · exact Table.given_insert_self
    · intro r hr
      rw [Table.row_insert_self] at hr
      cases hr
      exact .inl rfl
  exact ⟨⟨rfl, rfl⟩, ⟨hrecord, rfl⟩, trivial, leaked_read, trivial, trivial, trivial, trivial,
    trivial, leaked_read, trivial, trivial, trivial, trivial⟩

theorem slowCreate_pass : (steps (step nodeConf) slowCreate {}).pass = .deleting [7] := rfl

theorem slowCreate_record : (steps (step nodeConf) slowCreate {}).records.row 7 = some webRecord :=
  rfl

theorem allocations_not_safe : ¬ ∀ (conf : Conf) (s : State),
    Reached Begun (step conf) Possible s → Safe s := by
  intro h
  have hbegun : Reached Begun (step nodeConf) Possible {} := .init begun_empty
  have hsafe := h nodeConf _ (hbegun.steps slowCreate_possible)
  obtain ⟨hnone, -⟩ := hsafe 7 [] slowCreate_pass
  rw [slowCreate_record] at hnone
  cases hnone

end AllocationSweep

end Zun
