import Mathlib.Algebra.Group.Prod
import Mathlib.Algebra.Order.Group.Int
import Mathlib.Algebra.Order.Ring.Rat
import Mathlib.Data.NNRat.Lemmas
import Mathlib.Tactic.Linarith
import Mathlib.Tactic.NormNum
import Zun.Compute.Tracker
import Zun.Effect.Run

/-!
# What the tracker counts

The counters of the compute node against the containers the tracker knows, over whole runs of
its entry points, and against the limits a claim was made with.

A claim with limits tests the node it is about to charge, so the node keeps to the limits when
the claim has succeeded, whatever the node was before.

That the counters are the sums over the tracked containers is an invariant of the runs in which
every write of the node is answered, no container is charged for what it was not tracked with,
and the node is not overcommitted when it is counted anew.
-/

namespace Zun

open Effect Prog

namespace Tracker

variable {env : Env} {s s' : State} {c new old : Container} {n : Node}

/-! ## Steps that leave the usage alone -/

/-- The node and what is tracked on it are the same. -/
structure SameUse (s s' : State) : Prop where
  node : s'.node = s.node
  tracked : s'.tracked = s.tracked

instance : IsPreorder State SameUse where
  refl _ := ⟨rfl, rfl⟩
  trans _ _ _ h h' := ⟨h'.node.trans h.node, h'.tracked.trans h.tracked⟩

theorem wp_write {w : Write} {effect : State → State} {Q : Result Failure Unit → State → Prop}
    (hok : env.refuse s.log.length w = none → Q (.ok ()) (effect { s with log := (w, none) :: s.log }))
    (hraise : ∀ f, env.refuse s.log.length w = some f →
      Q (.raise (.refused w f)) { s with log := (w, some f) :: s.log }) :
    wp (write env w effect) Q s := by
  unfold wp write
  cases h : env.refuse s.log.length w with
  | none => exact hok h
  | some f => exact hraise f h

theorem wp_computeNode {Q : Result Failure Node → State → Prop}
    (hsome : ∀ n, s.node = some n → Q (.ok n) s) (hnone : s.node = none → Q (.raise .attributeError) s) :
    wp computeNode Q s := by
  unfold computeNode
  rw [wp_bind, wp_read, seqPost_ok]
  cases h : s.node with
  | none => exact hnone h
  | some n => exact hsome n h

theorem within_write {R : State → State → Prop} [IsPreorder State R] {w : Write}
    {effect : State → State} (hlog : ∀ s log, R s { s with log }) (heffect : ∀ s, R s (effect s)) :
    Within R (write env w effect) :=
  within_of_wp fun s => wp_write
    (fun _ => trans_of R (hlog s _) (heffect _)) (fun _ _ => hlog s _)

theorem within_computeNode {R : State → State → Prop} [IsPreorder State R] :
    Within R computeNode :=
  within_of_wp fun s => wp_computeNode (fun _ _ => refl_of R s) fun _ => refl_of R s

section Writes

variable {R : State → State → Prop} [IsPreorder State R] (hlog : ∀ s log, R s { s with log })

include hlog

theorem within_updateToPlacement (k : Nat) : Within R (updateToPlacement env k) := by
  induction k with
  | zero => exact within_write hlog fun s => refl_of R s
  | succ k ih =>
      refine (within_write hlog fun s => refl_of R s).tryExcept fun e => ?_
      exact within_ite ih (within_raise e)

theorem within_savePci (hmark : ∀ dev s, R s (markSaved dev s)) : Within R (savePci env) :=
  (within_read _).bind fun _ => within_forEach fun d _ => (within_read _).bind fun _ =>
    (within_write hlog (hmark d.id)).onlyIf

end Writes

theorem sameUse_update : Within SameUse (update env) := by
  refine within_computeNode.bind fun node => (within_read _).bind fun old => Within.onlyIf ?_
  refine (within_modify fun _ => ⟨rfl, rfl⟩).bind fun _ => ?_
  refine (within_write (fun _ _ => ⟨rfl, rfl⟩) fun _ => ⟨by rfl, by rfl⟩).bind fun _ => ?_
  refine (within_updateToPlacement (fun _ _ => ⟨rfl, rfl⟩) 3).bind fun _ => ?_
  exact within_savePci (fun _ _ => ⟨rfl, rfl⟩) fun _ _ => ⟨rfl, rfl⟩

/-! ## Claims and their limits -/

/-- The counters of a node keep to some limits. -/
structure Node.Keeps (limits : Limits) (n : Node) : Prop where
  memory : ∀ l, limits.memory = some l → n.memUsed ≤ l
  cpu : ∀ l, limits.cpu = some l → n.cpuUsed ≤ l
  disk : ∀ l, limits.disk = some l → n.diskUsed ≤ l

/-- What is asked for fits on a node under some limits. -/
structure Node.Fits (limits : Limits) (n : Node) (a : Asked) : Prop where
  memory : ∀ l, limits.memory = some l → n.memUsed + a.memory ≤ l
  cpu : ∀ l, limits.cpu = some l → n.cpuUsed + a.cpu ≤ l
  disk : ∀ l, limits.disk = some l → n.diskUsed + a.disk ≤ l

theorem fits_of_test {r : Resource} {used requested : ℚ} {limit : Option ℚ}
    (h : test r used requested limit = none) : ∀ l, limit = some l → used + requested ≤ l := by
  rintro l rfl
  simp only [test] at h
  split at h
  · cases h
  · linarith

theorem within_testPci {R : State → State → Prop} [IsPreorder State R]
    (pci : Option (List Nat)) : Within R (testPci env pci) := by
  unfold testPci
  split
  · exact within_pure _
  · exact within_pure _
  · refine (within_read _).bind fun devs => ?_
    cases devs with
    | none => exact within_raise _
    | some devs => exact within_pure _

theorem within_testCpusetMem {R : State → State → Prop} [IsPreorder State R] (a : Asked)
    (l : Option CpusetLimit) : Within R (testCpusetMem n a l) := by
  cases l with
  | none => exact within_pure _
  | some l => exact within_ite (within_pure _) (within_raise _)

/-- A claim that is made leaves everything as it is, and what it asks for fits. -/
theorem wp_makeClaim {a : Asked} {pci : Option (List Nat)} {limits : Option Limits} :
    wp (makeClaim env c a pci limits) (fun r s' => s' = s ∧
      (r = .ok () → ∃ n, s.node = some n ∧ n.Fits (limits.getD {}) a)) s := by
  have hsame : Within Eq (makeClaim env c a pci limits) := by
    unfold makeClaim claimTest
    refine Within.bind ?_ fun _ => (within_raise _).onlyIf
    refine within_computeNode.bind fun node => (within_testPci pci).bind fun _ => ?_
    exact (within_testCpusetMem a _).bind fun _ => (within_raise _).onlyIf
  refine wp_and (hsame s).symm ?_
  unfold makeClaim claimTest
  rw [wp_bind, wp_bind]
  refine wp_computeNode (fun n hn => ?_) fun _ => by simp
  rw [seqPost_ok, wp_bind]
  refine wp_mono ((within_testPci pci).wp s) fun r s₁ (h₁ : s = s₁) => ?_
  subst h₁
  cases r with
  | raise e => simp
  | halt => simp
  | ok pciReason =>
      rw [seqPost_ok, wp_bind]
      refine wp_mono ((within_testCpusetMem a _).wp s) fun r s₁ (h₁ : s = s₁) => ?_
      subst h₁
      cases r with
      | raise e => simp
      | halt => simp
      | ok memReason =>
          rw [seqPost_ok]
          refine wp_onlyIf (fun _ => by simp) fun hnone => ?_
          rw [seqPost_ok]
          refine wp_onlyIf (fun _ => by simp) fun _ => ?_
          rintro -
          simp only [ne_eq, not_not, List.filterMap_eq_nil_iff, id_eq, List.mem_cons,
            forall_eq_or_imp] at hnone
          exact ⟨n, hn, fits_of_test hnone.1, fits_of_test hnone.2.1, fits_of_test hnone.2.2.1⟩

/-- What a charge with its sign leaves of the node. -/
theorem wp_updateUsage (sign : Int) :
    wp (updateUsage sign c) (fun r s' =>
      (c.pinned = true ∨ s.node = none → s' = s ∧ ∃ e, r = .raise e) ∧
      ∀ n, c.pinned = false → s.node = some n →
        r = .ok () ∧ s' = { s with node := some (n.charge sign c) }) s := by
  unfold updateUsage
  rw [wp_bind]
  refine wp_onlyIf (fun hp => ?_) fun hp => ?_
  · simp [hp]
  · rw [seqPost_ok, wp_bind]
    have hp' : c.pinned = false := by simpa using hp
    refine wp_computeNode (fun n hn => ?_) fun hn => ?_
    · simp [hp', hn]
    · simp [hp', hn]

/-- The tracked containers are changed by `f`, and the node is charged for `c`. -/
def Charged (sign : Int) (c : Container)
    (f : AList (fun _ : Uuid => Container) → AList fun _ : Uuid => Container) (s s' : State) : Prop :=
  s'.tracked = f s.tracked ∧ ∃ n, s.node = some n ∧ s'.node = some (n.charge sign c)

theorem wp_charged (sign : Int) (removed : Bool)
    (f : AList (fun _ : Uuid => Container) → AList fun _ : Uuid => Container) :
    wp (do
      modify fun s => { s with tracked := f s.tracked }
      updatePciForContainer c.uuid removed
      updateUsage sign c) (fun r s' => (r = .ok () → Charged sign c f s s') ∧
      (c.pinned = false → s.node.isSome = true → r = .ok ())) s := by
  rw [wp_bind, wp_modify, seqPost_ok, wp_bind, updatePciForContainer, onDevices, wp_modify, seqPost_ok]
  refine wp_mono (wp_updateUsage sign) ?_
  rintro r s' ⟨hraise, hok⟩
  constructor
  · rintro rfl
    cases hp : c.pinned with
    | true => simpa using (hraise (.inl hp)).2
    | false =>
        cases hn : s.node with
        | none => simpa using (hraise (.inr hn)).2
        | some n =>
            obtain ⟨-, rfl⟩ := hok n hp hn
            exact ⟨rfl, n, hn, rfl⟩
  · intro hp hsome
    obtain ⟨n, hn⟩ := Option.isSome_iff_exists.mp hsome
    exact (hok n hp hn).1

/-- A container that is added is charged once. -/
theorem wp_addUsage :
    wp (updateUsageFromContainer c false) (fun r s' =>
      (r = .ok () → (s.tracked.lookup c.uuid).isSome = true ∧ SameUse s s' ∨
        s.tracked.lookup c.uuid = none ∧ Charged 1 c (·.insert c.uuid c) s s') ∧
      (c.pinned = false → s.node.isSome = true → r = .ok ())) s := by
  unfold updateUsageFromContainer
  rw [wp_bind, wp_read, seqPost_ok]
  refine wp_onlyIf (fun hknown => ?_) fun hknown => ?_
  · have hnone : s.tracked.lookup c.uuid = none := by simpa using hknown
    refine wp_mono (wp_charged 1 false (·.insert c.uuid c)) ?_
    rintro r s' ⟨hok, hret⟩
    exact ⟨fun hr => .inr ⟨hnone, hok hr⟩, hret⟩
  · have hsome : (s.tracked.lookup c.uuid).isSome = true := Bool.not_eq_false _ ▸ hknown
    exact ⟨fun _ => .inl ⟨hsome, rfl, rfl⟩, fun _ _ => rfl⟩

/-- A container that is removed is given back once. -/
theorem wp_removeUsage :
    wp (updateUsageFromContainer c true) (fun r s' =>
      (r = .ok () → SameUse s s' ∨ ∃ t, s.tracked.lookup c.uuid = some t ∧
        Charged (-1) c (·.erase c.uuid) s s') ∧
      (c.pinned = false → s.node.isSome = true → r = .ok ())) s := by
  unfold updateUsageFromContainer
  rw [wp_bind, wp_read, seqPost_ok]
  refine wp_onlyIf (fun hknown => ?_) fun _ => ⟨fun _ => .inl ⟨rfl, rfl⟩, fun _ _ => rfl⟩
  obtain ⟨t, ht⟩ := Option.isSome_iff_exists.mp hknown
  refine wp_mono (wp_charged (-1) true (·.erase c.uuid)) ?_
  rintro r s' ⟨hok, hret⟩
  exact ⟨fun hr => .inr ⟨t, ht, hok hr⟩, hret⟩

/-- The limits of a claim. -/
def Op.limits : Op → Option Limits
  | .claim _ _ limits => limits
  | .updateClaim _ _ limits => limits
  | _ => none

theorem Node.Fits.keeps_charge {limits : Limits} (h : n.Fits limits c.asked) :
    (n.charge 1 c).Keeps limits where
  memory l hl := by
    have := h.memory l hl
    simpa [Node.charge, Container.asked] using this
  cpu l hl := by
    have := h.cpu l hl
    simpa [Node.charge, Container.asked] using this
  disk l hl := by
    have := h.disk l hl
    simpa [Node.charge, Container.asked] using this

theorem Node.Fits.keeps {limits : Limits} (h : n.Fits limits c.asked) : n.Keeps limits where
  memory l hl := by
    have hle := h.memory l hl
    have hpos : (0 : ℚ) ≤ c.memory := Nat.cast_nonneg _
    simp only [Container.asked] at hle
    linarith
  cpu l hl := by
    have hle := h.cpu l hl
    have hpos : (0 : ℚ) ≤ c.cpu := c.cpu.2
    simp only [Container.asked] at hle
    linarith
  disk l hl := by
    have hle := h.disk l hl
    have hpos : (0 : ℚ) ≤ c.disk := Nat.cast_nonneg _
    simp only [Container.asked] at hle
    linarith

theorem Node.Fits.keeps_update {limits : Limits} (h : n.Fits limits (updateAsked new old)) :
    ((n.charge (-1) old).charge 1 new).Keeps limits where
  memory l hl := by
    have hle := h.memory l hl
    simp only [updateAsked] at hle
    simp only [Node.charge]
    push_cast
    linarith
  cpu l hl := by
    have hle := h.cpu l hl
    simp only [updateAsked] at hle
    simp only [Node.charge]
    push_cast
    linarith
  disk l hl := by
    have hle := h.disk l hl
    have hpos : (0 : ℚ) ≤ old.disk := Nat.cast_nonneg _
    simp only [updateAsked] at hle
    simp only [Node.charge]
    push_cast
    linarith

theorem wp_claimUsage_keeps {pci : Option (List Nat)} {limits : Option Limits} :
    wp (claimUsage env c pci limits) (fun r s' => r = .ok true →
      ∃ n, s'.node = some n ∧ n.Keeps (limits.getD {})) s := by
  unfold claimUsage
  rw [wp_ite]
  split
  · simp
  rw [wp_bind, reread, wp_modify, seqPost_ok, wp_bind]
  refine wp_mono wp_makeClaim ?_
  rintro r s₁ ⟨rfl, hfit⟩
  cases r with
  | raise e => simp
  | halt => simp
  | ok a =>
      obtain ⟨n, hn, hfits⟩ := hfit rfl
      rw [seqPost_ok, wp_bind, claimContainer, wp_bind, wp_read, seqPost_ok, onDevices, wp_modify,
        seqPost_ok, wp_bind]
      refine wp_write (fun _ => ?_) fun _ _ => by simp
      rw [seqPost_ok, wp_bind]
      refine wp_mono wp_addUsage ?_
      rintro r s₂ ⟨hadd, -⟩
      cases r with
      | raise e => simp
      | halt => simp
      | ok a =>
          rintro -
          rcases hadd rfl with ⟨-, hsame⟩ | ⟨-, -, n', hn', hnode⟩
          · exact ⟨n, hsame.node.trans hn, hfits.keeps⟩
          · cases hn.symm.trans hn'
            exact ⟨_, hnode, hfits.keeps_charge⟩

/-- What an update of the usage leaves when it returns. -/
theorem wp_updateUsageFromContainerUpdate :
    wp (updateUsageFromContainerUpdate new old) (fun r s' =>
      (r = .ok () → s'.tracked = s.tracked.insert new.uuid new ∧
        ∃ n, s.node = some n ∧ s'.node = some ((n.charge (-1) old).charge 1 new)) ∧
      (new.pinned = false → old.pinned = false → s.node.isSome = true → r = .ok ())) s := by
  unfold updateUsageFromContainerUpdate
  rw [wp_bind, wp_modify, seqPost_ok, wp_bind]
  refine wp_mono (wp_updateUsage (-1)) ?_
  rintro r s₁ ⟨hraise, hok⟩
  by_cases hbad : old.pinned = true ∨ s.node = none
  · obtain ⟨-, e, rfl⟩ := hraise hbad
    refine ⟨by simp, fun _ hp hn => ?_⟩
    rcases hbad with hbad | hbad
    · simp [hp] at hbad
    · simp [hbad] at hn
  · rw [not_or] at hbad
    obtain ⟨n, hn⟩ := Option.ne_none_iff_exists'.mp hbad.2
    obtain ⟨rfl, rfl⟩ := hok n (by simpa using hbad.1) hn
    rw [seqPost_ok]
    refine wp_mono (wp_updateUsage 1) ?_
    rintro r s₂ ⟨hraise, hok⟩
    cases hp : new.pinned with
    | true =>
        obtain ⟨-, e, rfl⟩ := hraise (.inl hp)
        simp
    | false =>
        obtain ⟨rfl, rfl⟩ := hok _ hp rfl
        exact ⟨fun _ => ⟨rfl, n, hn, rfl⟩, fun _ _ _ => rfl⟩

theorem wp_updateClaimUsage_keeps {limits : Option Limits} :
    wp (updateClaimUsage env new old limits) (fun r s' => r = .ok true →
      ∃ n, s'.node = some n ∧ n.Keeps (limits.getD {})) s := by
  unfold updateClaimUsage
  rw [wp_ite]
  split
  · simp
  rw [wp_bind, reread, wp_modify, seqPost_ok, wp_bind]
  refine wp_mono wp_makeClaim ?_
  rintro r s₁ ⟨rfl, hfit⟩
  cases r with
  | raise e => simp
  | halt => simp
  | ok a =>
      obtain ⟨n, hn, hfits⟩ := hfit rfl
      rw [seqPost_ok, wp_bind]
      refine wp_mono wp_updateUsageFromContainerUpdate ?_
      rintro r s₂ ⟨hupdated, -⟩
      cases r with
      | raise e => simp
      | halt => simp
      | ok a =>
          rintro -
          obtain ⟨-, n', hn', hnode⟩ := hupdated rfl
          cases hn.symm.trans hn'
          exact ⟨_, hnode, hfits.keeps_update⟩

/-- A claim with limits that succeeds, and is not a claim for nothing, leaves a node that keeps
to the limits. -/
theorem keeps_of_claimed (env : Env) (op : Op) (limits : Limits) (s s' : State)
    (hlimits : op.limits = some limits) (h : op.run env s = (.ok true, s')) :
    ∃ n, s'.node = some n ∧ n.Keeps limits := by
  have hrun : wp (op.run env) (fun r s' => r = .ok true →
      ∃ n, s'.node = some n ∧ n.Keeps limits) s := by
    have hprepare : wp (op.prepare env) (fun r s' => r = .ok true →
        ∃ n, s'.node = some n ∧ n.Keeps limits) s := by
      cases op with
      | claim c pci l =>
          cases hlimits
          exact wp_claimUsage_keeps
      | updateClaim new old l =>
          cases hlimits
          exact wp_updateClaimUsage_keeps
      | abort c => cases hlimits
      | abortUpdate new old => cases hlimits
      | remove c => cases hlimits
      | audit r available cs => cases hlimits
    unfold Op.run
    rw [wp_bind]
    refine wp_mono hprepare fun r s₁ h₁ => ?_
    cases r with
    | raise e => simp
    | halt => simp
    | ok go =>
        rw [seqPost_ok, wp_bind]
        refine wp_onlyIf (fun hgo => ?_) fun hgo => by simp [hgo]
        refine wp_mono (sameUse_update.wp s₁) fun r s₂ hsame => ?_
        cases r with
        | raise e => simp
        | halt => simp
        | ok a =>
            rintro -
            obtain ⟨n, hn, hkeeps⟩ := h₁ (by rw [hgo])
            exact ⟨n, hsame.node.trans hn, hkeeps⟩
  have := hrun
  rw [wp, h] at this
  exact this rfl

/-- What the driver says of a small node. -/
def smallNode : Resources where
  memTotal := 8
  memFree := 8
  memUsed := 0
  cpus := 4
  diskTotal := 8

/-- A tracker that has counted a small node with nothing on it. -/
def audited : State := Event.step ⟨{}, .audit smallNode true []⟩ {}

theorem keeps_claimFour :
    ∃ n, ((Op.claim { uuid := 1, memory := 4 } none (some { memory := some 6 })).run {} audited).2.node
      = some n ∧ n.Keeps { memory := some 6 } :=
  keeps_of_claimed {} _ _ audited _ rfl (Prod.ext (by decide +kernel) rfl)

/-- A small node with four of its memory claimed, under no limit. -/
def fourClaimed : State := Event.step ⟨{}, .claim { uuid := 1, memory := 4 } none none⟩ audited

/-- A container that asks for nothing is claimed on a node that is past the limits. -/
theorem nopClaim_past_limit :
    Reached Started Event.step (fun _ _ => True) fourClaimed ∧
      ((Op.claim { uuid := 2 } none (some { memory := some 3 })).run {} fourClaimed).1 = .ok false ∧
      ¬ ∃ n, ((Op.claim { uuid := 2 } none (some { memory := some 3 })).run {} fourClaimed).2.node
        = some n ∧ n.Keeps { memory := some 3 } := by
  refine ⟨.step _ (.step _ (.init ⟨none, rfl⟩) trivial) trivial, by decide +kernel, ?_⟩
  rintro ⟨n, hn, hkeeps⟩
  have hused : (some n).map (·.memUsed) = some 4 := by
    rw [← hn]
    decide +kernel
  have hfour : n.memUsed = 4 := Option.some.inj hused
  have := hkeeps.memory 3 rfl
  rw [hfour] at this
  norm_num at this

/-! ## What comes before the writes -/

/-- The writes of `_update`. -/
def Write.ofUpdate : Write → Bool
  | .saveNode | .updatePlacement | .savePci _ => true
  | _ => false

/-- What an entry point does before `_update` makes none of its writes, leaves the recorded node
alone, and forgets no change of a device. -/
structure Drafting (s s' : State) : Prop where
  old : s'.old = s.old
  saved : s'.saved = s.saved ∨ s.saved = none
  log : s'.log.filter (·.1.ofUpdate) = s.log.filter (·.1.ofUpdate)
  flagged : ∀ dev, flagged dev s = true → flagged dev s' = true

theorem Drafting.of_eq (hold : s'.old = s.old) (hsaved : s'.saved = s.saved) (hlog : s'.log = s.log)
    (hpci : s'.pci = s.pci) : Drafting s s' where
  old := hold
  saved := .inl hsaved
  log := by rw [hlog]
  flagged dev h := by
    unfold Tracker.flagged at h ⊢
    rwa [hpci]

instance : IsPreorder State Drafting where
  refl _ := .of_eq rfl rfl rfl rfl
  trans _ _ _ h h' :=
    { old := h'.old.trans h.old
      saved := by
        rcases h.saved with hs | hs
        · rw [← hs]
          exact h'.saved
        · exact .inr hs
      log := h'.log.trans h.log
      flagged := fun dev hf => h'.flagged dev (h.flagged dev hf) }

theorem drafting_modify {f : State → State} (hold : ∀ s, (f s).old = s.old)
    (hsaved : ∀ s, (f s).saved = s.saved) (hlog : ∀ s, (f s).log = s.log)
    (hpci : ∀ s, (f s).pci = s.pci) : Within Drafting (modify f : Prog State Failure Unit) :=
  within_modify fun s => .of_eq (hold s) (hsaved s) (hlog s) (hpci s)

/-- Changing devices sets their flags and clears none. -/
theorem drafting_onDevices {f : PciDev → PciDev} (hid : ∀ d, (f d).id = d.id)
    (hchanged : ∀ d, d.changed = true → (f d).changed = true) : Within Drafting (onDevices f) :=
  within_modify fun s =>
    { old := rfl
      saved := .inl rfl
      log := rfl
      flagged := by
        intro dev h
        obtain ⟨d, hd, hflag⟩ := List.any_eq_true.mp h
        obtain ⟨hdev, hd'⟩ : d.id = dev ∧ d.changed = true := by simpa using hflag
        refine List.any_eq_true.mpr ⟨f d, ?_, by simp [hid, hdev, hchanged d hd']⟩
        cases hpci : s.pci with
        | none => simp [hpci] at hd
        | some devs =>
            simp only [hpci, Option.getD_some] at hd
            simpa using List.mem_map_of_mem hd }

theorem drafting_updatePciForContainer (u : Uuid) (removed : Bool) :
    Within Drafting (updatePciForContainer u removed) := by
  refine drafting_onDevices (fun d => ?_) fun d hd => ?_
  · split <;> split <;> rfl
  · split <;> split <;> simp [PciDev.turn, hd]

theorem drafting_updateUsage (sign : Int) (c : Container) : Within Drafting (updateUsage sign c) := by
  refine (within_raise _).onlyIf.bind fun _ => within_computeNode.bind fun node => ?_
  exact drafting_modify (fun _ => rfl) (fun _ => rfl) (fun _ => rfl) fun _ => rfl

theorem drafting_updateUsageFromContainer (c : Container) (removed : Bool) :
    Within Drafting (updateUsageFromContainer c removed) := by
  refine (within_read _).bind fun known => within_ite ?_ ?_
  all_goals
    refine Within.onlyIf (Within.bind (within_modify fun _ => .of_eq rfl rfl rfl rfl) fun _ => ?_)
    exact (drafting_updatePciForContainer _ _).bind fun _ => drafting_updateUsage _ _

theorem drafting_updateUsageFromContainerUpdate (new old : Container) :
    Within Drafting (updateUsageFromContainerUpdate new old) := by
  refine Within.bind (within_modify fun _ => .of_eq rfl rfl rfl rfl) fun _ => ?_
  exact (drafting_updateUsage _ _).bind fun _ => drafting_updateUsage _ _

theorem drafting_updateUsageFromContainers (cs : List Container) :
    Within Drafting (updateUsageFromContainers cs) := by
  refine Within.bind (within_modify fun _ => .of_eq rfl rfl rfl rfl) fun _ => ?_
  refine within_computeNode.bind fun node => ?_
  refine Within.bind (within_modify fun _ => .of_eq rfl rfl rfl rfl) fun _ => ?_
  refine (within_forEach fun c _ => drafting_updateUsageFromContainer c false).bind fun _ => ?_
  exact within_computeNode.bind fun node => within_modify fun _ => .of_eq rfl rfl rfl rfl

theorem drafting_reread : Within Drafting reread := within_modify fun _ => .of_eq rfl rfl rfl rfl

theorem drafting_makeClaim (c : Container) (a : Asked) (pci : Option (List Nat))
    (limits : Option Limits) : Within Drafting (makeClaim env c a pci limits) :=
  within_of_wp fun s => wp_mono wp_makeClaim fun _ s' h => by
    rw [h.1]
    exact refl_of Drafting s

theorem drafting_log {w : Write} (hw : w.ofUpdate = false) (f : Option Fault) :
    Drafting s { s with log := (w, f) :: s.log } where
  old := rfl
  saved := .inl rfl
  log := by simp [hw]
  flagged _ h := h

theorem drafting_audit (r : Resources) (available : Bool) (cs : List Container) :
    Within Drafting (audit env r available cs) := by
  have hrest (node : Node) : Within Drafting (do
      modify fun s => { s with pci := some (s.pci.getD env.devices), node := some node }
      if available then do
        updateUsageFromContainers cs
        pure true
      else pure false : Prog State Failure Bool) := by
    refine Within.bind (within_modify fun s => ⟨rfl, .inl rfl, rfl, ?_⟩) fun _ => ?_
    · intro dev h
      cases hpci : s.pci with
      | none => simp [flagged, hpci] at h
      | some devs => simpa [flagged, hpci] using h
    · refine within_ite ?_ (within_pure _)
      exact (drafting_updateUsageFromContainers cs).bind fun _ => within_pure _
  refine within_of_wp fun s => ?_
  unfold audit
  rw [wp_bind, wp_read, seqPost_ok, wp_bind]
  refine wp_onlyIf (fun hnone => ?_) fun _ => hrest _ s
  refine wp_write (fun _ => ?_) fun f _ => drafting_log rfl _
  rw [seqPost_ok]
  refine wp_mono ((hrest _).wp _) fun _ s' h => trans_of Drafting ?_ h
  exact ⟨rfl, .inr hnone, by simp [Write.ofUpdate], fun _ hf => hf⟩

theorem drafting_prepare (op : Op) : Within Drafting (op.prepare env) := by
  cases op with
  | claim c pci limits =>
      refine within_ite (within_pure _) (drafting_reread.bind fun _ => ?_)
      refine (drafting_makeClaim _ _ _ _).bind fun _ => Within.bind ?_ fun _ => ?_
      · refine (within_read _).bind fun devs => drafting_onDevices (fun d => ?_) fun d hd => ?_
        · split <;> rfl
        · split <;> simp [PciDev.turn, hd]
      · refine Within.bind ?_ fun _ => ?_
        · exact within_of_wp fun s => wp_write (fun _ => drafting_log rfl _) fun _ _ => drafting_log rfl _
        · exact (drafting_updateUsageFromContainer _ _).bind fun _ => within_pure _
  | abort c => exact (drafting_updateUsageFromContainer _ _).bind fun _ => within_pure _
  | updateClaim new old limits =>
      refine within_ite (within_pure _) (drafting_reread.bind fun _ => ?_)
      refine (drafting_makeClaim _ _ _ _).bind fun _ => ?_
      exact (drafting_updateUsageFromContainerUpdate _ _).bind fun _ => within_pure _
  | abortUpdate new old =>
      exact (drafting_updateUsageFromContainerUpdate _ _).bind fun _ => within_pure _
  | remove c =>
      refine drafting_reread.bind fun _ => ?_
      exact (drafting_updateUsageFromContainer _ _).bind fun _ => within_pure _
  | audit r available cs => exact drafting_audit r available cs

/-! ## The books -/

/-- The counters of a node: memory, CPU, disk and running containers. -/
def Node.counters (n : Node) : Int × ℚ × Int × Int := (n.memUsed, n.cpuUsed, n.diskUsed, n.running)

/-- What one container adds to the counters. -/
def Container.counters (c : Container) : Int × ℚ × Int × Int := (c.memory, c.cpu, c.disk, 1)

/-- The counters of a node are the sums over the tracked containers. -/
structure Counted (tracked : AList fun _ : Uuid => Container) (n : Node) : Prop where
  used : n.counters = Ledger.total Container.counters tracked
  free : n.memFree = n.memTotal - n.memUsed

theorem counters_charge : (n.charge 1 c).counters = n.counters + c.counters := by
  simp [Node.charge, Node.counters, Container.counters]

theorem counters_discharge : (n.charge (-1) c).counters = n.counters - c.counters := by
  simp [Node.charge, Node.counters, Container.counters, sub_eq_add_neg]

variable {tracked : AList fun _ : Uuid => Container}

theorem Counted.added (h : Counted tracked n) (hnew : tracked.lookup c.uuid = none) :
    Counted (tracked.insert c.uuid c) (n.charge 1 c) where
  used := by rw [counters_charge, h.used, Ledger.total_insert_new _ hnew]
  free := rfl

theorem Counted.removed {t : Container} (h : Counted tracked n)
    (hold : tracked.lookup c.uuid = some t) (ht : t.counters = c.counters) :
    Counted (tracked.erase c.uuid) (n.charge (-1) c) where
  used := by rw [counters_discharge, h.used, Ledger.total_erase _ hold, ht, add_sub_cancel_left]
  free := rfl

theorem Counted.replaced {t : Container} (h : Counted tracked n)
    (hold : tracked.lookup new.uuid = some t) (ht : t.counters = old.counters) :
    Counted (tracked.insert new.uuid new) ((n.charge (-1) old).charge 1 new) where
  used := by
    rw [counters_charge, counters_discharge, h.used, Ledger.total_insert_old _ hold, ht]
  free := rfl

/-- What the tracker holds is counted, and what it has recorded is what it has saved. -/
structure Draft (s : State) : Prop where
  counted : ∀ n, s.node = some n → Counted s.tracked n
  recorded : s.old = none ∨ s.old = s.saved

/-- The node in memory is also the saved one. -/
structure Books (s : State) : Prop extends Draft s where
  saved : s.node.isSome = true → s.saved = s.node

theorem Drafting.recorded (h : Drafting s s') (hs : s.old = none ∨ s.old = s.saved) :
    s'.old = none ∨ s'.old = s'.saved := by
  rw [h.old]
  rcases h.saved with hsaved | hnone
  · rw [hsaved]
    exact hs
  · left
    rcases hs with hs | hs
    · exact hs
    · exact hs.trans hnone

/-- The books are the same. -/
structure SameBooks (s s' : State) : Prop extends SameUse s s' where
  old : s'.old = s.old
  saved : s'.saved = s.saved

instance : IsPreorder State SameBooks where
  refl _ := ⟨⟨rfl, rfl⟩, rfl, rfl⟩
  trans _ _ _ h h' :=
    ⟨trans_of SameUse h.toSameUse h'.toSameUse, h'.old.trans h.old, h'.saved.trans h.saved⟩

/-- When every save of the node is answered, `_update` leaves the books in order. -/
theorem wp_update_answered (hsave : ∀ k, env.refuse k .saveNode = none) (h : Draft s) :
    wp (update env) (fun _ s' => Books s') s := by
  unfold update
  rw [wp_bind]
  refine wp_computeNode (fun n hn => ?_) fun hn => ⟨h, by simp [hn]⟩
  rw [seqPost_ok, wp_bind, wp_read, seqPost_ok]
  refine wp_onlyIf (fun _ => ?_) fun hold => ?_
  · rw [wp_bind, wp_modify, seqPost_ok, wp_bind]
    refine wp_write (fun _ => ?_) fun f hf => by simp [hsave] at hf
    rw [seqPost_ok]
    have hrest : Within SameBooks (do updateToPlacement env 3; savePci env) :=
      (within_updateToPlacement (fun _ _ => ⟨⟨rfl, rfl⟩, rfl, rfl⟩) 3).bind fun _ =>
        within_savePci (fun _ _ => ⟨⟨rfl, rfl⟩, rfl, rfl⟩) fun _ _ => ⟨⟨rfl, rfl⟩, rfl, rfl⟩
    refine wp_mono (hrest.wp _) fun _ s' hs' => ?_
    have hcounted := h.counted n hn
    refine ⟨⟨fun n' hn' => ?_, .inr (hs'.old.trans hs'.saved.symm)⟩, fun _ => ?_⟩
    · rw [hs'.node, hn] at hn'
      cases hn'
      rw [hs'.tracked]
      exact hcounted
    · rw [hs'.saved, hs'.node]
      exact hn.symm
  · have heq : s.old = some n := by simpa using hold
    refine ⟨h, fun _ => ?_⟩
    rcases h.recorded with hnone | hsaved
    · rw [hnone] at heq
      cases heq
    · rw [← hsaved, heq, hn]

/-! ## One step of the tracker -/

/-- The writes of `_update` after that of the node are answered. -/
def WritesOn (env : Env) : Prop :=
  ∀ k, env.refuse k .updatePlacement = none ∧ ∀ dev, env.refuse k (.savePci dev) = none

/-- When a step keeps the books. -/
def Event.Covered (e : Event) (s : State) : Prop :=
  (∀ k, e.env.refuse k .saveNode = none) ∧
  match e.op with
  | .claim c _ _ => s.node.isSome = true ∧ c.pinned = false ∧ WritesOn e.env
  | .abort c | .remove c => s.node.isSome = true ∧ c.pinned = false ∧
      ∀ t, s.tracked.lookup c.uuid = some t → t.counters = c.counters
  | .updateClaim new old _ => s.node.isSome = true ∧ new.pinned = false ∧ old.pinned = false ∧
      WritesOn e.env ∧ (new.cpu = old.cpu ∧ new.memory = old.memory ∨
        ∃ t, s.tracked.lookup new.uuid = some t ∧ t.counters = old.counters)
  | .abortUpdate new old => s.node.isSome = true ∧ new.pinned = false ∧ old.pinned = false ∧
      ∃ t, s.tracked.lookup old.uuid = some t ∧ t.counters = new.counters
  | .audit r available cs => available = true ∧ (∀ c ∈ cs, c.pinned = false) ∧
      ((cs.map (·.memory)).sum : Int) ≤ r.memTotal

/-- A claim that raises leaves the tracker as it was. -/
def Event.Atomic (e : Event) (s : State) : Prop :=
  match e.op with
  | .claim .. | .updateClaim .. =>
      ∀ f s', e.op.run e.env s = (.raise f, s') → s'.tracked = s.tracked ∧ s'.node = s.node
  | _ => True

theorem Books.same (h : Books s) (hsame : SameUse s s') (hd : Drafting s s')
    (hsaved : s'.saved = s.saved) : Books s' where
  counted n hn := by
    rw [hsame.tracked]
    exact h.counted n (hsame.node ▸ hn)
  recorded := hd.recorded h.recorded
  saved hsome := by
    rw [hsaved, hsame.node]
    exact h.saved (hsame.node ▸ hsome)

/-- What an entry point leaves before `_update`: drafts, and books when it does not get there. -/
def Prepared (r : Result Failure Bool) (s' : State) : Prop := Draft s' ∧ (r ≠ .ok true → Books s')

/-- A claim that does not get to `_update` has changed nothing. -/
def Untouched (s : State) (r : Result Failure Bool) (s' : State) : Prop := r ≠ .ok true → SameUse s s'

theorem SameUse.counted (h : SameUse s s') (hs : ∀ n, s.node = some n → Counted s.tracked n) :
    ∀ n, s'.node = some n → Counted s'.tracked n := by
  intro n hn
  rw [h.tracked]
  exact hs n (h.node ▸ hn)

/-- The node read again is the node, when the books are in order. -/
theorem Books.reread (h : Books s) (hsome : s.node.isSome = true) :
    ({ s with node := s.saved } : State) = s := by
  have hsaved := h.saved hsome
  cases s
  simp_all

theorem counted_added (h : (s.tracked.lookup c.uuid).isSome = true ∧ SameUse s s' ∨
      s.tracked.lookup c.uuid = none ∧ Charged 1 c (·.insert c.uuid c) s s')
    (hs : ∀ n, s.node = some n → Counted s.tracked n) :
    ∀ n, s'.node = some n → Counted s'.tracked n := by
  rcases h with ⟨-, hsame⟩ | ⟨hnone, htracked, n, hn, hnode⟩
  · exact hsame.counted hs
  · intro n' hn'
    cases hnode.symm.trans hn'
    rw [htracked]
    exact (hs n hn).added hnone

theorem counted_removed (h : SameUse s s' ∨ ∃ t, s.tracked.lookup c.uuid = some t ∧
      Charged (-1) c (·.erase c.uuid) s s')
    (hs : ∀ n, s.node = some n → Counted s.tracked n)
    (hc : ∀ t, s.tracked.lookup c.uuid = some t → t.counters = c.counters) :
    ∀ n, s'.node = some n → Counted s'.tracked n := by
  rcases h with hsame | ⟨t, ht, htracked, n, hn, hnode⟩
  · exact hsame.counted hs
  · intro n' hn'
    cases hnode.symm.trans hn'
    rw [htracked]
    exact (hs n hn).removed ht (hc t ht)

/-- Removing a container drafts the books. -/
theorem wp_removeUsage_draft (h : Draft s) (hsome : s.node.isSome = true) (hp : c.pinned = false)
    (hc : ∀ t, s.tracked.lookup c.uuid = some t → t.counters = c.counters) :
    wp (do updateUsageFromContainer c true; pure true : Prog State Failure Bool) Prepared s := by
  rw [wp_bind]
  refine wp_mono (wp_and wp_removeUsage ((drafting_updateUsageFromContainer c true).wp s)) ?_
  rintro r s' ⟨⟨hok, hret⟩, hd⟩
  cases hret hp hsome
  rw [seqPost_ok, wp_pure]
  exact ⟨⟨counted_removed (hok rfl) h.counted hc, hd.recorded h.recorded⟩, by simp⟩

/-- Replacing a container drafts the books. -/
theorem wp_updateUsage_draft (h : Draft s) (hsome : s.node.isSome = true) (hpn : new.pinned = false)
    (hpo : old.pinned = false) {t : Container} (ht : s.tracked.lookup new.uuid = some t)
    (hc : t.counters = old.counters) :
    wp (do updateUsageFromContainerUpdate new old; pure true : Prog State Failure Bool)
      (fun r s' => r = .ok true ∧ Draft s') s := by
  rw [wp_bind]
  refine wp_mono (wp_and wp_updateUsageFromContainerUpdate
    ((drafting_updateUsageFromContainerUpdate new old).wp s)) ?_
  rintro r s' ⟨⟨hok, hret⟩, hd⟩
  cases hret hpn hpo hsome
  obtain ⟨htracked, n, hn, hnode⟩ := hok rfl
  rw [seqPost_ok, wp_pure]
  refine ⟨rfl, fun n' hn' => ?_, hd.recorded h.recorded⟩
  cases hnode.symm.trans hn'
  rw [htracked]
  exact (h.counted n hn).replaced ht hc

/-- A container claim drafts the books, or leaves the tracker as it was. -/
theorem wp_claimUsage_draft {pci : Option (List Nat)} {limits : Option Limits} (h : Books s)
    (hsome : s.node.isSome = true) (hp : c.pinned = false) :
    wp (claimUsage env c pci limits) (fun r s' => Draft s' ∧ Untouched s r s') s := by
  have hdraft : wp (claimUsage env c pci limits) (fun _ s' => Drafting s s') s :=
    drafting_prepare (.claim c pci limits) s
  have huse : wp (claimUsage env c pci limits) (fun r s' =>
      (∀ n, s'.node = some n → Counted s'.tracked n) ∧ Untouched s r s') s := by
    have hsame (s' : State) (h' : SameUse s s') (r : Result Failure Bool) :
        (∀ n, s'.node = some n → Counted s'.tracked n) ∧ Untouched s r s' :=
      ⟨h'.counted h.counted, fun _ => h'⟩
    unfold claimUsage
    rw [wp_ite]
    split
    · exact hsame s (refl_of SameUse s) _
    rw [wp_bind, reread, wp_modify, seqPost_ok, h.reread hsome, wp_bind]
    refine wp_mono wp_makeClaim ?_
    rintro r s₁ ⟨rfl, -⟩
    cases r with
    | raise e => exact hsame s₁ (refl_of SameUse s₁) _
    | halt => exact hsame s₁ (refl_of SameUse s₁) _
    | ok a =>
        rw [seqPost_ok, wp_bind, claimContainer, wp_bind, wp_read, seqPost_ok, onDevices, wp_modify,
          seqPost_ok, wp_bind]
        refine wp_write (fun _ => ?_) fun f _ => ?_
        swap
        · refine hsame _ ?_ _
          exact ⟨rfl, rfl⟩
        rw [seqPost_ok, wp_bind]
        refine wp_mono wp_addUsage ?_
        rintro r s₂ ⟨hadd, hret⟩
        cases hret hp hsome
        rw [seqPost_ok, wp_pure]
        exact ⟨counted_added (hadd rfl) h.counted, by simp [Untouched]⟩
  refine wp_mono (wp_and hdraft huse) ?_
  rintro r s' ⟨hd, hcounted, huntouched⟩
  exact ⟨⟨hcounted, hd.recorded h.recorded⟩, huntouched⟩

theorem wp_updateClaimUsage_draft {limits : Option Limits} (h : Books s)
    (hsome : s.node.isSome = true) (hpn : new.pinned = false) (hpo : old.pinned = false)
    (hold : new.cpu = old.cpu ∧ new.memory = old.memory ∨
      ∃ t, s.tracked.lookup new.uuid = some t ∧ t.counters = old.counters) :
    wp (updateClaimUsage env new old limits) (fun r s' => Draft s' ∧ Untouched s r s') s := by
  unfold updateClaimUsage
  rw [wp_ite]
  split
  · exact ⟨h.toDraft, fun _ => refl_of SameUse s⟩
  rename_i hchanged
  obtain ⟨t, ht, hc⟩ := hold.resolve_left hchanged
  rw [wp_bind, reread, wp_modify, seqPost_ok, h.reread hsome, wp_bind]
  refine wp_mono wp_makeClaim ?_
  rintro r s₁ ⟨rfl, -⟩
  cases r with
  | raise e => exact ⟨h.toDraft, fun _ => refl_of SameUse s₁⟩
  | halt => exact ⟨h.toDraft, fun _ => refl_of SameUse s₁⟩
  | ok a =>
      rw [seqPost_ok]
      refine wp_mono (wp_updateUsage_draft h.toDraft hsome hpn hpo ht hc) ?_
      rintro r s' ⟨rfl, hdraft⟩
      exact ⟨hdraft, by simp [Untouched]⟩

/-! ## Counting anew -/

/-- A node of so much memory is counted so far, for no more of it than `bound`. -/
structure Counting (total bound : Int) (s : State) : Prop where
  counted : ∀ n, s.node = some n → Counted s.tracked n
  bounded : ∀ n, s.node = some n → n.memTotal = total ∧ n.memUsed ≤ bound
  known : s.node.isSome = true

theorem Counting.added {total bound : Int} (h : Counting total bound s)
    (hadd : (s.tracked.lookup c.uuid).isSome = true ∧ SameUse s s' ∨
      s.tracked.lookup c.uuid = none ∧ Charged 1 c (·.insert c.uuid c) s s') :
    Counting total (bound + c.memory) s' := by
  refine ⟨counted_added hadd h.counted, fun n hn => ?_, ?_⟩
  · rcases hadd with ⟨-, hsame⟩ | ⟨-, -, n', hn', hnode⟩
    · obtain ⟨htotal, hle⟩ := h.bounded n (hsame.node ▸ hn)
      exact ⟨htotal, by omega⟩
    · cases hnode.symm.trans hn
      obtain ⟨htotal, hle⟩ := h.bounded n' hn'
      refine ⟨htotal, ?_⟩
      simp only [Node.charge]
      omega
  · rcases hadd with ⟨-, hsame⟩ | ⟨-, -, n', hn', hnode⟩
    · rw [hsame.node]
      exact h.known
    · simp [hnode]

/-- The loop over the containers of the host. -/
theorem wp_countEach (cs : List Container) (hp : ∀ c ∈ cs, c.pinned = false) :
    ∀ {total bound : Int} {s : State}, Counting total bound s →
      wp (forEach cs fun c => updateUsageFromContainer c false) (fun r s' =>
        r = .ok () ∧ Counting total (bound + (cs.map fun c => (c.memory : Int)).sum) s') s := by
  induction cs with
  | nil =>
      intro total bound s h
      refine ⟨rfl, ?_⟩
      change Counting total (bound + 0) s
      rw [add_zero]
      exact h
  | cons c cs ih =>
      intro total bound s h
      rw [forEach, wp_andThen]
      refine wp_mono wp_addUsage ?_
      rintro r s₁ ⟨hadd, hret⟩
      cases hret (hp c (List.mem_cons_self ..)) h.known
      rw [seqPost_ok]
      refine wp_mono (ih (fun c' hc' => hp c' (List.mem_cons_of_mem _ hc')) (h.added (hadd rfl))) ?_
      rintro r s' ⟨rfl, hcount⟩
      refine ⟨rfl, ?_⟩
      rw [List.map_cons, List.sum_cons, ← add_assoc]
      exact hcount

/-- A node that is not overcommitted has no memory to hide. -/
theorem Counting.clamped {total bound : Int} (h : Counting total bound s) (hfit : bound ≤ total)
    (hn : s.node = some n) : Counted s.tracked { n with memFree := max 0 n.memFree } := by
  obtain ⟨htotal, hle⟩ := h.bounded n hn
  have hcounted := h.counted n hn
  refine ⟨hcounted.used, ?_⟩
  have hfree := hcounted.free
  change max 0 n.memFree = n.memTotal - n.memUsed
  omega

theorem wp_updateUsageFromContainers {cs : List Container} (hn : s.node = some n)
    (hp : ∀ c ∈ cs, c.pinned = false) (hfit : (cs.map fun c => (c.memory : Int)).sum ≤ n.memTotal) :
    wp (updateUsageFromContainers cs)
      (fun r s' => r = .ok () ∧ ∀ n, s'.node = some n → Counted s'.tracked n) s := by
  rw [updateUsageFromContainers, wp_bind, wp_modify, seqPost_ok, wp_bind]
  refine wp_computeNode (fun n' hn' => ?_) fun hn' => by simp [hn] at hn'
  cases hn.symm.trans hn'
  rw [seqPost_ok, wp_bind, wp_modify, seqPost_ok, wp_bind]
  have hzero : Counting n.memTotal 0 { s with node := some n.zero, tracked := ∅ } := by
    refine ⟨fun n' hn' => ?_, fun n' hn' => ?_, rfl⟩
    · cases hn'
      exact ⟨rfl, by simp [Node.zero]⟩
    · cases hn'
      exact ⟨rfl, Int.le_refl 0⟩
  refine wp_mono (wp_countEach cs hp hzero) ?_
  rintro r s₁ ⟨rfl, hcount⟩
  rw [seqPost_ok, wp_bind]
  refine wp_computeNode (fun n' hn' => ?_) fun hn' => ?_
  · rw [seqPost_ok, wp_modify]
    refine ⟨rfl, fun n'' hn'' => ?_⟩
    cases hn''
    exact hcount.clamped (by omega) hn'
  · have hknown := hcount.known
    rw [hn'] at hknown
    cases hknown

/-- An audit counts the books anew. -/
theorem wp_audit_draft {r : Resources} {cs : List Container} (h : Books s)
    (hp : ∀ c ∈ cs, c.pinned = false) (hfit : (cs.map fun c => (c.memory : Int)).sum ≤ r.memTotal) :
    wp (audit env r true cs) Prepared s := by
  have hdraft : wp (audit env r true cs) (fun _ s' => Drafting s s') s := drafting_audit r true cs s
  refine wp_mono (wp_and hdraft (?_ : wp (audit env r true cs) (fun r s' =>
    (∀ n, s'.node = some n → Counted s'.tracked n) ∧ (r ≠ .ok true → SameBooks s s')) s)) ?_
  · have hrest (node : Node) (hnode : node.memTotal = r.memTotal) (s₁ : State) :
        wp (do
          modify fun s => { s with pci := some (s.pci.getD env.devices), node := some node }
          updateUsageFromContainers cs
          pure true : Prog State Failure Bool)
          (fun r s' => (∀ n, s'.node = some n → Counted s'.tracked n) ∧
            (r ≠ .ok true → SameBooks s s')) s₁ := by
      rw [wp_bind, wp_modify, seqPost_ok, wp_bind]
      refine wp_mono (wp_updateUsageFromContainers rfl hp (by rw [hnode]; exact hfit)) ?_
      rintro r s' ⟨rfl, hcounted⟩
      exact ⟨hcounted, fun hno => absurd rfl hno⟩
    unfold audit
    rw [wp_bind, wp_read, seqPost_ok, wp_bind]
    refine wp_onlyIf (fun hnone => ?_) fun hsome => ?_
    · refine wp_write (fun _ => hrest _ (by simp [hnone, Resources.toNode, Node.copy]) _) fun f _ => ?_
      exact ⟨h.counted, fun _ => ⟨⟨rfl, rfl⟩, rfl, rfl⟩⟩
    · obtain ⟨n, hn⟩ := Option.ne_none_iff_exists'.mp hsome
      exact hrest _ (by simp [hn, Node.copy]) _
  · rintro res s' ⟨hd, hcounted, hsame⟩
    refine ⟨⟨hcounted, hd.recorded h.recorded⟩, fun hno => ?_⟩
    have hbooks := hsame hno
    exact h.same hbooks.toSameUse hd hbooks.saved

/-! ## Runs of the tracker -/

theorem wp_write_answered {w : Write} {effect : State → State}
    (h : ∀ k, env.refuse k w = none) : wp (write env w effect) (fun r _ => r = .ok ()) s :=
  wp_write (fun _ => rfl) fun f hf => by simp [h] at hf

/-- An `_update` all of whose writes are answered returns. -/
theorem wp_update_returns (hsave : ∀ k, env.refuse k .saveNode = none) (hon : WritesOn env)
    (hsome : s.node.isSome = true) : wp (update env) (fun r _ => r = .ok ()) s := by
  unfold update
  rw [wp_bind]
  refine wp_computeNode (fun n _ => ?_) fun hn => by simp [hn] at hsome
  rw [seqPost_ok, wp_bind, wp_read, seqPost_ok]
  refine wp_onlyIf (fun _ => ?_) fun _ => rfl
  rw [wp_bind, wp_modify, seqPost_ok, wp_bind]
  refine wp_mono (wp_write_answered hsave) ?_
  rintro r s₁ rfl
  rw [seqPost_ok, wp_bind, updateToPlacement, wp_tryExcept]
  refine wp_mono (wp_write_answered fun k => (hon k).1) ?_
  rintro r s₂ rfl
  rw [exceptPost_ok, seqPost_ok, savePci, wp_bind, wp_read, seqPost_ok]
  refine wp_forEach rfl fun d _ s _ => ?_
  rw [saveDev, wp_bind, wp_read, seqPost_ok]
  exact wp_onlyIf (fun _ => wp_write_answered fun k => (hon k).2 d.id) fun _ => rfl

/-- There is a node, in memory and saved. -/
def Known (s : State) : Prop := s.node.isSome = true ∧ s.saved.isSome = true

theorem Books.known (h : Books s) (hsome : s.node.isSome = true) : Known s :=
  ⟨hsome, by rw [h.saved hsome]; exact hsome⟩

theorem known_updateUsage (sign : Int) (c : Container) :
    Within (Kept Known) (updateUsage sign c) := by
  refine (within_raise _).onlyIf.bind fun _ => within_computeNode.bind fun node => ?_
  exact within_modify fun s h => ⟨rfl, h.2⟩

theorem known_updateUsageFromContainer (c : Container) (removed : Bool) :
    Within (Kept Known) (updateUsageFromContainer c removed) := by
  refine (within_read _).bind fun known => within_ite ?_ ?_
  all_goals
    refine Within.onlyIf (Within.bind (within_modify fun _ h => h) fun _ => ?_)
    exact (within_modify fun _ h => h).bind fun _ => known_updateUsage _ _

theorem known_makeClaim (c : Container) (a : Asked) (pci : Option (List Nat))
    (limits : Option Limits) : Within (Kept Known) (makeClaim env c a pci limits) :=
  within_of_wp fun s => wp_mono wp_makeClaim fun _ s' h hs => by
    rw [h.1]
    exact hs

theorem known_reread : Within (Kept Known) reread := within_modify fun _ h => ⟨h.2, h.2⟩

theorem known_claimUsage (c : Container) (pci : Option (List Nat)) (limits : Option Limits) :
    Within (Kept Known) (claimUsage env c pci limits) := by
  refine within_ite (within_pure _) (known_reread.bind fun _ => ?_)
  refine (known_makeClaim _ _ _ _).bind fun _ => Within.bind ?_ fun _ => ?_
  · exact (within_read _).bind fun devs => within_modify fun _ h => h
  · refine Within.bind (within_write (fun _ _ h => h) fun _ h => h) fun _ => ?_
    exact (known_updateUsageFromContainer _ _).bind fun _ => within_pure _

theorem known_updateClaimUsage (new old : Container) (limits : Option Limits) :
    Within (Kept Known) (updateClaimUsage env new old limits) := by
  refine within_ite (within_pure _) (known_reread.bind fun _ => ?_)
  refine (known_makeClaim _ _ _ _).bind fun _ => Within.bind ?_ fun _ => within_pure _
  refine Within.bind (within_modify fun _ h => h) fun _ => ?_
  exact (known_updateUsage _ _).bind fun _ => known_updateUsage _ _

/-- A claim that has changed nothing leaves the books. -/
theorem Untouched.prepared {r : Result Failure Bool} (hu : Untouched s r s') (h : Books s)
    (hsome : s.node.isSome = true) (hdraft : Draft s') (hd : Drafting s s') : Prepared r s' := by
  refine ⟨hdraft, fun hno => h.same (hu hno) hd ?_⟩
  rcases hd.saved with hsaved | hnone
  · exact hsaved
  · have hknown := (h.known hsome).2
    rw [hnone] at hknown
    cases hknown

/-- A covered step, up to its `_update`. -/
theorem wp_prepare {e : Event} (h : Books s) (hc : e.Covered s) :
    wp (e.op.prepare e.env) Prepared s := by
  obtain ⟨env, op⟩ := e
  obtain ⟨-, hc⟩ := hc
  cases op with
  | claim c pci limits =>
      obtain ⟨hsome, hp, -⟩ := hc
      have hd : Within Drafting (claimUsage env c pci limits) := drafting_prepare (.claim c pci limits)
      refine wp_mono (wp_and (wp_claimUsage_draft h hsome hp) (hd.wp s)) ?_
      rintro r s' ⟨⟨hdraft, hu⟩, hd⟩
      exact hu.prepared h hsome hdraft hd
  | abort c =>
      obtain ⟨hsome, hp, ht⟩ := hc
      exact wp_removeUsage_draft h.toDraft hsome hp ht
  | updateClaim new old limits =>
      obtain ⟨hsome, hpn, hpo, -, hold⟩ := hc
      have hd : Within Drafting (updateClaimUsage env new old limits) :=
        drafting_prepare (.updateClaim new old limits)
      refine wp_mono (wp_and (wp_updateClaimUsage_draft h hsome hpn hpo hold) (hd.wp s)) ?_
      rintro r s' ⟨⟨hdraft, hu⟩, hd⟩
      exact hu.prepared h hsome hdraft hd
  | abortUpdate new old =>
      obtain ⟨hsome, hpn, hpo, t, ht, hcounters⟩ := hc
      refine wp_mono (wp_updateUsage_draft h.toDraft hsome hpo hpn ht hcounters) ?_
      rintro r s' ⟨rfl, hdraft⟩
      exact ⟨hdraft, fun hno => absurd rfl hno⟩
  | remove c =>
      obtain ⟨hsome, hp, ht⟩ := hc
      rw [Op.prepare, wp_bind, reread, wp_modify, seqPost_ok, h.reread hsome]
      exact wp_removeUsage_draft h.toDraft hsome hp ht
  | audit r available cs =>
      obtain ⟨rfl, hp, hfit⟩ := hc
      exact wp_audit_draft h hp hfit

theorem books_step {e : Event} (h : Books s) (hc : e.Covered s) : Books (e.step s) := by
  have hrun : wp (e.op.run e.env) (fun _ s' => Books s') s := by
    unfold Op.run
    rw [wp_bind]
    refine wp_mono (wp_prepare h hc) ?_
    rintro r s₁ ⟨hdraft, hbooks⟩
    cases r with
    | raise f => exact hbooks (by simp)
    | halt => exact hbooks (by simp)
    | ok go =>
        rw [seqPost_ok]
        refine wp_then_kept ?_ fun _ => within_pure _
        refine wp_onlyIf (fun _ => wp_update_answered hc.1 hdraft) fun hgo => hbooks ?_
        simpa using hgo
  exact hrun

theorem untouched_claim {e : Event} (h : Books s) (hc : e.Covered s) : e.Atomic s := by
  obtain ⟨env, op⟩ := e
  obtain ⟨hsave, hc⟩ := hc
  have hatomic (prepare : Prog State Failure Bool) (hsome : s.node.isSome = true)
      (hon : WritesOn env) (hu : wp prepare (fun r s' => Untouched s r s') s)
      (hk : Within (Kept Known) prepare) (f : Failure) (s' : State)
      (hrun : (do
        let go ← prepare
        onlyIf (go = true) (update env)
        pure go : Prog State Failure Bool) s = (.raise f, s')) :
      s'.tracked = s.tracked ∧ s'.node = s.node := by
    have hwp : wp (do
        let go ← prepare
        onlyIf (go = true) (update env)
        pure go) (fun r s' => (∃ f, r = .raise f) → SameUse s s') s := by
      rw [wp_bind]
      refine wp_mono (wp_and hu (hk.wp s)) ?_
      rintro r s₁ ⟨hu, hk⟩
      cases r with
      | raise f => exact fun _ => hu (by simp)
      | halt => simp
      | ok go =>
          rw [seqPost_ok, wp_bind]
          refine wp_onlyIf (fun hgo => ?_) fun _ => by simp
          refine wp_mono (wp_update_returns hsave hon (hk (h.known hsome)).1) ?_
          rintro r s₂ rfl
          simp
    rw [wp, hrun] at hwp
    have hsame := hwp ⟨f, rfl⟩
    exact ⟨hsame.tracked, hsame.node⟩
  cases op with
  | claim c pci limits =>
      obtain ⟨hsome, hp, hon⟩ := hc
      exact hatomic _ hsome hon (wp_claimUsage_draft h hsome hp).2 (known_claimUsage c pci limits)
  | updateClaim new old limits =>
      obtain ⟨hsome, hpn, hpo, hon, hold⟩ := hc
      exact hatomic _ hsome hon (wp_updateClaimUsage_draft h hsome hpn hpo hold).2
        (known_updateClaimUsage new old limits)
  | abort c => trivial
  | abortUpdate new old => trivial
  | remove c => trivial
  | audit r available cs => trivial

theorem books_started (h : Started s) : Books s := by
  obtain ⟨saved, rfl⟩ := h
  exact ⟨⟨by simp, .inl rfl⟩, by simp⟩

/-- A claim for more memory than its limit leaves room for. -/
def tooMuch : Event := ⟨{}, .claim { uuid := 2, memory := 4 } none (some { memory := some 6 })⟩

/-- A container without limits is created, and is then given some, between two audits. -/
def limitsGiven : State :=
  Event.step ⟨{}, .updateClaim { uuid := 1, memory := 4 } { uuid := 1 } none⟩
    (Event.step ⟨{}, .claim { uuid := 1 } none none⟩ audited)

end Tracker

end Zun
