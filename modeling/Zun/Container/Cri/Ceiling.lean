import Mathlib.Algebra.Order.Ring.Rat
import Mathlib.Data.Rat.Floor
import Mathlib.Tactic.Linarith
import Zun.Api.CapsuleNeed

/-!
# The ceiling of a pod

`sandbox_resources` of `zun/container/cri/resources.py`, which `_apply_pod_ceiling` writes, against what the
API has reserved for the capsule.  The ceiling is the sum of all members.  What is reserved is their peak, and
a plain init container has exited before the main containers are started.

The sums of cpus are rational numbers here.
-/

namespace Zun

namespace Ceiling

open CapsuleNeed

/-! ## The model -/

/-- `_CPU_PERIOD_US`. -/
def cpuPeriodUs : ℚ := 100000

/-- `_number`, of what can be read as a number. -/
def number (value : Option ℚ) : ℚ := value.getD 0

/-- `int`. -/
def truncate (q : ℚ) : ℤ := if 0 ≤ q then ⌊q⌋ else ⌈q⌉

/-- The resource block of a sandbox. -/
structure Resources where
  cpuQuota : Option ℤ := none
  cpuShares : Option ℤ := none
  memoryLimitInBytes : Option ℤ := none
  memorySwapLimitInBytes : Option ℤ := none
deriving DecidableEq

/-- `sandbox_resources`. -/
def sandboxResources (members : List (Requests ℚ)) : Resources :=
  let cpus := members.map fun m => number m.cpu
  let mems := members.map fun m => number m.memory
  let shares := (cpus.filter (0 < ·)).sum
  let limit := (mems.map truncate).sum * 1024 * 1024
  { cpuQuota := if cpus ≠ [] ∧ ∀ c ∈ cpus, 0 < c then some (truncate (cpus.sum * cpuPeriodUs)) else none
    cpuShares := if 0 < shares then some (truncate (1024 * shares)) else none
    memoryLimitInBytes := if mems ≠ [] ∧ ∀ m ∈ mems, 0 < m then some limit else none
    memorySwapLimitInBytes := if mems ≠ [] ∧ ∀ m ∈ mems, 0 < m then some limit else none }

/-- A member states both of its requests, the memory in whole MiB. -/
def Stated (c : Requests ℚ) : Prop :=
  (∃ cpu, c.cpu = some cpu ∧ 0 < cpu) ∧ ∃ memory : ℕ, c.memory = some (memory : ℚ) ∧ 0 < memory

/-- A capsule all of whose members state their requests. -/
structure Capsule where
  inits : List (InitSpec ℚ)
  mains : List (Requests ℚ)
  mains_ne_nil : mains ≠ []
  inits_stated : ∀ c ∈ inits, Stated c.toRequests
  mains_stated : ∀ c ∈ mains, Stated c

variable {capsule : Capsule}

/-- `_member_resources`. -/
def Capsule.members (capsule : Capsule) : List (Requests ℚ) :=
  capsule.mains ++ capsule.inits.map (·.toRequests)

/-- The memory ceiling is the memory that was reserved, in bytes, and the cpu quota the cpu that was, times
the period. -/
def Capsule.Agrees (capsule : Capsule) : Prop :=
  let reserved := capsuleNeed capsule.inits capsule.mains
  (∃ limit, (sandboxResources capsule.members).memoryLimitInBytes = some limit ∧
      (limit : ℚ) = reserved.2 * 1024 * 1024) ∧
    (sandboxResources capsule.members).cpuQuota = some (truncate (reserved.1 * cpuPeriodUs))

/-! ## The members that are live -/

theorem runInitMembers_sublist (inits : List (InitSpec ℚ)) : ∀ sidecars : List (Requests ℚ),
    ∀ live ∈ (runInitMembers inits sidecars).1,
      live.Sublist (sidecars ++ inits.map (·.toRequests)) := by
  induction inits with
  | nil => exact fun sidecars live hlive => nomatch hlive
  | cons c inits ih =>
      intro sidecars live hlive
      have hassoc : sidecars ++ (c :: inits).map (·.toRequests) =
          (sidecars ++ [c.toRequests]) ++ inits.map (·.toRequests) := by simp
      have hone : (sidecars ++ [c.toRequests]).Sublist (sidecars ++ (c :: inits).map (·.toRequests)) := by
        rw [hassoc]
        exact List.sublist_append_left _ _
      cases hkind : c.sidecar with
      | true =>
          simp only [runInitMembers, hkind, if_true, List.mem_cons] at hlive
          rcases hlive with rfl | hlive
          · exact hone
          · rw [hassoc]
            exact ih _ live hlive
      | false =>
          simp only [runInitMembers, hkind, Bool.false_eq_true, if_false, List.mem_cons] at hlive
          rcases hlive with rfl | rfl | hlive
          · exact hone
          · exact List.sublist_append_left _ _
          · refine (ih _ live hlive).trans ?_
            rw [List.map_cons]
            exact List.Sublist.append_left (List.sublist_cons_self _ _) _

theorem runInitMembers_left (inits : List (InitSpec ℚ)) : ∀ sidecars : List (Requests ℚ),
    (runInitMembers inits sidecars).2 = sidecars ++ (inits.filter (·.sidecar)).map (·.toRequests) := by
  induction inits with
  | nil => simp [runInitMembers]
  | cons c inits ih =>
      intro sidecars
      cases hkind : c.sidecar with
      | true => simp [runInitMembers, hkind, ih]
      | false => simp [runInitMembers, hkind, ih]

section

variable {resource : Resource ℚ}

theorem load_nonneg {live : List (Requests ℚ)} (h : ∀ c ∈ live, 0 < amount resource c) :
    0 ≤ load resource live := by
  refine List.sum_nonneg fun x hx => ?_
  obtain ⟨c, hc, rfl⟩ := List.mem_map.mp hx
  exact (h c hc).le

theorem load_pos {live : List (Requests ℚ)} (hne : live ≠ []) (h : ∀ c ∈ live, 0 < amount resource c) :
    0 < load resource live := by
  cases live with
  | nil => exact absurd rfl hne
  | cons c live =>
      have hrest := load_nonneg fun d hd => h d (List.mem_cons_of_mem _ hd)
      have hfirst := h c (List.mem_cons_self ..)
      show 0 < (List.map (amount resource) (c :: live)).sum
      rw [List.map_cons, List.sum_cons]
      exact add_pos_of_pos_of_nonneg hfirst hrest

theorem load_sublist {live all : List (Requests ℚ)} (hsub : live.Sublist all)
    (h : ∀ c ∈ all, 0 < amount resource c) : load resource live ≤ load resource all := by
  refine (hsub.map (amount resource)).sum_le_sum fun x hx => ?_
  obtain ⟨c, hc, rfl⟩ := List.mem_map.mp hx
  exact (h c hc).le

/-- What is reserved is what all members request, if all init containers are sidecars. -/
theorem need_eq_load (hpos : ∀ c ∈ capsule.members, 0 < amount resource c)
    (hsidecars : ∀ c ∈ capsule.inits, c.sidecar = true) :
    need resource capsule.inits capsule.mains = load resource capsule.members := by
  have hleft : (runInitMembers capsule.inits []).2 = capsule.inits.map (·.toRequests) := by
    rw [runInitMembers_left, List.filter_eq_self.mpr hsidecars, List.nil_append]
  have hgreatest : IsGreatest {x | ∃ live ∈ moments capsule.inits capsule.mains, load resource live = x}
      (load resource capsule.members) := by
    constructor
    · exact ⟨_, mem_moments.mpr (.inr (.inr rfl)), by rw [hleft]; rfl⟩
    · rintro x ⟨live, hlive, rfl⟩
      refine load_sublist ?_ hpos
      rcases mem_moments.mp hlive with rfl | hlive | rfl
      · exact List.nil_sublist _
      · exact (runInitMembers_sublist _ _ live hlive).trans (List.sublist_append_right _ _)
      · rw [hleft]
        exact List.Sublist.refl _
  exact (need_isGreatest _ _).unique hgreatest

/-- It is less, if one of them is not. -/
theorem need_lt_load (hpos : ∀ c ∈ capsule.members, 0 < amount resource c)
    (hplain : ∃ c ∈ capsule.inits, c.sidecar = false) :
    need resource capsule.inits capsule.mains < load resource capsule.members := by
  obtain ⟨live, hlive, heq⟩ := (@need_isGreatest ℚ _ _ resource capsule.inits capsule.mains).1
  have hmains : 0 < load resource capsule.mains :=
    load_pos capsule.mains_ne_nil fun c hc => hpos c (List.mem_append_left _ hc)
  have hinits : ∀ c ∈ capsule.inits.map (·.toRequests), 0 < amount resource c :=
    fun c hc => hpos c (List.mem_append_right _ hc)
  have hall : load resource capsule.members =
      load resource capsule.mains + load resource (capsule.inits.map (·.toRequests)) := load_append _ _
  rw [← heq, hall]
  rcases mem_moments.mp hlive with rfl | hlive | rfl
  · have hnonneg := load_nonneg hinits
    simp only [load, List.map_nil, List.sum_nil] at hmains hnonneg ⊢
    linarith
  · have hle := load_sublist (runInitMembers_sublist _ _ live hlive) hinits
    rw [List.nil_append] at hle
    linarith
  · -- the sidecars are fewer than the init containers
    obtain ⟨c, hc, hkind⟩ := hplain
    have hperm := (List.filter_append_perm (·.sidecar) capsule.inits).map (fun c => c.toRequests)
    have hsum : load resource (capsule.inits.map (·.toRequests)) =
        load resource ((capsule.inits.filter (·.sidecar)).map (·.toRequests)) +
          load resource ((capsule.inits.filter (!·.sidecar)).map (·.toRequests)) := by
      rw [← load_append, ← List.map_append]
      exact ((hperm.map (amount resource)).sum_eq).symm
    have hplains : 0 < load resource ((capsule.inits.filter (!·.sidecar)).map (·.toRequests)) := by
      refine load_pos ?_ fun d hd => ?_
      · exact List.ne_nil_of_mem (List.mem_map_of_mem (List.mem_filter.mpr ⟨hc, by simp [hkind]⟩))
      · obtain ⟨e, he, rfl⟩ := List.mem_map.mp hd
        exact hinits _ (List.mem_map_of_mem (List.mem_of_mem_filter he))
    rw [load_append, runInitMembers_left, List.nil_append, hsum]
    linarith

end

/-! ## The ceiling -/

theorem Capsule.stated (capsule : Capsule) : ∀ c ∈ capsule.members, Stated c := by
  intro c hc
  rcases List.mem_append.mp hc with hc | hc
  · exact capsule.mains_stated c hc
  · obtain ⟨d, hd, rfl⟩ := List.mem_map.mp hc
    exact capsule.inits_stated d hd

theorem Stated.cpu_pos {c : Requests ℚ} (h : Stated c) : 0 < amount (·.cpu) c := by
  obtain ⟨⟨cpu, hcpu, hpos⟩, -⟩ := h
  simpa [amount, hcpu] using hpos

theorem Stated.memory_pos {c : Requests ℚ} (h : Stated c) : 0 < amount (·.memory) c := by
  obtain ⟨-, memory, hmemory, hpos⟩ := h
  simpa [amount, hmemory] using hpos

/-- A request in whole MiB is not cut. -/
theorem Stated.truncate_memory {c : Requests ℚ} (h : Stated c) :
    ((truncate (number c.memory) : ℤ) : ℚ) = amount (·.memory) c := by
  obtain ⟨-, memory, hmemory, -⟩ := h
  simp [truncate, number, amount, hmemory]

theorem sum_truncate {members : List (Requests ℚ)} (h : ∀ c ∈ members, Stated c) :
    (((members.map fun m => truncate (number m.memory)).sum : ℤ) : ℚ) = load (·.memory) members := by
  induction members with
  | nil => simp [load]
  | cons c members ih =>
      have hrest := ih fun d hd => h d (List.mem_cons_of_mem _ hd)
      have hfirst := (h c (List.mem_cons_self ..)).truncate_memory
      simp only [load, List.map_cons, List.sum_cons, Int.cast_add] at hrest ⊢
      rw [hfirst, hrest]

theorem members_ne_nil (capsule : Capsule) : capsule.members ≠ [] := by
  simp [Capsule.members, capsule.mains_ne_nil]

/-- The block of a capsule whose members state their requests. -/
theorem sandboxResources_eq (capsule : Capsule) :
    (sandboxResources capsule.members).cpuQuota = some (truncate (load (·.cpu) capsule.members * cpuPeriodUs)) ∧
      (sandboxResources capsule.members).memoryLimitInBytes =
        some ((capsule.members.map fun m => truncate (number m.memory)).sum * 1024 * 1024) := by
  constructor
  · refine if_pos ⟨by simpa using members_ne_nil capsule, fun x hx => ?_⟩
    obtain ⟨c, hc, rfl⟩ := List.mem_map.mp hx
    exact (capsule.stated c hc).cpu_pos
  · simp only [sandboxResources, List.map_map]
    refine if_pos ⟨by simpa using members_ne_nil capsule, fun x hx => ?_⟩
    obtain ⟨c, hc, rfl⟩ := List.mem_map.mp hx
    exact (capsule.stated c hc).memory_pos

/-- A main container of 1 cpu and 512 MiB after an init container of the same. -/
def migrated : Capsule where
  inits := [{ cpu := some 1, memory := some 512 }]
  mains := [{ cpu := some 1, memory := some 512 }]
  mains_ne_nil := List.cons_ne_nil _ _
  inits_stated := by
    intro c hc
    rw [List.mem_singleton.mp hc]
    exact ⟨⟨1, rfl, by norm_num⟩, 512, rfl, by norm_num⟩
  mains_stated := by
    intro c hc
    rw [List.mem_singleton.mp hc]
    exact ⟨⟨1, rfl, by norm_num⟩, 512, rfl, by norm_num⟩

end Ceiling

end Zun
