import Mathlib.Algebra.BigOperators.Group.List.Basic
import Mathlib.Algebra.Order.BigOperators.Group.List
import Mathlib.Data.List.MinMax
import Mathlib.Order.Bounds.Basic

/-!
# What a capsule reserves

The sums of `_do_post` of `zun/api/controllers/v1/capsules.py`, and the order in which `_run_init_members` and
`create_capsule` of `zun/container/cri/driver.py` start the members of a capsule.

The API keeps a running sum of the sidecars and the highest point so far.  The driver starts one init container
after another: a plain one has exited before the next one is started, a sidecar goes on beside all that come
after it, and then come the main containers.
-/

namespace Zun

namespace CapsuleNeed

/-! ## The model -/

variable {α : Type}

/-- The requests of a member, as its spec states them. -/
structure Requests (α : Type) where
  cpu : Option α := none
  memory : Option α := none

/-- A spec of `initContainers`. -/
structure InitSpec (α : Type) extends Requests α where
  /-- `restartPolicy` is `Always`. -/
  sidecar : Bool := false

/-- A resource of a spec. -/
abbrev Resource (α : Type) := Requests α → Option α

section

variable [AddMonoid α] [LinearOrder α] (resource : Resource α)

/-- `allocation.get(resource) or 0`. -/
def amount (c : Requests α) : α := (resource c).getD 0

/-- `sidecar_cpu` and `peak_cpu`, and the same of the memory. -/
structure Running (α : Type) where
  sidecar : α
  peak : α

/-- One turn of the loop over `init_containers_spec`. -/
def Running.add (r : Running α) (c : InitSpec α) : Running α :=
  if c.sidecar then
    { sidecar := r.sidecar + amount resource c.toRequests
      peak := max r.peak (r.sidecar + amount resource c.toRequests + 0) }
  else { r with peak := max r.peak (r.sidecar + amount resource c.toRequests) }

/-- `capsule_need_cpu`, and the same of the memory. -/
def need (inits : List (InitSpec α)) (mains : List (Requests α)) : α :=
  let sum := mains.foldl (fun sum c => sum + amount resource c) 0
  let r := inits.foldl (Running.add resource) { sidecar := 0, peak := 0 }
  max (sum + r.sidecar) r.peak

end

/-- What a capsule reserves. -/
def capsuleNeed [AddMonoid α] [LinearOrder α] (inits : List (InitSpec α)) (mains : List (Requests α)) : α × α :=
  (need (·.cpu) inits mains, need (·.memory) inits mains)

/-! ## The schedule -/

/-- `_run_init_members`: the members that are live, each time one has been started or has exited, and the
sidecars that are left. -/
def runInitMembers : List (InitSpec α) → List (Requests α) → List (List (Requests α)) × List (Requests α)
  | [], sidecars => ([], sidecars)
  | c :: inits, sidecars =>
      if c.sidecar then
        let (moments, left) := runInitMembers inits (sidecars ++ [c.toRequests])
        ((sidecars ++ [c.toRequests]) :: moments, left)
      else
        let (moments, left) := runInitMembers inits sidecars
        ((sidecars ++ [c.toRequests]) :: sidecars :: moments, left)

/-- The moments of a start: before the first member, those of the init containers, and when every main
container has been started beside the sidecars. -/
def moments (inits : List (InitSpec α)) (mains : List (Requests α)) : List (List (Requests α)) :=
  let (started, sidecars) := runInitMembers inits []
  [] :: started ++ [mains ++ sidecars]

/-- What the live members request. -/
def load [AddMonoid α] (resource : Resource α) (live : List (Requests α)) : α :=
  (live.map (amount resource)).sum

/-! ## The running maximum -/

theorem mem_moments {inits : List (InitSpec α)} {mains live : List (Requests α)} :
    live ∈ moments inits mains ↔
      live = [] ∨ live ∈ (runInitMembers inits []).1 ∨ live = mains ++ (runInitMembers inits []).2 := by
  simp [moments]

theorem foldl_max_isGreatest [LinearOrder α] (xs : List α) :
    ∀ x, IsGreatest {y | y ∈ x :: xs} (xs.foldl max x) := by
  induction xs with
  | nil => exact fun x => ⟨List.mem_singleton.mpr rfl, fun y hy => (List.mem_singleton.mp hy).le⟩
  | cons z xs ih =>
      intro x
      obtain ⟨hmem, hle⟩ := ih (max x z)
      constructor
      · rcases List.mem_cons.mp hmem with heq | hmem
        · rw [Set.mem_ofPred_eq, List.foldl_cons, heq]
          rcases max_choice x z with h | h
          · simp [h]
          · simp [h]
        · exact List.mem_cons_of_mem _ (List.mem_cons_of_mem _ hmem)
      · intro y hy
        have hmax : max x z ≤ xs.foldl max (max x z) := hle (List.mem_cons_self ..)
        rcases List.mem_cons.mp hy with rfl | hy
        · exact (le_max_left _ _).trans hmax
        rcases List.mem_cons.mp hy with rfl | hy
        · exact (le_max_right _ _).trans hmax
        · exact hle (List.mem_cons_of_mem _ hy)

section

variable [AddMonoid α] {resource : Resource α}

theorem load_append (live more : List (Requests α)) :
    load resource (live ++ more) = load resource live + load resource more := by
  simp [load]

theorem load_single (c : Requests α) : load resource [c] = amount resource c := by
  simp [load]

theorem foldl_sum (mains : List (Requests α)) : ∀ sum : α,
    mains.foldl (fun sum c => sum + amount resource c) sum = sum + load resource mains := by
  induction mains with
  | nil => simp [load]
  | cons c mains ih =>
      intro sum
      rw [List.foldl_cons, ih, add_assoc]
      simp [load]

end

section

variable [AddMonoid α] [LinearOrder α] {resource : Resource α}

/-- The loop over the init containers goes along with the schedule. -/
theorem foldl_add_runInitMembers (inits : List (InitSpec α)) :
    ∀ (r : Running α) (sidecars : List (Requests α)), r.sidecar = load resource sidecars →
      r.sidecar ≤ r.peak →
      (inits.foldl (Running.add resource) r).sidecar = load resource (runInitMembers inits sidecars).2 ∧
        (inits.foldl (Running.add resource) r).peak =
          ((runInitMembers inits sidecars).1.map (load resource)).foldl max r.peak := by
  induction inits with
  | nil => exact fun r sidecars hload hle => ⟨hload, rfl⟩
  | cons c inits ih =>
      intro r sidecars hload hle
      have hnext : load resource (sidecars ++ [c.toRequests]) = r.sidecar + amount resource c.toRequests := by
        rw [load_append, load_single, hload]
      cases hkind : c.sidecar with
      | true =>
          obtain ⟨hsidecar, hpeak⟩ := ih (r.add resource c) (sidecars ++ [c.toRequests])
            (by simp [Running.add, hkind, hnext]) (by simp [Running.add, hkind])
          simp only [List.foldl_cons, runInitMembers, hkind, if_true, List.map_cons]
          refine ⟨hsidecar, hpeak.trans ?_⟩
          simp [Running.add, hkind, hnext]
      | false =>
          obtain ⟨hsidecar, hpeak⟩ := ih (r.add resource c) sidecars
            (by simp [Running.add, hkind, hload]) (by simp [Running.add, hkind, hle])
          simp only [List.foldl_cons, runInitMembers, hkind, Bool.false_eq_true, if_false, List.map_cons]
          refine ⟨hsidecar, hpeak.trans ?_⟩
          -- once the container has exited, the sidecars alone are no more than before it
          have hexit : max (max r.peak (r.sidecar + amount resource c.toRequests)) (load resource sidecars) =
              max r.peak (r.sidecar + amount resource c.toRequests) :=
            max_eq_left (hload ▸ hle.trans (le_max_left _ _))
          simp [Running.add, hkind, hnext, hexit]

theorem need_eq (inits : List (InitSpec α)) (mains : List (Requests α)) :
    need resource inits mains = (((runInitMembers inits []).1 ++ [mains ++ (runInitMembers inits []).2]).map
      (load resource)).foldl max 0 := by
  obtain ⟨hsidecar, hpeak⟩ := @foldl_add_runInitMembers α _ _ resource inits { sidecar := 0, peak := 0 } []
    (by simp [load]) le_rfl
  simp only [need, foldl_sum, zero_add, hsidecar, hpeak, List.map_append, List.foldl_append, List.map_cons,
    List.map_nil, List.foldl_cons, List.foldl_nil, load_append]
  exact max_comm _ _

theorem need_isGreatest (inits : List (InitSpec α)) (mains : List (Requests α)) :
    IsGreatest {x | ∃ live ∈ moments inits mains, load resource live = x} (need resource inits mains) := by
  have hmoments : {x | ∃ live ∈ moments inits mains, load resource live = x} =
      {x | x ∈ (0 : α) :: ((runInitMembers inits []).1 ++ [mains ++ (runInitMembers inits []).2]).map
        (load resource)} := by
    ext x
    simp only [Set.mem_ofPred_eq, moments, List.mem_cons, List.mem_append, List.mem_map,
      List.cons_append, exists_eq_or_imp, load, List.map_nil, List.sum_nil, eq_comm]
  rw [hmoments, need_eq]
  exact foldl_max_isGreatest _ 0

end

/-- The cpu and the memory of a capsule are the most that its members request at any moment of the start. -/
theorem capsule_reserves_peak [AddMonoid α] [LinearOrder α] (inits : List (InitSpec α))
    (mains : List (Requests α)) :
    IsGreatest {x | ∃ live ∈ moments inits mains, load (·.cpu) live = x} (capsuleNeed inits mains).1 ∧
      IsGreatest {x | ∃ live ∈ moments inits mains, load (·.memory) live = x} (capsuleNeed inits mains).2 :=
  ⟨need_isGreatest inits mains, need_isGreatest inits mains⟩

end CapsuleNeed

end Zun
