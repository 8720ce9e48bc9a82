import Mathlib.Algebra.Order.Group.Unbundled.Abs
import Mathlib.Data.NNRat.Floor
import Mathlib.Data.Rat.Floor
import Zun.Data.Ledger
import Zun.Effect.Run
import Zun.Objects.Container

/-!
# Quotas

`_check_container_quotas` and `_set_default_resource_limit` of
`zun/api/controllers/v1/containers.py`, with `limit_check` of `zun/common/quota.py`, for the
containers of one project whose limits are fixed.  A create and a patch count what the project has,
one resource after the other, add what the request asks for, and compare with the limits; the row is
written later, by the API or by the node.  A resize goes to the node without any of this, and so does
the disk that the node fills in where the request named none.

The numbers that Python has as floats are rational here; `round` and the tolerance of `is_less_than`
are applied to them as the code does.
-/

namespace Zun

open Effect

namespace Quotas

inductive Resource where
  | containers | cpu | memory | disk
deriving DecidableEq

/-- The columns of a row that are added up. -/
structure Row where
  cpu : ℚ≥0
  memory : Nat
  disk : Nat
deriving DecidableEq

/-- What a row adds to the usage. -/
def Row.amount (row : Row) : Resource → ℚ
  | .containers => 1
  | .cpu => row.cpu
  | .memory => row.memory
  | .disk => row.disk

abbrev Rows := AList fun _ : Uuid => Row

/-- What the project's rows add up to. -/
def usage (rows : Rows) (r : Resource) : ℚ := Ledger.total (·.amount r) rows

structure Conf where
  limits : Resource → Int
  defaultCpu : ℚ≥0
  defaultMemory : Nat
  defaultDisk : Nat
  /-- The sum of an integer column is an `int`, as the database hands it over. -/
  intSums : Bool

/-! ## Numbers -/

/-- A number as Python has it. -/
inductive Num where
  | int (n : Int)
  | float (q : ℚ)
deriving DecidableEq

def Num.val : Num → ℚ
  | .int n => n
  | .float q => q

/-- `is_close`, with its own tolerances. -/
def isClose (x y : ℚ) : Bool := |x - y| ≤ max (1 / 1000000 * max |x| |y|) 0

/-- `is_less_than`. -/
def isLessThan : Num → Num → Bool
  | .int x, .int y => x < y
  | x, y => !(x.val - y.val ≥ 0 || isClose x.val y.val)

/-- `round(q, 3)`: to the nearest thousandth, and to the even one of two. -/
def round3 (q : ℚ) : ℚ :=
  let y := q * 1000
  let n := ⌊y⌋
  let up := y - n > 1 / 2 || (y - n = 1 / 2 && n % 2 = 1)
  (if up = true then n + 1 else n) / 1000

/-- `int(q)`. -/
def truncate (q : ℚ) : Int := if 0 ≤ q then ⌊q⌋ else ⌈q⌉

variable (conf : Conf)

/-- `count`.  Nothing is `0.0`, whatever it is a count of. -/
def count (rows : Rows) : Resource → Num
  | .containers => if rows.keys = [] then .float 0 else .int rows.keys.length
  | .cpu => .float (round3 (usage rows .cpu))
  | .memory => .float (usage rows .memory)
  | .disk =>
      if conf.intSums = true ∧ usage rows .disk ≠ 0 then .int ⌊usage rows .disk⌋
      else .float (usage rows .disk)

/-- A count and a delta, added as `_check_deltas` does. -/
def Num.plus : Num → ℚ → Num
  | .int n, d => .int (n + truncate d)
  | .float q, d => .float (q + d)

/-- A resource is in `overs`. -/
def exceeds (limit : Int) (total : Num) : Bool := limit ≥ 0 && isLessThan (.int limit) total

def allResources : List Resource := [.containers, .cpu, .memory, .disk]

/-- `limit_check` raises nothing. -/
def limitCheck (totals : Resource → Num) : Bool :=
  allResources.all fun r => !((totals r).val < 0) && !exceeds (conf.limits r) (totals r)

/-! ## Requests -/

/-- The fields of a create request: absent, null, or a number. -/
structure Request where
  cpu : Option (Option ℚ≥0) := none
  memory : Option (Option Nat) := none
  disk : Option (Option Nat) := none
deriving DecidableEq

/-- What an update writes. -/
structure Patch where
  cpu : Option ℚ≥0 := none
  memory : Option Nat := none
deriving DecidableEq

inductive Kind where
  | create (row : Row)
  | patch (change : Patch)
  | resize (change : Patch)
deriving DecidableEq

/-- The request is counted before it is let through. -/
def Kind.checked : Kind → Bool
  | .create _ | .patch _ => true
  | .resize _ => false

/-- The row of a create: `_set_default_resource_limit` comes after the check. -/
def Request.row (q : Request) : Row where
  cpu := (q.cpu.getD conf.defaultCpu).getD 0
  memory := (q.memory.getD conf.defaultMemory).getD 0
  disk := (q.disk.getD none).getD 0

/-- The deltas of a create, where one that is null is none. -/
def Request.deltas (q : Request) : Resource → Option ℚ
  | .containers => some 1
  | .cpu => (q.cpu.getD (some 0)).map (·)
  | .memory => (q.memory.getD (some 0)).map (·)
  | .disk => (q.disk.getD (some 0)).map (·)

/-- The deltas of a patch, against the object that was read. -/
def Patch.deltas (p : Patch) (row : Row) : Resource → ℚ
  | .containers | .disk => 0
  | .cpu => (p.cpu.map fun c => (c : ℚ) - row.cpu).getD 0
  | .memory => (p.memory.map fun m => (m : ℚ) - row.memory).getD 0

/-- The fields of a patch that differ from those of the object are set on it. -/
def Patch.changed (p : Patch) (row : Row) : Patch where
  cpu := p.cpu.filter (· ≠ row.cpu)
  memory := p.memory.filter (· ≠ row.memory)

def Patch.apply (p : Patch) (row : Row) : Row :=
  { row with cpu := p.cpu.getD row.cpu, memory := p.memory.getD row.memory }

/-- What a patch writes of a resource. -/
def Patch.written (p : Patch) : Resource → Option ℚ
  | .containers | .disk => none
  | .cpu => p.cpu.map (·)
  | .memory => p.memory.map (·)

/-- What is written of a resource. -/
def Kind.written : Kind → Resource → Option ℚ
  | .create row, r => some (row.amount r)
  | .patch p, r | .resize p, r => p.written r

inductive Phase where
  /-- At `QUOTAS.count`, for the first of some resources. -/
  | counting (rest : List Resource)
  /-- At `limit_check`. -/
  | checking
  | writing
deriving DecidableEq

structure Call where
  kind : Kind
  uuid : Uuid
  deltas : Resource → Option ℚ
  totals : Resource → Num := fun _ => .int 0
  phase : Phase
  /-- What the rows of the others added up to when it counted.  The code does not keep this. -/
  counted : Resource → ℚ := fun _ => 0

structure State where
  rows : Rows := ∅
  calls : Nat → Option Call := fun _ => none

inductive Event where
  | create (j : Nat) (u : Uuid) (q : Request)
  | patch (j : Nat) (u : Uuid) (p : Patch)
  | resize (j : Nat) (u : Uuid) (p : Patch)
  | count (j : Nat)
  | check (j : Nat)
  /-- The row is written: by the API, or by the node once its claim and the runtime have taken the
  update. -/
  | write (j : Nat)
  /-- The request is refused for another reason, or raises. -/
  | fail (j : Nat)
  /-- `_check_support_disk_quota` fills in the disk, with the base size of the storage driver if it
  has one. -/
  | fillDisk (u : Uuid) (base : Option ℚ≥0)
  | destroy (u : Uuid)

def State.setCall (s : State) (j : Nat) (c : Option Call) : State :=
  { s with calls := Function.update s.calls j c }

/-- What the other rows add up to. -/
def others (rows : Rows) (u : Uuid) (r : Resource) : ℚ := usage (rows.erase u) r

def stepCount (s : State) (j : Nat) (c : Call) : State :=
  match c.phase with
  | .counting (r :: rest) =>
      match c.deltas r with
      | none => s.setCall j none
      | some d => s.setCall j (some { c with
          totals := Function.update c.totals r ((count conf s.rows r).plus d)
          counted := Function.update c.counted r (others s.rows c.uuid r)
          phase := .counting rest })
  | .counting [] => s.setCall j (some { c with phase := .checking })
  | _ => s

def stepCheck (s : State) (j : Nat) (c : Call) : State :=
  match c.phase with
  | .checking =>
      s.setCall j (if limitCheck conf c.totals = true then some { c with phase := .writing }
        else none)
  | _ => s

/-- The row as the call leaves it.  There is no row to update when it is gone. -/
def Kind.writes (k : Kind) (old : Option Row) : Option Row :=
  match k with
  | .create row => some row
  | .patch p | .resize p => old.map p.apply

def stepWrite (s : State) (j : Nat) (c : Call) : State :=
  match c.phase with
  | .writing =>
      match c.kind.writes (s.rows.lookup c.uuid) with
      | none => s.setCall j none
      | some row => { s with rows := s.rows.insert c.uuid row }.setCall j none
  | _ => s

def filledDisk (base : Option ℚ≥0) : Nat :=
  match base with
  | none => conf.defaultDisk
  | some b => ⌈max b conf.defaultDisk⌉₊

def stepFillDisk (s : State) (u : Uuid) (base : Option ℚ≥0) : State :=
  match s.rows.lookup u with
  | none => s
  | some row =>
      if row.disk = 0 then { s with rows := s.rows.insert u { row with disk := filledDisk conf base } }
      else s

def State.withCall (s : State) (j : Nat) (f : Call → State) : State :=
  match s.calls j with
  | none => s
  | some c => f c

def step : Event → State → State
  | .create j u q, s => s.setCall j (some {
      kind := .create (q.row conf), uuid := u, deltas := q.deltas, phase := .counting allResources })
  | .patch j u p, s => s.setCall j ((s.rows.lookup u).map fun row => {
      kind := .patch (p.changed row), uuid := u, deltas := fun r => some (p.deltas row r),
      phase := .counting allResources })
  | .resize j u p, s => s.setCall j ((s.rows.lookup u).map fun row => {
      kind := .resize (p.changed row), uuid := u, deltas := fun _ => some 0, phase := .writing })
  | .count j, s => s.withCall j (stepCount conf s j)
  | .check j, s => s.withCall j (stepCheck conf s j)
  | .write j, s => s.withCall j (stepWrite s j)
  | .fail j, s => s.setCall j none
  | .fillDisk u base, s => stepFillDisk conf s u base
  | .destroy u, s => { s with rows := s.rows.erase u }

/-- A project keeps to its limits.  A negative one is none. -/
def Within (s : State) : Prop := ∀ r, 0 ≤ conf.limits r → usage s.rows r ≤ conf.limits r

structure Begun (s : State) : Prop where
  calls : ∀ j, s.calls j = none
  within : Within conf s

/-! ## What can happen -/

def Possible : Event → State → Prop
  -- A uuid is made up for one create.
  | .create j u _, s => s.calls j = none ∧ u ∉ s.rows ∧ ∀ j' c, s.calls j' = some c → c.uuid ≠ u
  | .patch j _ _, s | .resize j _ _, s => s.calls j = none
  | _, _ => True

/-- There is room for what a call writes, beside so much of the others. -/
def Fits (k : Kind) (rest : Resource → ℚ) : Prop :=
  ∀ r v, 0 ≤ conf.limits r → k.written r = some v → rest r + v ≤ conf.limits r

/-- What is not checked fits all the same; what the check lets pass fits as it was counted, defaults
and all; and by the write no other row has added to the count. -/
def Sound : Event → State → Prop
  | .check j, s => ∀ c, s.calls j = some c → c.phase = .checking → limitCheck conf c.totals = true →
      Fits conf c.kind c.counted
  | .write j, s => ∀ c, s.calls j = some c → c.phase = .writing →
      (c.kind.writes (s.rows.lookup c.uuid)).isSome = true →
        if c.kind.checked = true then ∀ r v, 0 ≤ conf.limits r → c.kind.written r = some v →
          others s.rows c.uuid r ≤ c.counted r
        else Fits conf c.kind (others s.rows c.uuid)
  | .fillDisk u base, s => 0 ≤ conf.limits .disk →
      others s.rows u .disk + filledDisk conf base ≤ conf.limits .disk
  | _, _ => True

/-! ## Sums -/

variable {conf : Conf} {s : State} {j : Nat} {c : Call} {u : Uuid} {rows : Rows} {row : Row}
  {r : Resource} {k : Kind}

theorem amount_nonneg (row : Row) (r : Resource) : 0 ≤ row.amount r := by
  cases r with
  | containers => exact zero_le_one
  | cpu => exact row.cpu.2
  | memory => exact Nat.cast_nonneg _
  | disk => exact Nat.cast_nonneg _

@[simp] theorem usage_empty : usage ∅ r = 0 := rfl

theorem usage_insert : usage (rows.insert u row) r = row.amount r + others rows u r :=
  Ledger.total_insert _ _ _ _

theorem usage_of_lookup (h : rows.lookup u = some row) :
    usage rows r = row.amount r + others rows u r :=
  Ledger.total_erase _ h

/-- The others are no more than all of them. -/
theorem others_le : others rows u r ≤ usage rows r := by
  cases h : rows.lookup u with
  | none =>
    rw [others, Ledger.erase_of_lookup_none h]
  | some row =>
    rw [usage_of_lookup h]
    exact le_add_of_nonneg_left (amount_nonneg row r)

theorem patch_amount (p : Patch) (row : Row) (r : Resource) : p.written r = some ((p.apply row).amount r) ∨
    p.written r = none ∧ (p.apply row).amount r = row.amount r := by
  cases r with
  | containers => exact .inr ⟨rfl, rfl⟩
  | disk => exact .inr ⟨rfl, rfl⟩
  | cpu =>
    cases hc : p.cpu with
    | none => exact .inr ⟨by simp [Patch.written, hc], by simp [Patch.apply, Row.amount, hc]⟩
    | some v => exact .inl (by simp [Patch.written, Patch.apply, Row.amount, hc])
  | memory =>
    cases hm : p.memory with
    | none => exact .inr ⟨by simp [Patch.written, hm], by simp [Patch.apply, Row.amount, hm]⟩
    | some v => exact .inl (by simp [Patch.written, Patch.apply, Row.amount, hm])

/-- What the row that is written amounts to is what was written of it, or what it was. -/
theorem writes_amount {old : Option Row} (h : k.writes old = some row) :
    k.written r = some (row.amount r) ∨
      k.written r = none ∧ ∃ before, old = some before ∧ row.amount r = before.amount r := by
  have hupdate : ∀ p : Patch, old.map p.apply = some row → p.written r = some (row.amount r) ∨
      p.written r = none ∧ ∃ before, old = some before ∧ row.amount r = before.amount r := by
    intro p hp
    obtain ⟨before, rfl, rfl⟩ := Option.map_eq_some_iff.mp hp
    rcases patch_amount p before r with hw | ⟨hw, ha⟩
    · exact .inl hw
    · exact .inr ⟨hw, before, rfl, ha⟩
  cases k with
  | create row' =>
    cases h
    exact .inl rfl
  | patch p => exact hupdate p h
  | resize p => exact hupdate p h

/-! ## A sound run -/

structure Inv (conf : Conf) (s : State) : Prop where
  within : Within conf s
  fits : ∀ j c, s.calls j = some c → c.phase = .writing → c.kind.checked = true →
    Fits conf c.kind c.counted

@[simp] theorem calls_setCall {o : Option Call} : (s.setCall j o).calls j = o :=
  Function.update_self _ _ _

/-- A call is one of before, or one that fits. -/
theorem Inv.setCall {o : Option Call} (h : Inv conf s)
    (ho : ∀ c, o = some c → c.phase = .writing → c.kind.checked = true →
      Fits conf c.kind c.counted) : Inv conf (s.setCall j o) where
  within := h.within
  fits j' c hc := by
    by_cases hj : j' = j
    · subst hj
      exact ho c (calls_setCall.symm.trans hc)
    · have hc' : s.calls j' = some c := by simpa [State.setCall, Function.update_of_ne hj] using hc
      exact h.fits j' c hc'

theorem Inv.ends (h : Inv conf s) : Inv conf (s.setCall j none) :=
  h.setCall fun _ hc => nomatch hc

theorem Inv.withRows (h : Inv conf s) (hrows : Within conf { s with rows }) :
    Inv conf { s with rows } :=
  ⟨hrows, h.fits⟩

theorem Inv.withCall {f : Call → State} (h : Inv conf s)
    (hf : ∀ c, s.calls j = some c → Inv conf (f c)) : Inv conf (s.withCall j f) := by
  unfold State.withCall
  split
  · exact h
  · rename_i c hc
    exact hf c hc

theorem inv_stepCount (h : Inv conf s) : Inv conf (stepCount conf s j c) := by
  unfold stepCount
  split
  · split
    · exact h.ends
    · apply h.setCall
      rintro _ ⟨⟩ ⟨⟩
  · apply h.setCall
    rintro _ ⟨⟩ ⟨⟩
  · exact h

theorem inv_stepCheck (h : Inv conf s) (hc : s.calls j = some c)
    (hs : Sound conf (.check j) s) : Inv conf (stepCheck conf s j c) := by
  unfold stepCheck
  split
  · rename_i hphase
    apply h.setCall
    intro c' hc' _ _
    split at hc'
    · rename_i hcheck
      cases hc'
      exact hs c hc hphase hcheck
    · cases hc'
  · exact h

/-- What is written leaves the project within its limits. -/
theorem within_write (h : Within conf s) (hw : k.writes (s.rows.lookup u) = some row)
    (hfits : Fits conf k (others s.rows u)) : Within conf { s with rows := s.rows.insert u row } := by
  intro r hr
  show usage (s.rows.insert u row) r ≤ _
  rw [usage_insert]
  rcases writes_amount hw with hv | ⟨-, before, hbefore, hv⟩
  · rw [add_comm]
    exact hfits r _ hr hv
  · rw [hv, ← usage_of_lookup hbefore]
    exact h r hr

theorem inv_stepWrite (h : Inv conf s) (hc : s.calls j = some c)
    (hs : Sound conf (.write j) s) : Inv conf (stepWrite s j c) := by
  unfold stepWrite
  split
  · rename_i hphase
    split
    · exact h.ends
    · rename_i row hw
      have hsound := hs c hc hphase (by rw [hw]; rfl)
      have hfits : Fits conf c.kind (others s.rows c.uuid) := by
        split at hsound
        · rename_i hchecked
          intro r v hr hv
          calc others s.rows c.uuid r + v
              ≤ c.counted r + v := add_le_add_left (hsound r v hr hv) v
            _ ≤ conf.limits r := h.fits j c hc hphase hchecked r v hr hv
        · exact hsound
      exact (h.withRows (within_write h.within hw hfits)).ends
  · exact h

theorem inv_stepFillDisk {base : Option ℚ≥0} (h : Inv conf s)
    (hs : Sound conf (.fillDisk u base) s) : Inv conf (stepFillDisk conf s u base) := by
  unfold stepFillDisk
  split
  · exact h
  · rename_i row hrow
    split
    · apply h.withRows
      intro r hr
      show usage (s.rows.insert u _) r ≤ _
      rw [usage_insert]
      have hsame : row.amount r + others s.rows u r ≤ conf.limits r := by
        rw [← usage_of_lookup hrow]
        exact h.within r hr
      cases r with
      | containers => exact hsame
      | cpu => exact hsame
      | memory => exact hsame
      | disk =>
        rw [add_comm]
        exact hs hr
    · exact h

theorem inv_step (e : Event) (h : Inv conf s) (hs : Sound conf e s) : Inv conf (step conf e s) := by
  cases e with
  | create j u q =>
    apply h.setCall
    rintro _ ⟨⟩ ⟨⟩
  | patch j u p =>
    apply h.setCall
    intro c hc hphase
    obtain ⟨row, -, rfl⟩ := Option.map_eq_some_iff.mp hc
    cases hphase
  | resize j u p =>
    apply h.setCall
    intro c hc _ hchecked
    obtain ⟨row, -, rfl⟩ := Option.map_eq_some_iff.mp hc
    cases hchecked
  | count j => exact h.withCall fun _ _ => inv_stepCount h
  | check j => exact h.withCall fun c hc => inv_stepCheck h hc hs
  | write j => exact h.withCall fun c hc => inv_stepWrite h hc hs
  | fail j => exact h.ends
  | fillDisk u base => exact inv_stepFillDisk h hs
  | destroy u => exact h.withRows fun r hr => others_le.trans (h.within r hr)

theorem le_of_not_exceeds {limit : Int} {total : Num} (hl : 0 ≤ limit) (h : exceeds limit total = false)
    (hclose : isClose limit total.val = false) : total.val ≤ limit := by
  cases total with
  | int n =>
    simp only [exceeds, isLessThan, ge_iff_le, hl, decide_true, Bool.true_and,
      decide_eq_false_iff_not, not_lt] at h
    show (n : ℚ) ≤ limit
    exact_mod_cast h
  | float q =>
    simp only [Num.val] at hclose ⊢
    simpa [exceeds, isLessThan, Num.val, hl, hclose] using h

/-- A check that counts exactly, of what will be written and no other, and finds no total within the
tolerance of its limit, lets pass only what fits. -/
theorem fits_of_exact {totals : Resource → Num} {counted : Resource → ℚ}
    (h : limitCheck conf totals = true)
    (hexact : ∀ r v, k.written r = some v → (totals r).val = counted r + v)
    (hclose : ∀ r, isClose (conf.limits r) (totals r).val = false) : Fits conf k counted := by
  intro r v hr hv
  have hexceeds : exceeds (conf.limits r) (totals r) = false := by
    have hmem : r ∈ allResources := by cases r <;> decide
    have hall := List.all_eq_true.mp h r hmem
    rw [Bool.and_eq_true, Bool.not_eq_true', Bool.not_eq_true'] at hall
    exact hall.2
  rw [← hexact r v hv]
  exact le_of_not_exceeds hr hexceeds (hclose r)

/-! ### A create that names its memory, and one that does not -/

/-- A project of so much memory, and of anything else without limit. -/
def memoryOf (limit : Int) : Conf where
  limits r := if r = .memory then limit else -1
  defaultCpu := 1
  defaultMemory := 512
  defaultDisk := 10
  intSums := true

theorem begun_empty : Begun conf {} where
  calls _ := rfl
  within r hr := by
    show usage ∅ r ≤ _
    rw [usage_empty]
    exact_mod_cast hr

def hundred : Request := { cpu := some (some 1), memory := some (some 100), disk := some (some 0) }

/-- A create counts, is checked, and writes its row. -/
def admission (q : Request) : List Event :=
  [.create 1 7 q, .count 1, .count 1, .count 1, .count 1, .count 1, .check 1, .write 1]

/-- The create of `hundred` when it has counted. -/
structure HundredCounted (c : Call) : Prop where
  kind : c.kind = .create ⟨1, 100, 0⟩
  uuid : c.uuid = 7
  phase : c.phase = .checking
  passes : limitCheck (memoryOf 512) c.totals = true
  exact : ∀ r, (c.totals r).val = c.counted r + Row.amount ⟨1, 100, 0⟩ r
  far : ∀ r, isClose ((memoryOf 512).limits r) (c.totals r).val = false
  counted : ∀ r, c.counted r = 0

def countedState : State := steps (step (memoryOf 512)) ((admission hundred).take 6) {}

theorem hundred_counted : ∃ c, countedState.calls 1 = some c ∧ HundredCounted c := by
  refine ⟨_, rfl, rfl, rfl, rfl, ?_, ?_, ?_, ?_⟩
  · decide +kernel
  · intro r
    cases r <;> decide +kernel
  · intro r
    cases r <;> decide +kernel
  · intro r
    cases r <;> decide +kernel

theorem hundred_sound : Allowed (step (memoryOf 512))
    (fun e s => Possible e s ∧ Sound (memoryOf 512) e s) (admission hundred) {} := by
  have hnew : ∀ (j' : Nat) (c : Call), ({} : State).calls j' = some c → c.uuid ≠ 7 := by
    rintro _ _ ⟨⟩
  obtain ⟨c, hc, hcall⟩ := hundred_counted
  have hcheck : Sound (memoryOf 512) (.check 1) countedState := by
    intro c' hc' _ _
    cases hc.symm.trans hc'
    apply fits_of_exact hcall.passes _ hcall.far
    intro r v hv
    rw [hcall.kind] at hv
    cases hv
    exact hcall.exact r
  have hwrite : Sound (memoryOf 512) (.write 1) (step (memoryOf 512) (.check 1) countedState) := by
    intro c' hc' _ _
    have hstep : step (memoryOf 512) (.check 1) countedState =
        countedState.setCall 1 (some { c with phase := .writing }) := by
      rw [step, State.withCall, hc]
      simp [stepCheck, hcall.phase, hcall.passes]
    rw [hstep, calls_setCall, Option.some.injEq] at hc'
    subst hc'
    have hchecked : c.kind.checked = true := by rw [hcall.kind]; rfl
    rw [if_pos hchecked]
    intro r v _ _
    rw [hstep, hcall.uuid, hcall.counted r]
    show usage ∅ r ≤ 0
    exact le_of_eq usage_empty
  exact ⟨⟨⟨rfl, by decide, hnew⟩, trivial⟩, ⟨trivial, trivial⟩, ⟨trivial, trivial⟩,
    ⟨trivial, trivial⟩, ⟨trivial, trivial⟩, ⟨trivial, trivial⟩, ⟨trivial, hcheck⟩,
    ⟨trivial, hwrite⟩, trivial⟩

/-- A create that leaves the memory to its default, in a project of half as much. -/
theorem default_usage :
    usage (steps (step (memoryOf 256)) (admission {}) {}).rows .memory = 512 := by
  decide +kernel

theorem default_possible : Allowed (step (memoryOf 256)) Possible (admission {}) {} := by
  have hnew : ∀ (j' : Nat) (c : Call), ({} : State).calls j' = some c → c.uuid ≠ 7 := by
    rintro _ _ ⟨⟩
  exact ⟨⟨rfl, by decide, hnew⟩, trivial, trivial, trivial, trivial, trivial, trivial, trivial,
    trivial⟩

end Quotas

end Zun
