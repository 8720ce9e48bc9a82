import Mathlib.Algebra.GroupWithZero.Nat
import Mathlib.Data.List.Sort
import Zun.Data.SortBy
import Zun.Objects.PciDevice

/-!
# Pools of PCI devices

`PciDeviceStats` of `zun/pci/stats.py`.  The free devices of a node are kept in pools, one for each set of
properties.  A pool is a dictionary that is changed where it stands: a list of pools holds references, and a
pool that was taken off one list is still on another.

`consume_requests` takes devices out of the pools request by request, and puts them back if a request cannot
be met.  What it took out besides, the relatives of a device, it does not put back, and what it wrote on a
device stays there.
-/

namespace Zun.Pci

open Effect Effect.Prog

namespace Stats

/-! ## The model -/

/-- What a property is set to. -/
inductive Value where
  /-- `None`, and a property that is missing. -/
  | null
  | text (s : String)
  | number (n : Int)
  | texts (l : List String)
deriving DecidableEq

abbrev Properties := List (String × Value)

/-- `dict.get`. -/
def lookup (d : Properties) (key : String) : Value := (List.lookup key d).getD .null

/-- `d[key] = value`. -/
def setItem (key : String) (value : Value) : Properties → Properties
  | [] => [(key, value)]
  | (k, v) :: d => if k = key then (key, value) :: d else (k, v) :: setItem key value d

/-- `dict.update`. -/
def update (d tags : Properties) : Properties := tags.foldl (fun d p => setItem p.1 p.2 d) d

/-- A pool: the keys but `count` and `devices`, and these. -/
structure Pool where
  keys : Properties
  count : Nat := 0
  devices : List Address := []
deriving DecidableEq

/-- `pool.get`.  No list of texts but the empty one has all its members among the devices. -/
def Pool.get (pool : Pool) (key : String) : Value :=
  if key = "count" then .number pool.count
  else if key = "devices" then .texts []
  else lookup pool.keys key

/-- What the tracker has: the devices, and the pools by reference. -/
structure State where
  node : Node
  pool : Nat → Pool := fun _ => { keys := [] }
  /-- The next pool that is made. -/
  next : Nat := 0
  pools : List Nat := []

inductive Error where
  /-- `PciDevicePoolEmpty`. -/
  | poolEmpty (address : Address)
  /-- `ValueError`: `list.remove` of what is not there. -/
  | notInList (address : Address)
  /-- `IndexError`: `pop` from an empty list. -/
  | popEmpty
deriving DecidableEq

/-- The columns of a device that make its pool. -/
structure Columns where
  productId : String
  vendorId : String
  numaNode : Option Int := none

/-- What is read of a device besides: its columns, and the tags of the entry of the whitelist that it matches. -/
structure Filter where
  columns : Address → Columns
  tags : Address → Option Properties

def devTypeText : DevType → String
  | .standard => "type-PCI"
  | .pf => "type-PF"
  | .vf => "type-VF"

/-- A request.  The API gives each an id of its own. -/
structure Request where
  count : Nat
  spec : List Properties
  requestId : Uuid

section

variable (filter : Filter)

/-- `_create_pool_keys_from_dev`. -/
def createPoolKeysFromDev (a : Address) (dev : Device) : Option Properties :=
  (filter.tags a).map fun tags =>
    let columns := filter.columns a
    update [("product_id", .text columns.productId), ("vendor_id", .text columns.vendorId),
      ("numa_node", (columns.numaNode.map .number).getD .null), ("dev_type", .text (devTypeText dev.devType))] tags

/-- A pool is that of the keys. -/
def Pool.ofKeys (pool : Pool) (devPool : Properties) : Bool :=
  decide (pool.keys.length = devPool.length) && devPool.all fun p => p.2 = lookup pool.keys p.1

/-- `_find_pool`. -/
def findPool (devPool : Properties) (s : State) : Option Nat :=
  s.pools.find? fun i => (s.pool i).ofKeys devPool

def State.setPool (i : Nat) (f : Pool → Pool) (s : State) : State :=
  { s with pool := Function.update s.pool i (f (s.pool i)) }

/-- A new pool on the list, which is sorted by the number of keys. -/
def State.append (keys : Properties) (s : State) : State :=
  let pool := Function.update s.pool s.next { keys := keys }
  { s with
    pool := pool
    next := s.next + 1
    pools := Sorting.sortBy (fun i => (pool i).keys.length) (s.pools ++ [s.next]) }

/-- The device is put in the pool. -/
def put (a : Address) (i : Nat) : State → State :=
  State.setPool i fun pool => { pool with count := pool.count + 1, devices := pool.devices ++ [a] }

/-- `add_device`. -/
def addDevice (a : Address) : Prog State Error Unit := do
  let dev ← read (·.node.dev a)
  match createPoolKeysFromDev filter a dev with
  | none => ret ()
  | some devPool => do
      match ← read (findPool devPool) with
      | some i => modify (put a i)
      | none => do
          let i ← read (·.next)
          modify (State.append devPool)
          modify (put a i)

/-- `_decrease_pool_count`, for one device. -/
def decreasePoolCount (i : Nat) (s : State) : State :=
  if 1 < (s.pool i).count then s.setPool i fun pool => { pool with count := pool.count - 1 }
  else { s with pools := s.pools.eraseP fun j => s.pool j = s.pool i }

/-- `remove_device`. -/
def removeDevice (a : Address) : Prog State Error Unit := do
  let dev ← read (·.node.dev a)
  match createPoolKeysFromDev filter a dev with
  | none => ret ()
  | some devPool => do
      match ← read (findPool devPool) with
      | none => raise (.poolEmpty a)
      | some i => do
          let devices ← read fun s => (s.pool i).devices
          onlyIf (a ∉ devices) (raise (.notInList a))
          modify (State.setPool i fun pool => { pool with devices := pool.devices.erase a })
          modify (decreasePoolCount i)

/-- `get_free_devs`. -/
def getFreeDevs (s : State) : List Address := s.pools.flatMap fun i => (s.pool i).devices

/-- `_handle_device_dependents`. -/
def handleDeviceDependents (a : Address) : Prog State Error Unit := do
  let dev ← read (·.node.dev a)
  match dev.devType, dev.parentDevice with
  | .pf, _ => forEach dev.childDevices (removeDevice filter)
  | .vf, some parent => do
      let free ← read getFreeDevs
      onlyIf (parent ∈ free) (removeDevice filter parent)
  | _, _ => ret ()

/-- `pci_device_prop_match`. -/
def propMatch (pool : Pool) (specs : List Properties) : Bool :=
  specs.any fun spec => spec.all fun p =>
    match p.2, pool.get p.1 with
    | .texts wanted, .texts has => wanted.all (· ∈ has)
    | wanted, has => wanted = has

/-- The three filters of `consume_requests`. -/
def matching (numaCells : List Int) (r : Request) (s : State) : List Nat :=
  let pools := s.pools.filter fun i => propMatch (s.pool i) r.spec
  let pools := if numaCells = [] then pools else pools.filter fun i =>
    (.null :: numaCells.map .number).any fun cell => propMatch (s.pool i) [[("numa_node", cell)]]
  if r.spec.all fun spec => lookup spec "dev_type" ≠ .text "type-PF" then
    pools.filter fun i => (s.pool i).get "dev_type" ≠ .text "type-PF"
  else pools

def total (pools : List Nat) (s : State) : Nat := (pools.map fun i => (s.pool i).count).sum

/-- `pci_dev.request_id = request.request_id`. -/
def State.setRequestId (a : Address) (id : Uuid) (s : State) : State :=
  { s with node := change a ({ · with requestId := some id }) s.node }

/-- The devices that one pool gives. -/
def takeDevices (r : Request) (i : Nat) : Nat → List Address → Prog State Error (List Address)
  | 0, allocDevices => ret allocDevices
  | num + 1, allocDevices => do
      let devices ← read fun s => (s.pool i).devices
      match devices.getLast? with
      | none => raise .popEmpty
      | some a => do
          modify (State.setPool i fun pool => { pool with devices := pool.devices.dropLast })
          handleDeviceDependents filter a
          modify (State.setRequestId a r.requestId)
          takeDevices r i num (allocDevices ++ [a])

/-- The devices that a request gets. -/
def takePools (r : Request) : List Nat → Nat → List Address → Prog State Error (List Address)
  | [], _, allocDevices => ret allocDevices
  | i :: pools, count, allocDevices => do
      let numAlloc ← read fun s => if count ≤ (s.pool i).count then count else (s.pool i).count
      modify (State.setPool i fun pool => { pool with count := pool.count - numAlloc })
      let allocDevices ← takeDevices filter r i numAlloc allocDevices
      if count - numAlloc = 0 then ret allocDevices
      else takePools r pools (count - numAlloc) allocDevices

/-- `consume_requests`, with what was taken for the requests before. -/
def consumeFrom (numaCells : List Int) :
    List Request → List Address → Prog State Error (Option (List Address))
  | [], allocDevices => ret (some allocDevices)
  | r :: requests, allocDevices => do
      let pools ← read (matching numaCells r)
      let available ← read (total pools)
      if available < r.count then do
        forEach allocDevices.reverse (addDevice filter)
        ret none
      else do
        let allocDevices ← takePools filter r pools r.count allocDevices
        consumeFrom numaCells requests allocDevices

/-- `consume_requests`. -/
def consumeRequests (numaCells : List Int) (requests : List Request) :
    Prog State Error (Option (List Address)) :=
  consumeFrom filter numaCells requests []

end

/-! ## What a failed attempt leaves -/

/-- The pool of the properties holds the device. -/
def State.Holds (s : State) (keys : Properties) (a : Address) : Prop :=
  ∃ i ∈ s.pools, (s.pool i).ofKeys keys = true ∧ a ∈ (s.pool i).devices

/-- The pools hold what they held, and no device has another request id. -/
structure Restored (s s' : State) : Prop where
  pools : ∀ keys a, s'.Holds keys a ↔ s.Holds keys a
  requestId : ∀ a, (s'.node.dev a).requestId = (s.node.dev a).requestId

/-- The ids of the requests are new. -/
def NewIds (requests : List Request) (s : State) : Prop :=
  ∀ a, ∀ r ∈ requests, (s.node.dev a).requestId ≠ some r.requestId

/-- The first request that asks for anything is for more than there is. -/
def FirstUnmet (numaCells : List Int) (requests : List Request) (s : State) : Prop :=
  ∃ r, (requests.find? fun r => decide (0 < r.count)) = some r ∧
    total (matching numaCells r s) s < r.count

/-! ## What is written on the devices -/

section

variable {filter : Filter} {numaCells : List Int} {requests : List Request} {r : Request} {a : Address}
  {s s' : State}

/-- A device has the id of one of the requests. -/
def Marked (requests : List Request) (s : State) : Prop :=
  ∃ a, ∃ r ∈ requests, (s.node.dev a).requestId = some r.requestId

theorem marked_of_node (hnode : s'.node = s.node) : Kept (Marked requests) s s' := by
  rintro ⟨a, r, hr, ha⟩
  exact ⟨a, r, hr, by rw [hnode, ha]⟩

theorem marked_setRequestId (hr : r ∈ requests) : Marked requests (s.setRequestId a r.requestId) :=
  ⟨a, r, hr, by simp [State.setRequestId, change]⟩

theorem setPool_marked (i : Nat) (f : Pool → Pool) :
    Within (Kept (Marked requests)) (modify (State.setPool i f) : Prog State Error Unit) :=
  within_modify fun _ => marked_of_node rfl

theorem addDevice_marked : Within (Kept (Marked requests)) (addDevice filter a) := by
  refine (within_read _).bind fun dev => ?_
  cases createPoolKeysFromDev filter a dev with
  | none => exact within_ret ()
  | some devPool =>
      refine (within_read _).bind fun found => ?_
      cases found with
      | some i => exact setPool_marked i _
      | none =>
          refine (within_read _).bind fun i => ?_
          have happend : Within (Kept (Marked requests)) (modify (State.append devPool) : Prog State Error Unit) :=
            within_modify fun _ => marked_of_node rfl
          exact happend.bind fun _ => setPool_marked i _

theorem removeDevice_marked : Within (Kept (Marked requests)) (removeDevice filter a) := by
  refine (within_read _).bind fun dev => ?_
  cases createPoolKeysFromDev filter a dev with
  | none => exact within_ret ()
  | some devPool =>
      refine (within_read _).bind fun found => ?_
      cases found with
      | none => exact within_raise _
      | some i =>
          refine (within_read _).bind fun devices => (within_raise _).onlyIf.bind fun _ => ?_
          refine (setPool_marked i _).bind fun _ => within_modify fun s => marked_of_node ?_
          rw [decreasePoolCount]
          split <;> rfl

theorem handleDeviceDependents_marked : Within (Kept (Marked requests)) (handleDeviceDependents filter a) := by
  refine (within_read _).bind fun dev => ?_
  cases dev.devType with
  | standard => exact within_ret ()
  | pf => exact within_forEach fun _ _ => removeDevice_marked
  | vf =>
      cases dev.parentDevice with
      | none => exact within_ret ()
      | some parent => exact (within_read _).bind fun free => removeDevice_marked.onlyIf

theorem takeDevices_marked (hr : r ∈ requests) (i : Nat) :
    ∀ num allocDevices, Within (Kept (Marked requests)) (takeDevices filter r i num allocDevices) := by
  intro num
  induction num with
  | zero => exact fun allocDevices => within_ret _
  | succ num ih =>
      intro allocDevices
      refine (within_read _).bind fun devices => ?_
      cases devices.getLast? with
      | none => exact within_raise _
      | some a =>
          refine (setPool_marked i _).bind fun _ => ?_
          refine handleDeviceDependents_marked.bind fun _ => ?_
          exact (within_modify fun s _ => marked_setRequestId hr).bind fun _ => ih _

theorem takePools_marked (hr : r ∈ requests) :
    ∀ pools count allocDevices, Within (Kept (Marked requests)) (takePools filter r pools count allocDevices) := by
  intro pools
  induction pools with
  | nil => exact fun _ _ => within_ret _
  | cons i pools ih =>
      intro count allocDevices
      refine (within_read _).bind fun numAlloc => ?_
      refine (setPool_marked i _).bind fun _ => ?_
      exact (takeDevices_marked hr i numAlloc allocDevices).bind fun _ => within_ite (within_ret _) (ih _ _)

theorem consumeFrom_marked : ∀ rest, (∀ r ∈ rest, r ∈ requests) → ∀ allocDevices,
    Within (Kept (Marked requests)) (consumeFrom filter numaCells rest allocDevices) := by
  intro rest
  induction rest with
  | nil => exact fun _ _ => within_ret _
  | cons r rest ih =>
      intro hrest allocDevices
      refine (within_read _).bind fun pools => (within_read _).bind fun available => within_ite ?_ ?_
      · exact (within_forEach fun _ _ => addDevice_marked).bind fun _ => within_ret _
      · refine (takePools_marked (hrest r (List.mem_cons_self ..)) _ _ _).bind fun _ => ?_
        exact ih (fun r' hr' => hrest r' (List.mem_cons_of_mem _ hr')) _

theorem takeDevices_succ (i num : Nat) (allocDevices : List Address) :
    takeDevices filter r i (num + 1) allocDevices s =
      match (s.pool i).devices.getLast? with
      | none => (.raise .popEmpty, s)
      | some a =>
          (handleDeviceDependents filter a).andThen (fun _ => (modify (State.setRequestId a r.requestId)).andThen
            fun _ => takeDevices filter r i num (allocDevices ++ [a]))
            (s.setPool i fun pool => { pool with devices := pool.devices.dropLast }) := by
  show (match (s.pool i).devices.getLast? with
    | none => raise .popEmpty
    | some a => _ : Prog State Error (List Address)) s = _
  cases (s.pool i).devices.getLast? <;> rfl

/-- What a pool gives to a request. -/
def given (count i : Nat) (s : State) : Nat := if count ≤ (s.pool i).count then count else (s.pool i).count

theorem takePools_cons (i : Nat) (pools : List Nat) (count : Nat) (allocDevices : List Address) :
    takePools filter r (i :: pools) count allocDevices s =
      (takeDevices filter r i (given count i s) allocDevices).andThen
        (fun allocDevices => if count - given count i s = 0 then ret allocDevices
          else takePools filter r pools (count - given count i s) allocDevices)
        (s.setPool i fun pool => { pool with count := pool.count - given count i s }) := rfl

/-- A device that is taken gets the id. -/
theorem takeDevices_marks (hr : r ∈ requests) {i num : Nat} {allocDevices allocDevices' : List Address}
    (hnum : 0 < num) (hrun : takeDevices filter r i num allocDevices s = (.ok allocDevices', s')) :
    Marked requests s' := by
  obtain ⟨num, rfl⟩ := Nat.exists_eq_succ_of_ne_zero hnum.ne'
  rw [takeDevices_succ] at hrun
  cases hlast : (s.pool i).devices.getLast? with
  | none => simp [hlast] at hrun
  | some a =>
      simp only [hlast] at hrun
      obtain ⟨-, t, -, hrun⟩ := andThen_ok hrun
      obtain ⟨_, t', hmark, hrun⟩ := andThen_ok hrun
      obtain ⟨-, rfl⟩ := Prod.mk.inj hmark
      exact (takeDevices_marked hr i num _).returns _ _ _ hrun (marked_setRequestId hr)

/-- To take nothing from a pool leaves it as it is. -/
theorem setPool_take_zero (i : Nat) :
    s.setPool i (fun pool => { pool with count := pool.count - 0 }) = s := by
  simp [State.setPool]

/-- A request that asks for something and is met marks a device. -/
theorem takePools_marks (hr : r ∈ requests) {allocDevices' : List Address} :
    ∀ pools count allocDevices, 0 < count → count ≤ total pools s →
      takePools filter r pools count allocDevices s = (.ok allocDevices', s') → Marked requests s' := by
  intro pools
  induction pools with
  | nil =>
      intro count _ hpos htotal
      simp [total] at htotal
      omega
  | cons i pools ih =>
      intro count allocDevices hpos htotal hrun
      rw [total, List.map_cons, List.sum_cons] at htotal
      rw [takePools_cons] at hrun
      obtain ⟨allocDevices₁, t, htake, hrun⟩ := andThen_ok hrun
      by_cases hempty : (s.pool i).count = 0
      · -- nothing was taken: the rest of the pools give as much
        have hzero : given count i s = 0 := by
          rw [given, if_neg (by omega), hempty]
        rw [hzero, setPool_take_zero] at htake
        obtain ⟨-, rfl⟩ := Prod.mk.inj htake
        rw [hzero, if_neg (by omega)] at hrun
        exact ih count allocDevices₁ hpos (by simpa [hempty, total] using htotal) hrun
      · have hgiven : 0 < given count i s := by
          rw [given]
          split <;> omega
        have hmarked := takeDevices_marks hr hgiven htake
        split at hrun
        · obtain ⟨-, rfl⟩ := Prod.mk.inj hrun
          exact hmarked
        · exact (takePools_marked hr _ _ _).returns _ _ _ hrun hmarked

/-- A request for nothing takes nothing. -/
theorem takePools_zero (pools : List Nat) (allocDevices : List Address) :
    takePools filter r pools 0 allocDevices s = (.ok allocDevices, s) := by
  cases pools with
  | nil => rfl
  | cons i pools =>
      have hzero : given 0 i s = 0 := by simp [given]
      rw [takePools_cons, hzero, setPool_take_zero]
      rfl

theorem consumeFrom_first (rest : List Request) :
    consumeFrom filter numaCells (r :: rest) [] s =
      (if total (matching numaCells r s) s < r.count then ret none
        else (takePools filter r (matching numaCells r s) r.count []).andThen
          (consumeFrom filter numaCells rest)) s := rfl

/-- Until a request asks for something, nothing happens; the first one that does finds the pools as they
were. -/
theorem consumeFrom_none : ∀ rest, (∀ r ∈ rest, r ∈ requests) →
    consumeFrom filter numaCells rest [] s = (.ok none, s') →
      FirstUnmet numaCells rest s ∧ s' = s ∨ ¬ FirstUnmet numaCells rest s ∧ Marked requests s' := by
  intro rest
  induction rest with
  | nil => exact fun _ hrun => by simp [consumeFrom, ret] at hrun
  | cons r rest ih =>
      intro hrest hrun
      have hr := hrest r (List.mem_cons_self ..)
      have hrest' : ∀ r' ∈ rest, r' ∈ requests := fun r' hr' => hrest r' (List.mem_cons_of_mem _ hr')
      rw [consumeFrom_first] at hrun
      by_cases hcount : r.count = 0
      · rw [hcount, if_neg (by omega)] at hrun
        have hskip : FirstUnmet numaCells (r :: rest) s ↔ FirstUnmet numaCells rest s := by
          simp [FirstUnmet, hcount]
        rw [hskip]
        refine ih hrest' ?_
        simpa [Prog.andThen, takePools_zero] using hrun
      · have hfirst : FirstUnmet numaCells (r :: rest) s ↔ total (matching numaCells r s) s < r.count := by
          simp [FirstUnmet, Nat.pos_of_ne_zero hcount]
        rw [hfirst]
        by_cases hunmet : total (matching numaCells r s) s < r.count
        · rw [if_pos hunmet] at hrun
          exact .inl ⟨hunmet, (Prod.mk.inj hrun).2.symm⟩
        · rw [if_neg hunmet] at hrun
          obtain ⟨allocDevices, t, htake, hrun⟩ := andThen_ok hrun
          have hmarked := takePools_marks hr _ _ _ (Nat.pos_of_ne_zero hcount) (by omega) htake
          exact .inr ⟨hunmet, (consumeFrom_marked rest hrest' allocDevices).returns _ _ _ hrun hmarked⟩

end

/-! ## A physical function -/

/-- A card with two virtual functions. -/
def card : State :=
  { node :=
      { dev := fun a =>
          if a = "0000:05:00.0" then { devType := .pf, childDevices := ["0000:05:00.1", "0000:05:00.2"] }
          else if a = "0000:05:00.1" ∨ a = "0000:05:00.2" then
            { devType := .vf, parentDevice := some "0000:05:00.0" }
          else {}
        pciDevices := fun _ => [] } }

/-- Every device is on the whitelist, with a physical network. -/
def physnet : Filter :=
  { columns := fun _ => { productId := "1572", vendorId := "8086" }
    tags := fun _ => some [("physical_network", .text "physnet1")] }

/-- The pools that the functions of the card are added to. -/
def cardPools : State :=
  ((do
    addDevice physnet "0000:05:00.0"
    addDevice physnet "0000:05:00.1"
    addDevice physnet "0000:05:00.2" : Prog State Error Unit) card).2

/-- A port that takes the card. -/
def cardPort : Request :=
  { count := 1, spec := [[("physical_network", .text "physnet1"), ("dev_type", .text "type-PF")]], requestId := 1 }

/-- A port on a network that no device is on. -/
def otherPort : Request := { count := 1, spec := [[("physical_network", .text "physnet2")]], requestId := 2 }

end Stats

end Zun.Pci
