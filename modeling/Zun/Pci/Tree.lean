import Mathlib.Data.List.Sort
import Zun.Effect.Run
import Zun.Objects.PciDevice

/-!
# Device trees

`_build_device_tree` of `zun/pci/manager.py`, and what claims, allocations, frees and removals do to
a tree that it has built.  A physical function and its virtual functions are never in use at once.
What goes wrong is to free: a virtual function looks at the ids of the parent's functions, and one
that was found since the service started has none; and a caller that names the container is refused,
or finds the device freed when it is.
-/

namespace Zun.Pci

open Effect Effect.Prog

/-! ## Building -/

/-- One turn of the loop: the devices, and the physical functions so far. -/
def treeStep (built : Node × List Address) (a : Address) : Node × List Address :=
  let dev := built.1.dev a
  if dev.status ∈ [Status.removed, .deleted] then built
  else match dev.devType with
    | .pf => (change a ({ · with childDevices := [] }) built.1, a :: built.2)
    | .vf =>
        match dev.parentAddr.filter (· ∈ built.2) with
        | some p =>
            (change p (fun d => { d with childDevices := d.childDevices ++ [a] })
              (change a ({ · with parentDevice := some p }) built.1), built.2)
        | none => (change a ({ · with parentDevice := none }) built.1, built.2)
    | .standard => built

/-- `_build_device_tree`. -/
def buildDeviceTree (allDevs : List Address) (n : Node) : Node :=
  ((allDevs.insertionSort (· ≤ ·)).foldl treeStep (n, [])).1

/-- Children are virtual functions, and know their parents. -/
structure Tree (n : Node) : Prop where
  child : ∀ p, ∀ v ∈ (n.dev p).childDevices,
    (n.dev p).devType = .pf ∧ (n.dev v).devType = .vf ∧ (n.dev v).parentDevice = some p
  parent : ∀ v, (n.dev v).devType = .vf → ∀ p, (n.dev v).parentDevice = some p →
    v ∈ (n.dev p).childDevices

theorem Tree.child_ne {n : Node} (h : Tree n) {p v : Address} (hv : v ∈ (n.dev p).childDevices) : v ≠ p := by
  rintro rfl
  obtain ⟨hpf, hvf, -⟩ := h.child v v hv
  simp [hpf] at hvf

/-- No two rows have one id. -/
def Ids (n : Node) : Prop := ∀ a b, (n.dev a).id.isSome → (n.dev a).id = (n.dev b).id → a = b

/-- A device that is available, with the links that it was made with. -/
structure Fresh (d : Device) : Prop where
  status : d.status = .available
  parentDevice : d.parentDevice = none
  childDevices : d.childDevices = []

/-- The fields that neither a claim nor a free touches. -/
def links (d : Device) : Option Nat × DevType × Option Address × List Address :=
  (d.id, d.devType, d.parentDevice, d.childDevices)

variable {a : Address} {n n' : Node}

@[simp] theorem change_dev {f : Device → Device} {b : Address} :
    (change a f n).dev b = if b = a then f (n.dev a) else n.dev b := by
  simp [change, Function.update_apply]

/-- What holds while the tree is built. -/
structure Building (n : Node) (seen parents : List Address) : Prop extends Tree n where
  unseen : ∀ a, a ∉ seen → (n.dev a).parentDevice = none ∧ (n.dev a).childDevices = []
  parents : ∀ p ∈ parents, p ∈ seen ∧ (n.dev p).devType = .pf
  available : ∀ a, (n.dev a).status = .available
  ids : Ids n

/-- A device that finds no parent. -/
theorem Building.see {seen parents : List Address} (h : Building n seen parents) :
    Building n (a :: seen) parents where
  toTree := h.toTree
  unseen b hb := h.unseen b fun hseen => hb (List.mem_cons_of_mem _ hseen)
  parents p hp := ⟨List.mem_cons_of_mem _ (h.parents p hp).1, (h.parents p hp).2⟩
  available := h.available
  ids := h.ids

theorem change_self {f : Device → Device} (h : f (n.dev a) = n.dev a) : change a f n = n := by
  simp [change, h]

/-- A virtual function that finds its parent. -/
theorem Building.link {seen parents : List Address} {p : Address} (h : Building n seen parents)
    (ha : a ∉ seen) (htype : (n.dev a).devType = .vf) (hp : p ∈ parents) :
    Building (change p (fun d => { d with childDevices := d.childDevices ++ [a] })
      (change a ({ · with parentDevice := some p }) n)) (a :: seen) parents := by
  obtain ⟨hseen, hpf⟩ := h.parents p hp
  obtain ⟨hparentless, hchildless⟩ := h.unseen a ha
  have hne : p ≠ a := fun heq => ha (heq ▸ hseen)
  have hnotChild : ∀ q, a ∉ (n.dev q).childDevices := by
    intro q hmem
    have hparent := (h.child q a hmem).2.2
    rw [hparentless] at hparent
    cases hparent
  refine ⟨⟨?_, ?_⟩, ?_, ?_, ?_, ?_⟩
  · intro q v hv
    by_cases hqp : q = p
    · subst hqp
      simp only [change_dev, if_neg hne, if_true, List.mem_append, List.mem_singleton] at hv
      obtain hv | rfl := hv
      · obtain ⟨-, hvf, hparent⟩ := h.child q v hv
        have hva : v ≠ a := fun heq => hnotChild q (heq ▸ hv)
        have hvq : v ≠ q := by
          rintro rfl
          simp [hpf] at hvf
        simp [hne, hva, hvq, hpf, hvf, hparent]
      · simp [hne, hne.symm, hpf, htype]
    · have hv : v ∈ (n.dev q).childDevices := by
        by_cases hqa : q = a
        · subst hqa
          simpa [hqp, hne] using hv
        · simpa [hqp, hqa, hne] using hv
      obtain ⟨hq, hvf, hparent⟩ := h.child q v hv
      have hva : v ≠ a := fun heq => hnotChild q (heq ▸ hv)
      have hqa : q ≠ a := by
        rintro rfl
        simp [htype] at hq
      have hvp : v ≠ p := by
        rintro rfl
        simp [hpf] at hvf
      simp [hqp, hqa, hva, hvp, hq, hvf, hparent]
  · intro v hvf q hparent
    by_cases hva : v = a
    · subst hva
      simp only [change_dev, if_neg hne, if_neg hne.symm, if_true, Option.some.injEq] at hparent
      simp [← hparent, hne]
    · have hvp : v ≠ p := by
        rintro rfl
        simp [hne, hpf] at hvf
      have hmem : v ∈ (n.dev q).childDevices := by
        apply h.parent
        · simpa [hvp, hva] using hvf
        · simpa [hvp, hva] using hparent
      by_cases hqp : q = p
      · subst hqp
        simp [hne, hmem]
      · by_cases hqa : q = a
        · rw [hqa, hchildless] at hmem
          cases hmem
        · simp [hqp, hqa, hmem]
  · intro b hb
    simp only [List.mem_cons, not_or] at hb
    have hbp : b ≠ p := fun heq => hb.2 (heq ▸ hseen)
    simpa [hb.1, hbp] using h.unseen b hb.2
  · intro q hq
    obtain ⟨hqseen, hqpf⟩ := h.parents q hq
    have hqa : q ≠ a := fun heq => ha (heq ▸ hqseen)
    refine ⟨List.mem_cons_of_mem _ hqseen, ?_⟩
    by_cases hqp : q = p
    · simp [hqp, hne, hpf]
    · simp [hqp, hqa, hqpf]
  · intro b
    have havailable := h.available b
    by_cases hbp : b = p <;> by_cases hba : b = a <;> simp_all
  · have hid : ∀ b, ((change p (fun d => { d with childDevices := d.childDevices ++ [a] })
        (change a ({ · with parentDevice := some p }) n)).dev b).id = (n.dev b).id := by
      intro b
      by_cases hbp : b = p <;> by_cases hba : b = a <;> simp_all
    intro x y hx hxy
    rw [hid, hid] at hxy
    rw [hid] at hx
    exact h.ids x y hx hxy

theorem Building.step {seen : List Address} {built : Node × List Address}
    (h : Building built.1 seen built.2) (ha : a ∉ seen) :
    Building (treeStep built a).1 (a :: seen) (treeStep built a).2 := by
  obtain ⟨hparentless, hchildless⟩ := h.unseen a ha
  unfold treeStep
  simp only [h.available a]
  rw [if_neg (by decide)]
  split
  next htype =>
    rw [change_self (by simp [← hchildless])]
    refine ⟨h.toTree, h.see.unseen, ?_, h.available, h.ids⟩
    intro p hp
    obtain rfl | hp := List.mem_cons.mp hp
    · exact ⟨List.mem_cons_self .., htype⟩
    · exact h.see.parents p hp
  next htype =>
    split
    next p hfilter =>
      have hp : p ∈ built.2 := by simpa using (Option.filter_eq_some_iff.mp hfilter).2
      exact h.link ha htype hp
    · rw [change_self (by simp [← hparentless])]
      exact h.see
  next htype => exact h.see

theorem Building.foldl {devs seen : List Address} {built : Node × List Address}
    (h : Building built.1 seen built.2) (hdevs : devs.Nodup) (hseen : ∀ a ∈ devs, a ∉ seen) :
    ∃ seen', Building (devs.foldl treeStep built).1 seen' (devs.foldl treeStep built).2 := by
  induction devs generalizing built seen with
  | nil => exact ⟨seen, h⟩
  | cons a devs ih =>
    obtain ⟨hnotin, hdevs⟩ := List.nodup_cons.mp hdevs
    apply ih (h.step (hseen a (List.mem_cons_self ..))) hdevs
    intro b hb hmem
    obtain rfl | hmem := List.mem_cons.mp hmem
    · exact hnotin hb
    · exact hseen b (List.mem_cons_of_mem _ hb) hmem

/-- Built over devices that are all available, whatever they are. -/
theorem buildDeviceTree_building {devs : List Address} (hdevs : devs.Nodup)
    (hfresh : ∀ a, Fresh (n.dev a)) (hids : Ids n) :
    ∃ seen parents, Building (buildDeviceTree devs n) seen parents := by
  have hbegin : Building n [] [] := by
    refine ⟨⟨?_, ?_⟩, ?_, nofun, fun a => (hfresh a).status, hids⟩
    · intro p v hv
      simp [(hfresh p).childDevices] at hv
    · intro v _ p hparent
      simp [(hfresh v).parentDevice] at hparent
    · exact fun a _ => ⟨(hfresh a).parentDevice, (hfresh a).childDevices⟩
  have hsorted : (devs.insertionSort (· ≤ ·)).Nodup :=
    ((List.perm_insertionSort _ devs).nodup_iff).mpr hdevs
  have hpair : Building ((n, []) : Node × List Address).1 [] ((n, []) : Node × List Address).2 :=
    hbegin
  obtain ⟨seen, h⟩ := hpair.foldl hsorted nofun
  exact ⟨seen, _, h⟩

/-! ## Runs -/

inductive Call where
  | claim (a : Address) (container : Uuid)
  | allocate (a : Address) (container : Uuid)
  | remove (a : Address)
  | free (a : Address) (container : Option Caller)

def Call.run : Call → Prog Node Error Unit
  | .claim a container => Pci.claim a container
  | .allocate a container => Pci.allocate a container
  | .remove a => Pci.remove a
  | .free a container => andThen (Pci.free a container) fun _ => ret ()

structure State where
  node : Node
  /-- The containers that were given a device which was not freed since.  The code does not keep
  this. -/
  holders : Address → List Uuid

/-- The holders of the device once a container was given it. -/
def give (container : Uuid) (holders : List Uuid) : List Uuid :=
  if container ∈ holders then holders else container :: holders

def holdersAfter (call : Call) (r : Result Error Unit) (n' : Node) (holders : Address → List Uuid) :
    Address → List Uuid :=
  match call with
  | .claim a container | .allocate a container =>
      if r = .ok () then Function.update holders a (give container (holders a)) else holders
  | .remove _ => holders
  | .free a _ => if (n'.dev a).status.held then holders else Function.update holders a []

def step (call : Call) (s : State) : State :=
  let r := call.run s.node
  { node := r.2, holders := holdersAfter call r.1 r.2 s.holders }

/-- A tree that was built with every device available. -/
structure Begun (s : State) : Prop where
  built : ∃ devs n, devs.Nodup ∧ (∀ a, Fresh (n.dev a)) ∧ Ids n ∧ s.node = buildDeviceTree devs n
  holders : ∀ a, s.holders a = []

/-- No physical function is in use together with one of its virtual functions. -/
def Exclusive (s : State) : Prop :=
  ∀ p, ∀ v ∈ (s.node.dev p).childDevices,
    ¬ ((s.node.dev p).status.held = true ∧ (s.node.dev v).status.held = true)

/-- No device is held for two containers. -/
def OneHolder (s : State) : Prop := ∀ a, ∀ c ∈ s.holders a, ∀ c' ∈ s.holders a, c = c'

/-- A call that raises changes no status, and a free raises only for a device that is not in use or
is another container's. -/
structure Meets (call : Call) (s : State) : Prop where
  unchanged : (∃ e, (call.run s.node).1 = .raise e) →
    ∀ b, ((call.run s.node).2.dev b).status = (s.node.dev b).status
  frees : ∀ a container, call = .free a container → (∃ e, (call.run s.node).1 = .raise e) →
    (s.node.dev a).status.held = false ∨
      ∃ caller, container = some caller ∧ (s.node.dev a).containerUuid ≠ some caller.uuid

/-- A device that is freed for its owner has the ids of the parent's functions set; and the caller
names no container, or the device is claimed only and the caller is a mapping. -/
def Freeable (call : Call) (s : State) : Prop :=
  ∀ a container, call = .free a container → (s.node.dev a).status.held = true →
    (∀ caller, container = some caller → (s.node.dev a).containerUuid = some caller.uuid) →
    IdsSet a s.node ∧
      ∀ caller, container = some caller →
        caller.subscriptable = true ∧ (s.node.dev a).status = .claimed

/-! ## What stays true -/

/-- The statuses of a physical function and one of its virtual functions. -/
def Fits : Status → Status → Bool
  | .available, v | .removed, v | .deleted, v => v = .available || v = .removed
  | .claimed, v | .allocated, v => v = .unclaimable || v = .unavailable
  | .unclaimable, v | .unavailable, v =>
      v = .available || v = .removed || v = .claimed || v = .allocated

/-- Every family fits. -/
def AllFit (n : Node) : Prop :=
  ∀ p, ∀ v ∈ (n.dev p).childDevices, Fits (n.dev p).status (n.dev v).status = true

/-- The links of every device are as they were. -/
def SameLinks (n n' : Node) : Prop := ∀ b, links (n'.dev b) = links (n.dev b)

structure Inv (s : State) : Prop where
  tree : Tree s.node
  ids : Ids s.node
  fits : AllFit s.node
  held : ∀ a, (s.node.dev a).status.held = true →
    ∃ c, (s.node.dev a).containerUuid = some c ∧ s.holders a = [c]
  free : ∀ a, (s.node.dev a).status.held = false → s.holders a = []

namespace SameLinks

theorem id (h : SameLinks n n') (b : Address) : (n'.dev b).id = (n.dev b).id :=
  congrArg (·.1) (h b)

theorem devType (h : SameLinks n n') (b : Address) : (n'.dev b).devType = (n.dev b).devType :=
  congrArg (·.2.1) (h b)

theorem parentDevice (h : SameLinks n n') (b : Address) :
    (n'.dev b).parentDevice = (n.dev b).parentDevice :=
  congrArg (·.2.2.1) (h b)

theorem childDevices (h : SameLinks n n') (b : Address) :
    (n'.dev b).childDevices = (n.dev b).childDevices :=
  congrArg (·.2.2.2) (h b)

theorem trans {n'' : Node} (h : SameLinks n n') (h' : SameLinks n' n'') : SameLinks n n'' :=
  fun b => (h' b).trans (h b)

theorem tree (h : SameLinks n n') (htree : Tree n) : Tree n' where
  child p v hv := by
    rw [h.childDevices] at hv
    rw [h.devType, h.devType, h.parentDevice]
    exact htree.child p v hv
  parent v hvf p hparent := by
    rw [h.devType] at hvf
    rw [h.parentDevice] at hparent
    rw [h.childDevices]
    exact htree.parent v hvf p hparent

theorem ids (h : SameLinks n n') (hids : Ids n) : Ids n' := by
  intro x y hx hxy
  rw [h.id] at hx
  rw [h.id, h.id] at hxy
  exact hids x y hx hxy

end SameLinks

theorem sameLinks_change {f : Device → Device} (h : ∀ d, links (f d) = links d) :
    SameLinks n (change a f n) := by
  intro b
  rw [change_dev]
  split
  next hb => rw [h, hb]
  · rfl

theorem sameLinks_bulk {devs : List Address} {status : Status} :
    SameLinks n (bulkUpdateStatus devs status n) := by
  intro b
  simp only [bulkUpdateStatus]
  split <;> rfl

theorem sameLinks_withRelatives {dependants : Status} {mark : Status → Status} :
    SameLinks n (withRelatives a dependants mark n) := by
  unfold withRelatives
  split
  · exact sameLinks_bulk
  · exact sameLinks_change fun _ => rfl
  · exact fun _ => rfl

theorem sameLinks_freed : SameLinks n (freed a n) := by
  have hrelatives : SameLinks n (relativesFreed a n) := by
    unfold relativesFreed
    split
    · exact sameLinks_bulk
    · exact sameLinks_change fun _ => rfl
    · exact fun _ => rfl
  exact hrelatives.trans (sameLinks_change fun _ => rfl)

/-- Only one family's statuses have changed, and they fit. -/
theorem AllFit.family {q : Address} (h : AllFit n) (htree : Tree n) (hlinks : SameLinks n n')
    (hq : (n.dev q).devType = .pf)
    (hfamily : ∀ v ∈ (n.dev q).childDevices, Fits (n'.dev q).status (n'.dev v).status = true)
    (hother : ∀ b, b ≠ q → b ∉ (n.dev q).childDevices → (n'.dev b).status = (n.dev b).status) :
    AllFit n' := by
  intro p v hv
  rw [hlinks.childDevices] at hv
  by_cases hpq : p = q
  · subst hpq
    exact hfamily v hv
  · obtain ⟨hpf, hvf, hparent⟩ := htree.child p v hv
    have hvq : v ≠ q := by
      rintro rfl
      simp [hq] at hvf
    have hv' : v ∉ (n.dev q).childDevices := by
      intro hmem
      have hparent' := (htree.child q v hmem).2.2
      rw [hparent] at hparent'
      cases hparent'
      exact hpq rfl
    have hp' : p ∉ (n.dev q).childDevices := by
      intro hmem
      have hvf' := (htree.child q p hmem).2.1
      rw [hpf] at hvf'
      cases hvf'
    rw [hother p hpq hp', hother v hvq hv']
    exact h p v hv

/-- Only the status of a device has changed that is in no family. -/
theorem AllFit.alone (h : AllFit n) (htree : Tree n) (hlinks : SameLinks n n')
    (hpf : (n.dev a).devType ≠ .pf)
    (hvf : (n.dev a).devType = .vf → (n.dev a).parentDevice = none)
    (hother : ∀ b, b ≠ a → (n'.dev b).status = (n.dev b).status) : AllFit n' := by
  intro p v hv
  rw [hlinks.childDevices] at hv
  obtain ⟨hp, hv', hparent⟩ := htree.child p v hv
  have hpa : p ≠ a := by
    rintro rfl
    exact hpf hp
  have hva : v ≠ a := by
    rintro rfl
    rw [hvf hv'] at hparent
    cases hparent
  rw [hother p hpa, hother v hva]
  exact h p v hv

variable {s : State} {c : Uuid}

/-- A call about `a` has changed the use of no other device. -/
theorem Inv.after {holders : Address → List Uuid} (h : Inv s) (hlinks : SameLinks s.node n')
    (hfits : AllFit n')
    (hothers : ∀ b, b ≠ a → (n'.dev b).status.held = (s.node.dev b).status.held ∧
      (n'.dev b).containerUuid = (s.node.dev b).containerUuid ∧ holders b = s.holders b)
    (ha : (n'.dev a).status.held = true → ∃ c, (n'.dev a).containerUuid = some c ∧ holders a = [c])
    (ha' : (n'.dev a).status.held = false → holders a = []) : Inv ⟨n', holders⟩ where
  tree := hlinks.tree h.tree
  ids := hlinks.ids h.ids
  fits := hfits
  held b hb := by
    by_cases hba : b = a
    · subst hba
      exact ha hb
    · obtain ⟨hheld, huuid, hholders⟩ := hothers b hba
      obtain ⟨c, hc, hone⟩ := h.held b (hheld.symm.trans hb)
      exact ⟨c, huuid.trans hc, hholders.trans hone⟩
  free b hb := by
    by_cases hba : b = a
    · subst hba
      exact ha' hb
    · obtain ⟨hheld, -, hholders⟩ := hothers b hba
      exact hholders.trans (h.free b (hheld.symm.trans hb))

/-- The statuses that a device is given so that its relatives cannot be taken. -/
def Bars (status : Status) : Prop := status = .unclaimable ∨ status = .unavailable

instance (status : Status) : Decidable (Bars status) := inferInstanceAs (Decidable (_ ∨ _))

theorem Bars.held {status : Status} (h : Bars status) : status.held = false := by
  obtain rfl | rfl := h <;> rfl

theorem fits_barred {p v : Status} (hp : p.held = true) (hv : Bars v) : Fits p v = true := by
  cases p <;> cases hp <;> obtain rfl | rfl := hv <;> rfl

/-- What a barred parent's functions may be. -/
theorem fits_of_barred {p v : Status} (hp : Bars p)
    (hv : v = .available ∨ v = .removed ∨ v.held = true) : Fits p v = true := by
  obtain rfl | rfl := hp <;> obtain rfl | rfl | hv := hv <;>
    first | rfl | (cases v <;> simp_all [Fits, Status.held])

theorem parentOk_held {p : Status} (h : p ∈ parentOkStatuses) : p.held = false := by
  simp only [parentOkStatuses, List.mem_cons, List.not_mem_nil, or_false] at h
  obtain rfl | rfl | rfl := h <;> rfl

/-- Where a function may be taken, its siblings are free or taken themselves. -/
theorem fits_parentOk {p v : Status} (h : p ∈ parentOkStatuses) (hfits : Fits p v = true) :
    v = .available ∨ v = .removed ∨ v.held = true := by
  simp only [parentOkStatuses, List.mem_cons, List.not_mem_nil, or_false] at h
  obtain rfl | rfl | rfl := h <;> cases v <;> simp_all [Fits, Status.held]

section

variable {status dependants : Status} {mark : Status → Status} {ok : List Status}

/-- The node once a device is taken. -/
def taken (a : Address) (status : Status) (c : Uuid) (dependants : Status)
    (mark : Status → Status) (n : Node) : Node :=
  hold a status c (withRelatives a dependants mark n)

theorem sameLinks_taken : SameLinks n (taken a status c dependants mark n) := by
  unfold taken hold
  exact sameLinks_withRelatives.trans (sameLinks_change fun _ => rfl)

theorem taken_self : ((taken a status c dependants mark n).dev a).status = status ∧
    ((taken a status c dependants mark n).dev a).containerUuid = some c := by
  simp [taken, hold]

theorem taken_other {b : Address} (hb : b ≠ a) :
    (taken a status c dependants mark n).dev b = (withRelatives a dependants mark n).dev b := by
  simp [taken, hold, hb]

/-- Relatives that a device may be taken with are not in use, and are not afterwards. -/
theorem withRelatives_held {b : Address} (hmay : MayTake a ok n) (hok : ∀ x ∈ ok, x.held = false)
    (hdependants : Bars dependants) (hmark : ∀ x ∈ parentOkStatuses, Bars (mark x)) :
    ((withRelatives a dependants mark n).dev b).status.held = (n.dev b).status.held ∧
      ((withRelatives a dependants mark n).dev b).containerUuid = (n.dev b).containerUuid := by
  unfold withRelatives
  split
  next htype =>
    simp only [bulkUpdateStatus]
    split
    next hb =>
      rw [hdependants.held, hok _ (hmay.dependants htype b hb)]
      exact ⟨rfl, rfl⟩
    · exact ⟨rfl, rfl⟩
  next p htype hp =>
    simp only [setStatus, change_dev]
    split
    next hb =>
      subst hb
      have hstatus := hmay.parent htype b hp
      rw [(hmark _ hstatus).held, parentOk_held hstatus]
      exact ⟨rfl, rfl⟩
    · exact ⟨rfl, rfl⟩
  · exact ⟨rfl, rfl⟩

theorem allFit_taken (h : AllFit n) (htree : Tree n) (hmay : MayTake a ok n)
    (hstatus : status.held = true) (hdependants : Bars dependants)
    (hmark : ∀ x ∈ parentOkStatuses, Bars (mark x)) :
    AllFit (taken a status c dependants mark n) := by
  cases htype : (n.dev a).devType with
  | pf =>
    apply h.family htree sameLinks_taken htype
    · intro v hv
      have hva : v ≠ a := htree.child_ne hv
      rw [taken_self.1, taken_other hva, withRelatives_pf htype]
      simp only [bulkUpdateStatus, if_pos hv]
      exact fits_barred hstatus hdependants
    · intro b hba hb
      rw [taken_other hba, withRelatives_pf htype]
      simp only [bulkUpdateStatus, if_neg hb]
  | vf =>
    cases hparent : (n.dev a).parentDevice with
    | some q =>
      have ha := htree.parent a htype q hparent
      have hqpf := (htree.child q a ha).1
      have hqa : q ≠ a := (htree.child_ne ha).symm
      have hq := hmay.parent htype q hparent
      apply h.family htree sameLinks_taken hqpf
      · intro v hv
        rw [taken_other hqa, withRelatives_vf htype hparent]
        simp only [setStatus, change_dev, if_true]
        apply fits_of_barred (hmark _ hq)
        by_cases hva : v = a
        · rw [hva, taken_self.1]
          exact .inr (.inr hstatus)
        · have hvq : v ≠ q := htree.child_ne hv
          rw [taken_other hva, withRelatives_vf htype hparent]
          simp only [setStatus, change_dev, if_neg hvq]
          exact fits_parentOk hq (h q v hv)
      · intro b hbq hb
        have hba : b ≠ a := fun heq => hb (heq ▸ ha)
        rw [taken_other hba, withRelatives_vf htype hparent]
        simp [setStatus, hbq]
    | none =>
      apply h.alone htree sameLinks_taken (a := a)
      · simp [htype]
      · exact fun _ => hparent
      · intro b hba
        rw [taken_other hba, withRelatives_alone (by simp [htype]) fun _ => hparent]
  | standard =>
    apply h.alone htree sameLinks_taken (a := a)
    · simp [htype]
    · simp [htype]
    · intro b hba
      rw [taken_other hba, withRelatives_alone (by simp [htype]) (by simp [htype])]

/-- A device that was available, or the container's, is taken for it. -/
theorem inv_taken (status dependants : Status) (mark : Status → Status) (h : Inv s)
    (hmay : MayTake a ok s.node) (hok : ∀ x ∈ ok, x.held = false)
    (hstatus : status.held = true) (hdependants : Bars dependants)
    (hmark : ∀ x ∈ parentOkStatuses, Bars (mark x))
    (howner : (s.node.dev a).status = .available ∨
      (s.node.dev a).status = .claimed ∧ (s.node.dev a).containerUuid = some c)
    (hdev : n'.dev = (taken a status c dependants mark s.node).dev) :
    Inv ⟨n', Function.update s.holders a (give c (s.holders a))⟩ := by
  have hlinks : SameLinks s.node n' := by
    intro b
    rw [hdev]
    exact sameLinks_taken b
  apply h.after hlinks (a := a)
  · have hfits := allFit_taken (c := c) h.fits h.tree hmay hstatus hdependants hmark
    unfold AllFit at hfits ⊢
    rw [hdev]
    exact hfits
  · intro b hba
    rw [hdev, taken_other hba]
    obtain ⟨hheld, huuid⟩ := withRelatives_held (b := b) hmay hok hdependants hmark
    exact ⟨hheld, huuid, by simp [hba]⟩
  · intro _
    refine ⟨c, ?_, ?_⟩
    · rw [hdev, taken_self.2]
    · rw [Function.update_self, give]
      obtain havailable | ⟨hclaimed, huuid⟩ := howner
      · have hnone := h.free a (by rw [havailable]; rfl)
        simp [hnone]
      · obtain ⟨c', hc', hone⟩ := h.held a (by rw [hclaimed]; rfl)
        cases huuid.symm.trans hc'
        simp [hone]
  · intro hheld
    rw [hdev, taken_self.1, hstatus] at hheld
    cases hheld

end

theorem inv_claim (h : Inv s) : Inv (step (.claim a c) s) := by
  obtain ⟨hok, hstatus, hmay, hnode⟩ | ⟨⟨e, he⟩, hnode⟩ :=
    claim_spec (a := a) (n := s.node) c
  · have hdev : (claim a c s.node).2.dev =
        (taken a .claimed c .unclaimable markClaimed s.node).dev := by
      rw [hnode]
      rfl
    have hinv := inv_taken .claimed .unclaimable markClaimed h hmay (by decide) rfl (.inl rfl)
      (by decide) (.inl hstatus) hdev
    simpa [step, Call.run, holdersAfter, hok] using hinv
  · simpa [step, Call.run, holdersAfter, he, hnode] using h

theorem inv_allocate (h : Inv s) : Inv (step (.allocate a c) s) := by
  obtain ⟨hok, hstatus, hmay, hnode⟩ | ⟨⟨e, he⟩, hnode⟩ :=
    allocate_spec (a := a) (n := s.node) c
  · have hinv := inv_taken .allocated .unavailable (fun _ => .unavailable) h hmay (by decide) rfl
      (.inr rfl) (by decide) hstatus hnode
    simpa [step, Call.run, holdersAfter, hok] using hinv
  · simpa [step, Call.run, holdersAfter, he, hnode] using h

theorem fits_removed_child {p : Status} (h : Fits p .available = true) :
    Fits p .removed = true := by
  cases p <;> first | rfl | cases h

theorem allFit_remove {f : Device → Device} (h : AllFit n) (htree : Tree n)
    (hlinks : SameLinks n (change a f n)) (hstatus : (n.dev a).status = .available)
    (hremoved : (f (n.dev a)).status = .removed) : AllFit (change a f n) := by
  have hother : ∀ b, b ≠ a → ((change a f n).dev b).status = (n.dev b).status := by
    intro b hba
    simp [hba]
  have hself : ((change a f n).dev a).status = .removed := by simpa using hremoved
  cases htype : (n.dev a).devType with
  | pf =>
    apply h.family htree hlinks htype
    · intro v hv
      have hva : v ≠ a := htree.child_ne hv
      have hfits := h a v hv
      rw [hself, hother v hva]
      rwa [hstatus] at hfits
    · exact fun b hba _ => hother b hba
  | vf =>
    cases hparent : (n.dev a).parentDevice with
    | some q =>
      have ha := htree.parent a htype q hparent
      have hqpf := (htree.child q a ha).1
      have hqa : q ≠ a := (htree.child_ne ha).symm
      apply h.family htree hlinks hqpf
      · intro v hv
        have hfits := h q v hv
        rw [hother q hqa]
        by_cases hva : v = a
        · subst hva
          rw [hstatus] at hfits
          rw [hself]
          exact fits_removed_child hfits
        · rwa [hother v hva]
      · exact fun b _ hb => hother b fun heq => hb (heq ▸ ha)
    | none => exact h.alone htree hlinks (by simp [htype]) (fun _ => hparent) hother
  | standard => exact h.alone htree hlinks (by simp [htype]) (by simp [htype]) hother

theorem inv_remove (h : Inv s) : Inv (step (.remove a) s) := by
  obtain ⟨hok, hstatus, hnode⟩ | ⟨⟨e, he⟩, hnode⟩ := remove_spec (a := a) (n := s.node)
  · have hlinks : SameLinks s.node (change a ({ · with
        status := .removed, containerUuid := none, requestId := none }) s.node) :=
      sameLinks_change fun _ => rfl
    rw [step, Call.run, holdersAfter, hnode]
    apply h.after hlinks (a := a)
    · exact allFit_remove h.fits h.tree hlinks hstatus rfl
    · intro b hba
      simp [hba]
    · intro hheld
      simp [Status.held] at hheld
    · intro _
      exact h.free a (by rw [hstatus]; rfl)
  · simpa [step, Call.run, holdersAfter, hnode] using h

/-! ### Freeing -/

/-- The virtual functions of a physical function that is in use are barred. -/
theorem barred_of_held {p v : Status} (hp : p.held = true) (h : Fits p v = true) : Bars v := by
  cases p <;> cases hp <;> cases v <;> first | exact .inl rfl | exact .inr rfl | cases h

/-- The parent of a virtual function that is in use is barred. -/
theorem barred_parent {p v : Status} (hv : v.held = true) (h : Fits p v = true) : Bars p := by
  cases v <;> cases hv <;> cases p <;> first | exact .inl rfl | exact .inr rfl | cases h

theorem freed_self : ((freed a n).dev a).status = .available := by simp [freed]

theorem freed_other {b : Address} (hb : b ≠ a) :
    (freed a n).dev b = (relativesFreed a n).dev b := by
  simp [freed, hb]

theorem relativesFreed_alone (hpf : (n.dev a).devType ≠ .pf)
    (hvf : (n.dev a).devType = .vf → (n.dev a).parentDevice = none) : relativesFreed a n = n := by
  cases htype : (n.dev a).devType with
  | standard => simp [relativesFreed, htype]
  | pf => exact absurd htype hpf
  | vf => simp [relativesFreed, htype, hvf htype]

theorem relativesFreed_pf (htype : (n.dev a).devType = .pf) :
    relativesFreed a n = bulkUpdateStatus (n.dev a).childDevices .available n := by
  simp [relativesFreed, htype]

/-- Relatives that are freed with a device were not in use. -/
theorem relativesFreed_held {b : Address} (h : AllFit n) (htree : Tree n)
    (hheld : (n.dev a).status.held = true) :
    ((relativesFreed a n).dev b).status.held = (n.dev b).status.held ∧
      ((relativesFreed a n).dev b).containerUuid = (n.dev b).containerUuid := by
  unfold relativesFreed
  split
  · simp only [bulkUpdateStatus]
    split
    next hb =>
      rw [(barred_of_held hheld (h a b hb)).held]
      exact ⟨rfl, rfl⟩
    · exact ⟨rfl, rfl⟩
  next p htype hp =>
    simp only [setStatus, change_dev]
    split
    next hb =>
      subst hb
      have hbarred := barred_parent hheld (h b a (htree.parent a htype b hp))
      refine ⟨?_, rfl⟩
      show (parentFreed a b n).held = _
      unfold parentFreed
      split
      · exact hbarred.held.symm
      · rfl
    · exact ⟨rfl, rfl⟩
  · exact ⟨rfl, rfl⟩

theorem allFit_freed (h : AllFit n) (htree : Tree n) (hids : Ids n)
    (hheld : (n.dev a).status.held = true) (hset : IdsSet a n) : AllFit (freed a n) := by
  cases htype : (n.dev a).devType with
  | pf =>
    apply h.family htree sameLinks_freed htype
    · intro v hv
      have hva : v ≠ a := htree.child_ne hv
      rw [freed_self, freed_other hva, relativesFreed_pf htype]
      simp [bulkUpdateStatus, hv, Fits]
    · intro b hba hb
      rw [freed_other hba, relativesFreed_pf htype]
      simp [bulkUpdateStatus, hb]
  | vf =>
    cases hparent : (n.dev a).parentDevice with
    | some q =>
      have ha := htree.parent a htype q hparent
      have hqpf := (htree.child q a ha).1
      have hqa : q ≠ a := (htree.child_ne ha).symm
      have hother : ∀ b, b ≠ q → b ≠ a → ((freed a n).dev b).status = (n.dev b).status := by
        intro b hbq hba
        rw [freed_other hba, relativesFreed_vf htype hparent]
        simp [setStatus, hbq]
      have hq : ((freed a n).dev q).status = parentFreed a q n := by
        rw [freed_other hqa, relativesFreed_vf htype hparent]
        simp [setStatus]
      apply h.family htree sameLinks_freed hqpf
      · intro v hv
        have hvq : v ≠ q := htree.child_ne hv
        rw [hq, parentFreed]
        split
        next hall =>
          by_cases hva : v = a
          · rw [hva, freed_self]
            rfl
          · have hne : (n.dev v).id ≠ (n.dev a).id :=
              fun heq => hva (hids v a (hset htype q hparent v hv) heq)
            rw [hother v hvq hva, hall v hv hne]
            rfl
        · by_cases hva : v = a
          · rw [hva, freed_self]
            exact fits_of_barred (barred_parent hheld (h q a ha)) (.inl rfl)
          · rw [hother v hvq hva]
            exact h q v hv
      · exact fun b hbq hb => hother b hbq fun heq => hb (heq ▸ ha)
    | none =>
      apply h.alone htree sameLinks_freed (a := a)
      · simp [htype]
      · exact fun _ => hparent
      · intro b hba
        rw [freed_other hba, relativesFreed_alone (by simp [htype]) fun _ => hparent]
  | standard =>
    apply h.alone htree sameLinks_freed (a := a)
    · simp [htype]
    · simp [htype]
    · intro b hba
      rw [freed_other hba, relativesFreed_alone (by simp [htype]) (by simp [htype])]

theorem run_free_node {container : Option Caller} :
    ((Call.free a container).run n).2 = (free a container n).2 := by
  simp only [Call.run, andThen]
  split <;> simp_all [ret]

theorem run_free_raise {container : Option Caller} :
    (∃ e, ((Call.free a container).run n).1 = .raise e) ↔
      ∃ e, (free a container n).1 = .raise e := by
  simp only [Call.run, andThen]
  split <;> simp_all [ret]

theorem inv_free {container : Option Caller} (h : Inv s) : Inv (step (.free a container) s) := by
  rw [step, holdersAfter, run_free_node]
  obtain ⟨hgoes, hnode, -⟩ | ⟨⟨hheld, -, hset⟩, hnode, -⟩ :=
    free_spec container (h.tree.parent a)
  · rw [hnode]
    split
    · exact h
    next hfree =>
      have hnone := h.free a (by simpa using hfree)
      rw [← hnone, Function.update_eq_self]
      exact h
  · rw [hnode]
    rw [if_neg (by simp [freed_self, Status.held])]
    apply h.after sameLinks_freed (a := a)
    · exact allFit_freed h.fits h.tree h.ids hheld hset
    · intro b hba
      rw [freed_other hba]
      obtain ⟨hheld', huuid⟩ := relativesFreed_held (b := b) h.fits h.tree hheld
      exact ⟨hheld', huuid, by simp [hba]⟩
    · intro hheld'
      simp [freed_self, Status.held] at hheld'
    · intro _
      simp

theorem inv_step (call : Call) (h : Inv s) : Inv (step call s) := by
  cases call with
  | claim a c => exact inv_claim h
  | allocate a c => exact inv_allocate h
  | remove a => exact inv_remove h
  | free a container => exact inv_free h

theorem inv_begun (h : Begun s) : Inv s := by
  obtain ⟨⟨devs, n, hdevs, hfresh, hids, hnode⟩, hholders⟩ := h
  obtain ⟨seen, parents, hbuilt⟩ := buildDeviceTree_building hdevs hfresh hids
  rw [← hnode] at hbuilt
  refine ⟨hbuilt.toTree, hbuilt.ids, ?_, ?_, fun a _ => hholders a⟩
  · intro p v _
    rw [hbuilt.available, hbuilt.available]
    rfl
  · intro a hheld
    rw [hbuilt.available] at hheld
    cases hheld

/-! ## The results -/

theorem Inv.exclusive (h : Inv s) : Exclusive s := by
  intro p v hv ⟨hp, hheld⟩
  have hbarred := barred_of_held hp (h.fits p v hv)
  rw [hbarred.held] at hheld
  cases hheld

theorem Inv.oneHolder (h : Inv s) : OneHolder s := by
  intro a c hc c' hc'
  cases hheld : (s.node.dev a).status.held with
  | true =>
    obtain ⟨owner, -, hone⟩ := h.held a hheld
    rw [hone] at hc hc'
    rw [List.mem_singleton.mp hc, List.mem_singleton.mp hc']
  | false =>
    rw [h.free a hheld] at hc
    cases hc

/-- A claim, an allocation or a removal that raises has changed nothing. -/
theorem meets_of_unchanged {call : Call} (hfree : ∀ a container, call ≠ .free a container)
    (h : (∃ e, (call.run s.node).1 = .raise e) → (call.run s.node).2 = s.node) :
    Meets call s where
  unchanged he b := by rw [h he]
  frees a container hcall := absurd hcall (hfree a container)

theorem freeable_of {call : Call} (hfree : ∀ a container, call ≠ .free a container) :
    Freeable call s :=
  fun a container hcall => absurd hcall (hfree a container)

/-- A free that meets the condition raises only where it does not go ahead. -/
theorem not_goes_of_raise {container : Option Caller} (h : Inv s)
    (hfreeable : Freeable (.free a container) s)
    (he : ∃ e, (free a container s.node).1 = .raise e) :
    ¬ Goes a container s.node ∧ (free a container s.node).2 = s.node := by
  obtain ⟨hgoes, hnode, -⟩ | ⟨⟨hheld, hasked, -⟩, -, ⟨⟨l, hl⟩, -⟩ | ⟨-, hsome, hallocated⟩⟩ :=
    free_spec container (h.tree.parent a)
  · exact ⟨hgoes, hnode⟩
  · obtain ⟨e, he⟩ := he
    rw [hl] at he
    cases he
  · obtain ⟨caller, rfl⟩ := Option.ne_none_iff_exists'.mp hsome
    have howner : ∀ c, some caller = some c → (s.node.dev a).containerUuid = some c.uuid := by
      intro c hc
      cases hc
      by_contra hne
      exact hasked ⟨caller, rfl, .inr hne⟩
    have hclaimed := ((hfreeable a _ rfl hheld howner).2 caller rfl).2
    rw [hallocated] at hclaimed
    cases hclaimed

theorem meets_free_iff {container : Option Caller} (h : Inv s) :
    Meets (.free a container) s ↔ Freeable (.free a container) s := by
  constructor
  · intro hmeets a' container' hcall hheld howner
    cases hcall
    -- whoever frees a device for its owner must not be refused
    have hfrees : ¬ ∃ e, (free a container s.node).1 = .raise e := by
      intro he
      obtain hfree | ⟨caller, rfl, hne⟩ := hmeets.frees a container rfl (run_free_raise.mpr he)
      · rw [hheld] at hfree
        cases hfree
      · exact absurd (howner caller rfl) hne
    obtain ⟨-, -, he⟩ | ⟨⟨-, hasked, hset⟩, -, ⟨-, hnone⟩ | ⟨he, -, -⟩⟩ :=
      free_spec container (h.tree.parent a)
    · exact absurd he hfrees
    · refine ⟨hset, ?_⟩
      intro caller hcaller
      subst hcaller
      have hsub : caller.subscriptable = true := by
        by_contra hsub
        exact hasked ⟨caller, rfl, .inl (by simpa using hsub)⟩
      exact ⟨hsub, hnone.resolve_left nofun⟩
    · exact absurd he hfrees
  · intro hfreeable
    constructor
    · intro he b
      rw [run_free_node, (not_goes_of_raise h hfreeable (run_free_raise.mp he)).2]
    · intro a' container' hcall he
      cases hcall
      obtain ⟨hgoes, -⟩ := not_goes_of_raise h hfreeable (run_free_raise.mp he)
      by_contra hright
      simp only [not_or, not_exists, not_and, not_not] at hright
      have hheld : (s.node.dev a).status.held = true := by simpa using hright.1
      obtain ⟨hset, hcaller⟩ := hfreeable a _ rfl hheld hright.2
      refine hgoes ⟨hheld, ?_, hset⟩
      rintro ⟨caller, rfl, hsub | hne⟩
      · rw [(hcaller caller rfl).1] at hsub
        cases hsub
      · exact hne (hright.2 caller rfl)

theorem meets_iff (call : Call) (h : Inv s) : Meets call s ↔ Freeable call s := by
  cases call with
  | free a container => exact meets_free_iff h
  | claim a c =>
    refine iff_of_true (meets_of_unchanged nofun ?_) (freeable_of nofun)
    rintro ⟨e, he⟩
    obtain ⟨hok, -⟩ | ⟨-, hnode⟩ := claim_spec (a := a) (n := s.node) c
    · cases hok.symm.trans he
    · exact hnode
  | allocate a c =>
    refine iff_of_true (meets_of_unchanged nofun ?_) (freeable_of nofun)
    rintro ⟨e, he⟩
    obtain ⟨hok, -⟩ | ⟨-, hnode⟩ := allocate_spec (a := a) (n := s.node) c
    · cases hok.symm.trans he
    · exact hnode
  | remove a =>
    refine iff_of_true (meets_of_unchanged nofun ?_) (freeable_of nofun)
    rintro ⟨e, he⟩
    obtain ⟨hok, -⟩ | ⟨-, hnode⟩ := remove_spec (a := a) (n := s.node)
    · cases hok.symm.trans he
    · exact hnode

/-- A card at `0000:0a:00.0` with two virtual functions, one of which has no row yet. -/
def card : Node where
  dev a :=
    if a = "0000:0a:00.0" then { id := some 1, devType := .pf }
    else if a = "0000:0a:00.1" then
      { id := some 2, devType := .vf, parentAddr := some "0000:0a:00.0" }
    else if a = "0000:0a:00.2" then { devType := .vf, parentAddr := some "0000:0a:00.0" }
    else {}
  pciDevices _ := []

def cardBuilt : State where
  node := buildDeviceTree ["0000:0a:00.0", "0000:0a:00.1", "0000:0a:00.2"] card
  holders _ := []

theorem begun_cardBuilt : Begun cardBuilt := by
  refine ⟨⟨["0000:0a:00.0", "0000:0a:00.1", "0000:0a:00.2"], card, by decide, ?_, ?_, rfl⟩,
    fun _ => rfl⟩
  · intro a
    constructor <;> (unfold card; simp only; split_ifs <;> rfl)
  · intro a b ha hab
    simp only [card] at ha hab
    split_ifs at ha hab <;> simp_all

/-- The card itself is claimed for a container. -/
def cardTaken : State := step (.claim "0000:0a:00.0" 7) cardBuilt

/-- The first function is claimed for a container. -/
def cardClaimed : State := step (.claim "0000:0a:00.1" 7) cardBuilt

end Zun.Pci
