import Zun.Container.Cri.Life
import Zun.Effect.Run
import Zun.Effect.Watched

/-!
# Containers that no sweep restarts

A sweep restarts a container on what its record says of the exit: the policy, the tally, the code and
the owner's mark.  A record has *given up* when no exit can lead to a restart any more, and it has
*ended* when its container does not run and the end asks for no restart.  The second of the two can
rest on a code that was not read yet, so it is a fact about the runtime as well.

The sweep works on an object and writes the columns it has assigned.  So a fact about a member is a
fact about three records: the row, the object, and what a save of the object would make of the row.
`View` says which members have given up and which have ended, and `Inv` is what every point of a
sweep keeps of that.
-/

namespace Zun

open Effect Prog

namespace Cri

namespace Sidecars

variable {env : Env} {c : Capsule} {s s' : World} {u : Uuid}

/-! ## What a record says -/

def OnFailure (r : Record) : Prop :=
  ∃ limit, r.restartPolicy = some { name := .onFailure, maximumRetryCount := limit }

/-- No exit leads to a restart: the policy knows none, or its retries are spent. -/
def GivenUp (r : Record) : Prop :=
  r.restarts = false ∨
    ∃ limit, r.restartPolicy = some { name := .onFailure, maximumRetryCount := limit } ∧
      limit ≠ 0 ∧ limit ≤ r.restartCount

/-- The container of a record does not run, and its end asks for no restart.  An end that was not read
yet is the one that the runtime knows. -/
structure Ended (s : World) (r : Record) : Prop where
  still : ∀ id x, r.containerId = some id → find id s = some x → x.state ≠ .running
  unread : r.statusDetail = none → OnFailure r ∧
    ∀ id x, r.containerId = some id → find id s = some x → x.exitCode = 0
  read : Detail.isExit r.statusDetail = true → OnFailure r ∧ ∀ code, r.exitCode = some code → code = 0

theorem decide_ended {r : Record} (h : Ended s r) (hr : exitMarked r = true) : decide r = .leave := by
  obtain ⟨⟨limit, hpolicy⟩, hcode⟩ := h.read hr
  unfold decide
  rw [hpolicy]
  cases hread : r.exitCode with
  | none => rfl
  | some code => simp [hcode code hread]

theorem decide_givenUp {r : Record} (h : GivenUp r) (hr : r.restarts = true) : decide r ≠ .restart := by
  rcases h with h | ⟨limit, hpolicy, hlimit, hspent⟩
  · rw [hr] at h
    cases h
  · unfold decide
    rw [hpolicy]
    cases r.exitCode with
    | none => simp
    | some code =>
        by_cases hcode : code = 0
        · simp [hcode]
        · simp [hcode, hlimit, hspent]

/-- The ids of a record were given out. -/
def Issued (n : RuntimeId) (r : Record) : Prop := ∀ id, r.containerId = some id → id < n

/-! ## A runtime that moves on -/

/-- Of the containers made before `n`, those that do not run are as they were, or gone. -/
structure Calmer (n : RuntimeId) (s s' : World) : Prop where
  nextId : s.nextId ≤ s'.nextId
  left : ∀ id x', id < n → find id s' = some x' →
    ∃ x, find id s = some x ∧ (x.state ≠ .running → x' = x)

theorem Calmer.ended {n : RuntimeId} {r : Record} (h : Calmer n s s') (hr : Issued n r)
    (hended : Ended s r) : Ended s' r where
  still id x' hid hx' := by
    obtain ⟨x, hx, hsame⟩ := h.left id x' (hr id hid) hx'
    have hstill := hended.still id x hid hx
    rw [hsame hstill]
    exact hstill
  unread hdetail := by
    refine ⟨(hended.unread hdetail).1, fun id x' hid hx' => ?_⟩
    obtain ⟨x, hx, hsame⟩ := h.left id x' (hr id hid) hx'
    rw [hsame (hended.still id x hid hx)]
    exact (hended.unread hdetail).2 id x hid hx
  read := hended.read

theorem calmer_of_same {n : RuntimeId} (hcontainers : s'.containers = s.containers)
    (hnext : s.nextId ≤ s'.nextId) : Calmer n s s' where
  nextId := hnext
  left id x' _ hx' := ⟨x', by rw [← hx', find, find, hcontainers], fun _ => rfl⟩

theorem Calmer.trans {n : RuntimeId} {t : World} (h : Calmer n s t) (h' : Calmer n t s') :
    Calmer n s s' where
  nextId := Nat.le_trans h.nextId h'.nextId
  left id x' hid hx' := by
    obtain ⟨y, hy, hsame'⟩ := h'.left id x' hid hx'
    obtain ⟨x, hx, hsame⟩ := h.left id y hid hy
    refine ⟨x, hx, fun hstill => ?_⟩
    have hyx := hsame hstill
    rw [hsame' (hyx ▸ hstill), hyx]

theorem find_id {id : RuntimeId} {x : CriContainer} (h : find id s = some x) : x.id = id := by
  simpa using List.find?_some h

/-- Containers that are changed in place. -/
theorem calmer_map {n : RuntimeId} {f : CriContainer → CriContainer} (hid : ∀ x, (f x).id = x.id)
    (hstill : ∀ x, x.id < n → x.state ≠ .running → f x = x)
    (hcontainers : s'.containers = s.containers.map f) (hnext : s.nextId ≤ s'.nextId) :
    Calmer n s s' where
  nextId := hnext
  left id x' hlt hx' := by
    rw [find, hcontainers, List.find?_map] at hx'
    have hsame : ((fun x : CriContainer => Decidable.decide (x.id = id)) ∘ f)
        = fun x : CriContainer => Decidable.decide (x.id = id) := by
      funext x
      simp [hid x]
    rw [hsame] at hx'
    obtain ⟨x, hx, rfl⟩ := Option.map_eq_some_iff.mp hx'
    exact ⟨x, hx, fun hs => hstill x (find_id hx ▸ hlt) hs⟩

/-- Containers that are dropped. -/
theorem calmer_drop {n : RuntimeId} {p : RuntimeId → Bool}
    (hcontainers : s'.containers = s.containers.filter fun x => p x.id)
    (hnext : s.nextId ≤ s'.nextId) : Calmer n s s' where
  nextId := hnext
  left id x' _ hx' := by
    refine ⟨x', ?_, fun _ => rfl⟩
    rw [find, hcontainers, List.find?_filter] at hx'
    have hkept : p id = true := by
      have hp := List.find?_some hx'
      simp only [decide_eq_true_eq] at hp
      exact hp.2 ▸ hp.1
    rw [find, ← hx']
    congr 1
    funext x
    by_cases h : x.id = id
    · simp [h, hkept]
    · simp [h]

theorem calmer_turn {n : RuntimeId} (k : Call) : Calmer n s (s.turn env k) := by
  refine calmer_map (f := CriContainer.exit (env.exits s.tick)) (fun x => ?_) (fun x _ hx => ?_) rfl
    (Nat.le_refl _)
  · unfold CriContainer.exit
    split
    · split <;> rfl
    · rfl
  · unfold CriContainer.exit
    split
    · rw [if_neg hx]
    · rfl

/-! ## The three records of a member -/

/-- What a member is known for in a sweep: `g` that it has given up, `i` that it has ended. -/
structure Fit (p : Option RestartPolicy) (g i : Prop) (n : RuntimeId) (s : World) (r : Record) :
    Prop where
  policy : r.restartPolicy = p
  issued : Issued s.nextId r
  given : g → GivenUp r
  ended : i → Ended s r
  below : i → Issued n r

theorem Fit.calmer {p : Option RestartPolicy} {g i : Prop} {n : RuntimeId} {r : Record}
    (h : Fit p g i n s r) (hc : Calmer n s s') : Fit p g i n s' r where
  policy := h.policy
  issued id hid := Nat.lt_of_lt_of_le (h.issued id hid) hc.nextId
  given := h.given
  ended hi := hc.ended (h.below hi) (h.ended hi)
  below := h.below

/-- What a save of an object would make of a row. -/
def merged (o : Obj) (r : Record) : Record := o.changed.merge o.val r

/-- The row and the object of a member, and what a save would make of them. -/
structure Held (p : Option RestartPolicy) (g i : Prop) (n : RuntimeId) (s : World) (o : Obj)
    (r : Record) : Prop where
  row : Fit p g i n s r
  val : Fit p g i n s o.val
  save : Fit p g i n s (merged o r)
  same : (merged o r).containerId = o.val.containerId

variable {p : Option RestartPolicy} {g i : Prop} {n : RuntimeId} {o : Obj} {r : Record}

theorem Held.calmer (h : Held p g i n s o r) (hc : Calmer n s s') : Held p g i n s' o r :=
  ⟨h.row.calmer hc, h.val.calmer hc, h.save.calmer hc, h.same⟩

theorem Held.saved (h : Held p g i n s o r) : Held p g i n s (Obj.of o.val) (merged o r) :=
  ⟨h.save, h.val, h.save, h.same⟩

/-- An assignment that does `f` to the object and to what a save would write. -/
structure Sets (a : Obj → Obj) (f : Record → Record) : Prop where
  val : ∀ o, (a o).val = f o.val
  save : ∀ o r, merged (a o) r = f (merged o r)

theorem Sets.comp {a b : Obj → Obj} {f g : Record → Record} (hb : Sets b g) (ha : Sets a f) :
    Sets (b ∘ a) (g ∘ f) where
  val o := by simp [hb.val, ha.val]
  save o r := by simp [hb.save, ha.save]

theorem sets_setStatus (v : Status) : Sets (Obj.setStatus v) fun x => { x with status := v } :=
  ⟨fun _ => rfl, fun _ _ => rfl⟩

theorem sets_setStatusReason (v : Option String) :
    Sets (Obj.setStatusReason v) fun x => { x with statusReason := v } :=
  ⟨fun _ => rfl, fun _ _ => rfl⟩

theorem sets_setStatusDetail (v : Option Detail) :
    Sets (Obj.setStatusDetail v) fun x => { x with statusDetail := v } :=
  ⟨fun _ => rfl, fun _ _ => rfl⟩

theorem sets_setExitCode (v : Option Int) :
    Sets (Obj.setExitCode v) fun x => { x with exitCode := v } :=
  ⟨fun _ => rfl, fun _ _ => rfl⟩

theorem sets_setStartedAt (v : Option Nat) :
    Sets (Obj.setStartedAt v) fun x => { x with startedAt := v } :=
  ⟨fun _ => rfl, fun _ _ => rfl⟩

theorem sets_setContainerId (v : Option RuntimeId) :
    Sets (Obj.setContainerId v) fun x => { x with containerId := v } :=
  ⟨fun _ => rfl, fun _ _ => rfl⟩

theorem Held.set {a : Obj → Obj} {f : Record → Record} (h : Held p g i n s o r) (ha : Sets a f)
    (hfit : ∀ x, Fit p g i n s x → Fit p g i n s (f x))
    (hsame : ∀ x y, x.containerId = y.containerId → (f x).containerId = (f y).containerId) :
    Held p g i n s (a o) r where
  row := h.row
  val := ha.val o ▸ hfit _ h.val
  save := ha.save o r ▸ hfit _ h.save
  same := by
    rw [ha.save, ha.val]
    exact hsame _ _ h.same

/-- An assignment to a member of which nothing is known but its policy and its ids. -/
theorem Held.free {a : Obj → Obj} (h : Held p g i n s o r) (hg : ¬ g) (hi : ¬ i)
    (hpolicy : (a o).val.restartPolicy = o.val.restartPolicy)
    (hid : (a o).val.containerId = o.val.containerId)
    (hflag : (a o).changed.containerId = o.changed.containerId) : Held p g i n s (a o) r := by
  have hmerged : (merged (a o) r).containerId = (merged o r).containerId := by
    simp only [merged, Changed.merge, hid, hflag]
  refine ⟨h.row, ⟨hpolicy.trans h.val.policy, ?_, fun h' => absurd h' hg, fun h' => absurd h' hi,
    fun h' => absurd h' hi⟩, ⟨h.save.policy, ?_, fun h' => absurd h' hg, fun h' => absurd h' hi,
    fun h' => absurd h' hi⟩, ?_⟩
  · intro id h'
    exact h.val.issued id (hid ▸ h')
  · intro id h'
    exact h.save.issued id (hmerged ▸ h')
  · rw [hmerged, hid]
    exact h.same

/-! ## A sweep from outside -/

/-- The members of a capsule. -/
def members (c : Capsule) : List Uuid := c.initContainers ++ c.containers

theorem uuid_not_mem_members (c : Capsule) : c.uuid ∉ members c := (List.nodup_cons.mp c.distinct).1

theorem not_main_of_init {c : Capsule} (h : u ∈ c.initContainers) : u ∉ c.containers := fun h' =>
  (List.disjoint_of_nodup_append (List.nodup_cons.mp c.distinct).2) h h'

/-- What is known when a sweep begins: the policies, who has given up, who has ended with a container
made before `bound`, and the calls and the rebuilds so far. -/
structure View where
  policy : Uuid → Option RestartPolicy
  given : Uuid → Prop
  ended : Uuid → Prop
  bound : RuntimeId
  log : List (Call × Answer)
  rebuilds : List Uuid

/-- A member that is not to be restarted. -/
def View.Down (v : View) (u : Uuid) : Prop := v.given u ∨ v.ended u

/-- What holds at every point of a sweep. -/
structure Inv (c : Capsule) (v : View) (s : World) : Prop where
  bound : v.bound ≤ s.nextId
  member : ∀ u ∈ members c, ∃ r, s.db u = some r ∧
    Held (v.policy u) (v.given u) (v.ended u) v.bound s (s.mem u) r
  calls : ∃ calls, s.log = calls ++ v.log ∧
    ∀ pod u k a, (Call.createContainer pod u k, a) ∈ calls → ¬ v.Down u
  rebuilds : (∀ u ∈ c.containers, v.Down u) → s.rebuilds = v.rebuilds

variable {v : View}

/-- A part of a sweep that keeps the invariant wherever it ends. -/
abbrev Keeps {α : Type} (c : Capsule) (v : View) (p : Prog World Exn α) : Prop :=
  Watched (Inv c v) (Inv c v) (fun _ => Inv c v) (fun _ => Inv c v) p

/-- The same, with something known at the beginning and at its end. -/
abbrev Tells {α : Type} (c : Capsule) (v : View) (T : World → Prop) (J : α → World → Prop)
    (p : Prog World Exn α) : Prop :=
  Watched (Inv c v) (fun s => Inv c v s ∧ T s) (fun a s => Inv c v s ∧ J a s) (fun _ => Inv c v) p

theorem Inv.calmer (h : Inv c v s) (hc : Calmer v.bound s s') (hdb : s'.db = s.db)
    (hmem : s'.mem = s.mem) (hlog : s'.log = s.log) (hrebuilds : s'.rebuilds = s.rebuilds) :
    Inv c v s' where
  bound := Nat.le_trans h.bound hc.nextId
  member u hu := by
    obtain ⟨r, hr, hheld⟩ := h.member u hu
    exact ⟨r, hdb ▸ hr, hmem ▸ hheld.calmer hc⟩
  calls := hlog ▸ h.calls
  rebuilds hall := hrebuilds ▸ h.rebuilds hall

/-- A call that makes no container for a member that is down. -/
def Harmless (v : View) (k : Call) : Prop := ∀ pod u a, k = .createContainer pod u a → ¬ v.Down u

theorem Inv.turn (h : Inv c v s) {k : Call} (hk : Harmless v k) : Inv c v (s.turn env k) where
  bound := h.bound
  member u hu := by
    obtain ⟨r, hr, hheld⟩ := h.member u hu
    exact ⟨r, hr, hheld.calmer (calmer_turn k)⟩
  calls := by
    obtain ⟨calls, hlog, hcalls⟩ := h.calls
    refine ⟨(k, env.answer s.tick k) :: calls, ?_, fun pod u a b hmem => ?_⟩
    · simp [World.turn, hlog]
    · rcases List.mem_cons.mp hmem with heq | hmem
      · exact hk pod u a (Prod.mk.inj heq).1.symm
      · exact hcalls pod u a b hmem
  rebuilds := h.rebuilds

theorem keeps_call {k : Call} {effect : World → World} (hk : Harmless v k)
    (heffect : ∀ s, Inv c v s → Inv c v (effect s)) : Keeps c v (call env k effect) := fun _ hs =>
  wp_call (fun _ => heffect _ (hs.turn hk)) (fun _ _ => hs.turn hk) fun _ => hs.turn hk

/-- A call without an effect of its own changes no row and no object. -/
theorem tells_call {k : Call} {T : World → Prop} (hk : Harmless v k)
    (hT : ∀ s, T s → T (s.turn env k)) : Tells c v T (fun _ => T) (call env k) := fun _ hs =>
  wp_call (fun _ => ⟨hs.1.turn hk, hT _ hs.2⟩) (fun _ _ => hs.1.turn hk) fun _ => hs.1.turn hk

theorem tells_ask {α : Type} {k : Call} {f : World → α} {T : World → Prop} (hk : Harmless v k)
    (hT : ∀ s, T s → T (s.turn env k)) :
    Tells c v T (fun a s => T s ∧ f s = a) (ask env k f) :=
  Watched.bind (J := fun _ s => Inv c v s ∧ T s) (tells_call hk hT)
    fun _ => watched_read f fun _ hs => ⟨hs.1, hs.2, rfl⟩

theorem keeps_ask {α : Type} {k : Call} {f : World → α} (hk : Harmless v k) :
    Keeps c v (ask env k f) :=
  (keeps_call hk fun _ h => h).bind fun _ => watched_read f fun _ hs => hs

/-! ## Objects and rows -/

theorem Inv.setMem (h : Inv c v s) {a : Obj → Obj}
    (ha : u ∈ members c → ∀ r, s.db u = some r →
      Held (v.policy u) (v.given u) (v.ended u) v.bound s (s.mem u) r →
      Held (v.policy u) (v.given u) (v.ended u) v.bound s (a (s.mem u)) r) :
    Inv c v (s.setMem u a) where
  bound := h.bound
  member w hw := by
    obtain ⟨r, hr, hheld⟩ := h.member w hw
    refine ⟨r, hr, ?_⟩
    have hcalm : Calmer v.bound s (s.setMem u a) := calmer_of_same rfl (Nat.le_refl _)
    by_cases hwu : w = u
    · subst hwu
      rw [World.setMem_mem_self]
      exact (ha hw r hr hheld).calmer hcalm
    · rw [World.setMem_mem_of_ne hwu]
      exact hheld.calmer hcalm
  calls := h.calls
  rebuilds := h.rebuilds

theorem Inv.saved (h : Inv c v s) (hrow : s.db u = some r) : Inv c v (s.saved u r) where
  bound := h.bound
  member w hw := by
    obtain ⟨r', hr', hheld⟩ := h.member w hw
    have hcalm : Calmer v.bound s (s.saved u r) := calmer_of_same rfl (Nat.le_refl _)
    by_cases hwu : w = u
    · subst hwu
      rw [hrow] at hr'
      cases hr'
      refine ⟨_, World.saved_db_self r, ?_⟩
      rw [World.saved_mem_self]
      exact hheld.saved.calmer hcalm
    · refine ⟨r', (World.saved_db_of_ne hwu r).trans hr', ?_⟩
      rw [World.saved_mem_of_ne hwu]
      exact hheld.calmer hcalm
  calls := h.calls
  rebuilds := h.rebuilds

theorem harmless_save (u : Uuid) (r : Record) : Harmless v (.save u r) := fun _ _ _ h => by cases h

theorem keeps_save (u : Uuid) : Keeps c v (save env u) := fun _ hs =>
  wp_save (fun _ => hs)
    (fun _ hrow _ => (hs.turn (harmless_save u _)).saved hrow)
    (fun _ _ _ _ => hs.turn (harmless_save u _)) fun _ _ _ => hs.turn (harmless_save u _)

/-- The object of the capsule is no object of a member. -/
theorem keeps_assignCapsule (a : Obj → Obj) : Keeps c v (assign c.uuid a) :=
  watched_modify fun _ hs => hs.setMem fun hmem => absurd hmem (uuid_not_mem_members c)

theorem keeps_assign {a : Obj → Obj} {f : Record → Record} (ha : Sets a f)
    (hfit : ∀ s x, Fit (v.policy u) (v.given u) (v.ended u) v.bound s x →
      Fit (v.policy u) (v.given u) (v.ended u) v.bound s (f x))
    (hsame : ∀ x, (f x).containerId = x.containerId) : Keeps c v (assign u a) :=
  watched_modify fun s hs => hs.setMem fun _ _ _ hheld =>
    hheld.set ha (hfit s) fun x y h => by rw [hsame, hsame, h]

theorem keeps_assignFree {a : Obj → Obj} (hu : ¬ v.Down u)
    (hpolicy : ∀ o, (a o).val.restartPolicy = o.val.restartPolicy)
    (hid : ∀ o, (a o).val.containerId = o.val.containerId)
    (hflag : ∀ o, (a o).changed.containerId = o.changed.containerId) : Keeps c v (assign u a) :=
  watched_modify fun _ hs => hs.setMem fun _ _ _ hheld =>
    hheld.free (fun h => hu (.inl h)) (fun h => hu (.inr h)) (hpolicy _) (hid _) (hflag _)

/-! ## Fields that decide nothing -/

theorem Fit.setStatus (h : Fit p g i n s r) (x : Status) : Fit p g i n s { r with status := x } :=
  ⟨h.policy, h.issued, h.given, fun hi => ⟨(h.ended hi).still, (h.ended hi).unread, (h.ended hi).read⟩,
    h.below⟩

theorem Fit.setStartedAt (h : Fit p g i n s r) (x : Option Nat) :
    Fit p g i n s { r with startedAt := x } :=
  ⟨h.policy, h.issued, h.given, fun hi => ⟨(h.ended hi).still, (h.ended hi).unread, (h.ended hi).read⟩,
    h.below⟩

theorem Fit.setStatusReason (h : Fit p g i n s r) (x : Option String) :
    Fit p g i n s { r with statusReason := x } :=
  ⟨h.policy, h.issued, h.given, fun hi => ⟨(h.ended hi).still, (h.ended hi).unread, (h.ended hi).read⟩,
    h.below⟩

/-- Of a member that has not ended, neither the detail nor the code says anything. -/
theorem Fit.setStatusDetail (h : Fit p g i n s r) (hi : ¬ i) (x : Option Detail) :
    Fit p g i n s { r with statusDetail := x } :=
  ⟨h.policy, h.issued, h.given, fun h' => absurd h' hi, fun h' => absurd h' hi⟩

theorem Fit.setExitCode (h : Fit p g i n s r) (hi : ¬ i) (x : Option Int) :
    Fit p g i n s { r with exitCode := x } :=
  ⟨h.policy, h.issued, h.given, fun h' => absurd h' hi, fun h' => absurd h' hi⟩

theorem keeps_setStatus (u : Uuid) (x : Status) : Keeps c v (assign u (Obj.setStatus x)) :=
  keeps_assign (sets_setStatus x) (fun _ _ h => h.setStatus x) fun _ => rfl

theorem keeps_setStartedAt (u : Uuid) (x : Option Nat) : Keeps c v (assign u (Obj.setStartedAt x)) :=
  keeps_assign (sets_setStartedAt x) (fun _ _ h => h.setStartedAt x) fun _ => rfl

theorem keeps_setStatusReason (u : Uuid) (x : Option String) :
    Keeps c v (assign u (Obj.setStatusReason x)) :=
  keeps_assign (sets_setStatusReason x) (fun _ _ h => h.setStatusReason x) fun _ => rfl

theorem keeps_setStatusDetail (hu : ¬ v.ended u) (x : Option Detail) :
    Keeps c v (assign u (Obj.setStatusDetail x)) :=
  keeps_assign (sets_setStatusDetail x) (fun _ _ h => h.setStatusDetail hu x) fun _ => rfl

theorem keeps_setExitCode (hu : ¬ v.ended u) (x : Option Int) :
    Keeps c v (assign u (Obj.setExitCode x)) :=
  keeps_assign (sets_setExitCode x) (fun _ _ h => h.setExitCode hu x) fun _ => rfl

/-! ## Calls that make no container -/

def makesContainer : Call → Bool
  | .createContainer .. => true
  | _ => false

theorem harmless_of {k : Call} (h : makesContainer k = false) : Harmless v k := by
  intro pod u a hk
  rw [hk] at h
  cases h

theorem keeps_plain {k : Call} (hk : makesContainer k = false) : Keeps c v (call env k) :=
  keeps_call (harmless_of hk) fun _ h => h

theorem keeps_despiteRpc {q : Prog World Exn Unit} (hq : Keeps c v q) : Keeps c v (despiteRpc q) :=
  hq.tryExcept fun e => watched_ite (fun _ => watched_ret (J := fun _ => Inv c v) ())
    fun _ => watched_raise (E := fun _ => Inv c v) e

/-- A question that a failed call answers with a default. -/
theorem keeps_default {α : Type} {q : Prog World Exn α} (hq : Keeps c v q) (a : α) :
    Keeps c v (tryExcept q fun e => if e.isRpc then pure a else raise e) :=
  hq.tryExcept fun e => watched_ite (fun _ => watched_ret (J := fun _ => Inv c v) a)
    fun _ => watched_raise (E := fun _ => Inv c v) e

theorem keeps_pure {α : Type} (a : α) : Keeps c v (pure a) := watched_pure (J := fun _ => Inv c v) a

/-- What is read need not be known. -/
theorem keeps_read {α β : Type} {f : World → α} {q : α → Prog World Exn β} (hq : ∀ a, Keeps c v (q a)) :
    Keeps c v (read f >>= q) := watched_look fun a => (hq a).pre fun _ hs => hs.1

theorem stopped_id (x : CriContainer) : (stopped x).id = x.id := by
  unfold stopped
  split <;> rfl

theorem stopped_state (x : CriContainer) : (stopped x).state ≠ .running := by
  unfold stopped
  split
  · simp
  · assumption

theorem calmer_stopped {n : RuntimeId} (id : RuntimeId) : Calmer n s (alter id stopped s) := by
  refine calmer_map (f := fun x => if x.id = id then stopped x else x) (fun x => ?_) (fun x _ hx => ?_)
    rfl (Nat.le_refl _)
  · split
    · exact stopped_id x
    · rfl
  · simp [stopped, hx]

/-- A container that was stopped does not run. -/
theorem still_of_stopped {id : RuntimeId} {x : CriContainer} (h : find id (alter id stopped s) = some x) :
    x.state ≠ .running := by
  have hmem := List.mem_of_find?_eq_some h
  obtain ⟨y, _, rfl⟩ := List.mem_map.mp hmem
  have hid := find_id h
  by_cases hy : y.id = id
  · rw [if_pos hy]
    exact stopped_state y
  · rw [if_neg hy] at hid
    exact absurd hid hy

theorem keeps_stopContainer (id : RuntimeId) : Keeps c v (stopContainer env id) :=
  keeps_call (harmless_of rfl) fun _ hs => hs.calmer (calmer_stopped id) rfl rfl rfl rfl

theorem keeps_removeContainer (id : RuntimeId) : Keeps c v (removeContainer env id) :=
  keeps_call (harmless_of rfl) fun _ hs => hs.calmer
    (calmer_drop (p := fun x => Decidable.decide (x ≠ id)) rfl (Nat.le_refl _)) rfl rfl rfl rfl

/-- A start of a container that was made since the sweep began. -/
theorem keeps_startContainer {id : RuntimeId} (hid : v.bound ≤ id) : Keeps c v (startContainer env id) := by
  have hraise : ∀ e : Exn, Keeps c v (raise e : Prog World Exn Unit) :=
    fun e => watched_raise (E := fun _ => Inv c v) e
  refine (keeps_plain rfl).bind fun _ => keeps_read fun state => ?_
  cases state with
  | none => exact hraise _
  | some state =>
      cases state with
      | created =>
          refine watched_modify fun s hs => hs.calmer ?_ rfl rfl rfl rfl
          refine calmer_map (f := fun x => if x.id = id then
            { x with state := .running, startedAt := some (env.now s.tick) } else x)
            (fun x => ?_) (fun x hx _ => if_neg (Nat.ne_of_lt (Nat.lt_of_lt_of_le hx hid))) rfl
            (Nat.le_refl _)
          split <;> rfl
      | running => exact hraise _
      | exited => exact hraise _
      | unknown => exact hraise _

/-- The container that was made is new. -/
theorem tells_createContainer {w : Uuid} (hw : ¬ v.Down w) (pod : RuntimeId) (k : Nat) :
    Watched (Inv c v) (Inv c v)
      (fun _ s => Inv c v s ∧ ∃ id, s.containers.head?.map (·.id) = some id ∧ v.bound ≤ id ∧ id < s.nextId)
      (fun _ => Inv c v) (createContainer env pod w k) := by
  have hk : Harmless v (.createContainer pod w k) := by
    intro pod' u k' h
    cases h
    exact hw
  intro s hs
  refine wp_call (fun _ => ?_) (fun _ _ => hs.turn hk) fun _ => hs.turn hk
  have hturn : Inv c v (s.turn env (.createContainer pod w k)) := hs.turn hk
  refine ⟨hturn.calmer ⟨Nat.le_succ _, fun id x' hid hx' => ?_⟩ rfl rfl rfl rfl, s.nextId, rfl, hs.bound,
    Nat.lt_succ_self _⟩
  have hne : ¬ s.nextId = id := fun h => absurd hid (Nat.not_lt.mpr (h ▸ hs.bound))
  refine ⟨x', ?_, fun _ => rfl⟩
  rw [← hx', find, find, List.find?_cons_of_neg (by simp [hne])]

end Sidecars

end Cri

end Zun
