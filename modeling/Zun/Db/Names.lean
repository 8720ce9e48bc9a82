import Zun.Db.Api
import Zun.Effect.Run

/-!
# Container names

`create_container` and `update_container` of `zun/db/sqlalchemy/api.py`, with a scope set in which
container names are to be unique.  `_validate_unique_container_name` counts the rows that bear a name
up to case, in the project of whoever calls or in all of them; the row is written afterwards, in a
session of its own.

So a name can be taken between the count and the write, or be taken already in the project of a row
that the caller's project is not.  And the row that is renamed counts too: a container is not given
another spelling of its own name.
-/

namespace Zun

open Effect

namespace Names

/-- `unique_container_name_scope`.  Anything else in it is as good as nothing. -/
inductive Scope where
  | none | project | global
deriving DecidableEq

abbrev Row := Uuid × Db.Container

inductive Phase where
  /-- At `_validate_unique_container_name`. -/
  | checking
  /-- At the insert, or at `_do_update_container`. -/
  | writing
deriving DecidableEq

/-- A call under way. -/
structure Call where
  ctx : Db.Context
  uuid : Uuid
  /-- The values of a create; or the object that is updated, with its new name. -/
  row : Db.Container
  /-- It is `create_container`. -/
  create : Bool
  phase : Phase := .checking
  /-- Another call has written an equal name in its scope since it counted.  The code does not know
  this. -/
  raced : Bool := false
deriving DecidableEq

structure State where
  rows : List Row := []
  calls : Nat → Option Call := fun _ => none
  /-- The renames refused because of their name: what the name was, and what it was to be. -/
  refused : List (Option String × Option String) := []

inductive Event where
  | begin (j : Nat) (c : Call)
  | check (j : Nat)
  | write (j : Nat)
  /-- A call raises for another reason. -/
  | fail (j : Nat)
  | destroy (u : Uuid)
deriving DecidableEq

variable (scope : Scope)

/-- The names are equal up to case.  A row without a name has none in common with any. -/
def sameName : Option String → Option String → Bool
  | some n, some m => n.toLower = m.toLower
  | _, _ => false

/-- What is filtered by: nothing, when the scope is global. -/
def scopeKey (projectId : Option String) : Option String :=
  match scope with
  | .project => projectId
  | _ => none

/-- The rows that `_validate_unique_container_name` counts. -/
def counted (ctx : Db.Context) (name : Option String) (r : Db.Container) : Bool :=
  scopeKey scope r.projectId = scopeKey scope ctx.projectId && sameName r.name name

/-- The check is made.  `create_container` makes none for an empty name. -/
def Call.checks (c : Call) : Bool := !c.create || c.row.name.getD "" != ""

/-- `container_with_same_name > 0`. -/
def refuses (c : Call) (rows : List Row) : Bool :=
  scope != .none && c.checks && rows.any fun r => counted scope c.ctx c.row.name r.2

def State.setCall (s : State) (j : Nat) (c : Option Call) : State :=
  { s with calls := Function.update s.calls j c }

/-- The name that the row of a uuid has. -/
def State.nameOf (s : State) (u : Uuid) : Option String :=
  (s.rows.find? fun r => r.1 = u).bind (·.2.name)

/-- A check that refuses ends its call; `None` has no `lower`, and ends an update too. -/
def stepCheck (s : State) (j : Nat) (c : Call) : State :=
  if c.create = false ∧ c.row.name = none then s.setCall j none
  else if refuses scope c s.rows = true then
    { s with
      refused := if c.create = true then s.refused
        else (s.nameOf c.uuid, c.row.name) :: s.refused }.setCall j none
  else s.setCall j (some { c with phase := .writing })

/-- A row in the scope of another, with the same name. -/
def clashes (r r' : Db.Container) : Bool :=
  scopeKey scope r.projectId = scopeKey scope r'.projectId && sameName r.name r'.name

/-- The calls that have counted already are overtaken by the name that is written. -/
def overtake (u : Uuid) (r : Db.Container) (calls : Nat → Option Call) : Nat → Option Call :=
  fun j => (calls j).map fun c =>
    { c with raced := c.raced || (c.phase = .writing && c.uuid != u && clashes scope r c.row) }

/-- The rows with the new name of one of them. -/
def rename (u : Uuid) (name : Option String) (rows : List Row) : List Row :=
  rows.map fun r => if r.1 = u then (u, { r.2 with name }) else r

/-- The insert fails for a uuid that is there, the update for one that is not. -/
def stepWrite (s : State) (j : Nat) (c : Call) : State :=
  if (s.rows.any fun r => r.1 = c.uuid) = c.create then s.setCall j none
  else
    { s with
      rows := if c.create = true then (c.uuid, c.row) :: s.rows
        else rename c.uuid c.row.name s.rows
      calls := overtake scope c.uuid c.row s.calls }.setCall j none

/-- What the call does, if it is at a place. -/
def State.withCall (s : State) (j : Nat) (phase : Phase) (f : Call → State) : State :=
  match s.calls j with
  | none => s
  | some c => if c.phase = phase then f c else s

def step : Event → State → State
  | .begin j c, s => s.setCall j (some { c with phase := .checking, raced := false })
  | .check j, s => s.withCall j .checking (stepCheck scope s j)
  | .write j, s => s.withCall j .writing (stepWrite scope s j)
  | .fail j, s => s.setCall j none
  | .destroy u, s => { s with rows := s.rows.filter fun r => r.1 ≠ u }

/-! ## What can happen -/

def Possible : Event → State → Prop
  -- A uuid is made up for one create.  An update is called on an object, which was read from its row.
  | .begin j c, s => s.calls j = none ∧
      if c.create = true then
        (∀ r ∈ s.rows, r.1 ≠ c.uuid) ∧ ∀ j' c', s.calls j' = some c' → c'.uuid ≠ c.uuid
      else ∃ r, (c.uuid, r) ∈ s.rows ∧ r.projectId = c.row.projectId
  | _, _ => True

/-- No two rows in the scope have names equal up to case. -/
def Unique (rows : List Row) : Prop :=
  ∀ r ∈ rows, ∀ r' ∈ rows, r.1 ≠ r'.1 → clashes scope r.2 r'.2 = false

/-- A row for each uuid, and nothing under way. -/
structure Begun (s : State) : Prop where
  unique : Unique scope s.rows
  keys : ∀ r ∈ s.rows, ∀ r' ∈ s.rows, r.1 = r'.1 → r = r'
  calls : ∀ j, s.calls j = none
  refused : s.refused = []

/-- The new name is another spelling of the old one. -/
def Respelling (old new : Option String) : Prop := old ≠ new ∧ sameName old new = true

/-- A check counts every row that the name would clash with, none of them in the way of a container
that takes another spelling of its own name; and no name is written that another call has written in
the scope since it was counted. -/
def Orderly : Event → State → Prop
  | .check j, s => ∀ c, s.calls j = some c → c.phase = .checking →
      (∀ r ∈ s.rows, r.1 ≠ c.uuid → clashes scope r.2 c.row = true →
        c.checks = true ∧ scopeKey scope r.2.projectId = scopeKey scope c.ctx.projectId) ∧
      (c.create = false → Respelling (s.nameOf c.uuid) c.row.name →
        ∀ r ∈ s.rows, scopeKey scope r.2.projectId = scopeKey scope c.ctx.projectId →
          sameName r.2.name c.row.name = false)
  | .write j, s => ∀ c, s.calls j = some c → c.phase = .writing → c.raced = false
  | _, _ => True

/-- Names are unique, and no container was refused another spelling of its own name. -/
def Safe (s : State) : Prop :=
  Unique scope s.rows ∧ ∀ names ∈ s.refused, ¬ Respelling names.1 names.2

/-! ## Names and rows -/

variable {scope : Scope} {s : State} {j : Nat} {c : Call} {u : Uuid} {name : Option String}
  {rows : List Row}

theorem sameName_comm (n m : Option String) : sameName n m = sameName m n := by
  cases n <;> cases m <;> simp [sameName, eq_comm]

theorem clashes_comm (r r' : Db.Container) : clashes scope r r' = clashes scope r' r := by
  rw [clashes, clashes, sameName_comm]
  simp [eq_comm]

/-- A row with another row's project and name clashes with what the other clashes with. -/
theorem clashes_congr {r r₁ r₂ : Db.Container} (hp : r₁.projectId = r₂.projectId)
    (hn : r₁.name = r₂.name) : clashes scope r r₁ = clashes scope r r₂ := by
  rw [clashes, clashes, hp, hn]

theorem mem_rename {r : Row} : r ∈ rename u name rows ↔
    (∃ r' ∈ rows, r'.1 = u ∧ r = (u, { r'.2 with name })) ∨ r ∈ rows ∧ r.1 ≠ u := by
  rw [rename, List.mem_map]
  constructor
  · rintro ⟨r', hr', rfl⟩
    by_cases hu : r'.1 = u
    · rw [if_pos hu]
      exact .inl ⟨r', hr', hu, rfl⟩
    · rw [if_neg hu]
      exact .inr ⟨hr', hu⟩
  · rintro (⟨r', hr', hu, rfl⟩ | ⟨hr, hu⟩)
    · exact ⟨r', hr', if_pos hu⟩
    · exact ⟨r, hr, if_neg hu⟩

/-- A call is the one that was put there, or one of before. -/
theorem of_setCall {o : Option Call} {j' : Nat} {c' : Call}
    (h : (s.setCall j o).calls j' = some c') :
    j' = j ∧ o = some c' ∨ j' ≠ j ∧ s.calls j' = some c' := by
  by_cases hj : j' = j
  · subst hj
    exact .inl ⟨rfl, by simpa [State.setCall] using h⟩
  · exact .inr ⟨hj, by simpa [State.setCall, Function.update_of_ne hj] using h⟩

/-! ## What stays true -/

structure Inv (scope : Scope) (s : State) : Prop where
  unique : Unique scope s.rows
  keys : ∀ r ∈ s.rows, ∀ r' ∈ s.rows, r.1 = r'.1 → r = r'
  refused : ∀ names ∈ s.refused, ¬ Respelling names.1 names.2
  /-- What a call has counted is still so, if no one has overtaken it. -/
  counted : ∀ j c, s.calls j = some c → c.phase = .writing → c.raced = false →
    ∀ r ∈ s.rows, r.1 ≠ c.uuid → clashes scope r.2 c.row = false
  project : ∀ j c, s.calls j = some c → c.create = false →
    ∀ r ∈ s.rows, r.1 = c.uuid → r.2.projectId = c.row.projectId
  /-- Nobody else has the uuid of a create. -/
  own : ∀ j c, s.calls j = some c → c.create = true → (∀ r ∈ s.rows, r.1 ≠ c.uuid) ∧
    ∀ j' c', j' ≠ j → s.calls j' = some c' → c'.uuid ≠ c.uuid

/-- A call ends. -/
theorem Inv.ends (h : Inv scope s) : Inv scope (s.setCall j none) where
  unique := h.unique
  keys := h.keys
  refused := h.refused
  counted j' c' hc := by
    rcases of_setCall hc with ⟨-, ⟨⟩⟩ | ⟨-, hc⟩
    exact h.counted j' c' hc
  project j' c' hc := by
    rcases of_setCall hc with ⟨-, ⟨⟩⟩ | ⟨-, hc⟩
    exact h.project j' c' hc
  own j' c' hc hcreate := by
    rcases of_setCall hc with ⟨-, ⟨⟩⟩ | ⟨-, hc⟩
    obtain ⟨hrows, hcalls⟩ := h.own j' c' hc hcreate
    constructor
    · exact hrows
    · intro i d hi hd
      rcases of_setCall hd with ⟨-, ⟨⟩⟩ | ⟨-, hd⟩
      exact hcalls i d hi hd

/-- A call is where it is put, with what is asked of it there. -/
theorem Inv.put (h : Inv scope s)
    (hcounted : c.phase = .writing → c.raced = false →
      ∀ r ∈ s.rows, r.1 ≠ c.uuid → clashes scope r.2 c.row = false)
    (hproject : c.create = false → ∀ r ∈ s.rows, r.1 = c.uuid → r.2.projectId = c.row.projectId)
    (hrows : c.create = true → ∀ r ∈ s.rows, r.1 ≠ c.uuid)
    (hcalls : ∀ j' c', j' ≠ j → s.calls j' = some c' → c.create = true ∨ c'.create = true →
      c'.uuid ≠ c.uuid) :
    Inv scope (s.setCall j (some c)) where
  unique := h.unique
  keys := h.keys
  refused := h.refused
  counted j' c' hc := by
    rcases of_setCall hc with ⟨-, heq⟩ | ⟨-, hc⟩
    · cases heq
      exact hcounted
    · exact h.counted j' c' hc
  project j' c' hc := by
    rcases of_setCall hc with ⟨-, heq⟩ | ⟨-, hc⟩
    · cases heq
      exact hproject
    · exact h.project j' c' hc
  own j' c' hc hcreate := by
    rcases of_setCall hc with ⟨rfl, heq⟩ | ⟨hj, hc⟩
    · cases heq
      constructor
      · exact hrows hcreate
      · intro i d hi hd
        rcases of_setCall hd with ⟨hij, -⟩ | ⟨-, hd⟩
        · exact absurd hij hi
        · exact hcalls i d hi hd (.inl hcreate)
    · obtain ⟨hrows', hcalls'⟩ := h.own j' c' hc hcreate
      constructor
      · exact hrows'
      · intro i d hi hd
        rcases of_setCall hd with ⟨-, heq⟩ | ⟨-, hd⟩
        · cases heq
          exact (hcalls j' c' hj hc (.inr hcreate)).symm
        · exact hcalls' i d hi hd

theorem inv_begin (h : Inv scope s) (hp : Possible (.begin j c) s) :
    Inv scope (step scope (.begin j c) s) := by
  obtain ⟨-, hp⟩ := hp
  cases hcreate : c.create with
  | true =>
    rw [if_pos hcreate] at hp
    apply h.put
    · rintro ⟨⟩
    · intro hc
      rw [hcreate] at hc
      cases hc
    · exact fun _ => hp.1
    · exact fun j' c' _ hc' _ => hp.2 j' c' hc'
  | false =>
    rw [if_neg (by simp [hcreate])] at hp
    obtain ⟨r', hr', hproject⟩ := hp
    apply h.put
    · rintro ⟨⟩
    · intro _ r hr hu
      rw [h.keys r hr (c.uuid, r') hr' hu]
      exact hproject
    · intro hc
      rw [hcreate] at hc
      cases hc
    · intro j' c' _ hc' hcreate'
      rw [hcreate] at hcreate'
      have hown := (h.own j' c' hc' (hcreate'.resolve_left Bool.false_ne_true)).1
      exact (hown (c.uuid, r') hr').symm

theorem counted_of_clashes {r : Row} (hclash : clashes scope r.2 c.row = true)
    (hscope : scopeKey scope r.2.projectId = scopeKey scope c.ctx.projectId) :
    counted scope c.ctx c.row.name r.2 = true := by
  rw [clashes, Bool.and_eq_true] at hclash
  simp [counted, hscope, hclash.2]

theorem refuses_of_counted {r : Row} (hset : scope ≠ .none) (hc : c.checks = true)
    (hr : r ∈ rows) (hcount : counted scope c.ctx c.row.name r.2 = true) :
    refuses scope c rows = true := by
  simp only [refuses, hc, Bool.and_true, Bool.and_eq_true, bne_iff_ne, ne_eq, List.any_eq_true]
  exact ⟨hset, r, hr, hcount⟩

theorem inv_stepCheck (hset : scope ≠ .none) (h : Inv scope s) (hc : s.calls j = some c)
    (hphase : c.phase = .checking) (ho : Orderly scope (.check j) s) :
    Inv scope (stepCheck scope s j c) := by
  obtain ⟨hcover, hspell⟩ := ho c hc hphase
  unfold stepCheck
  split
  · exact h.ends
  split
  · rename_i hrefuses
    apply Inv.ends
    refine ⟨h.unique, h.keys, ?_, h.counted, h.project, h.own⟩
    cases hcreate : c.create with
    | true => exact h.refused
    | false =>
      intro names hnames
      rcases List.mem_cons.mp hnames with rfl | hnames
      · intro hresp
        simp only [refuses, Bool.and_eq_true, List.any_eq_true, counted,
          decide_eq_true_eq] at hrefuses
        obtain ⟨-, r, hr, hscope, hname⟩ := hrefuses
        rw [hspell hcreate hresp r hr hscope] at hname
        cases hname
      · exact h.refused names hnames
  · rename_i hpass
    apply h.put
    · rintro - - r hr hu
      cases hclash : clashes scope r.2 c.row with
      | false => rfl
      | true =>
        obtain ⟨hchecks, hscope⟩ := hcover r hr hu hclash
        exact absurd (refuses_of_counted hset hchecks hr (counted_of_clashes hclash hscope)) hpass
    · exact h.project j c hc
    · exact fun hcreate => (h.own j c hc hcreate).1
    · rintro j' c' hj hc' (hcreate | hcreate)
      · exact (h.own j c hc hcreate).2 j' c' hj hc'
      · exact ((h.own j' c' hc' hcreate).2 j c (Ne.symm hj) hc).symm

/-- The other calls, after a row was written that was not there or had another name: `rows` are the
rows now, and each is one of before, or the one that was written. -/
theorem inv_written (h : Inv scope s) (hc : s.calls j = some c)
    (hunique : Unique scope rows) (hkeys : ∀ r ∈ rows, ∀ r' ∈ rows, r.1 = r'.1 → r = r')
    (hrows : ∀ q ∈ rows, q ∈ s.rows ∨
      q.1 = c.uuid ∧ q.2.projectId = c.row.projectId ∧ q.2.name = c.row.name)
    (hproject : ∀ j' c', j' ≠ j → s.calls j' = some c' → c'.create = false → c'.uuid = c.uuid →
      c.row.projectId = c'.row.projectId) :
    Inv scope ({ s with rows, calls := overtake scope c.uuid c.row s.calls }.setCall j none) where
  unique := hunique
  keys := hkeys
  refused := h.refused
  counted j' c' hc' hphase hraced q hq hu := by
    rcases of_setCall hc' with ⟨-, ⟨⟩⟩ | ⟨hj, hc'⟩
    obtain ⟨c₀, hc₀, rfl⟩ := Option.map_eq_some_iff.mp hc'
    rw [Bool.or_eq_false_iff] at hraced
    obtain ⟨hraced, hnew⟩ := hraced
    rcases hrows q hq with hq | ⟨hqu, hp, hn⟩
    · exact h.counted j' c₀ hc₀ hphase hraced q hq hu
    · have hwriting : c₀.phase = .writing := hphase
      rw [hqu] at hu
      rw [clashes_comm, clashes_congr hp hn, clashes_comm]
      simpa [hwriting, Ne.symm hu] using hnew
  project j' c' hc' hcreate q hq hu := by
    rcases of_setCall hc' with ⟨-, ⟨⟩⟩ | ⟨hj, hc'⟩
    obtain ⟨c₀, hc₀, rfl⟩ := Option.map_eq_some_iff.mp hc'
    rcases hrows q hq with hq | ⟨hqu, hp, -⟩
    · exact h.project j' c₀ hc₀ hcreate q hq hu
    · rw [hp]
      exact hproject j' c₀ hj hc₀ hcreate (hu.symm.trans hqu)
  own j' c' hc' hcreate := by
    rcases of_setCall hc' with ⟨-, ⟨⟩⟩ | ⟨hj, hc'⟩
    obtain ⟨c₀, hc₀, rfl⟩ := Option.map_eq_some_iff.mp hc'
    obtain ⟨hold, hcalls⟩ := h.own j' c₀ hc₀ hcreate
    constructor
    · intro q hq
      rcases hrows q hq with hq | ⟨hqu, -, -⟩
      · exact hold q hq
      · rw [hqu]
        exact hcalls j c (Ne.symm hj) hc
    · intro i d hi hd
      rcases of_setCall hd with ⟨-, ⟨⟩⟩ | ⟨-, hd⟩
      obtain ⟨d₀, hd₀, rfl⟩ := Option.map_eq_some_iff.mp hd
      exact hcalls i d₀ hi hd₀

theorem inv_create (h : Inv scope s) (hc : s.calls j = some c) (hphase : c.phase = .writing)
    (hraced : c.raced = false) (hcreate : c.create = true) :
    Inv scope ({ s with
      rows := (c.uuid, c.row) :: s.rows
      calls := overtake scope c.uuid c.row s.calls }.setCall j none) := by
  obtain ⟨hfresh, hmine⟩ := h.own j c hc hcreate
  have hclear : ∀ r ∈ s.rows, clashes scope r.2 c.row = false :=
    fun r hr => h.counted j c hc hphase hraced r hr (hfresh r hr)
  apply inv_written h hc
  · intro r hr r' hr' hne
    rcases List.mem_cons.mp hr with rfl | hr <;> rcases List.mem_cons.mp hr' with rfl | hr'
    · exact absurd rfl hne
    · rw [clashes_comm]
      exact hclear r' hr'
    · exact hclear r hr
    · exact h.unique r hr r' hr' hne
  · intro r hr r' hr' heq
    rcases List.mem_cons.mp hr with rfl | hr <;> rcases List.mem_cons.mp hr' with rfl | hr'
    · rfl
    · exact absurd heq.symm (hfresh r' hr')
    · exact absurd heq (hfresh r hr)
    · exact h.keys r hr r' hr' heq
  · intro q hq
    rcases List.mem_cons.mp hq with rfl | hq
    · exact .inr ⟨rfl, rfl, rfl⟩
    · exact .inl hq
  · exact fun j' c' hj hc' _ hu => absurd hu (hmine j' c' hj hc')

theorem inv_update (h : Inv scope s) (hc : s.calls j = some c) (hphase : c.phase = .writing)
    (hraced : c.raced = false) (hcreate : c.create = false)
    (hthere : ∃ r ∈ s.rows, r.1 = c.uuid) :
    Inv scope ({ s with
      rows := rename c.uuid c.row.name s.rows
      calls := overtake scope c.uuid c.row s.calls }.setCall j none) := by
  have hclear : ∀ r ∈ s.rows, r.1 ≠ c.uuid → clashes scope r.2 c.row = false :=
    h.counted j c hc hphase hraced
  have hmine : ∀ r ∈ s.rows, r.1 = c.uuid → r.2.projectId = c.row.projectId :=
    h.project j c hc hcreate
  have hnamed : ∀ q ∈ s.rows, q.1 = c.uuid → ∀ r : Db.Container,
      clashes scope r { q.2 with name := c.row.name } = clashes scope r c.row :=
    fun q hq hu r => clashes_congr (hmine q hq hu) rfl
  apply inv_written h hc
  · intro r hr r' hr' hne
    rcases mem_rename.mp hr with ⟨r₀, hr₀, hu, rfl⟩ | ⟨hr, hu⟩ <;>
      rcases mem_rename.mp hr' with ⟨r₁, hr₁, hu', rfl⟩ | ⟨hr', hu'⟩
    · exact absurd rfl hne
    · rw [clashes_comm, hnamed r₀ hr₀ hu]
      exact hclear r' hr' hu'
    · rw [hnamed r₁ hr₁ hu']
      exact hclear r hr hu
    · exact h.unique r hr r' hr' hne
  · intro r hr r' hr' heq
    rcases mem_rename.mp hr with ⟨r₀, hr₀, hu, rfl⟩ | ⟨hr, hu⟩ <;>
      rcases mem_rename.mp hr' with ⟨r₁, hr₁, hu', rfl⟩ | ⟨hr', hu'⟩
    · rw [h.keys r₀ hr₀ r₁ hr₁ (hu.trans hu'.symm)]
    · exact absurd heq.symm hu'
    · exact absurd heq hu
    · exact h.keys r hr r' hr' heq
  · intro q hq
    rcases mem_rename.mp hq with ⟨r₀, hr₀, hu, rfl⟩ | ⟨hq, -⟩
    · exact .inr ⟨rfl, hmine r₀ hr₀ hu, rfl⟩
    · exact .inl hq
  · intro j' c' _ hc' hcreate' hu
    obtain ⟨r, hr, hru⟩ := hthere
    rw [← hmine r hr hru]
    exact h.project j' c' hc' hcreate' r hr (hru.trans hu.symm)

theorem inv_stepWrite (h : Inv scope s) (hc : s.calls j = some c) (hphase : c.phase = .writing)
    (ho : Orderly scope (.write j) s) :
    Inv scope (stepWrite scope s j c) := by
  have hraced := ho c hc hphase
  unfold stepWrite
  split
  · exact h.ends
  · rename_i hany
    cases hcreate : c.create with
    | true => exact inv_create h hc hphase hraced hcreate
    | false =>
      rw [hcreate, Bool.not_eq_false, List.any_eq_true] at hany
      obtain ⟨r, hr, hu⟩ := hany
      exact inv_update h hc hphase hraced hcreate ⟨r, hr, by simpa using hu⟩

theorem Inv.withCall {phase : Phase} {f : Call → State} (h : Inv scope s)
    (hf : ∀ c, s.calls j = some c → c.phase = phase → Inv scope (f c)) :
    Inv scope (s.withCall j phase f) := by
  unfold State.withCall
  split
  · exact h
  · rename_i c hc
    split
    · rename_i hphase
      exact hf c hc hphase
    · exact h

theorem inv_destroy (h : Inv scope s) : Inv scope (step scope (.destroy u) s) where
  unique r hr r' hr' := h.unique r (List.mem_of_mem_filter hr) r' (List.mem_of_mem_filter hr')
  keys r hr r' hr' := h.keys r (List.mem_of_mem_filter hr) r' (List.mem_of_mem_filter hr')
  refused := h.refused
  counted j c hc hphase hraced r hr :=
    h.counted j c hc hphase hraced r (List.mem_of_mem_filter hr)
  project j c hc hcreate r hr := h.project j c hc hcreate r (List.mem_of_mem_filter hr)
  own j c hc hcreate := by
    obtain ⟨hrows, hcalls⟩ := h.own j c hc hcreate
    exact ⟨fun r hr => hrows r (List.mem_of_mem_filter hr), hcalls⟩

theorem inv_step (hset : scope ≠ .none) (e : Event) (h : Inv scope s) (hp : Possible e s)
    (ho : Orderly scope e s) : Inv scope (step scope e s) := by
  cases e with
  | begin j c => exact inv_begin h hp
  | check j => exact h.withCall fun c hc hphase => inv_stepCheck hset h hc hphase ho
  | write j => exact h.withCall fun c hc hphase => inv_stepWrite h hc hphase ho
  | fail j => exact h.ends
  | destroy u => exact inv_destroy h

theorem inv_begun (h : Begun scope s) : Inv scope s where
  unique := h.unique
  keys := h.keys
  refused names hn := by
    rw [h.refused] at hn
    cases hn
  counted j c hc := by
    rw [h.calls j] at hc
    cases hc
  project j c hc := by
    rw [h.calls j] at hc
    cases hc
  own j c hc := by
    rw [h.calls j] at hc
    cases hc

/-- Where each check covers the scope of what it is made for, and no write comes between a check and
its own write, names stay unique. -/
theorem unique_of_orderly (hset : scope ≠ .none)
    (h : Reached (Begun scope) (step scope) (fun e s => Possible e s ∧ Orderly scope e s) s) :
    Safe scope s := by
  have hinv : Inv scope s := by
    apply h.invariant
    · exact fun s hs => inv_begun hs
    · exact fun e s he hs => inv_step hset e hs he.1 he.2
  exact ⟨hinv.unique, hinv.refused⟩

/-! ### A create beside another name, and two creates at once -/

def tenant : Db.Context := { projectId := some "p", userId := some "u" }

def creation (u : Uuid) (name : String) : Call where
  ctx := tenant
  uuid := u
  row := { containerType := .container, projectId := some "p", name := some name }
  create := true

def oneRow : State := { rows := [(5, (creation 5 "db").row)] }

theorem begun_oneRow : Begun .project oneRow where
  unique r hr r' hr' hne := by
    cases List.mem_singleton.mp hr
    cases List.mem_singleton.mp hr'
    exact absurd rfl hne
  keys r hr r' hr' _ := by
    rw [List.mem_singleton.mp hr, List.mem_singleton.mp hr']
  calls _ := rfl
  refused := rfl

theorem web_clear : clashes .project (creation 5 "db").row (creation 1 "web").row = false := by
  decide +kernel

theorem web_checked : step .project (.check 1) (step .project (.begin 1 (creation 1 "web")) oneRow) =
    (oneRow.setCall 1 (some (creation 1 "web"))).setCall 1
      (some { creation 1 "web" with phase := .writing }) := by
  show stepCheck .project _ 1 (creation 1 "web") = _
  rw [stepCheck, if_neg (by decide), if_neg (by decide +kernel)]
  rfl

theorem oneCreate_orderly : Allowed (step .project)
    (fun e s => Possible e s ∧ Orderly .project e s)
    [.begin 1 (creation 1 "web"), .check 1, .write 1] oneRow := by
  refine ⟨⟨⟨rfl, ?_⟩, trivial⟩, ⟨trivial, ?_⟩, ?_⟩
  · constructor
    · intro r hr
      cases List.mem_singleton.mp hr
      decide
    · rintro _ _ ⟨⟩
  · rintro c ⟨⟩ -
    constructor
    · intro r hr _ hclash
      cases List.mem_singleton.mp hr
      exact absurd (web_clear.symm.trans hclash) Bool.false_ne_true
    · rintro ⟨⟩
  · rw [web_checked]
    refine ⟨⟨trivial, ?_⟩, trivial⟩
    intro c hc _
    rcases of_setCall hc with ⟨-, ⟨⟩⟩ | ⟨hj, -⟩
    · rfl
    · exact absurd rfl hj

theorem safe_oneCreate : Safe .project (steps (step .project)
    [.begin 1 (creation 1 "web"), .check 1, .write 1] oneRow) := by
  have hbegun : Reached (Begun .project) (step .project)
      (fun e s => Possible e s ∧ Orderly .project e s) oneRow := .init begun_oneRow
  exact unique_of_orderly (by decide) (hbegun.steps oneCreate_orderly)

/-- Both have counted before either writes. -/
def atOnce : List Event :=
  [.begin 1 (creation 1 "web"), .begin 2 (creation 2 "Web"), .check 1, .check 2, .write 1, .write 2]

theorem atOnce_possible : Allowed (step .project) Possible atOnce {} := by
  refine ⟨⟨rfl, ?_⟩, ⟨rfl, ?_⟩, trivial, trivial, trivial, trivial, trivial⟩
  · constructor
    · rintro _ ⟨⟩
    · rintro _ _ ⟨⟩
  · constructor
    · rintro _ ⟨⟩
    · intro j c hc
      rcases of_setCall hc with ⟨-, ⟨⟩⟩ | ⟨-, ⟨⟩⟩
      decide

theorem atOnce_rows : (steps (step .project) atOnce {}).rows =
    [(2, (creation 2 "Web").row), (1, (creation 1 "web").row)] := by
  decide +kernel

theorem toLower_web : ("Web" : String).toLower = ("web" : String).toLower := by
  refine String.toList_injective ?_
  change (String.map Char.toLower "Web").toList = (String.map Char.toLower "web").toList
  rw [String.toList_map, String.toList_map]
  decide

theorem clashes_web : clashes .project (creation 2 "Web").row (creation 1 "web").row = true := by
  show (decide (_ = _) && decide (("Web" : String).toLower = ("web" : String).toLower)) = true
  rw [toLower_web, decide_eq_true (rfl : ("web" : String).toLower = _), Bool.and_true]
  decide

theorem names_not_safe : ¬ ∀ (scope : Scope) (s : State), scope ≠ .none →
    Reached (Begun scope) (step scope) Possible s → Safe scope s := by
  intro h
  have hbegun : Reached (Begun .project) (step .project) Possible {} := by
    apply Reached.init
    constructor
    · rintro _ ⟨⟩
    · rintro _ ⟨⟩
    · exact fun _ => rfl
    · rfl
  obtain ⟨hunique, -⟩ := h .project _ (by decide) (hbegun.steps atOnce_possible)
  rw [atOnce_rows] at hunique
  have hclash := hunique (2, (creation 2 "Web").row) (by simp) (1, (creation 1 "web").row) (by simp)
    (by decide)
  exact absurd (hclash.symm.trans clashes_web) Bool.false_ne_true

end Names

end Zun
