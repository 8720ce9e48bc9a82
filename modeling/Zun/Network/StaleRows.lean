import Mathlib.Data.List.Nodup
import Zun.Network.Rows

/-!
# Rows that outlive their docker network

What `create_network` does about the row that is in its way, over its three attempts.  A row that is older than
the configured age and whose docker network is gone is to be removed, so that the network can be made again.

The row is looked for by a query that answers only the rows of no user.  So a row that was made for a user is
never removed, and not returned either when it is good.
-/

namespace Zun

open Effect Prog

namespace NetworkRows

variable {cfg : Config} {db : Database} {out : Outside} {ctx : Db.Context} {net : String} {s : Store}
  {r : Network} {k : Nat} {options : Options}

/-! ## What is asked of a call -/

/-- The rows of a database: no two have one UUID, or are of one network on one host. -/
structure Node where
  store : Store
  fresh : store.Fresh
  uuids : (store.rows.map Network.uuid).Nodup
  networks : (store.rows.map fun r => (r.neutronNetId, r.host)).Nodup

/-- The row is that of a docker network of the name. -/
def HasNetwork (net : String) (r : Network) (s : Store) : Prop :=
  ∃ d ∈ s.docker, d.name = net ∧ r.networkId = some d.id

/-- A call ends with the row of a docker network, or raises and leaves no row that it made. -/
def Ends (net : String) (s : Store) : Result Failure Network → Store → Prop
  | .ok row, s' => row ∈ s'.rows ∧ HasNetwork net row s'
  | .raise _, s' => ∀ r ∈ s'.rows, r ∈ s.rows
  | .halt, _ => False

/-- Neutron and docker answer what they are asked; docker may still fail to make a network. -/
def Outside.Answers (cfg : Config) (net : String) (out : Outside) : Prop :=
  (∃ options, prepare cfg out net = .ok options) ∧ ∀ k, out.networks k = none

/-- Nothing fails. -/
def Outside.Serves (cfg : Config) (net : String) (out : Outside) : Prop :=
  out.Answers cfg net ∧ ∀ k, ∃ id, out.createNetwork k = .ok id

/-- The row is in the way, is older than the age, and docker has no network of the name. -/
structure Outlived (cfg : Config) (net : String) (s : Store) (r : Network) : Prop where
  mem : r ∈ s.rows
  inTheWay : blocks cfg net r = true
  stale : isStale cfg s.now r = true
  gone : ∀ d ∈ s.docker, d.name ≠ net

structure Heals (cfg : Config) (db : Database) (ctx : Db.Context) (net : String) (s : Store) : Prop where
  ends : ∀ out, wp (createNetwork cfg db out ctx net) (Ends net s) s
  removed : ∀ out : Outside, out.Answers cfg net → ∀ r, Outlived cfg net s r →
    r ∉ (createNetwork cfg db out ctx net s).2.rows
  succeeds : ∀ out : Outside, out.Answers cfg net → ∀ r, Outlived cfg net s r →
    ∀ (ctx' : Db.Context) (out' : Outside), out'.Serves cfg net → ∃ row,
      (createNetwork cfg db out' ctx' net (createNetwork cfg db out ctx net s).2).1 = .ok row

/-- When a call meets what is asked of it. -/
structure Sound (cfg : Config) (db : Database) (ctx : Db.Context) (net : String) (s : Store) : Prop where
  /-- The row that is found to be that of the docker network listed first is that of one of the name. -/
  good : ∀ r ∈ s.rows, blocks cfg net r = true → r.userId = none → isGood r (listed net s) = true →
    HasNetwork net r s
  /-- Neither a row that has outlived its docker network nor the caller has a user, docker lists nothing that has
  the name as a part, and the database does what it is asked. -/
  stale : ∀ r, Outlived cfg net s r →
    listed net s = [] ∧ r.userId = none ∧ ctx.userId = none ∧ db.save = none ∧ db.destroy = none
  /-- Where a row is made at once, the database lets it be given its id, and be destroyed. -/
  free : (∀ r ∈ s.rows, blocks cfg net r = false) → db.save = none ∧ db.destroy = none
  /-- So it does where one is made after the row in the way has come of age between two attempts. -/
  matured : ∀ r ∈ s.rows, blocks cfg net r = true → r.userId = none → listed net s = [] →
    isStale cfg s.now r = false → isStale cfg (s.now + 1) r = true → db.destroy = none → db.save = none

/-! ## A row in the way, or none -/

theorem Node.countP_uuid (node : Node) (hr : r ∈ node.store.rows) :
    node.store.rows.countP (fun r' => r'.uuid = r.uuid) = 1 := by
  have hcount := List.count_eq_one_of_mem node.uuids (List.mem_map_of_mem hr)
  rw [List.count, List.countP_map] at hcount
  rw [← hcount]
  exact List.countP_congr fun r' _ => by simp

theorem Node.cases (node : Node) (cfg : Config) (net : String) :
    (∀ r ∈ node.store.rows, blocks cfg net r = false) ∨
      ∃ r, node.store.rows.filter (blocks cfg net) = [r] := by
  cases hrows : node.store.rows.filter (blocks cfg net) with
  | nil => exact .inl fun r hr => Bool.eq_false_iff.mpr (List.filter_eq_nil_iff.mp hrows r hr)
  | cons r rest =>
      cases rest with
      | nil => exact .inr ⟨r, rfl⟩
      | cons r' rest =>
          have hnodup := (List.filter_sublist (p := blocks cfg net) (l := node.store.rows)).map
            (fun r => (r.neutronNetId, r.host)) |>.nodup node.networks
          have hkey : ∀ x ∈ node.store.rows.filter (blocks cfg net),
              (x.neutronNetId, x.host) = (net, cfg.host) := by
            intro x hx
            have hb := (List.mem_filter.mp hx).2
            simp only [blocks, Bool.and_eq_true, decide_eq_true_eq] at hb
            rw [hb.1, hb.2]
          rw [hrows] at hnodup hkey
          rw [List.map_cons, List.map_cons, hkey r (by simp), hkey r' (by simp)] at hnodup
          exact absurd (List.mem_cons_self ..) (List.nodup_cons.mp hnodup).1

theorem listed_eq_nil (h : listed net s = []) : ∀ d ∈ s.docker, d.name ≠ net := by
  rintro d hd rfl
  exact List.filter_eq_nil_iff.mp h d hd (decide_eq_true (List.infix_refl _))

/-- A row in the way that is gone leaves none. -/
theorem free_of_remove (h : s.rows.filter (blocks cfg net) = [r]) :
    ∀ r' ∈ (s.remove r).rows, blocks cfg net r' = false := by
  intro r' hr'
  obtain ⟨hmem, hne⟩ := List.mem_filter.mp hr'
  refine Bool.eq_false_iff.mpr fun hblocks => ?_
  obtain rfl := List.mem_singleton.mp (h ▸ List.mem_filter.mpr ⟨hmem, hblocks⟩)
  exact of_decide_eq_true hne rfl

theorem Store.Fresh.remove (h : s.Fresh) : (s.remove r).Fresh :=
  fun r' hr' => h r' (List.mem_of_mem_filter hr')

/-- What remains of the rows after attempts that may have made one. -/
def Tidy (net : String) (rows : List Network) : Result Failure (Option Network) → Store → Prop
  | .ok (some row), s' => row ∈ s'.rows ∧ HasNetwork net row s'
  | .ok none, s' => ∀ r ∈ s'.rows, r ∈ rows
  | .raise _, s' => ∀ r ∈ s'.rows, r ∈ rows
  | .halt, _ => False

theorem ends_of_tidy (h : ∀ options, wp (attempts cfg db out (newNetwork cfg ctx net) options [1, 2, 3])
    (Tidy net s.rows) s) : wp (createNetwork cfg db out ctx net) (Ends net s) s := by
  unfold wp
  rw [createNetwork_run]
  cases prepare cfg out net with
  | error e => exact fun r hr => hr
  | ok options =>
      have htidy := h options
      unfold wp at htidy
      rcases hrun : attempts cfg db out (newNetwork cfg ctx net) options [1, 2, 3] s with ⟨result, s'⟩
      rw [hrun] at htidy
      dsimp only
      rw [hrun]
      rcases result with (_ | row) | e | _ <;> exact htidy

/-- One attempt with a row in the way. -/
theorem wp_attempts_blocked {Q : Result Failure (Option Network) → Store → Prop} {ks : List Nat}
    (h : s.rows.filter (blocks cfg net) = [r]) (huuid : s.rows.countP (fun r' => r'.uuid = r.uuid) = 1)
    (hraise : ∀ e, Q (.raise e) s)
    (hgood : r.userId = none → isGood r (listed net s) = true → Q (.ok (some r)) s)
    (hremove : r.userId = none → listed net s = [] → isStale cfg s.now r = true → db.destroy = none →
      wp (attempts cfg db out (newNetwork cfg ctx net) options ks) Q ((s.remove r).wait (2 ^ k - 1)))
    (hwait : wp (attempts cfg db out (newNetwork cfg ctx net) options ks) Q (s.wait (2 ^ k - 1))) :
    wp (attempts cfg db out (newNetwork cfg ctx net) options (k :: ks)) Q s := by
  unfold wp
  rw [attempts_cons, attempt_of_blocked h huuid]
  cases out.networks k with
  | some e => exact hraise e
  | none =>
      dsimp only
      split_ifs with huser hlisted hstale
      · exact hwait
      · exact hgood (not_not.mp huser) hlisted
      · exact hremove (not_not.mp huser) hstale.1.1 hstale.1.2 hstale.2
      · exact hwait

/-- Attempts with no row in the way, and a database that does what it is asked. -/
theorem tidy_of_free {rows : List Network} (hfresh : s.Fresh) (hfree : ∀ r ∈ s.rows, blocks cfg net r = false)
    (hsave : db.save = none) (hdestroy : db.destroy = none) (hrows : ∀ r ∈ s.rows, r ∈ rows) (ks : List Nat) :
    wp (attempts cfg db out (newNetwork cfg ctx net) options ks) (Tidy net rows) s := by
  cases ks with
  | nil => exact hrows
  | cons k ks =>
      unfold wp
      rw [attempts_cons, attempt_of_free hfresh hfree]
      cases out.createNetwork k with
      | error e =>
          rw [hdestroy]
          exact hrows
      | ok id =>
          rw [hsave]
          exact ⟨List.mem_append_right _ (List.mem_singleton_self _), _,
            List.mem_append_right _ (List.mem_singleton_self _), rfl, rfl⟩

/-- Attempts with a row in the way that may be removed, when new rows are given their ids. -/
theorem tidy_of_blocked {rows : List Network} {ks : List Nat} (hfresh : s.Fresh)
    (h : s.rows.filter (blocks cfg net) = [r]) (huuid : s.rows.countP (fun r' => r'.uuid = r.uuid) = 1)
    (hsave : db.save = none) (hgood : r.userId = none → isGood r (listed net s) = true → HasNetwork net r s)
    (hrows : ∀ r ∈ s.rows, r ∈ rows) :
    wp (attempts cfg db out (newNetwork cfg ctx net) options ks) (Tidy net rows) s := by
  induction ks generalizing s with
  | nil => exact hrows
  | cons k ks ih =>
      refine wp_attempts_blocked h huuid (fun e => hrows) ?_ ?_ ?_
      · intro huser hlisted
        exact ⟨(List.mem_filter.mp (h ▸ List.mem_singleton_self r)).1, hgood huser hlisted⟩
      · intro _ _ _ hdestroy
        exact tidy_of_free (s := (s.remove r).wait (2 ^ k - 1)) hfresh.remove (free_of_remove h) hsave hdestroy
          (fun r' hr' => hrows r' (List.mem_of_mem_filter hr')) ks
      · exact ih (s := s.wait (2 ^ k - 1)) hfresh h huuid hgood hrows

/-- Attempts with a row in the way that comes of age too late for another one to be made. -/
theorem tidy_of_young (h : s.rows.filter (blocks cfg net) = [r])
    (huuid : s.rows.countP (fun r' => r'.uuid = r.uuid) = 1)
    (hgood : r.userId = none → isGood r (listed net s) = true → HasNetwork net r s)
    (hnow : ¬ (r.userId = none ∧ listed net s = [] ∧ db.destroy = none ∧ isStale cfg s.now r = true))
    (hnext : ¬ (r.userId = none ∧ listed net s = [] ∧ db.destroy = none ∧ isStale cfg (s.now + 1) r = true)) :
    wp (attempts cfg db out (newNetwork cfg ctx net) options [1, 2, 3]) (Tidy net s.rows) s := by
  have hmem := (List.mem_filter.mp (h ▸ List.mem_singleton_self r)).1
  refine wp_attempts_blocked h huuid (fun e r hr => hr) (fun hu hl => ⟨hmem, hgood hu hl⟩) ?_ ?_
  · exact fun hu hl hs hd => absurd ⟨hu, hl, hd, hs⟩ hnow
  refine wp_attempts_blocked (s := s.wait 1) h huuid (fun e r hr => hr) (fun hu hl => ⟨hmem, hgood hu hl⟩) ?_ ?_
  · exact fun hu hl hs hd => absurd ⟨hu, hl, hd, hs⟩ hnext
  refine wp_attempts_blocked (s := (s.wait 1).wait 3) h huuid (fun e r hr => hr)
    (fun hu hl => ⟨hmem, hgood hu hl⟩) ?_ ?_
  · exact fun _ _ _ _ r' hr' => List.mem_of_mem_filter hr'
  · exact fun r hr => hr

theorem ends_of_sound (node : Node) (h : Sound cfg db ctx net node.store) :
    wp (createNetwork cfg db out ctx net) (Ends net node.store) node.store := by
  refine ends_of_tidy fun options => ?_
  rcases node.cases cfg net with hfree | ⟨r, hr⟩
  · obtain ⟨hsave, hdestroy⟩ := h.free hfree
    exact tidy_of_free node.fresh hfree hsave hdestroy (fun r hr => hr) _
  · obtain ⟨hmem, hblocks⟩ := List.mem_filter.mp (hr ▸ List.mem_singleton_self r)
    have huuid := node.countP_uuid hmem
    by_cases hsave : db.save = none
    · exact tidy_of_blocked node.fresh hr huuid hsave (h.good r hmem hblocks) fun r hr => hr
    · have hnow : ¬ (r.userId = none ∧ listed net node.store = [] ∧ db.destroy = none ∧
          isStale cfg node.store.now r = true) := fun hold =>
        hsave (h.stale r ⟨hmem, hblocks, hold.2.2.2, listed_eq_nil hold.2.1⟩).2.2.2.1
      refine tidy_of_young hr huuid (h.good r hmem hblocks) hnow fun hnext => hsave ?_
      refine h.matured r hmem hblocks hnext.1 hnext.2.1 ?_ hnext.2.2.2 hnext.2.2.1
      exact Bool.eq_false_iff.mpr fun hstale => hnow ⟨hnext.1, hnext.2.1, hnext.2.2.1, hstale⟩

/-! ## A row that has outlived its docker network -/

/-- An attempt removes it. -/
theorem attempts_of_outlived (h : s.rows.filter (blocks cfg net) = [r])
    (huuid : s.rows.countP (fun r' => r'.uuid = r.uuid) = 1) (hnetworks : out.networks k = none)
    (huser : r.userId = none) (hlisted : listed net s = []) (hstale : isStale cfg s.now r = true)
    (hdestroy : db.destroy = none) (ks : List Nat) :
    attempts cfg db out (newNetwork cfg ctx net) options (k :: ks) s =
      attempts cfg db out (newNetwork cfg ctx net) options ks ((s.remove r).wait (2 ^ k - 1)) := by
  have hgood : isGood r (listed net s) ≠ true := by
    rw [hlisted]
    exact Bool.false_ne_true
  rw [attempts_cons, attempt_of_blocked h huuid, hnetworks]
  dsimp only
  rw [if_neg (not_not.mpr huser), if_neg hgood, if_pos ⟨⟨hlisted, hstale⟩, hdestroy⟩]

/-- An attempt leaves it alone while it is young. -/
theorem attempts_of_young (h : s.rows.filter (blocks cfg net) = [r])
    (huuid : s.rows.countP (fun r' => r'.uuid = r.uuid) = 1) (hnetworks : out.networks k = none)
    (huser : r.userId = none) (hlisted : listed net s = []) (hyoung : isStale cfg s.now r = false) (ks : List Nat) :
    attempts cfg db out (newNetwork cfg ctx net) options (k :: ks) s =
      attempts cfg db out (newNetwork cfg ctx net) options ks (s.wait (2 ^ k - 1)) := by
  have hgood : isGood r (listed net s) ≠ true := by
    rw [hlisted]
    exact Bool.false_ne_true
  rw [attempts_cons, attempt_of_blocked h huuid, hnetworks]
  dsimp only
  rw [if_neg (not_not.mpr huser), if_neg hgood, if_neg fun hstale => ne_true_of_eq_false hyoung hstale.1.2]

/-- What a row and its docker network are made as. -/
def madeWith (cfg : Config) (ctx : Db.Context) (net : String) (s : Store) (id : String) : Network :=
  { made cfg ctx net s with networkId := some id }

/-- With no row in the way, an attempt makes the network, or fails to and leaves no row. -/
theorem attempts_of_free (out : Outside) (ctx : Db.Context) (options : Options) (k : Nat) (ks : List Nat)
    (hfresh : s.Fresh) (hfree : ∀ r ∈ s.rows, blocks cfg net r = false) (hsave : db.save = none)
    (hdestroy : db.destroy = none) :
    (∃ e, attempts cfg db out (newNetwork cfg ctx net) options (k :: ks) s = (.raise e, s.spend)) ∧
        (∀ id, out.createNetwork k ≠ .ok id) ∨
      ∃ id, out.createNetwork k = .ok id ∧
        attempts cfg db out (newNetwork cfg ctx net) options (k :: ks) s =
          (.ok (some (madeWith cfg ctx net s id)), (s.add (madeWith cfg ctx net s id)).wrap net id options) := by
  rw [attempts_cons, attempt_of_free hfresh hfree]
  cases out.createNetwork k with
  | error e =>
      rw [hdestroy]
      exact .inl ⟨⟨e, rfl⟩, fun id h => by cases h⟩
  | ok id =>
      rw [hsave]
      exact .inr ⟨id, rfl, rfl⟩

/-- A call succeeds where no row is in the way. -/
theorem succeeds_of_free (hfresh : s.Fresh) (hfree : ∀ r ∈ s.rows, blocks cfg net r = false)
    (hsave : db.save = none) (hdestroy : db.destroy = none) (hserves : out.Serves cfg net) :
    ∃ row, (createNetwork cfg db out ctx net s).1 = .ok row := by
  obtain ⟨options, hoptions⟩ := hserves.1.1
  obtain ⟨id, hid⟩ := hserves.2 1
  rw [createNetwork_run, hoptions]
  dsimp only
  rcases attempts_of_free out ctx options 1 [2, 3] hfresh hfree hsave hdestroy with ⟨-, hnone⟩ | ⟨id', -, hrun⟩
  · exact absurd hid (hnone id)
  · rw [hrun]
    exact ⟨_, rfl⟩

/-- An attempt returns the row that is found to be that of the docker network. -/
theorem attempts_of_good {ks : List Nat} (h : s.rows.filter (blocks cfg net) = [r])
    (huuid : s.rows.countP (fun r' => r'.uuid = r.uuid) = 1) (hnetworks : out.networks k = none)
    (huser : r.userId = none) (hgood : isGood r (listed net s) = true) :
    attempts cfg db out (newNetwork cfg ctx net) options (k :: ks) s = (.ok (some r), s) := by
  rw [attempts_cons, attempt_of_blocked h huuid, hnetworks]
  dsimp only
  rw [if_neg (not_not.mpr huser), if_pos hgood]

/-- A call succeeds where the row in the way is that of the docker network and has no user. -/
theorem succeeds_of_good (h : s.rows.filter (blocks cfg net) = [r])
    (huuid : s.rows.countP (fun r' => r'.uuid = r.uuid) = 1) (huser : r.userId = none)
    (hgood : isGood r (listed net s) = true) (hanswers : out.Answers cfg net) :
    ∃ row, (createNetwork cfg db out ctx net s).1 = .ok row := by
  obtain ⟨options, hoptions⟩ := hanswers.1
  rw [createNetwork_run, hoptions]
  dsimp only
  rw [attempts_of_good h huuid (hanswers.2 1) huser hgood]
  exact ⟨_, rfl⟩

/-- In a database a row that is in the way is the only one. -/
theorem Node.filter_eq (node : Node) (hr : r ∈ node.store.rows) (h : blocks cfg net r = true) :
    node.store.rows.filter (blocks cfg net) = [r] := by
  rcases node.cases cfg net with hfree | ⟨r', hr'⟩
  · exact absurd h (ne_true_of_eq_false (hfree r hr))
  · obtain rfl := List.mem_singleton.mp (hr' ▸ List.mem_filter.mpr ⟨hr, h⟩)
    exact hr'

theorem Outlived.filter_eq {node : Node} (h : Outlived cfg net node.store r) :
    node.store.rows.filter (blocks cfg net) = [r] := node.filter_eq h.mem h.inTheWay

/-- The store once it has been removed and the time to the next attempt has passed. -/
def Store.cleared (s : Store) (r : Network) : Store := (s.remove r).wait (2 ^ 1 - 1)

/-- How a call ends that finds it. -/
theorem createNetwork_of_outlived {node : Node} (h : Outlived cfg net node.store r)
    (hsound : Sound cfg db ctx net node.store) (hanswers : out.Answers cfg net) :
    (∃ e, createNetwork cfg db out ctx net node.store = (.raise e, (node.store.cleared r).spend)) ∨
      ∃ id options, id ≠ "" ∧ createNetwork cfg db out ctx net node.store =
        (.ok (madeWith cfg ctx net (node.store.cleared r) id),
          ((node.store.cleared r).add (madeWith cfg ctx net (node.store.cleared r) id)).wrap net id options) := by
  obtain ⟨options, hoptions⟩ := hanswers.1
  obtain ⟨hlisted, huser, -, hsave, hdestroy⟩ := hsound.stale r h
  rw [createNetwork_run, hoptions]
  dsimp only
  rw [attempts_of_outlived h.filter_eq (node.countP_uuid h.mem) (hanswers.2 1) huser hlisted h.stale hdestroy]
  rcases attempts_of_free (s := node.store.cleared r) out ctx options 2 [3] node.fresh.remove
    (free_of_remove h.filter_eq) hsave hdestroy with ⟨⟨e, hrun⟩, -⟩ | ⟨id, hid, hrun⟩
  · refine .inl ⟨e, ?_⟩
    rw [Store.cleared] at hrun
    rw [hrun]
    rfl
  · refine .inr ⟨id, options, out.ids 2 id hid, ?_⟩
    rw [Store.cleared] at hrun
    rw [hrun]
    rfl

theorem removed_of_sound (node : Node) (hsound : Sound cfg db ctx net node.store) (hanswers : out.Answers cfg net)
    (h : Outlived cfg net node.store r) : r ∉ (createNetwork cfg db out ctx net node.store).2.rows := by
  have hgone : r ∉ (node.store.remove r).rows := fun hr =>
    Bool.false_ne_true ((free_of_remove h.filter_eq r hr).symm.trans h.inTheWay)
  rcases createNetwork_of_outlived h hsound hanswers with ⟨e, hrun⟩ | ⟨id, options, -, hrun⟩
  · rw [hrun]
    exact hgone
  · rw [hrun]
    intro hr
    rcases List.mem_append.mp hr with hr | hr
    · exact hgone hr
    · have huuid := congrArg Network.uuid (List.mem_singleton.mp hr)
      exact (node.fresh r h.mem).ne huuid

/-- The row that is made is the only one in the way afterwards. -/
theorem filter_add (hfree : ∀ r ∈ s.rows, blocks cfg net r = false) (id : String) :
    (s.add (madeWith cfg ctx net s id)).rows.filter (blocks cfg net) = [madeWith cfg ctx net s id] := by
  have hblocks : blocks cfg net (madeWith cfg ctx net s id) = true := by
    simp [blocks, madeWith, made, newNetwork]
  rw [Store.add, List.filter_append,
    List.filter_eq_nil_iff.mpr fun r hr => ne_true_of_eq_false (hfree r hr), List.nil_append,
    List.filter_cons_of_pos hblocks, List.filter_nil]

theorem countP_add (hfresh : s.Fresh) (id : String) : (s.add (madeWith cfg ctx net s id)).rows.countP
    (fun r => r.uuid = (madeWith cfg ctx net s id).uuid) = 1 := by
  have hnone : s.rows.countP (fun r => decide (r.uuid = (madeWith cfg ctx net s id).uuid)) = 0 :=
    List.countP_eq_zero.mpr fun r hr h => (hfresh r hr).ne (of_decide_eq_true h)
  simp [Store.add, hnone]

theorem listed_wrap {id : String} (h : listed net s = []) :
    listed net (s.wrap net id options) = [{ id, name := net, options }] := by
  rw [listed, Store.wrap, List.filter_append]
  change listed net s ++ _ = _
  rw [h, List.nil_append]
  exact List.filter_cons_of_pos (decide_eq_true (List.infix_refl _))

theorem succeeds_of_sound (node : Node) (hsound : Sound cfg db ctx net node.store) (hanswers : out.Answers cfg net)
    (h : Outlived cfg net node.store r) {ctx' : Db.Context} {out' : Outside} (hserves : out'.Serves cfg net) :
    ∃ row, (createNetwork cfg db out' ctx' net (createNetwork cfg db out ctx net node.store).2).1 = .ok row := by
  obtain ⟨hlisted, -, huser, hsave, hdestroy⟩ := hsound.stale r h
  have hfree : ∀ r' ∈ (node.store.cleared r).rows, blocks cfg net r' = false := free_of_remove h.filter_eq
  have hfresh : (node.store.cleared r).Fresh := node.fresh.remove
  rcases createNetwork_of_outlived h hsound hanswers with ⟨e, hrun⟩ | ⟨id, options, hid, hrun⟩
  · rw [hrun]
    exact succeeds_of_free (s := (node.store.cleared r).spend) (fun r hr => Nat.lt_succ_of_lt (hfresh r hr)) hfree
      hsave hdestroy hserves
  · rw [hrun]
    refine succeeds_of_good (filter_add hfree id) (countP_add hfresh id) huser ?_ hserves.1
    dsimp only
    rw [listed_wrap (s := (node.store.cleared r).add (madeWith cfg ctx net (node.store.cleared r) id)) hlisted]
    simp [isGood, madeWith, hid]

/-! ## What follows from being healed -/

/-- Neutron has a network with one subnet, and docker makes networks, or refuses to. -/
def outside (createNetwork : Except Failure String) (h : ∀ id, createNetwork = .ok id → id ≠ "") : Outside where
  shared := .ok false
  subnets := .ok [{ id := "s", ipVersion := 4, cidr := "10.0.0.0/24", gatewayIp := some "10.0.0.1" }]
  networks _ := none
  createNetwork _ := createNetwork
  ids _ := h

def serving : Outside := outside (.ok "d") fun id h => by cases h; decide

def refusing : Outside := outside (.error (.other 0)) fun id h => by cases h

theorem prepare_outside (createNetwork : Except Failure String) (h : ∀ id, createNetwork = .ok id → id ≠ "") :
    ∃ options, prepare cfg (outside createNetwork h) net = .ok options := ⟨_, rfl⟩

theorem answers_serving (cfg : Config) (net : String) : serving.Answers cfg net :=
  ⟨prepare_outside _ _, fun _ => rfl⟩

/-- A row that is not removed stays. -/
theorem rows_kept (out : Outside) (ctx : Db.Context) (options : Options) (ks : List Nat)
    (h : s.rows.filter (blocks cfg net) = [r])
    (huuid : s.rows.countP (fun r' => r'.uuid = r.uuid) = 1)
    (hstays : ¬ (r.userId = none ∧ listed net s = [] ∧ db.destroy = none)) :
    wp (attempts cfg db out (newNetwork cfg ctx net) options ks) (fun _ s' => s'.rows = s.rows) s := by
  induction ks generalizing s with
  | nil => rfl
  | cons k ks ih =>
      refine wp_attempts_blocked h huuid (fun _ => rfl) (fun _ _ => rfl) ?_ (ih (s := s.wait _) h huuid hstays)
      exact fun hu hl _ hd => absurd ⟨hu, hl, hd⟩ hstays

/-- The row of a user is not found. -/
theorem not_found (db : Database) (out : Outside) (ctx : Db.Context) (options : Options) (ks : List Nat)
    (h : s.rows.filter (blocks cfg net) = [r])
    (huuid : s.rows.countP (fun r' => r'.uuid = r.uuid) = 1) (huser : r.userId ≠ none) :
    wp (attempts cfg db out (newNetwork cfg ctx net) options ks)
      (fun result _ => ∀ row, result ≠ .ok (some row)) s := by
  induction ks generalizing s with
  | nil => exact fun row h => by cases h
  | cons k ks ih =>
      refine wp_attempts_blocked h huuid (fun e row h => by cases h) (fun hu => absurd hu huser) ?_
        (ih (s := s.wait _) h huuid)
      exact fun hu => absurd hu huser

/-- A row that is made is not one of those there were. -/
theorem made_notMem {rows : List Network} (hfresh : ∀ r ∈ rows, r.uuid < s.nextUuid) :
    made cfg ctx net s ∉ rows :=
  fun h => (hfresh _ h).ne rfl

/-- An attempt that comes to make a row leaves it, if the row cannot be given its id. -/
theorem attempts_of_unsaved {e : Failure} (hfresh : s.Fresh) (hfree : ∀ r ∈ s.rows, blocks cfg net r = false)
    (hsave : db.save = some e) (ks : List Nat) :
    attempts cfg db serving (newNetwork cfg ctx net) options (k :: ks) s =
      (.raise e, (s.add (made cfg ctx net s)).wrap net "d" options) := by
  rw [attempts_cons, attempt_of_free hfresh hfree, hsave]
  rfl

theorem tidy_of_ends (h : wp (createNetwork cfg db out ctx net) (Ends net s) s) (hout : out.Answers cfg net) :
    ∃ options, wp (attempts cfg db out (newNetwork cfg ctx net) options [1, 2, 3]) (Tidy net s.rows) s := by
  obtain ⟨options, hoptions⟩ := hout.1
  refine ⟨options, ?_⟩
  unfold wp at h ⊢
  rw [createNetwork_run, hoptions] at h
  rcases hrun : attempts cfg db out (newNetwork cfg ctx net) options [1, 2, 3] s with ⟨result, s'⟩
  dsimp only at h
  rw [hrun] at h
  rcases result with (_ | row) | e | _ <;> exact h

section

variable {node : Node} (h : Heals cfg db ctx net node.store)
include h

theorem good_of_heals (hr : r ∈ node.store.rows) (hblocks : blocks cfg net r = true) (huser : r.userId = none)
    (hgood : isGood r (listed net node.store) = true) : HasNetwork net r node.store := by
  obtain ⟨options, htidy⟩ := tidy_of_ends (h.ends serving) (answers_serving cfg net)
  unfold wp at htidy
  rw [attempts_of_good (node.filter_eq hr hblocks) (node.countP_uuid hr) rfl huser hgood] at htidy
  exact htidy.2

theorem free_of_heals (hfree : ∀ r ∈ node.store.rows, blocks cfg net r = false) :
    db.save = none ∧ db.destroy = none := by
  constructor
  · cases hsave : db.save with
    | none => rfl
    | some e =>
        obtain ⟨options, htidy⟩ := tidy_of_ends (h.ends serving) (answers_serving cfg net)
        unfold wp at htidy
        rw [attempts_of_unsaved node.fresh hfree hsave] at htidy
        exact absurd (htidy _ (List.mem_append_right _ (List.mem_singleton_self _))) (made_notMem node.fresh)
  · cases hdestroy : db.destroy with
    | none => rfl
    | some e =>
        obtain ⟨options, htidy⟩ := tidy_of_ends (h.ends refusing) ⟨prepare_outside _ _, fun _ => rfl⟩
        unfold wp at htidy
        rw [attempts_cons, attempt_of_free node.fresh hfree, hdestroy] at htidy
        exact absurd (htidy _ (List.mem_append_right _ (List.mem_singleton_self _))) (made_notMem node.fresh)

/-- The call has to find the row, and the database has to let it be destroyed. -/
theorem found_of_heals (hold : Outlived cfg net node.store r) :
    r.userId = none ∧ listed net node.store = [] ∧ db.destroy = none := by
  by_contra hstays
  obtain ⟨options, hoptions⟩ := (answers_serving cfg net).1
  have hremoved := h.removed serving (answers_serving cfg net) r hold
  rw [createNetwork_run, hoptions] at hremoved
  have hkept := rows_kept serving ctx options [1, 2, 3] hold.filter_eq (node.countP_uuid hold.mem) hstays
  unfold wp at hkept
  rcases hrun : attempts cfg db serving (newNetwork cfg ctx net) options [1, 2, 3] node.store with ⟨result, s'⟩
  dsimp only at hremoved
  rw [hrun] at hremoved hkept
  refine hremoved ?_
  rcases result with (_ | row) | e | _ <;> exact (hkept : s'.rows = node.store.rows) ▸ hold.mem

theorem stale_of_heals (hold : Outlived cfg net node.store r) :
    listed net node.store = [] ∧ r.userId = none ∧ ctx.userId = none ∧ db.save = none ∧ db.destroy = none := by
  obtain ⟨huser, hlisted, hdestroy⟩ := found_of_heals h hold
  have hfree : ∀ r' ∈ (node.store.cleared r).rows, blocks cfg net r' = false := free_of_remove hold.filter_eq
  have hfresh : (node.store.cleared r).Fresh := node.fresh.remove
  have hclears (options : Options) : attempts cfg db serving (newNetwork cfg ctx net) options [1, 2, 3] node.store =
      attempts cfg db serving (newNetwork cfg ctx net) options [2, 3] (node.store.cleared r) :=
    attempts_of_outlived hold.filter_eq (node.countP_uuid hold.mem) rfl huser hlisted hold.stale hdestroy [2, 3]
  have hsave : db.save = none := by
    cases hsave : db.save with
    | none => rfl
    | some e =>
        obtain ⟨options, htidy⟩ := tidy_of_ends (h.ends serving) (answers_serving cfg net)
        unfold wp at htidy
        rw [hclears, attempts_of_unsaved hfresh hfree hsave] at htidy
        exact absurd (htidy _ (List.mem_append_right _ (List.mem_singleton_self _))) (made_notMem node.fresh)
  refine ⟨hlisted, huser, ?_, hsave, hdestroy⟩
  by_contra hctx
  obtain ⟨options, hoptions⟩ := (answers_serving cfg net).1
  obtain ⟨row, hrow⟩ := h.succeeds serving (answers_serving cfg net) r hold ctx serving
    ⟨answers_serving cfg net, fun _ => ⟨_, rfl⟩⟩
  rw [createNetwork_run, createNetwork_run, hoptions] at hrow
  dsimp only at hrow
  rw [hclears] at hrow
  rcases attempts_of_free serving ctx options 2 [3] hfresh hfree hsave hdestroy with ⟨-, hnone⟩ | ⟨id, -, hrun⟩
  · exact hnone "d" rfl
  · rw [hrun] at hrow
    dsimp only at hrow
    have hlost := not_found db serving ctx options [1, 2, 3]
      (s := ((node.store.cleared r).add (madeWith cfg ctx net (node.store.cleared r) id)).wrap net id options)
      (filter_add hfree id) (countP_add hfresh id) hctx
    unfold wp at hlost
    rcases hagain : attempts cfg db serving (newNetwork cfg ctx net) options [1, 2, 3]
        (((node.store.cleared r).add (madeWith cfg ctx net (node.store.cleared r) id)).wrap net id options) with
      ⟨result, s'⟩
    rw [hagain] at hrow hlost
    rcases result with (_ | row') | e | _
    · cases hrow
    · exact hlost row' rfl
    · cases hrow
    · cases hrow

theorem matured_of_heals (hr : r ∈ node.store.rows) (hblocks : blocks cfg net r = true) (huser : r.userId = none)
    (hlisted : listed net node.store = []) (hnow : isStale cfg node.store.now r = false)
    (hnext : isStale cfg (node.store.now + 1) r = true) (hdestroy : db.destroy = none) : db.save = none := by
  have hfilter := node.filter_eq hr hblocks
  have huuid := node.countP_uuid hr
  have hlater : isStale cfg (node.store.wait (2 ^ 1 - 1)).now r = true := hnext
  cases hsave : db.save with
  | none => rfl
  | some e =>
      obtain ⟨options, htidy⟩ := tidy_of_ends (h.ends serving) (answers_serving cfg net)
      unfold wp at htidy
      rw [attempts_of_young hfilter huuid rfl huser hlisted hnow,
        attempts_of_outlived (s := node.store.wait (2 ^ 1 - 1)) hfilter huuid rfl huser hlisted hlater hdestroy,
        attempts_of_unsaved (s := ((node.store.wait (2 ^ 1 - 1)).remove r).wait (2 ^ 2 - 1)) node.fresh.remove
          (free_of_remove hfilter) hsave] at htidy
      exact absurd (htidy _ (List.mem_append_right _ (List.mem_singleton_self _))) (made_notMem node.fresh)

end

/-- For every row that can be there and all of docker's networks, a stale row heals exactly if the call is sound. -/
theorem heals_iff (cfg : Config) (db : Database) (ctx : Db.Context) (net : String) (node : Node) :
    Heals cfg db ctx net node.store ↔ Sound cfg db ctx net node.store := by
  constructor
  · intro h
    exact
      { good := fun _ => good_of_heals h
        stale := fun _ => stale_of_heals h
        free := free_of_heals h
        matured := fun _ => matured_of_heals h }
  · intro h
    exact
      { ends := fun _ => ends_of_sound node h
        removed := fun _ hanswers _ hold => removed_of_sound node h hanswers hold
        succeeds := fun _ hanswers _ hold _ _ hserves => succeeds_of_sound node h hanswers hold hserves }

/-- A row that a user of another project made an hour ago. -/
def leftRow : Network where
  uuid := 0
  name := "n"
  neutronNetId := "n"
  host := "h"
  networkId := some "gone"
  projectId := some "p"
  userId := some "u"
  createdAt := some 0

/-- Its docker network is not there. -/
def leftBehind : Node where
  store := { rows := [leftRow], docker := [], now := 3600, nextUuid := 1 }
  fresh _ hr := by
    obtain rfl := List.mem_singleton.mp hr
    decide
  uuids := by decide
  networks := by decide

theorem outlived_leftRow : Outlived { host := "h" } "n" leftBehind.store leftRow :=
  ⟨List.mem_singleton_self _, by decide, by decide, fun d hd => by cases hd⟩

/-- The row is not found, and stays. -/
theorem not_heals : ¬ ∀ (cfg : Config) (db : Database) (ctx : Db.Context) (net : String) (node : Node),
    Heals cfg db ctx net node.store := by
  intro h
  have hheals := h { host := "h" } {} { projectId := some "q", userId := some "v" } "n" leftBehind
  exact hheals.removed serving (answers_serving _ _) leftRow outlived_leftRow (by decide)

end NetworkRows

end Zun
