import Mathlib.Data.Prod.Lex
import Mathlib.Data.Rat.Defs
import Mathlib.Algebra.Order.Ring.Rat
import Mathlib.Tactic.Linarith
import Mathlib.Tactic.NormNum
import Mathlib.Tactic.Ring
import Zun.Data.SortBy

/-!
# The order of the hosts

`order_hosts` of `zun/scheduler/weights/__init__.py` sorts the hosts by one number: the share of their
memory that is free, less the capsules of the container's owner that they have.  The share is at most one,
so that it should not outweigh a capsule; but it may be one, and then it weighs as much.

The counts are made once for a call of `select_destinations`, for the owner of the container that comes
first, and are then used for the others.
-/

namespace Zun

namespace Weights

open Sorting

/-! ## The model -/

def ownerLabel : String := "knaas.io/owner-uid"

structure HostState where
  hostname : String
  memTotal : Option Int
  memFree : Option Int
deriving DecidableEq

abbrev Labels := List (String × String)

structure Capsule where
  host : Option String
  labels : Labels

/-- `(container.labels or {}).get(OWNER_LABEL)`, if it is not empty. -/
def owner (labels : Labels) : Option String := (labels.lookup ownerLabel).filter (· ≠ "")

abbrev Counts := String → Nat

/-- What is kept on the context, `_knaas_owner_counts`. -/
abbrev Context := Option Counts

/-- A turn of the loop of `_owner_counts`. -/
def tally (owner : String) (counts : Counts) (c : Capsule) : Counts :=
  match c.host with
  | none => counts
  | some host =>
      if host = "" then counts
      else if c.labels.lookup ownerLabel = some owner then Function.update counts host (counts host + 1)
      else counts

/-- `Capsule.list`, which may fail. -/
abbrev Listing := Option (List Capsule)

/-- The counts for an owner, by a listing; there are none without one. -/
def countsOf (listing : Listing) (owner : String) : Counts :=
  (listing.getD []).foldl (tally owner) fun _ => 0

/-- `_owner_counts`. -/
def ownerCounts (listing : Listing) (owner : String) : Context → Counts × Context
  | some cached => (cached, some cached)
  | none => (countsOf listing owner, some (countsOf listing owner))

/-- `OwnerAntiAffinityWeigher.weigh`. -/
def antiAffinity (listing : Listing) (labels : Labels) (host : HostState) (ctx : Context) : ℚ × Context :=
  match owner labels with
  | none => (0, ctx)
  | some owner =>
      let (counts, ctx) := ownerCounts listing owner ctx
      (-(counts host.hostname : ℚ), ctx)

/-- `FreeMemoryWeigher.weigh`. -/
def HostState.share (host : HostState) : ℚ :=
  let total : ℚ := host.memTotal.getD 0
  if total ≤ 0 then 0
  else
    let free : ℚ := host.memFree.getD 0
    max 0 (min 1 (free / total))

/-- The list `scored`. -/
def score (listing : Listing) (labels : Labels) : List HostState → Context → List (ℚ × HostState) × Context
  | [], ctx => ([], ctx)
  | host :: hosts, ctx =>
      let (weight, ctx) := antiAffinity listing labels host ctx
      let (scored, ctx) := score listing labels hosts ctx
      ((0 + weight + host.share, host) :: scored, ctx)

/-- `order_hosts`. -/
def orderHosts (listing : Listing) (labels : Labels) (hosts : List HostState) (ctx : Context) :
    List HostState × Context :=
  let (scored, ctx) := score listing labels hosts ctx
  ((sortBy (fun pair => -pair.1) scored).map (·.2), ctx)

/-- A container of the request, with the hosts that the filters leave and those that can be claimed. -/
structure Turn where
  labels : Labels
  hosts : List HostState
  claims : HostState → Bool

/-- `_schedule`, or `none` for `NoValidHost`. -/
def schedule (listing : Listing) (t : Turn) (ctx : Context) : Option HostState × Context :=
  if t.hosts = [] then (none, ctx)
  else
    let (hosts, ctx) := orderHosts listing t.labels t.hosts ctx
    (hosts.find? t.claims, ctx)

/-- The loop of `select_destinations`: the turns it comes to, each with the context then, and the hosts it
takes. -/
def selectDestinations (listing : Listing) : List Turn → Context →
    List (Turn × Context) × Option (List HostState)
  | [], _ => ([], some [])
  | t :: ts, ctx =>
      match schedule listing t ctx with
      | (none, _) => ([(t, ctx)], none)
      | (some host, ctx') =>
          let (turns, dests) := selectDestinations listing ts ctx'
          ((t, ctx) :: turns, dests.map (host :: ·))

/-! ## Order -/

/-- The capsules of the container's owner on a host. -/
def capsules (listing : Listing) (labels : Labels) (host : HostState) : Nat :=
  match owner labels with
  | none => 0
  | some owner => (listing.getD []).countP fun c =>
      c.host = some host.hostname ∧ host.hostname ≠ "" ∧ c.labels.lookup ownerLabel = some owner

/-- Fewer capsules come first, and then more memory. -/
def rank (listing : Listing) (labels : Labels) (host : HostState) : ℕ ×ₗ ℚ :=
  toLex (capsules listing labels host, -host.share)

/-- The turn goes by the counts of the container's own owner, and orders the hosts by their rank. -/
structure Right (listing : Listing) (turn : Turn × Context) : Prop where
  counts : ∀ a host b, turn.1.hosts = a ++ host :: b →
    (antiAffinity listing turn.1.labels host (score listing turn.1.labels a turn.2).2).1 =
      -(capsules listing turn.1.labels host : ℚ)
  ordered : Ordered (rank listing turn.1.labels) turn.1.hosts
    (orderHosts listing turn.1.labels turn.1.hosts turn.2).1

/-- No host of the turn can be claimed. -/
def Turn.fails (t : Turn) : Bool := t.hosts.all fun host => !t.claims host

/-- The turns it comes to. -/
def tried : List Turn → List Turn
  | [] => []
  | t :: ts => t :: if t.fails then [] else tried ts

/-- The owner the counts are made for: that of the first container that has one, and hosts. -/
def leader (ts : List Turn) : Option String :=
  ts.findSome? fun t => if t.hosts = [] then none else owner t.labels

/-- The counts are those of the turn's own owner on its hosts, and no host is all free and has one capsule
more than a host after it that has no memory free. -/
structure Fair (listing : Listing) (counts : Option Counts) (t : Turn) : Prop where
  own : ∀ c ∈ counts, owner t.labels ≠ none → ∀ host ∈ t.hosts,
    c host.hostname = capsules listing t.labels host
  ties : t.hosts.Pairwise fun a b =>
    ¬ (capsules listing t.labels a = capsules listing t.labels b + 1 ∧ a.share = 1 ∧ b.share = 0)
/-! ## One turn -/

section

variable {listing : Listing} {labels : Labels}

/-- The counts that are read in a turn. -/
def used (listing : Listing) (labels : Labels) (ctx : Context) : Counts :=
  match owner labels with
  | none => fun _ => 0
  | some owner => (ownerCounts listing owner ctx).1

/-- What a turn leaves on the context. -/
def kept (listing : Listing) (labels : Labels) (hosts : List HostState) (ctx : Context) : Context :=
  if hosts = [] then ctx else (owner labels).elim ctx fun owner => (ownerCounts listing owner ctx).2

theorem antiAffinity_eq (host : HostState) (ctx : Context) : antiAffinity listing labels host ctx =
    (-(used listing labels ctx host.hostname : ℚ), kept listing labels [host] ctx) := by
  cases h : owner labels <;> simp [antiAffinity, used, kept, h]

theorem used_kept (hosts : List HostState) (ctx : Context) :
    used listing labels (kept listing labels hosts ctx) = used listing labels ctx := by
  rw [used, used, kept]
  cases owner labels with
  | none => rfl
  | some owner =>
      by_cases hnil : hosts = []
      · simp [hnil]
      · cases ctx <;> simp [hnil, ownerCounts]

theorem kept_kept (host : HostState) (hosts : List HostState) (ctx : Context) :
    kept listing labels hosts (kept listing labels [host] ctx) = kept listing labels (host :: hosts) ctx := by
  simp only [kept, List.cons_ne_nil, if_false]
  split
  · rfl
  · cases owner labels with
    | none => rfl
    | some owner => cases ctx <;> rfl

/-- Every host is scored with the same counts. -/
theorem score_eq (hosts : List HostState) (ctx : Context) : score listing labels hosts ctx =
    (hosts.map fun host => (0 + -(used listing labels ctx host.hostname : ℚ) + host.share, host),
      kept listing labels hosts ctx) := by
  induction hosts generalizing ctx with
  | nil => simp [score, kept]
  | cons host hosts ih =>
      rw [score, antiAffinity_eq]
      simp only [ih, used_kept, kept_kept, List.map_cons]

theorem orderHosts_eq (hosts : List HostState) (ctx : Context) : orderHosts listing labels hosts ctx =
    (sortBy (fun host => (used listing labels ctx host.hostname : ℚ) - host.share) hosts,
      kept listing labels hosts ctx) := by
  have hkey : ∀ host : HostState, -(0 + -(used listing labels ctx host.hostname : ℚ) + host.share) =
      used listing labels ctx host.hostname - host.share := fun host => by ring
  simp only [orderHosts, score_eq, sortBy_map, hkey, List.map_map]
  simp [Function.comp_def]

theorem HostState.share_bounds (host : HostState) : 0 ≤ host.share ∧ host.share ≤ 1 := by
  rw [HostState.share]
  split
  · exact ⟨le_refl 0, zero_le_one⟩
  · exact ⟨le_max_left _ _, max_le zero_le_one (min_le_left _ _)⟩

theorem rank_le_iff {a b : HostState} : rank listing labels a ≤ rank listing labels b ↔
    capsules listing labels a < capsules listing labels b ∨
      capsules listing labels a = capsules listing labels b ∧ b.share ≤ a.share := by
  rw [rank, rank, Prod.Lex.toLex_le_toLex]
  simp

/-- The sum goes by the rank. -/
theorem sub_share_mono (a b : HostState) (h : rank listing labels a ≤ rank listing labels b) :
    (capsules listing labels a : ℚ) - a.share ≤ capsules listing labels b - b.share := by
  have ha := a.share_bounds
  have hb := b.share_bounds
  obtain hlt | ⟨heq, hle⟩ := rank_le_iff.mp h
  · have hstep : (capsules listing labels a : ℚ) + 1 ≤ capsules listing labels b := by exact_mod_cast hlt
    linarith [ha.1, hb.2]
  · rw [heq]
    linarith

/-- A tie of the sum that the rank has the other way round. -/
theorem tie_iff (a b : HostState) :
    ((capsules listing labels a : ℚ) - a.share = capsules listing labels b - b.share →
      rank listing labels a ≤ rank listing labels b) ↔
    ¬ (capsules listing labels a = capsules listing labels b + 1 ∧ a.share = 1 ∧ b.share = 0) := by
  have ha := a.share_bounds
  have hb := b.share_bounds
  constructor
  · rintro h ⟨hcount, hone, hzero⟩
    have hsum : (capsules listing labels a : ℚ) - a.share = capsules listing labels b - b.share := by
      rw [hcount, hone, hzero]
      push_cast
      ring
    obtain hlt | ⟨heq, -⟩ := rank_le_iff.mp (h hsum)
    · omega
    · omega
  · intro hnot hsum
    rw [rank_le_iff]
    by_contra hgt
    have hle : capsules listing labels b ≤ capsules listing labels a := by
      by_contra hlt
      exact hgt (.inl (by omega))
    obtain hlt | heq := hle.lt_or_eq
    · have hstep : (capsules listing labels b : ℚ) + 1 ≤ capsules listing labels a := by exact_mod_cast hlt
      have hone : a.share = 1 := by linarith [ha.2, hb.1]
      have hzero : b.share = 0 := by linarith [ha.2, hb.1]
      have hcount : (capsules listing labels a : ℚ) = capsules listing labels b + 1 := by linarith
      exact hnot ⟨by exact_mod_cast hcount, hone, hzero⟩
    · rw [heq] at hsum
      exact hgt (.inr ⟨heq.symm, by linarith⟩)

/-- A turn is right if and only if it is fair with the counts it reads. -/
theorem right_iff (listing : Listing) (t : Turn) (ctx : Context) :
    Right listing (t, ctx) ↔ Fair listing (some (used listing t.labels ctx)) t := by
  have hordered : (∀ host ∈ t.hosts, used listing t.labels ctx host.hostname = capsules listing t.labels host) →
      (Ordered (rank listing t.labels) t.hosts (orderHosts listing t.labels t.hosts ctx).1 ↔
        t.hosts.Pairwise fun a b =>
          ¬ (capsules listing t.labels a = capsules listing t.labels b + 1 ∧ a.share = 1 ∧ b.share = 0)) := by
    intro hown
    have hsort : sortBy (fun host => (used listing t.labels ctx host.hostname : ℚ) - host.share) t.hosts =
        sortBy (fun host => (capsules listing t.labels host : ℚ) - host.share) t.hosts :=
      sortBy_congr fun host hhost => by rw [hown host hhost]
    rw [orderHosts_eq, hsort, ordered_sortBy_iff sub_share_mono]
    simp only [tie_iff]
  have hweight : ∀ (hosts : List HostState) (host : HostState),
      (antiAffinity listing t.labels host (score listing t.labels hosts ctx).2).1 =
        -(used listing t.labels ctx host.hostname : ℚ) := by
    intro hosts host
    rw [score_eq, antiAffinity_eq, used_kept]
  constructor
  · intro h
    have hown : ∀ host ∈ t.hosts, used listing t.labels ctx host.hostname = capsules listing t.labels host := by
      intro host hhost
      obtain ⟨a, b, hsplit⟩ := List.append_of_mem hhost
      have hcounts := h.counts a host b hsplit
      rw [hweight, neg_inj] at hcounts
      exact_mod_cast hcounts
    exact ⟨fun c hc _ => Option.mem_some.mp hc ▸ hown, (hordered hown).mp h.ordered⟩
  · intro h
    have hown : ∀ host ∈ t.hosts, used listing t.labels ctx host.hostname = capsules listing t.labels host := by
      intro host hhost
      cases howner : owner t.labels with
      | none => simp [used, capsules, howner]
      | some o => exact h.own _ rfl (by simp [howner]) host hhost
    refine ⟨fun a host b hsplit => ?_, (hordered hown).mpr h.ties⟩
    have hhost : host ∈ t.hosts := by
      rw [show t.hosts = a ++ host :: b from hsplit]
      simp
    rw [hweight, hown host hhost]

end

/-! ## The whole call -/

section

variable {listing : Listing}

/-- The counts that the turns read. -/
def shared (listing : Listing) (ctx : Context) (ts : List Turn) : Option Counts :=
  ctx <|> (leader ts).map (countsOf listing)

theorem fair_shared (t : Turn) (ts : List Turn) (ctx : Context) :
    Fair listing (shared listing ctx (t :: ts)) t ↔ Fair listing (some (used listing t.labels ctx)) t := by
  have hread : owner t.labels ≠ none → t.hosts ≠ [] →
      shared listing ctx (t :: ts) = some (used listing t.labels ctx) := by
    intro howner hhosts
    obtain ⟨o, ho⟩ := Option.ne_none_iff_exists'.mp howner
    cases ctx <;> simp [shared, leader, hhosts, ho, used, ownerCounts]
  constructor
  · refine fun h => ⟨fun c hc howner host hhost => h.own c ?_ howner host hhost, h.ties⟩
    rwa [hread howner (List.ne_nil_of_mem hhost)]
  · refine fun h => ⟨fun c hc howner host hhost => h.own c ?_ howner host hhost, h.ties⟩
    rwa [hread howner (List.ne_nil_of_mem hhost)] at hc

/-- A turn leaves the counts as the later ones would have them. -/
theorem shared_kept (t : Turn) (ts : List Turn) (ctx : Context) :
    shared listing (kept listing t.labels t.hosts ctx) ts = shared listing ctx (t :: ts) := by
  by_cases hhosts : t.hosts = []
  · simp [kept, shared, leader, hhosts]
  · cases howner : owner t.labels with
    | none => simp [kept, shared, leader, hhosts, howner]
    | some o => cases ctx <;> simp [kept, shared, leader, hhosts, howner, ownerCounts]

/-- A turn finds a host unless none can be claimed. -/
theorem schedule_eq (listing : Listing) (t : Turn) (ctx : Context) : ∃ found : Option HostState,
    found.isNone = t.fails ∧ schedule listing t ctx = (found, kept listing t.labels t.hosts ctx) := by
  by_cases hhosts : t.hosts = []
  · exact ⟨none, by simp [Turn.fails, hhosts], by simp [schedule, kept, hhosts]⟩
  · refine ⟨_, ?_, by simp only [schedule, hhosts, if_false, orderHosts_eq]; rfl⟩
    have hmem : ∀ host, host ∈ sortBy (fun host : HostState =>
        (used listing t.labels ctx host.hostname : ℚ) - host.share) t.hosts ↔ host ∈ t.hosts :=
      fun host => (sortBy_ordered _ t.hosts).perm.mem_iff
    rw [Bool.eq_iff_iff, Option.isNone_iff_eq_none, List.find?_eq_none]
    simp [Turn.fails, hmem]

theorem right_of_selected (ts : List Turn) (ctx : Context) :
    (∀ turn ∈ (selectDestinations listing ts ctx).1, Right listing turn) ↔
      ∀ t ∈ tried ts, Fair listing (shared listing ctx (tried ts)) t := by
  induction ts generalizing ctx with
  | nil => simp [selectDestinations, tried]
  | cons t ts ih =>
      obtain ⟨found, hfails, hschedule⟩ := schedule_eq listing t ctx
      rw [selectDestinations, hschedule, tried, List.forall_mem_cons, fair_shared, ← right_iff]
      cases found with
      | none => simp [← hfails]
      | some host =>
          simp only [List.forall_mem_cons, ih, ← hfails, Option.isNone_some, Bool.false_eq_true, if_false,
            shared_kept]

/-- Every container of a call is weighed with the counts of its own owner, and the hosts are in order, if
and only if the counts of the first owner are those of the others on their hosts, and no host that is all
free comes before one with a capsule less and nothing free. -/
theorem selected_in_order_iff (listing : Listing) (ts : List Turn) :
    (∀ turn ∈ (selectDestinations listing ts none).1, Right listing turn) ↔
      ∀ t ∈ tried ts, Fair listing ((leader (tried ts)).map (countsOf listing)) t := by
  rw [right_of_selected]
  simp [shared]

theorem mem_selectDestinations (t : Turn) (ts : List Turn) (ctx : Context) :
    (t, ctx) ∈ (selectDestinations listing (t :: ts) ctx).1 := by
  rw [selectDestinations]
  split <;> simp

end

/-- A host with a capsule of the owner comes before one without. -/
theorem not_in_order : ¬ ∀ (listing : Listing) (ts : List Turn),
    ∀ turn ∈ (selectDestinations listing ts none).1, Right listing turn := by
  intro h
  have hfair := (right_iff _ _ _).mp (h (some [⟨some "a", [(ownerLabel, "o")]⟩])
    [⟨[(ownerLabel, "o")], [⟨"a", some 4, some 4⟩, ⟨"b", some 4, some 0⟩], fun _ => true⟩] _
    (mem_selectDestinations _ _ _))
  have hties := (List.pairwise_cons.mp hfair.ties).1 _ (List.mem_singleton.mpr rfl)
  exact hties ⟨by decide, by norm_num [HostState.share], by norm_num [HostState.share]⟩

end Weights

end Zun
