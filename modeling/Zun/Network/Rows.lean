import Mathlib.Algebra.GroupWithZero.Nat
import Mathlib.Algebra.Ring.Int.Defs
import Mathlib.Data.List.Infix
import Zun.Db.Api
import Zun.Effect.Prog

/-!
# Rows of networks

`create_network` of `zun/network/kuryr_network.py`.  It makes a row of `ZunNetwork` and then the docker network
that the row stands for.  A row of the same network on the same host is in the way of a new one, and
`_create_network_attempt` looks for it to see what it is: the row of a docker network that is there, one that has
outlived its docker network and is removed, or one of a call under way.

It looks as an administrator who has no project and does not ask for all projects.  Such a query answers the rows
that have no user.
-/

namespace Zun

open Effect Prog

namespace NetworkRows

/-- A row of `ZunNetwork`. -/
structure Network where
  uuid : Nat
  name : String
  neutronNetId : String
  host : String
  networkId : Option String := none
  projectId : Option String
  userId : Option String
  createdAt : Option Int := none
deriving DecidableEq

structure Subnet where
  id : String
  ipVersion : Nat
  cidr : String
  gatewayIp : Option String
deriving DecidableEq

/-- The arguments of `docker.create_network`, next to the name. -/
structure Options where
  driver : String
  enableIpv6 : Bool
  options : List (String × String)
  ipamOptions : List (String × String)
  ipamConfig : List (String × Option String)
deriving DecidableEq

structure DockerNetwork where
  id : String
  name : String
  options : Options
deriving DecidableEq

structure Store where
  rows : List Network
  docker : List DockerNetwork
  now : Int
  /-- `generate_uuid` gives no UUID twice. -/
  nextUuid : Nat
deriving DecidableEq

inductive Failure where
  | noSubnet (net : String)
  | multipleSubnets (ipVersion : Nat)
  | networkAlreadyExists (field : String)
  | networkNotFound (uuid : Nat)
  | severalAttempts
  | other (code : Nat)
deriving DecidableEq

structure Config where
  /-- `CONF.host`. -/
  host : String
  /-- `CONF.network.stale_network_min_age`. -/
  minAge : Int := 120
  /-- `CONF.network.driver_name`. -/
  driverName : String := "kuryr"

/-- What the database refuses of a call, besides what its constraints do. -/
structure Database where
  save : Option Failure := none
  destroy : Option Failure := none

/-- What Neutron and docker answer to a call, docker by the attempt. -/
structure Outside where
  shared : Except Failure Bool
  subnets : Except Failure (List Subnet)
  networks : Nat → Option Failure
  createNetwork : Nat → Except Failure String
  /-- The id of a network is not empty. -/
  ids : ∀ k id, createNetwork k = .ok id → id ≠ ""

/-! ## The database and docker -/

/-- `_add_project_filters`. -/
def sees (ctx : Db.Context) (r : Network) : Bool :=
  if ctx.isAdmin && ctx.allProjects then true
  else if ctx.projectId.isSome then r.projectId = ctx.projectId
  else r.userId = ctx.userId

/-- `list_networks`, filtered by the network and the host. -/
def listNetworks (ctx : Db.Context) (net host : String) (s : Store) : List Network :=
  s.rows.filter fun r => sees ctx r && r.neutronNetId = net && r.host = host

/-- `create_network` of `zun/db/sqlalchemy/api.py`. -/
def create (network : Network) : Prog Store Failure Network := fun s =>
  let row := { network with uuid := s.nextUuid, createdAt := some s.now }
  if s.rows.any fun r => r.neutronNetId = row.neutronNetId && r.host = row.host then
    (.raise (.networkAlreadyExists "neutron_net_id"), s)
  else if s.rows.any fun r => r.uuid = row.uuid then (.raise (.networkAlreadyExists "UUID"), s)
  else (.ok row, { s with rows := s.rows ++ [row], nextUuid := s.nextUuid + 1 })

/-- `destroy_network`. -/
def destroy (db : Database) (uuid : Nat) : Prog Store Failure Unit := fun s =>
  match db.destroy with
  | some e => (.raise e, s)
  | none =>
      if s.rows.countP (fun r => r.uuid = uuid) = 1 then
        (.ok (), { s with rows := s.rows.filter fun r => r.uuid ≠ uuid })
      else (.raise (.networkNotFound uuid), s)

/-- `save`, with a new network id. -/
def save (db : Database) (network : Network) : Prog Store Failure Unit := fun s =>
  match db.save with
  | some e => (.raise e, s)
  | none =>
      (.ok (), { s with rows := s.rows.map fun r =>
        if r.uuid = network.uuid then { r with networkId := network.networkId } else r })

/-- A filter by name lists what the name is a part of. -/
def listed (net : String) (s : Store) : List DockerNetwork :=
  s.docker.filter fun d => net.toList <:+: d.name.toList

/-! ## The call -/

/-- `_get_subnet`. -/
def getSubnet (subnets : List Subnet) (ipVersion : Nat) : Except Failure (Option Subnet) :=
  match subnets.filter fun s => s.ipVersion = ipVersion with
  | [] => .ok none
  | [s] => .ok (some s)
  | _ => .error (.multipleSubnets ipVersion)

/-- What a subnet adds to the options of the driver and of its address management. -/
def subnetOptions (key : String) : Option Subnet → List (String × String)
  | none => []
  | some s => [(key, s.id)]

def subnetConfig : Option Subnet → List (String × Option String)
  | none => []
  | some s => [(s.cidr, s.gatewayIp)]

/-- `create_network` up to the row. -/
def prepare (cfg : Config) (out : Outside) (net : String) : Except Failure Options := do
  let shared ← out.shared
  let subnets ← out.subnets
  let v4 ← getSubnet subnets 4
  let v6 ← getSubnet subnets 6
  if v4 = none ∧ v6 = none then .error (.noSubnet net)
  else
    let sharedText := if shared then "True" else "False"
    let subnetUuids := subnetOptions "neutron.subnet.uuid" v4 ++ subnetOptions "neutron.subnet.v6.uuid" v6
    .ok
      { driver := cfg.driverName
        enableIpv6 := v6.any fun s => s.id != ""
        options := [("neutron.net.uuid", net), ("neutron.net.shared", sharedText)] ++ subnetUuids
        ipamOptions := ("neutron.net.shared", sharedText) :: subnetUuids
        ipamConfig := subnetConfig v4 ++ subnetConfig v6 }

/-- `_is_stale`. -/
def isStale (cfg : Config) (now : Int) (r : Network) : Bool :=
  match r.createdAt with
  | none => false
  | some t => now - t > cfg.minAge

/-- The row is that of the docker network that is listed first. -/
def isGood (r : Network) : List DockerNetwork → Bool
  | [] => false
  | d :: _ => d.id != "" && r.networkId = some d.id

section

variable (cfg : Config) (db : Database) (out : Outside) (k : Nat)

/-- What an attempt does about the row in its way. -/
def recover (network : Network) : Prog Store Failure (Option Network) := do
  let networks ← read (listNetworks (Db.getAdminContext false) network.neutronNetId cfg.host)
  match out.networks k with
  | some e => raise e
  | none => do
      let dockerNetworks ← read (listed network.name)
      let now ← read (·.now)
      match networks with
      | [] => pure none
      | r :: _ =>
          if isGood r dockerNetworks then pure (some r)
          else do
            onlyIf (dockerNetworks = [] ∧ isStale cfg now r = true) (swallow (destroy db r.uuid))
            pure none

/-- The docker network of a new row is made. -/
def provision (network : Network) (options : Options) : Prog Store Failure (Option Network) :=
  match out.createNetwork k with
  | .error e => do
      destroy db network.uuid
      raise e
  | .ok id => do
      modify fun s => { s with docker := s.docker ++ [{ id, name := network.name, options }] }
      save db { network with networkId := some id }
      pure (some { network with networkId := some id })

/-- `network.create`, or nothing if the network has a row on the host. -/
def createUnlessThere (network : Network) : Prog Store Failure (Option Network) :=
  tryExcept (do
    let row ← create network
    pure (some row)) fun e =>
      match e with
      | .networkAlreadyExists field => if field = "neutron_net_id" then pure none else raise e
      | e => raise e

/-- `_create_network_attempt`. -/
def createNetworkAttempt (network : Network) (options : Options) : Prog Store Failure (Option Network) := do
  match ← createUnlessThere network with
  | none => recover cfg db out k network
  | some row => provision db out k row options

/-- The loop over the attempts. -/
def attempts (network : Network) (options : Options) : List Nat → Prog Store Failure (Option Network)
  | [] => pure none
  | k :: ks => do
      match ← createNetworkAttempt cfg db out k network options with
      | some row => pure (some row)
      | none => do
          modify fun s => { s with now := s.now + (2 ^ k - 1) }
          attempts network options ks

/-- The row that a call is to make. -/
def newNetwork (ctx : Db.Context) (net : String) : Network where
  uuid := 0
  name := net
  neutronNetId := net
  host := cfg.host
  projectId := ctx.projectId
  userId := ctx.userId

def createNetwork (ctx : Db.Context) (net : String) : Prog Store Failure Network :=
  match prepare cfg out net with
  | .error e => raise e
  | .ok options => do
      match ← attempts cfg db out (newNetwork cfg ctx net) options [1, 2, 3] with
      | some row => pure row
      | none => raise .severalAttempts

end

/-! ## Attempts -/

/-- The row is in the way of a new one. -/
def blocks (cfg : Config) (net : String) (r : Network) : Bool := r.neutronNetId = net && r.host = cfg.host

/-- What a row is made as. -/
def made (cfg : Config) (ctx : Db.Context) (net : String) (s : Store) : Network :=
  { newNetwork cfg ctx net with uuid := s.nextUuid, createdAt := some s.now }

def Store.add (s : Store) (r : Network) : Store := { s with rows := s.rows ++ [r], nextUuid := s.nextUuid + 1 }

/-- A UUID was given to a row that is not there any more. -/
def Store.spend (s : Store) : Store := { s with nextUuid := s.nextUuid + 1 }

/-- The UUIDs of the rows were given. -/
def Store.Fresh (s : Store) : Prop := ∀ r ∈ s.rows, r.uuid < s.nextUuid

def Store.remove (s : Store) (r : Network) : Store := { s with rows := s.rows.filter fun r' => r'.uuid ≠ r.uuid }

def Store.wait (s : Store) (seconds : Int) : Store := { s with now := s.now + seconds }

/-- The docker network that is made for a row. -/
def Store.wrap (s : Store) (net id : String) (options : Options) : Store :=
  { s with docker := s.docker ++ [{ id, name := net, options }] }

variable {cfg : Config} {db : Database} {out : Outside} {ctx : Db.Context} {net : String} {s : Store}
  {r : Network} {k : Nat} {options : Options}

theorem createUnlessThere_of_free (hfresh : s.Fresh) (h : ∀ r ∈ s.rows, blocks cfg net r = false) :
    createUnlessThere (newNetwork cfg ctx net) s = (.ok (some (made cfg ctx net s)), s.add (made cfg ctx net s)) := by
  have hnet : (s.rows.any fun r => r.neutronNetId = net && r.host = cfg.host) = false :=
    List.any_eq_false.mpr fun r hr => Bool.not_eq_true _ |>.mpr (h r hr)
  have huuid : (s.rows.any fun r => r.uuid = s.nextUuid) = false :=
    List.any_eq_false.mpr fun r hr => by simpa using (hfresh r hr).ne
  have hcreate : create (newNetwork cfg ctx net) s = (.ok (made cfg ctx net s), s.add (made cfg ctx net s)) := by
    unfold create
    exact (if_neg (ne_true_of_eq_false hnet)).trans (if_neg (ne_true_of_eq_false huuid))
  change tryExcept (andThen (create (newNetwork cfg ctx net)) _) _ s = _
  unfold tryExcept andThen
  rw [hcreate]
  rfl

theorem createUnlessThere_of_blocked (hr : r ∈ s.rows) (h : blocks cfg net r = true) :
    createUnlessThere (newNetwork cfg ctx net) s = (.ok none, s) := by
  have hnet : (s.rows.any fun r => r.neutronNetId = net && r.host = cfg.host) = true :=
    List.any_eq_true.mpr ⟨r, hr, h⟩
  have hcreate : create (newNetwork cfg ctx net) s = (.raise (.networkAlreadyExists "neutron_net_id"), s) := by
    unfold create
    exact if_pos hnet
  change tryExcept (andThen (create (newNetwork cfg ctx net)) _) _ s = _
  unfold tryExcept andThen
  rw [hcreate]
  rfl

/-- A new row is the only one with its UUID. -/
theorem remove_made (hfresh : s.Fresh) : (s.add (made cfg ctx net s)).remove (made cfg ctx net s) = s.spend := by
  have hkept : s.rows.filter (fun r' => r'.uuid ≠ (made cfg ctx net s).uuid) = s.rows :=
    List.filter_eq_self.mpr fun r hr => decide_eq_true (hfresh r hr).ne
  have hrows : (s.rows ++ [made cfg ctx net s]).filter (fun r' => r'.uuid ≠ (made cfg ctx net s).uuid) = s.rows := by
    rw [List.filter_append, hkept]
    simp
  rw [Store.remove, Store.add, hrows]
  rfl

theorem countP_made (hfresh : s.Fresh) :
    ((s.add (made cfg ctx net s)).rows.countP fun r => r.uuid = (made cfg ctx net s).uuid) = 1 := by
  have hnone : s.rows.countP (fun r => decide (r.uuid = (made cfg ctx net s).uuid)) = 0 :=
    List.countP_eq_zero.mpr fun r hr h => (hfresh r hr).ne (of_decide_eq_true h)
  simp [Store.add, hnone]

theorem destroy_run (h : s.rows.countP (fun r' => r'.uuid = r.uuid) = 1) : destroy db r.uuid s =
    match db.destroy with
    | some e => (.raise e, s)
    | none => (.ok (), s.remove r) := by
  unfold destroy
  cases db.destroy with
  | some e => rfl
  | none =>
      simp only [h, if_true]
      rfl

/-- A new row is given the id of its docker network. -/
theorem save_made (hfresh : s.Fresh) (id : String) : save db { made cfg ctx net s with networkId := some id }
      ((s.add (made cfg ctx net s)).wrap net id options) =
    match db.save with
    | some e => (.raise e, (s.add (made cfg ctx net s)).wrap net id options)
    | none => (.ok (), (s.add { made cfg ctx net s with networkId := some id }).wrap net id options) := by
  unfold save
  cases db.save with
  | some e => rfl
  | none =>
      have hold : s.rows.map (fun r => if r.uuid = (made cfg ctx net s).uuid then
          { r with networkId := some id } else r) = s.rows := by
        refine (List.map_congr_left fun r hr => ?_).trans (List.map_id _)
        exact if_neg (hfresh r hr).ne
      simp only [Store.wrap, Store.add, List.map_append, hold]
      simp

/-- Where no row is in the way. -/
theorem attempt_of_free (hfresh : s.Fresh) (h : ∀ r ∈ s.rows, blocks cfg net r = false) :
    createNetworkAttempt cfg db out k (newNetwork cfg ctx net) options s =
      match out.createNetwork k with
      | .error e =>
          match db.destroy with
          | none => (.raise e, s.spend)
          | some e' => (.raise e', s.add (made cfg ctx net s))
      | .ok id =>
          match db.save with
          | some e => (.raise e, (s.add (made cfg ctx net s)).wrap net id options)
          | none => (.ok (some { made cfg ctx net s with networkId := some id }),
              (s.add { made cfg ctx net s with networkId := some id }).wrap net id options) := by
  change andThen (createUnlessThere (newNetwork cfg ctx net)) _ s = _
  unfold andThen
  rw [createUnlessThere_of_free hfresh h]
  simp only [provision]
  cases out.createNetwork k with
  | error e =>
      change andThen (destroy db _) _ _ = _
      unfold andThen
      rw [destroy_run (countP_made hfresh)]
      cases db.destroy with
      | none =>
          rw [remove_made hfresh]
          rfl
      | some e' => rfl
  | ok id =>
      change andThen (save db _) _ ((s.add (made cfg ctx net s)).wrap net id options) = _
      unfold andThen
      rw [save_made hfresh]
      cases db.save <;> rfl

/-- What the look for the row finds of it. -/
theorem listNetworks_eq (h : s.rows.filter (blocks cfg net) = [r]) :
    listNetworks (Db.getAdminContext false) net cfg.host s = if r.userId = none then [r] else [] := by
  have hsees : ∀ r : Network, sees (Db.getAdminContext false) r = decide (r.userId = none) := fun _ => rfl
  have hlist : listNetworks (Db.getAdminContext false) net cfg.host s =
      (s.rows.filter (blocks cfg net)).filter fun r => decide (r.userId = none) := by
    rw [List.filter_filter]
    refine List.filter_congr fun r _ => ?_
    rw [hsees, Bool.and_assoc]
    rfl
  rw [hlist, h]
  by_cases huser : r.userId = none <;> simp [huser]

/-- Where a row is in the way. -/
theorem attempt_of_blocked (h : s.rows.filter (blocks cfg net) = [r])
    (huuid : s.rows.countP (fun r' => r'.uuid = r.uuid) = 1) :
    createNetworkAttempt cfg db out k (newNetwork cfg ctx net) options s =
      match out.networks k with
      | some e => (.raise e, s)
      | none =>
          if r.userId ≠ none then (.ok none, s)
          else if isGood r (listed net s) = true then (.ok (some r), s)
          else if (listed net s = [] ∧ isStale cfg s.now r = true) ∧ db.destroy = none then (.ok none, s.remove r)
          else (.ok none, s) := by
  obtain ⟨hr, hblocks⟩ := List.mem_filter.mp (h ▸ List.mem_singleton_self r)
  change andThen (createUnlessThere (newNetwork cfg ctx net)) _ s = _
  unfold andThen
  rw [createUnlessThere_of_blocked hr hblocks]
  change recover cfg db out k (newNetwork cfg ctx net) s = _
  unfold recover
  cases out.networks k with
  | some e => rfl
  | none =>
      change (match listNetworks (Db.getAdminContext false) net cfg.host s with
        | [] => pure none
        | r :: _ =>
            if isGood r (listed net s) then pure (some r)
            else do
              onlyIf (listed net s = [] ∧ isStale cfg s.now r = true) (swallow (destroy db r.uuid))
              pure none : Prog Store Failure (Option Network)) s = _
      rw [listNetworks_eq h]
      by_cases huser : r.userId = none
      · simp only [huser, if_true, ne_eq, not_true_eq_false, if_false]
        by_cases hgood : isGood r (listed net s) = true
        · rw [if_pos hgood, if_pos hgood]
          rfl
        · rw [if_neg hgood, if_neg hgood]
          change andThen (onlyIf _ _) _ s = _
          unfold andThen onlyIf
          by_cases hstale : listed net s = [] ∧ isStale cfg s.now r = true
          · rw [if_pos hstale]
            unfold swallow tryExcept
            rw [destroy_run huuid]
            cases hdestroy : db.destroy with
            | none =>
                rw [if_pos ⟨hstale, rfl⟩]
                rfl
            | some e =>
                rw [if_neg fun h => by cases h.2]
                rfl
          · rw [if_neg hstale, if_neg fun h => hstale h.1]
            rfl
      · simp only [huser, if_false, ne_eq, not_false_eq_true, if_true]
        rfl

/-! ## Calls -/

theorem attempts_cons (ks : List Nat) (network : Network) :
    attempts cfg db out network options (k :: ks) s =
      match createNetworkAttempt cfg db out k network options s with
      | (.ok (some row), s') => (.ok (some row), s')
      | (.ok none, s') => attempts cfg db out network options ks (s'.wait (2 ^ k - 1))
      | (.raise e, s') => (.raise e, s')
      | (.halt, s') => (.halt, s') := by
  change andThen (createNetworkAttempt cfg db out k network options) _ s = _
  unfold andThen
  rcases createNetworkAttempt cfg db out k network options s with ⟨r, s'⟩
  cases r with
  | ok row => cases row <;> rfl
  | raise e => rfl
  | halt => rfl

theorem createNetwork_run : createNetwork cfg db out ctx net s =
    match prepare cfg out net with
    | .error e => (.raise e, s)
    | .ok options =>
        match attempts cfg db out (newNetwork cfg ctx net) options [1, 2, 3] s with
        | (.ok (some row), s') => (.ok row, s')
        | (.ok none, s') => (.raise .severalAttempts, s')
        | (.raise e, s') => (.raise e, s')
        | (.halt, s') => (.halt, s') := by
  unfold createNetwork
  cases prepare cfg out net with
  | error e => rfl
  | ok options =>
      change andThen (attempts cfg db out (newNetwork cfg ctx net) options [1, 2, 3]) _ s = _
      unfold andThen
      dsimp only
      rcases attempts cfg db out (newNetwork cfg ctx net) options [1, 2, 3] s with ⟨r, s'⟩
      cases r with
      | ok row => cases row <;> rfl
      | raise e => rfl
      | halt => rfl

end NetworkRows

end Zun
