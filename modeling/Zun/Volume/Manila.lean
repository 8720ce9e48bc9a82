import Zun.Data.Mounts
import Zun.Effect.Prog

/-!
# The node and Manila

What the volume drivers see of a compute node: its mount table, the directories it has made, the
files that can be reached from it, and the access rules that Manila holds.  Then the calls of
`zun/volume/manila.py`.

Whatever leaves the process is a `Call`, and the environment answers it.  A call that is refused
has no effect.  The five tries of `_action` are one call, whose answer is that of the last try.
-/

namespace Zun

open Effect Prog

namespace Volume

open Mounts

/-! ## The node -/

/-- A path of the node. -/
abbrev NodePath := Mounts.Path String

/-- A file. -/
abbrev File := Mounts.Inode String

/-- The mount table of the node. -/
abbrev MountTable := Mounts.Table String

/-- What the drivers raise. -/
inductive Failure where
  | commandError
  | volumeNotPrepared (text : String)
  | zunException (text : String)
  | osError
  /-- Anything else, such as the errors of a session. -/
  | other
deriving DecidableEq

/-- A subclass of `ZunException`. -/
def Failure.isZun : Failure → Bool
  | .commandError | .volumeNotPrepared _ | .zunException _ => true
  | .osError | .other => false

/-- An access rule of a share. -/
structure Rule where
  id : Nat
  share : String
  accessType : String := "ip"
  accessTo : String
deriving DecidableEq

/-- The state of an access rule, as far as `_wait_active` looks at it. -/
inductive RuleState where
  | active | error | pending
deriving DecidableEq

/-- A call that leaves the process. -/
inductive Call where
  | lstat (p : NodePath)
  | stat (p : NodePath)
  | ensureTree (p : NodePath)
  | readMounts
  | mount (source : String) (p : NodePath)
  | umount (p : NodePath)
  | chown (p : NodePath)
  | chmod (p : NodePath)
  | localIp (host : String)
  | accessList (share : String)
  | allowAccess (share ip : String)
  | denyAccess (rule : Nat)
deriving DecidableEq

/-- The environment: how the calls are answered, numbered from the first one, and what the node
is. -/
structure Env where
  refuse : Nat → Call → Option Failure := fun _ _ => none
  /-- The address the node reaches a host from. -/
  localIp : String → String := fun _ => "10.0.0.1"
  /-- What Manila says of the state of the node's rule. -/
  ruleState : Nat → RuleState := fun _ => .active
  /-- How many polls fit in the time a wait for a rule is given. -/
  polls : Nat := 30
  /-- What a file server exports under a name. -/
  exported : String → File := fun _ => ⟨1, []⟩
  /-- `CONF.volume.host_dedicated_to_capsules`. -/
  dedicated : Bool := true
  /-- `CONF.volume.volume_dir`. -/
  volumeDir : NodePath := ["var", "lib", "zun", "mnt"]
  /-- The files that the node may remove. -/
  removes : File → Bool := fun _ => true

/-- The node. -/
structure Node where
  mounts : MountTable := []
  /-- The directories that volumes are mounted on. -/
  dirs : List NodePath := []
  files : List File := []
  rules : List Rule := []
  /-- The id of the next rule. -/
  nextRule : Nat := 0
  /-- Every recursive removal with the mounts of that moment, newest first. -/
  removals : List (NodePath × MountTable) := []
  /-- Every call with its answer, newest first. -/
  log : List (Call × Option Failure) := []

/-- How many calls were made. -/
def Node.tick (s : Node) : Nat := s.log.length

/-- The node when a call is made: the call logged. -/
def Node.turn (env : Env) (c : Call) (s : Node) : Node :=
  { s with log := (c, env.refuse s.tick c) :: s.log }

/-- Make a call. -/
def call (env : Env) (c : Call) (effect : Node → Node := id) : Prog Node Failure Unit := fun s =>
  match env.refuse s.tick c with
  | none => (.ok (), effect (s.turn env c))
  | some e => (.raise e, s.turn env c)

variable {env : Env} {s : Node}

theorem wp_call {c : Call} {effect : Node → Node} {Q : Result Failure Unit → Node → Prop}
    (hok : env.refuse s.tick c = none → Q (.ok ()) (effect (s.turn env c)))
    (hraise : ∀ e, env.refuse s.tick c = some e → Q (.raise e) (s.turn env c)) :
    wp (call env c effect) Q s := by
  unfold wp call
  cases h : env.refuse s.tick c with
  | none => exact hok h
  | some e => exact hraise e h

variable (env)

/-- Make a call, and read its answer off the node. -/
def ask {α : Type} (c : Call) (f : Node → α) : Prog Node Failure α := do
  call env c
  read f

/-! ## Manila -/

/-- `access_rules`. -/
def accessRules (share : String) : Prog Node Failure (List Rule) :=
  ask env (.accessList share) fun s => s.rules.filter (·.share = share)

def ruleFailed (ip share : String) : Failure :=
  .zunException ("the access rule for " ++ ip ++ " on share " ++ share ++ " failed")

def ruleNotActive (ip share : String) : Failure :=
  .zunException ("the access rule for " ++ ip ++ " on share " ++ share ++
    " did not become active within 60s")

/-- `_wait_active`. -/
def waitActive (share ip : String) : Nat → Prog Node Failure Unit
  | 0 => raise (ruleNotActive ip share)
  | n + 1 => do
      let rules ← accessRules env share
      let state ← read fun s => env.ruleState s.tick
      if rules.any (·.accessTo = ip) then
        match state with
        | .active => pure ()
        | .error => raise (ruleFailed ip share)
        | .pending => waitActive share ip n
      else waitActive share ip n

/-- The share with one more rule. -/
def allow (share ip : String) (s : Node) : Node :=
  { s with rules := ⟨s.nextRule, share, "ip", ip⟩ :: s.rules, nextRule := s.nextRule + 1 }

/-- `grant`. -/
def grant (share ip : String) : Prog Node Failure Unit := do
  let rules ← accessRules env share
  if rules.any (·.accessTo = ip) then waitActive env share ip env.polls
  else do
    call env (.allowAccess share ip) (allow share ip)
    waitActive env share ip env.polls

/-- Withdraw one rule.  What Manila refuses is only logged. -/
def deny (rule : Nat) : Prog Node Failure Unit :=
  tryExcept
    (call env (.denyAccess rule) fun s => { s with rules := s.rules.filter (·.id ≠ rule) })
    fun e => if e.isZun then pure () else raise e

/-- `revoke`. -/
def revoke (share ip : String) : Prog Node Failure Unit := do
  let rules ← accessRules env share
  forEach (rules.filter (·.accessTo = ip)) fun r => deny env r.id

end Volume

end Zun
