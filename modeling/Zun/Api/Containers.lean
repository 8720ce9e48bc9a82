import Zun.Compute.Manager

/-!
# Requests on a container

The methods of `zun/api/controllers/v1/containers.py` that ask for an operation on a container
that exists, down to the thread the compute manager runs for it.

The API reads the row, checks its status against `VALID_STATES`, and sends the object it has
read along with the request.  A rebuild is written to the row before it is sent.  A delete is
only noted on the object.  A request that is not valid leaves everything as it is.

A delete that is to stop the container first sends two requests, and so is a stop and a delete
here.
-/

namespace Zun

open Effect Prog

namespace Api

variable (env : Env) (d : Drivers)

/-- The object that goes with a request. -/
def hand (u : Uuid) (o : Obj) : Prog World Exn Unit := assign u fun _ => o

/-- `delete`, once it is valid.  A record without a host has no one to ask. -/
def delete (u : Uuid) (force : Bool) (r : Record) : Prog World Exn Unit := do
  hand u ((Obj.of r).setStatus .deleting)
  if r.host.isSome then Manager.thread env d (.container u) (.delete force) else destroy env u

/-- `rebuild`, once it is valid. -/
def rebuild (u : Uuid) (r : Record) : Prog World Exn Unit := do
  hand u ((Obj.of r).setStatus .rebuilding)
  save env u
  Manager.thread env d (.container u) (.rebuild (r.status = .running))

/-- The methods that send the object as it was read. -/
def operate (u : Uuid) (op : Manager.Operation) (r : Record) : Prog World Exn Unit := do
  hand u (Obj.of r)
  Manager.thread env d (.container u) op

/-- What a valid request does. -/
def act (u : Uuid) (r : Record) : Action → Prog World Exn Unit
  | .delete | .deleteAfterStop => delete env d u false r
  | .deleteForce => delete env d u true r
  | .rebuild => rebuild env d u r
  | .start => operate env d u .start r
  | .stop => operate env d u .stop r
  | .reboot => operate env d u .reboot r
  | .pause => operate env d u .pause r
  | .unpause => operate env d u .unpause r
  | .kill => operate env d u .kill r

/-- A request on a container.  `validate_container_state` lets it through or not. -/
def request (u : Uuid) (a : Action) : Prog World Exn Unit := do
  let row ← read fun s => s.db u
  match row with
  | none => pure ()
  | some r => onlyIf (r.status ∈ validStates a) (act env d u r a)

end Api

end Zun
