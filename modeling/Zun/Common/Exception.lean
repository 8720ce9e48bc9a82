import Mathlib.Data.List.Basic

/-!
# Exceptions, and what a tenant may read of them

The classes of `zun/common/exception.py` that a handler of the modelled code tells apart,
and `reasons.for_tenant` of `zun/compute/reasons.py`.

An exception carries its text.  `for_tenant` searches the text with fixed regular
expressions, so an exception also carries the list of those that find a match in it, and
nothing else of the text is looked at.
-/

namespace Zun

/-- The status of a failed gRPC call, as far as a caller looks at it. -/
inductive GrpcCode where
  | notFound
  | deadlineExceeded
  | unavailable
  /-- `CONTAINER_EXITED` is in the details of the error. -/
  | containerExited
  | other
deriving DecidableEq

/-- What `is_not_found`, `is_not_connected` and `is_conflict` read in docker's answer. -/
inductive DockerCode where
  | notFound
  | notConnected
  | conflict
  | other
deriving DecidableEq

/-- The class of an exception. -/
inductive ExnClass where
  | dockerError (code : DockerCode)
  | conflict
  | invalid
  /-- A subclass of `Invalid`. -/
  | imageNotFound
  | invalidReference
  | resourcesUnavailable
  | volumeNotPrepared
  | initContainerFailed
  | capsuleCreateAbandoned
  | containerNotFound
  | portNotFound
  | rpcError (code : GrpcCode)
  /-- A bare `ZunException`. -/
  | zunException
  /-- Anything that is not a `ZunException`. -/
  | other
deriving DecidableEq

/-- The regular expressions of `reasons.py`. -/
inductive Pattern where
  | noRuntime
  | sandbox
  | pull
  | denied
  | unreachable
  | notFound
  | commandMissing
  | commandDenied
deriving DecidableEq

/-- An exception. -/
structure Exn where
  /-- Its class. -/
  cls : ExnClass
  /-- `str(e)`. -/
  text : String := ""
  /-- The patterns that find a match in the text. -/
  found : List Pattern := []
deriving DecidableEq

/-! ## Reasons -/

namespace Reasons

def notCreated : String := "The container could not be created"
def notStarted : String := "The container could not be started"
def notDeleted : String := "The container could not be deleted"
def notRebuilt : String := "The container could not be rebuilt"
def noRoom : String := "The node chosen for this container did not have enough room"
def sandboxNotStarted : String := "The runtime failed to start sandbox for this container"
def noRuntime : String := "This node has no runtime for this container"
def imageNotPulled : String := "The image could not be pulled"
def imageNotFound : String := "The image could not be pulled: it was not found"
def imageDenied : String := "The image could not be pulled: access was denied"
def registryUnreachable : String :=
  "The image could not be pulled: its registry could not be reached"
def commandNotFound : String := "The container's command was not found in its image"
def commandDenied : String := "The container's command could not be run: permission denied"

/-- `_of_a_pull`. -/
def ofAPull (found : List Pattern) : String :=
  if found.contains .denied then imageDenied
  else if found.contains .unreachable then registryUnreachable
  else if found.contains .notFound then imageNotFound
  else imageNotPulled

/-- The classes of `_WRITTEN_FOR_THE_TENANT`. -/
def writtenForTheTenant : ExnClass → Bool
  | .volumeNotPrepared | .initContainerFailed | .capsuleCreateAbandoned => true
  | _ => false

/-- `for_tenant`: the reason to record for an error, or the fallback when none fits. -/
def forTenant (error : Exn) (fallback : String) : String :=
  if writtenForTheTenant error.cls then error.text
  else if error.cls = .resourcesUnavailable then noRoom
  else if error.cls = .imageNotFound then imageNotFound
  -- A runtime nothing offers is also reported as a sandbox that failed to start.
  else if error.found.contains .noRuntime then noRuntime
  else if error.found.contains .sandbox then sandboxNotStarted
  else if error.found.contains .pull then ofAPull error.found
  else if error.found.contains .commandMissing then commandNotFound
  else if error.found.contains .commandDenied then commandDenied
  else if error.cls = .invalid then error.text
  else fallback

end Reasons

/-- `VolumeNotPrepared.message`. -/
def volumeNotPreparedMessage : String := "A volume of this container could not be prepared"

/-- `Manager._reason_for`. -/
def reasonFor (error : Exn) : String :=
  if error.cls = .volumeNotPrepared then error.text else volumeNotPreparedMessage

end Zun
