import Mathlib.Data.List.Basic

/-!
# The channel protocol

`zun/websocket/channel.py`, and the client's side of a streamed exec as websockify keeps it.  One
message is one frame: a byte that names the channel, then data.  A Status is a frame on the error
channel.
-/

namespace Zun

namespace Channel

abbrev Bytes := List UInt8

def v4 : String := "v4.channel.k8s.io"
def v5 : String := "v5.channel.k8s.io"

def stdin : UInt8 := 0
def stdout : UInt8 := 1
def stderr : UInt8 := 2
def error : UInt8 := 3
def close : UInt8 := 255

def frame (channel : UInt8) (data : Bytes) : Bytes := channel :: data

/-- What `_status` is given: the fields of the body, and the causes among its details. -/
structure Body where
  status : String
  message : Option String := none
  reason : Option String := none
  causes : List (String × String) := []
deriving DecidableEq

section Statuses

-- `jsonutils.dump_as_bytes`.
variable (dump : Body → Bytes)

def status (body : Body) : Bytes := frame error (dump body)

def success : Bytes := status dump { status := "Success" }

def exitCode (code : Int) : Bytes :=
  if code = 0 then success dump
  else
    status dump
      { status := "Failure",
        message := some s!"command terminated with non-zero exit code: {code}",
        reason := some "NonZeroExitCode",
        causes := [("ExitCode", toString code)] }

def timeout (seconds : Nat) : Bytes :=
  status dump
    { status := "Failure",
      message := some s!"command did not finish within {seconds} seconds and was killed",
      reason := some "Timeout" }

def failure (message : String) (reason : String) : Bytes :=
  status dump { status := "Failure", message := some message, reason := some reason }

/-- The reason that `failure` gives when it is given none. -/
def internalError : String := "InternalError"

end Statuses

def isStatus : Bytes → Bool
  | [] => false
  | c :: _ => c == error

@[simp] theorem isStatus_frame (c : UInt8) (data : Bytes) : isStatus (frame c data) = (c == error) := rfl

section

variable {dump : Body → Bytes}

@[simp] theorem isStatus_status (body : Body) : isStatus (status dump body) = true := rfl

@[simp] theorem isStatus_timeout (seconds : Nat) : isStatus (timeout dump seconds) = true := rfl

@[simp] theorem isStatus_failure (message reason : String) :
    isStatus (failure dump message reason) = true := rfl

@[simp] theorem isStatus_exitCode (code : Int) : isStatus (exitCode dump code) = true := by
  unfold exitCode
  split <;> rfl

end

/-! ## What the client is sent -/

/-- The client's side of a session.  The frames in `parts` (`send_parts`) wait for its socket. -/
structure Client where
  taken : List Bytes := []
  parts : List Bytes := []
  connected : Bool := true
deriving DecidableEq

/-- `send_frames`, when the socket takes `k` frames. -/
def Client.sendFrames (c : Client) (frames : List Bytes) (k : Nat) : Client :=
  { c with taken := c.taken ++ (c.parts ++ frames).take k, parts := (c.parts ++ frames).drop k }

/-- A call on the client's socket raises, with some frames just queued.  The connection may have
failed with it. -/
def Client.raises (c : Client) (frames : List Bytes) (gone : Bool) : Client :=
  { c with parts := c.parts ++ frames, connected := c.connected && !gone }

/-- `_pending`. -/
def Client.pending (c : Client) : Nat := c.parts.flatten.length

/-- All that was given to `send_frames`. -/
def Client.handed (c : Client) : List Bytes := c.taken ++ c.parts

section

variable {c : Client}

@[simp] theorem Client.handed_sendFrames (frames : List Bytes) (k : Nat) :
    (c.sendFrames frames k).handed = c.handed ++ frames := by
  simp [handed, sendFrames]

@[simp] theorem Client.connected_sendFrames (frames : List Bytes) (k : Nat) :
    (c.sendFrames frames k).connected = c.connected := rfl

@[simp] theorem Client.handed_raises (frames : List Bytes) (gone : Bool) :
    (c.raises frames gone).handed = c.handed ++ frames := by
  simp [handed, raises]

@[simp] theorem Client.connected_raises (frames : List Bytes) :
    (c.raises frames true).connected = false := by
  simp [raises]

end

/-- No frame is a Status. -/
def Quiet (frames : List Bytes) : Prop := ∀ f ∈ frames, isStatus f = false

/-- The last frame is a Status, and no other is. -/
def Told (frames : List Bytes) : Prop :=
  ∃ before f, frames = before ++ [f] ∧ Quiet before ∧ isStatus f = true

/-- A Status comes last, if it comes. -/
def EndsWithStatus (frames : List Bytes) : Prop :=
  ∀ before f after, frames = before ++ f :: after → isStatus f = true → after = []

section

variable {frames : List Bytes} {f : Bytes}

theorem quiet_nil : Quiet [] := fun _ hf => absurd hf List.not_mem_nil

theorem Quiet.append {frames' : List Bytes} (h : Quiet frames) (h' : Quiet frames') :
    Quiet (frames ++ frames') := by
  intro f hf
  rcases List.mem_append.mp hf with hf | hf
  · exact h f hf
  · exact h' f hf

theorem Quiet.snoc (h : Quiet frames) (hf : isStatus f = false) : Quiet (frames ++ [f]) :=
  h.append fun _ hg => List.mem_singleton.mp hg ▸ hf

theorem Quiet.told (h : Quiet frames) (hf : isStatus f = true) : Told (frames ++ [f]) :=
  ⟨frames, f, rfl, h, hf⟩

theorem Quiet.endsWithStatus (h : Quiet frames) : EndsWithStatus frames := by
  rintro before f after rfl hf
  cases (h f (by simp)).symm.trans hf

theorem Told.endsWithStatus (h : Told frames) : EndsWithStatus frames := by
  obtain ⟨quiet, g, rfl, hquiet, -⟩ := h
  intro before f after heq hf
  rcases List.eq_nil_or_concat after with hafter | ⟨after, x, hafter⟩
  · exact hafter
  · rw [hafter, List.concat_eq_append, ← List.cons_append, ← List.append_assoc] at heq
    have hinit := List.append_inj_left' heq rfl
    cases (hquiet f (by rw [hinit]; simp)).symm.trans hf

/-- How a session has ended for its client. -/
structure Ended (c : Client) : Prop where
  last : EndsWithStatus c.handed
  /-- A client that is still there was told how the command ended. -/
  told : c.connected = true → ∃ f ∈ c.taken, isStatus f = true

theorem Told.exists_mem (h : Told frames) : ∃ f ∈ frames, isStatus f = true := by
  obtain ⟨before, f, rfl, -, hf⟩ := h
  exact ⟨f, by simp, hf⟩

end

end Channel

end Zun
