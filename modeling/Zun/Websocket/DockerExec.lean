import Zun.Websocket.CriExec

/-!
# A streamed exec on a docker daemon

`DockerExecStream` of `zun/websocket/exec_stream.py`.  The proxy starts the exec, takes the daemon's
multiplexed stream apart and passes stdin the other way.  The daemon ends nothing when its
connection does: `end_command` has the node kill the command.

The steps are those of `CriExec`, but stdin is written by the main loop itself, and there is no
queue.
-/

namespace Zun

open Effect Channel

namespace DockerExec

/-! ## The daemon's frames -/

/-- `_DockerFrames`.  A header that is whole is taken apart at once. -/
structure Frames where
  header : Bytes := []
  /-- The channel of the frame that is being read, while some of it is left. -/
  stream : UInt8 := stdout
  left : Nat := 0
  header_lt : header.length < 8

/-- Nothing was read yet. -/
def Frames.fresh : Frames := { header_lt := by decide }

/-- `CHANNELS.get(stream, STDOUT)`. -/
def channelOf (stream : UInt8) : UInt8 := if stream = 2 then stderr else stdout

/-- A number of four bytes, the high one first. -/
def bigEndian (bytes : Bytes) : Nat := bytes.foldl (fun n b => n * 256 + b.toNat) 0

/-- `feed`: what is left to know, and the frames. -/
def Frames.feed (d : Frames) (data : Bytes) : Frames × List Bytes :=
  if hdata : data = [] then (d, [])
  else if hleft : d.left = 0 then
    let need := 8 - d.header.length
    let header := d.header ++ data.take need
    if hheader : header.length < 8 then ({ d with header, header_lt := hheader }, [])
    else
      ({ header := [], stream := channelOf (header.headD 0), left := bigEndian (header.drop 4),
         header_lt := by decide } : Frames).feed (data.drop need)
  else
    let chunk := data.take d.left
    let rest := ({ d with left := d.left - chunk.length } : Frames).feed (data.drop chunk.length)
    (rest.1, frame d.stream chunk :: rest.2)
termination_by data.length
decreasing_by
  · have := d.header_lt
    have := List.length_pos_iff.mpr hdata
    simp only [List.length_drop]
    omega
  · have := List.length_pos_iff.mpr hdata
    simp only [List.length_drop, List.length_take]
    omega

theorem not_isStatus_channelOf (stream : UInt8) : (channelOf stream == error) = false := by
  unfold channelOf
  split <;> decide

/-- Output is on stdout and on stderr, whatever the daemon sends. -/
def Frames.Output (d : Frames) : Prop := (d.stream == error) = false

theorem Frames.output_fresh : fresh.Output := by
  unfold Output
  decide

theorem Frames.feed_output (d : Frames) (data : Bytes) (hd : d.Output) :
    (d.feed data).1.Output ∧ Quiet (d.feed data).2 := by
  induction d, data using Frames.feed.induct with
  | case1 d => simp [feed, hd, quiet_nil]
  | case2 d data hdata hleft need header hheader =>
      rw [feed, dif_neg hdata, dif_pos hleft]
      simp only [header, need] at hheader
      simp only [dif_pos hheader]
      exact ⟨hd, quiet_nil⟩
  | case3 d data hdata hleft need header hheader ih =>
      rw [feed, dif_neg hdata, dif_pos hleft]
      simp only [header, need] at hheader
      simp only [dif_neg hheader]
      exact ih (not_isStatus_channelOf _)
  | case4 d data hdata hleft chunk ih =>
      rw [feed, dif_neg hdata, dif_neg hleft]
      obtain ⟨hrest, hquiet⟩ := ih hd
      refine ⟨hrest, fun f hf => ?_⟩
      rcases List.mem_cons.mp hf with rfl | hf
      · exact hd
      · exact hquiet f hf

/-! ## The session -/

structure Config where
  /-- The command was given a stdin. -/
  stdin : Bool
  timeout : Option Nat
  /-- `[websocket_proxy] stream_buffer_limit`. -/
  streamBufferLimit : Nat
  dump : Body → Bytes

/-- What is to be done after a `select`.  The runtime is read too when TLS holds a record. -/
structure Ready where
  clientOut : Bool := false
  clientIn : Bool := false
  runtimeOut : Bool := false
  runtimeIn : Bool := false
deriving DecidableEq

inductive Phase where
  | starting
  | selecting
  /-- At `if self.timed_out`. -/
  | expiring (r : Ready)
  | flushing (r : Ready)
  /-- In `_keep_alive`. -/
  | pinging (r : Ready)
  | receiving (r : Ready)
  | writing (r : Ready)
  | closingStdin (r : Ready)
  | reading
  /-- In `_to_client`, with frames of the daemon. -/
  | passing (frames : List Bytes)
  /-- In `_finish`. -/
  | finishing
  /-- In `_end_with`. -/
  | ending (status : Bytes)
  | draining
  /-- In the `finally` of `run`. -/
  | closing
  | finished
deriving DecidableEq

structure State where
  phase : Phase := .starting
  client : Client := {}
  frames : Frames := .fresh
  /-- What the client has written and the daemon has not taken. -/
  stdin : Bytes := []
  closeStdin : Bool := false
  timedOut : Bool := false
  /-- The daemon has started the command. -/
  started : Bool := false
  /-- The stream was read to its end. -/
  atEnd : Bool := false
  /-- `end_command` was called. -/
  killed : Bool := false

inductive Event where
  /-- `_start` raises.  The daemon may have started the command all the same. -/
  | startRaises (running : Bool)
  /-- `_start`, with the output that came with the headers. -/
  | start (head : Bytes)
  | expire
  | select (r : Ready)
  | selectRaises
  /-- `KILL_GRACE` has passed since the deadline. -/
  | graceOver
  | inTime
  | flush (k : Nat)
  | keepAlive
  | receive (messages : List Bytes) (closed : Bool)
  /-- `_write`, of which the daemon takes so many bytes. -/
  | write (n : Nat)
  | writeRaises
  | closeStdin
  | closeStdinRaises
  /-- `_read`, with data. -/
  | read (data : Bytes)
  | readNothing
  | readEnd
  | readBroken
  /-- `_finish`, with the exit code when it can be read. -/
  | finish (code : Option Int)
  | toClient (k : Nat)
  | endWith (k : Nat)
  /-- A call on the client's socket raises. -/
  | clientRaises (gone : Bool)
  | drain (k : Nat)
  | drained
  /-- `DRAIN_TIMEOUT` is over. -/
  | giveUp
  | close
deriving DecidableEq

/-- `if readable_backend and ...`. -/
def Ready.toRead (r : Ready) : Phase := if r.runtimeIn then .reading else .selecting

/-- `if close_stdin and not stdin`. -/
def State.toCloseStdin (s : State) (r : Ready) : State :=
  { s with phase := if s.closeStdin = true ∧ s.stdin = [] then .closingStdin r else r.toRead }

/-- `if stdin and self.sock in outs`. -/
def State.toWrite (s : State) (r : Ready) : State :=
  if s.stdin ≠ [] ∧ r.runtimeOut = true then { s with phase := .writing r } else s.toCloseStdin r

/-- What `_to_client` or `_end_with` was called with. -/
def Phase.frames : Phase → List Bytes
  | .passing frames => frames
  | .ending status => [status]
  | _ => []

section

variable (cfg : Config)

/-- One message of the client. -/
def fromClient (s : State) : Bytes → State
  | [] => s
  | c :: data =>
      if cfg.stdin = false then s
      else if c = Channel.stdin then { s with stdin := s.stdin ++ data }
      else if c = Channel.close then { s with closeStdin := true }
      else s

def timeoutStatus : Bytes := timeout cfg.dump (cfg.timeout.getD 0)

def finishStatus : Option Int → Bytes
  | none =>
      failure cfg.dump "the command ended but its exit code could not be read" internalError
  | some code => exitCode cfg.dump code

def stepReceive (messages : List Bytes) (closed : Bool) (s : State) : State :=
  match s.phase with
  | .receiving r =>
      let s := messages.foldl (fromClient cfg) s
      if closed then
        -- The client has left, and the node is asked to kill the command.
        { s with phase := .draining, killed := true, client := { s.client with connected := false } }
      else s.toWrite r
  | _ => s

def step : Event → State → State
  | .startRaises running, s =>
      { s with started := running,
               phase := .ending (failure cfg.dump "the command could not be started" internalError) }
  | .start head, s =>
      { s with started := true, frames := (s.frames.feed head).1,
               phase := .passing (s.frames.feed head).2 }
  | .expire, s => { s with timedOut := true, killed := true }
  | .select r, s => { s with phase := .expiring r }
  | .selectRaises, s | .writeRaises, s | .closeStdinRaises, s => { s with phase := .closing }
  | .graceOver, s => { s with phase := .ending (timeoutStatus cfg) }
  | .inTime, s =>
      match s.phase with
      | .expiring r => { s with phase := if r.clientOut then .flushing r else .pinging r }
      | _ => s
  | .flush k, s =>
      match s.phase with
      | .flushing r => { s with client := s.client.sendFrames [] k, phase := .pinging r }
      | _ => s
  | .keepAlive, s =>
      match s.phase with
      | .pinging r => if r.clientIn then { s with phase := .receiving r } else s.toWrite r
      | _ => s
  | .receive messages closed, s => stepReceive cfg messages closed s
  | .write n, s =>
      match s.phase with
      | .writing r => { s with stdin := s.stdin.drop n }.toCloseStdin r
      | _ => s
  | .closeStdin, s =>
      match s.phase with
      | .closingStdin r => { s with closeStdin := false, phase := r.toRead }
      | _ => s
  | .read data, s =>
      { s with frames := (s.frames.feed data).1, phase := .passing (s.frames.feed data).2 }
  | .readNothing, s => { s with phase := .selecting }
  | .readEnd, s => { s with atEnd := true, phase := .finishing }
  | .readBroken, s =>
      { s with killed := true,
               phase := .ending (failure cfg.dump
                 "the connection to the container runtime failed; the output is incomplete"
                 internalError) }
  | .finish code, s =>
      { s with phase := .ending (if s.timedOut then timeoutStatus cfg else finishStatus cfg code) }
  | .toClient k, s =>
      { s with client := s.client.sendFrames s.phase.frames k, phase := .selecting }
  | .endWith k, s =>
      { s with client := s.client.sendFrames s.phase.frames k, phase := .draining }
  | .clientRaises gone, s =>
      { s with client := s.client.raises s.phase.frames gone, phase := .closing }
  | .drain k, s => { s with client := s.client.sendFrames [] k }
  | .drained, s | .giveUp, s => { s with phase := .closing }
  | .close, s => { s with phase := .finished }

end

/-- The main loop is at a call on the client's socket. -/
def Phase.OnClient : Phase → Prop
  | .flushing _ | .pinging _ | .receiving _ | .passing _ | .ending _ | .draining => True
  | _ => False

/-- What can happen. -/
def Possible (cfg : Config) : Event → State → Prop
  | .startRaises _, s | .start _, s => s.phase = .starting
  | .expire, s => cfg.timeout.getD 0 ≠ 0 ∧ s.timedOut = false ∧ s.phase ≠ .finished
  | .select r, s => s.phase = .selecting ∧ (r.clientOut = true → s.client.parts ≠ []) ∧
      (r.runtimeOut = true → s.stdin ≠ [] ∨ s.closeStdin = true) ∧
      (r.runtimeIn = true → s.client.pending < cfg.streamBufferLimit)
  | .selectRaises, s => s.phase = .selecting
  | .graceOver, s => s.timedOut = true ∧ ∃ r, s.phase = .expiring r
  | .inTime, s => ∃ r, s.phase = .expiring r
  | .flush _, s => ∃ r, s.phase = .flushing r
  | .keepAlive, s => ∃ r, s.phase = .pinging r
  | .receive _ _, s => ∃ r, s.phase = .receiving r
  | .write n, s => n ≤ s.stdin.length ∧ ∃ r, s.phase = .writing r
  | .writeRaises, s => ∃ r, s.phase = .writing r
  | .closeStdin, s | .closeStdinRaises, s => ∃ r, s.phase = .closingStdin r
  | .read data, s => data ≠ [] ∧ s.phase = .reading
  | .readNothing, s | .readEnd, s | .readBroken, s => s.phase = .reading
  | .finish _, s => s.phase = .finishing
  | .toClient _, s => ∃ frames, s.phase = .passing frames
  | .endWith _, s => ∃ status, s.phase = .ending status
  | .clientRaises _, s => s.phase.OnClient
  | .drain _, s => s.phase = .draining
  | .drained, s => s.phase = .draining ∧ s.client.parts = []
  | .giveUp, s => s.phase = .draining ∧ s.client.parts ≠ []
  | .close, s => s.phase = .closing

/-- The session begins. -/
def Begun (s : State) : Prop := s = {}

/-- A start that raises has started nothing; `select`, the write of stdin and its close do not raise;
a call on the client's socket raises when its connection has failed and no command is left that was
not killed; and the client takes what is left for it. -/
def Orderly : Event → State → Prop
  | .startRaises running, _ => running = false
  | .selectRaises, _ | .writeRaises, _ | .closeStdinRaises, _ | .giveUp, _ => False
  | .clientRaises gone, s => gone = true ∧ (s.started = true → s.atEnd = true ∨ s.killed = true)
  | _, _ => True

variable {cfg : Config} {s : State}

/-! ## What the main loop keeps -/

/-- What the client was told and what was done about the command, by where the main loop is. -/
def Telling (s : State) : Prop :=
  match s.phase with
  | .passing frames => Quiet s.client.handed ∧ Quiet frames
  | .finishing => Quiet s.client.handed ∧ s.atEnd = true
  | .ending status => Quiet s.client.handed ∧ isStatus status = true ∧
      (s.started = true → s.atEnd = true ∨ s.killed = true)
  | .draining => EndsWithStatus s.client.handed ∧
      (s.client.connected = true → Told s.client.handed) ∧
      (s.started = true → s.atEnd = true ∨ s.killed = true)
  | .closing | .finished => Ended s.client ∧ (s.started = true → s.atEnd = true ∨ s.killed = true)
  | _ => Quiet s.client.handed

structure Kept (s : State) : Prop where
  frames : s.frames.Output
  killed : s.timedOut = true → s.killed = true
  telling : Telling s

/-- A client's messages are kept for the daemon, and change nothing else. -/
theorem foldl_fromClient (cfg : Config) (messages : List Bytes) (s : State) :
    ∃ stdin closeStdin, messages.foldl (fromClient cfg) s = { s with stdin, closeStdin } := by
  induction messages generalizing s with
  | nil => exact ⟨s.stdin, s.closeStdin, rfl⟩
  | cons m messages ih =>
      have hone : ∃ stdin closeStdin, fromClient cfg s m = { s with stdin, closeStdin } := by
        cases m with
        | nil => exact ⟨s.stdin, s.closeStdin, rfl⟩
        | cons c data =>
            simp only [fromClient]
            by_cases hstdin : cfg.stdin = false
            · exact ⟨s.stdin, s.closeStdin, if_pos hstdin⟩
            · rw [if_neg hstdin]
              by_cases hc : c = Channel.stdin
              · exact ⟨s.stdin ++ data, s.closeStdin, if_pos hc⟩
              · rw [if_neg hc]
                by_cases hclose : c = Channel.close
                · exact ⟨s.stdin, true, if_pos hclose⟩
                · exact ⟨s.stdin, s.closeStdin, if_neg hclose⟩
      obtain ⟨stdin, closeStdin, hone⟩ := hone
      rw [List.foldl_cons, hone]
      obtain ⟨stdin', closeStdin', hrest⟩ := ih { s with stdin, closeStdin }
      exact ⟨stdin', closeStdin', hrest⟩

/-- The daemon's side of a turn of the loop says nothing. -/
theorem Kept.toRead {r : Ready} (h : Kept s) (hquiet : Quiet s.client.handed) :
    Kept { s with phase := r.toRead } := by
  refine ⟨h.frames, h.killed, ?_⟩
  unfold Ready.toRead
  cases r.runtimeIn <;> exact hquiet

theorem Kept.toCloseStdin {r : Ready} (h : Kept s) (hquiet : Quiet s.client.handed) :
    Kept (s.toCloseStdin r) := by
  unfold State.toCloseStdin
  split
  · exact ⟨h.frames, h.killed, hquiet⟩
  · exact h.toRead hquiet

theorem Kept.toWrite {r : Ready} (h : Kept s) (hquiet : Quiet s.client.handed) :
    Kept (s.toWrite r) := by
  unfold State.toWrite
  split
  · exact ⟨h.frames, h.killed, hquiet⟩
  · exact h.toCloseStdin hquiet

/-- A state that differs in its stdin only. -/
theorem Kept.setStdin (h : Kept s) (stdin : Bytes) (closeStdin : Bool) :
    Kept { s with stdin, closeStdin } := ⟨h.frames, h.killed, h.telling⟩

theorem kept_receive {r : Ready} (h : Kept s) (hphase : s.phase = .receiving r)
    (messages : List Bytes) (closed : Bool) : Kept (stepReceive cfg messages closed s) := by
  have hquiet : Quiet s.client.handed := by
    have htelling := h.telling
    simp only [Telling, hphase] at htelling
    exact htelling
  obtain ⟨stdin, closeStdin, hfold⟩ := foldl_fromClient cfg messages s
  simp only [stepReceive, hphase, hfold]
  cases closed with
  | true => exact ⟨h.frames, fun _ => rfl, hquiet.endsWithStatus, nofun, fun _ => .inr rfl⟩
  | false => exact (h.setStdin stdin closeStdin).toWrite hquiet

/-- What was handed over ends with a Status, also when a call on the client's socket raises. -/
theorem telling_raises (h : Telling s) (hpossible : s.phase.OnClient) :
    EndsWithStatus (s.client.handed ++ s.phase.frames) := by
  unfold Telling at h
  cases hphase : s.phase <;> simp only [hphase, Phase.OnClient, Phase.frames, List.append_nil] at *
  case passing frames => exact (h.1.append h.2).endsWithStatus
  case ending status => exact (h.1.told h.2.1).endsWithStatus
  case draining => exact h.1
  all_goals exact h.endsWithStatus

theorem kept_step (e : Event) (h : Kept s) (hpossible : Possible cfg e s) (horderly : Orderly e s) :
    Kept (step cfg e s) := by
  have htelling := h.telling
  cases e with
  | startRaises running =>
      have hphase : s.phase = .starting := hpossible
      simp only [Telling, hphase] at htelling
      cases show running = false from horderly
      exact ⟨h.frames, h.killed, htelling, rfl, nofun⟩
  | start head =>
      have hphase : s.phase = .starting := hpossible
      simp only [Telling, hphase] at htelling
      obtain ⟨hframes, hquiet⟩ := s.frames.feed_output head h.frames
      exact ⟨hframes, h.killed, htelling, hquiet⟩
  | expire =>
      refine ⟨h.frames, fun _ => rfl, ?_⟩
      simp only [step]
      unfold Telling at htelling ⊢
      cases hphase : s.phase <;> simp only [hphase] at htelling ⊢
      case ending status => exact ⟨htelling.1, htelling.2.1, fun _ => .inr trivial⟩
      case draining => exact ⟨htelling.1, htelling.2.1, fun _ => .inr trivial⟩
      case closing => exact ⟨htelling.1, fun _ => .inr trivial⟩
      case finished => exact ⟨htelling.1, fun _ => .inr trivial⟩
      all_goals exact htelling
  | select r =>
      simp only [Telling, hpossible.1] at htelling
      exact ⟨h.frames, h.killed, htelling⟩
  | selectRaises => exact horderly.elim
  | graceOver =>
      obtain ⟨htimed, r, hphase⟩ := hpossible
      simp only [Telling, hphase] at htelling
      exact ⟨h.frames, h.killed, htelling, rfl, fun _ => .inr (h.killed htimed)⟩
  | inTime =>
      obtain ⟨r, hphase⟩ := hpossible
      simp only [Telling, hphase] at htelling
      simp only [step, hphase]
      refine ⟨h.frames, h.killed, ?_⟩
      cases r.clientOut <;> exact htelling
  | flush k =>
      obtain ⟨r, hphase⟩ := hpossible
      simp only [Telling, hphase] at htelling
      simp only [step, hphase]
      refine ⟨h.frames, h.killed, ?_⟩
      simp only [Telling, Client.handed_sendFrames, List.append_nil]
      exact htelling
  | keepAlive =>
      obtain ⟨r, hphase⟩ := hpossible
      simp only [Telling, hphase] at htelling
      simp only [step, hphase]
      split
      · exact ⟨h.frames, h.killed, htelling⟩
      · exact h.toWrite htelling
  | receive messages closed =>
      obtain ⟨r, hphase⟩ := hpossible
      exact kept_receive h hphase messages closed
  | write n =>
      obtain ⟨-, r, hphase⟩ := hpossible
      simp only [Telling, hphase] at htelling
      simp only [step, hphase]
      exact (h.setStdin (s.stdin.drop n) s.closeStdin).toCloseStdin htelling
  | writeRaises => exact horderly.elim
  | closeStdin =>
      obtain ⟨r, hphase⟩ := hpossible
      simp only [Telling, hphase] at htelling
      simp only [step, hphase]
      exact (h.setStdin s.stdin false).toRead htelling
  | closeStdinRaises => exact horderly.elim
  | read data =>
      simp only [Telling, hpossible.2] at htelling
      obtain ⟨hframes, hquiet⟩ := s.frames.feed_output data h.frames
      exact ⟨hframes, h.killed, htelling, hquiet⟩
  | readNothing =>
      have hphase : s.phase = .reading := hpossible
      simp only [Telling, hphase] at htelling
      exact ⟨h.frames, h.killed, htelling⟩
  | readEnd =>
      have hphase : s.phase = .reading := hpossible
      simp only [Telling, hphase] at htelling
      exact ⟨h.frames, h.killed, htelling, rfl⟩
  | readBroken =>
      have hphase : s.phase = .reading := hpossible
      simp only [Telling, hphase] at htelling
      exact ⟨h.frames, fun _ => rfl, htelling, rfl, fun _ => .inr rfl⟩
  | finish code =>
      have hphase : s.phase = .finishing := hpossible
      simp only [Telling, hphase] at htelling
      refine ⟨h.frames, h.killed, htelling.1, ?_, fun _ => .inl htelling.2⟩
      split
      · rfl
      · cases code <;> simp [finishStatus]
  | toClient k =>
      obtain ⟨frames, hphase⟩ := hpossible
      simp only [Telling, hphase] at htelling
      refine ⟨h.frames, h.killed, ?_⟩
      simp only [step, hphase, Phase.frames, Telling, Client.handed_sendFrames]
      exact htelling.1.append htelling.2
  | endWith k =>
      obtain ⟨status, hphase⟩ := hpossible
      simp only [Telling, hphase] at htelling
      have htold := htelling.1.told htelling.2.1
      refine ⟨h.frames, h.killed, ?_⟩
      simp only [step, hphase, Phase.frames, Telling, Client.handed_sendFrames]
      exact ⟨htold.endsWithStatus, fun _ => htold, htelling.2.2⟩
  | clientRaises gone =>
      obtain ⟨rfl, hkilled⟩ := horderly
      exact ⟨h.frames, h.killed, CriExec.ended_of_raises _ (telling_raises htelling hpossible), hkilled⟩
  | drain k =>
      have hphase : s.phase = .draining := hpossible
      simp only [Telling, hphase] at htelling
      refine ⟨h.frames, h.killed, ?_⟩
      simp only [step, Telling, hphase, Client.handed_sendFrames, List.append_nil,
        Client.connected_sendFrames]
      exact htelling
  | drained =>
      obtain ⟨hphase, hparts⟩ := hpossible
      simp only [Telling, hphase] at htelling
      have hall : s.client.handed = s.client.taken := by
        rw [Client.handed, hparts, List.append_nil]
      exact ⟨h.frames, h.killed,
        ⟨htelling.1, fun hconnected => hall ▸ (htelling.2.1 hconnected).exists_mem⟩, htelling.2.2⟩
  | giveUp => exact horderly.elim
  | close =>
      have hphase : s.phase = .closing := hpossible
      simp only [Telling, hphase] at htelling
      exact ⟨h.frames, h.killed, htelling⟩

theorem kept_of_orderly
    (h : Reached Begun (step cfg) (fun e s => Possible cfg e s ∧ Orderly e s) s) : Kept s := by
  refine Reached.invariant h (fun s hs => ?_) fun e s hok hs => kept_step e hs hok.1 hok.2
  cases hs
  exact ⟨Frames.output_fresh, nofun, quiet_nil⟩

theorem Telling.endsWithStatus (h : Telling s) : EndsWithStatus s.client.handed := by
  unfold Telling at h
  cases hphase : s.phase <;> simp only [hphase] at h
  case passing frames => exact h.1.endsWithStatus
  case finishing => exact h.1.endsWithStatus
  case ending status => exact h.1.endsWithStatus
  case draining => exact h.1
  case closing => exact h.1.last
  case finished => exact h.1.last
  all_goals exact h.endsWithStatus

end DockerExec

/-! ## Both runtimes -/

/-- How a streamed exec on a CRI runtime ends. -/
structure CriExec.WellEnded (s : CriExec.State) : Prop where
  last : EndsWithStatus s.client.handed
  told : s.phase = .finished → s.client.connected = true → ∃ f ∈ s.client.taken, isStatus f = true

/-- How a streamed exec on a docker daemon ends. -/
structure DockerExec.WellEnded (s : DockerExec.State) : Prop where
  last : EndsWithStatus s.client.handed
  told : s.phase = .finished → s.client.connected = true → ∃ f ∈ s.client.taken, isStatus f = true
  killed : s.phase = .finished → s.started = true → s.atEnd = false → s.killed = true

/-- In every orderly run, on both runtimes, the client is sent one Status and nothing after it, and
no command outlives its session. -/
theorem wellEnded_of_orderly (cri : CriExec.Config) (docker : DockerExec.Config) :
    (∀ s : CriExec.State,
      Reached CriExec.Begun (CriExec.step cri)
        (fun e s => CriExec.Possible cri e s ∧ CriExec.Orderly cri e s) s → CriExec.WellEnded s) ∧
    ∀ s : DockerExec.State,
      Reached DockerExec.Begun (DockerExec.step docker)
        (fun e s => DockerExec.Possible docker e s ∧ DockerExec.Orderly e s) s →
        DockerExec.WellEnded s := by
  constructor
  · intro s h
    have htelling := CriExec.telling_of_orderly h
    refine ⟨htelling.endsWithStatus, fun hover => ?_⟩
    simp only [CriExec.Telling, hover] at htelling
    exact htelling.told
  · intro s h
    have htelling := (DockerExec.kept_of_orderly h).telling
    refine ⟨htelling.endsWithStatus, fun hover => ?_, fun hover hstarted hend => ?_⟩
    all_goals simp only [DockerExec.Telling, hover] at htelling
    · exact htelling.1.told
    · rcases htelling.2 hstarted with hatEnd | hkilled
      · cases hend.symm.trans hatEnd
      · exact hkilled

/-- The runtime writes, sends its Status and closes. -/
def CriExec.succeeds : List CriExec.Event :=
  [.runtimeSends [1, 104], .select false false true, .keepAlive, .check, .recvData, .toClient 1,
   .runtimeSends [3, 123], .select false false true, .keepAlive, .check, .recvData, .toClient 0,
   .runtimeEnds, .select true false false, .flush 1, .keepAlive, .check, .select false false true,
   .keepAlive, .check, .recvEnds, .drained, .close]

/-- The command runs past its deadline, and ends when it is killed. -/
def DockerExec.killedInTime : List DockerExec.Event :=
  [.start [1, 0, 0], .toClient 0, .select { runtimeIn := true }, .inTime, .keepAlive,
   .read [0, 0, 0, 0, 1, 104], .toClient 1, .expire, .select { runtimeIn := true }, .inTime, .keepAlive,
   .readEnd, .finish none, .endWith 0, .drain 1, .drained, .close]

def DockerExec.interactive : DockerExec.Config :=
  { stdin := true, timeout := some 10, streamBufferLimit := 1, dump := fun _ => [] }

theorem wellEnded_succeeds_killedInTime :
    (CriExec.WellEnded (steps (CriExec.step CriExec.interactive) CriExec.succeeds {}) ∧
      (steps (CriExec.step CriExec.interactive) CriExec.succeeds {}).client.taken =
        [[1, 104], [3, 123]]) ∧
    (DockerExec.WellEnded (steps (DockerExec.step DockerExec.interactive) DockerExec.killedInTime {}) ∧
      (steps (DockerExec.step DockerExec.interactive) DockerExec.killedInTime {}).client.taken =
        [[1, 104], [3]]) := by
  have hcri : Reached CriExec.Begun (CriExec.step CriExec.interactive)
      (fun e s => CriExec.Possible CriExec.interactive e s ∧
        CriExec.Orderly CriExec.interactive e s) {} := .init rfl
  have hdocker : Reached DockerExec.Begun (DockerExec.step DockerExec.interactive)
      (fun e s => DockerExec.Possible DockerExec.interactive e s ∧ DockerExec.Orderly e s) {} :=
    .init rfl
  refine ⟨⟨(wellEnded_of_orderly _ DockerExec.interactive).1 _ (hcri.steps ?_), rfl⟩,
    (wellEnded_of_orderly CriExec.interactive _).2 _ (hdocker.steps ?_), by decide +kernel⟩
  · refine ⟨⟨rfl, trivial⟩, ⟨⟨rfl, nofun, fun _ => ⟨Nat.zero_lt_one, .inl nofun⟩⟩, trivial⟩,
      ⟨⟨_, _, rfl⟩, trivial⟩, ⟨⟨_, _, rfl⟩, trivial⟩, ⟨⟨rfl, nofun⟩, rfl, fun _ _ _ => rfl⟩,
      ⟨⟨_, rfl⟩, trivial⟩, ⟨rfl, trivial⟩,
      ⟨⟨rfl, nofun, fun _ => ⟨Nat.zero_lt_one, .inl nofun⟩⟩, trivial⟩, ⟨⟨_, _, rfl⟩, trivial⟩,
      ⟨⟨_, _, rfl⟩, trivial⟩, ⟨⟨rfl, nofun⟩, rfl, fun _ _ _ => rfl⟩, ⟨⟨_, rfl⟩, trivial⟩,
      ⟨rfl, trivial⟩, ⟨⟨rfl, nofun, nofun⟩, trivial⟩, ⟨⟨_, _, rfl⟩, trivial⟩, ⟨⟨_, _, rfl⟩, trivial⟩,
      ⟨⟨_, _, rfl⟩, trivial⟩, ⟨⟨rfl, nofun, fun _ => ⟨Nat.zero_lt_one, .inr rfl⟩⟩, trivial⟩,
      ⟨⟨_, _, rfl⟩, trivial⟩, ⟨⟨_, _, rfl⟩, trivial⟩, ⟨rfl, trivial⟩, ⟨⟨rfl, rfl⟩, trivial⟩,
      ⟨rfl, trivial⟩, trivial⟩
  · refine ⟨⟨rfl, trivial⟩, ⟨⟨_, rfl⟩, trivial⟩, ⟨⟨rfl, nofun, nofun, fun _ => by decide +kernel⟩, trivial⟩,
      ⟨⟨_, rfl⟩, trivial⟩, ⟨⟨_, rfl⟩, trivial⟩, ⟨⟨nofun, rfl⟩, trivial⟩, ⟨⟨_, rfl⟩, trivial⟩,
      ⟨⟨nofun, rfl, nofun⟩, trivial⟩, ⟨⟨rfl, nofun, nofun, fun _ => by decide +kernel⟩, trivial⟩,
      ⟨⟨_, rfl⟩, trivial⟩, ⟨⟨_, rfl⟩, trivial⟩, ⟨rfl, trivial⟩, ⟨rfl, trivial⟩, ⟨⟨_, rfl⟩, trivial⟩,
      ⟨rfl, trivial⟩, ⟨⟨rfl, by decide +kernel⟩, trivial⟩, ⟨rfl, trivial⟩, trivial⟩

/-- The command closes its stdin while its client writes to it. -/
def DockerExec.brokenPipe : List DockerExec.Event :=
  [.start [], .toClient 0, .select { clientIn := true }, .inTime, .keepAlive,
   .receive [[0, 97]] false, .select { runtimeOut := true }, .inTime, .keepAlive, .writeRaises, .close]

theorem broken_pipe_unsaid :
    Reached DockerExec.Begun (DockerExec.step DockerExec.interactive)
        (DockerExec.Possible DockerExec.interactive)
        (steps (DockerExec.step DockerExec.interactive) DockerExec.brokenPipe {}) ∧
      ¬ DockerExec.WellEnded
        (steps (DockerExec.step DockerExec.interactive) DockerExec.brokenPipe {}) := by
  have hbegun : Reached DockerExec.Begun (DockerExec.step DockerExec.interactive)
      (DockerExec.Possible DockerExec.interactive) {} := .init rfl
  refine ⟨hbegun.steps ⟨rfl, ⟨_, rfl⟩, ⟨rfl, nofun, nofun, nofun⟩, ⟨_, rfl⟩, ⟨_, rfl⟩, ⟨_, rfl⟩,
    ⟨rfl, nofun, fun _ => .inl nofun, nofun⟩, ⟨_, rfl⟩, ⟨_, rfl⟩, ⟨_, rfl⟩, rfl, trivial⟩, fun h => ?_⟩
  cases h.killed rfl rfl rfl

end Zun
