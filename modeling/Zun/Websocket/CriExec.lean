import Zun.Effect.Run
import Zun.Websocket.Channel

/-!
# A streamed exec on a CRI runtime

`CriExecStream` of `zun/websocket/exec_stream.py`.  The main loop passes frames between the client
and the runtime; what the client writes goes to the runtime through a queue of bounded size and a
thread of its own; the deadline is kept by a timer.

A step is one call of one of the threads, or something one of the sides does.  What the client
sends is read in any pieces.  Any call on a socket may raise.
-/

namespace Zun

open Effect Channel

namespace CriExec

/-- `STDIN_QUEUE`. -/
def stdinQueue : Nat := 64

structure Config where
  /-- The subprotocol of the runtime's connection, which is v4 when it names none. -/
  protocol : String
  /-- The command was given a stdin. -/
  stdin : Bool
  timeout : Option Nat
  /-- `[websocket_proxy] stream_buffer_limit`. -/
  streamBufferLimit : Nat
  dump : Body → Bytes

inductive Phase where
  | selecting
  | flushing (clientIn runtimeIn : Bool)
  /-- In `_keep_alive`. -/
  | pinging (clientIn runtimeIn : Bool)
  /-- At `if self.timed_out`. -/
  | checking (clientIn runtimeIn : Bool)
  | receiving (runtimeIn : Bool)
  /-- In the loop over the messages of one read. -/
  | relaying (messages : List Bytes) (closed runtimeIn : Bool)
  /-- In a `put` on the queue: the one with a timeout, or the one that holds the client up. -/
  | putting (held : Bool) (message : Bytes) (messages : List Bytes) (closed runtimeIn : Bool)
  /-- In `recv_data`. -/
  | reading
  /-- In `_to_client`, with a frame of the runtime. -/
  | passing (data : Bytes)
  /-- In `_end_with`. -/
  | ending (status : Bytes)
  | draining
  /-- In the `finally` of `run`. -/
  | closing
  | finished
deriving DecidableEq

inductive Writer where
  | getting
  | sending (message : Bytes)
  | ended
deriving DecidableEq

structure State where
  phase : Phase := .selecting
  client : Client := {}
  statusSeen : Bool := false
  timedOut : Bool := false
  /-- `_stdin`.  `none` is the sentinel that ends the writer. -/
  queue : List (Option Bytes) := []
  writer : Writer := .getting
  /-- What the runtime has sent and is not read. -/
  output : List Bytes := []
  /-- The runtime's connection has ended: it was closed, it has failed or it was aborted. -/
  runtimeEnded : Bool := false
deriving DecidableEq

inductive Event where
  | runtimeSends (data : Bytes)
  | runtimeEnds
  /-- `_expire`.  The connection ends some time after. -/
  | expire
  | select (out clientIn runtimeIn : Bool)
  | selectRaises
  | flush (k : Nat)
  | keepAlive
  | check
  | receive (messages : List Bytes) (closed : Bool)
  /-- The next turn of the loop over the messages. -/
  | next
  | put
  /-- The `put` with a timeout raises `queue.Full`. -/
  | putTimesOut
  | recvData
  /-- `recv_data` raises, or answers a close. -/
  | recvEnds
  | toClient (k : Nat)
  | endWith (k : Nat)
  /-- A call on the client's socket raises. -/
  | clientRaises (gone : Bool)
  | drain (k : Nat)
  | drained
  /-- `DRAIN_TIMEOUT` is over. -/
  | giveUp
  | close
  | get
  | sendBinary
  | sendBinaryRaises
deriving DecidableEq

/-- What `_from_client` makes of a message. -/
inductive Verdict where
  | skip
  | refuse
  | offer
deriving DecidableEq

section

variable (cfg : Config)

def fromClient : Bytes → Verdict
  | [] => .skip
  | c :: _ =>
      if c = close ∧ cfg.protocol ≠ v5 then .refuse
      else if (c = stdin ∨ c = close) ∧ cfg.stdin = false then .skip
      else .offer

def cannotCloseStdin : Bytes :=
  failure cfg.dump
    ("this node's container runtime cannot close stdin (it speaks " ++ cfg.protocol ++ ")")
    "BadRequest"

def endedUnsaid : Bytes :=
  failure cfg.dump
    "the container runtime ended the stream without saying how the command ended" internalError

def timeoutStatus : Bytes := timeout cfg.dump (cfg.timeout.getD 0)

/-- After the messages of the client, `if backend in ins`. -/
def Phase.toRuntime (runtimeIn : Bool) : Phase := if runtimeIn then .reading else .selecting

/-- What `_to_client` or `_end_with` was called with. -/
def Phase.frames : Phase → List Bytes
  | .passing data => [data]
  | .ending status => [status]
  | _ => []

/-- The loop over the messages of a read, and what comes after it. -/
def stepNext (s : State) : State :=
  match s.phase with
  | .relaying (m :: messages) closed runtimeIn =>
      match fromClient cfg m with
      | .skip => { s with phase := .relaying messages closed runtimeIn }
      | .refuse => { s with phase := .ending (cannotCloseStdin cfg) }
      | .offer => { s with phase := .putting false m messages closed runtimeIn }
  | .relaying [] true _ =>
      -- The client has left.  `end_command` aborts the runtime's connection.
      { s with phase := .draining, runtimeEnded := true,
               client := { s.client with connected := false } }
  | .relaying [] false runtimeIn => { s with phase := Phase.toRuntime runtimeIn }
  | _ => s

def stepCheck (s : State) : State :=
  match s.phase with
  | .checking clientIn runtimeIn =>
      if s.timedOut then { s with phase := .ending (timeoutStatus cfg) }
      else if clientIn then { s with phase := .receiving runtimeIn }
      else { s with phase := Phase.toRuntime runtimeIn }
  | _ => s

def stepPut (s : State) : State :=
  match s.phase with
  | .putting _ m messages closed runtimeIn =>
      { s with queue := s.queue ++ [some m], phase := .relaying messages closed runtimeIn }
  | _ => s

def stepPutTimesOut (s : State) : State :=
  match s.phase with
  | .putting _ m messages closed runtimeIn =>
      { s with phase := .putting true m messages closed runtimeIn }
  | _ => s

def stepRecvData (s : State) : State :=
  match s.output with
  | [] => s
  | data :: output =>
      { s with output, statusSeen := s.statusSeen || isStatus data, phase := .passing data }

def stepRecvEnds (s : State) : State :=
  if s.timedOut then { s with phase := .ending (timeoutStatus cfg) }
  else if s.statusSeen then { s with phase := .draining }
  else { s with phase := .ending (endedUnsaid cfg) }

/-- `_write_stdin`, at its `get`. -/
def stepGet (s : State) : State :=
  match s.queue with
  | [] => s
  | none :: queue => { s with queue, writer := .ended }
  | some m :: queue => { s with queue, writer := .sending m }

def step : Event → State → State
  | .runtimeSends data, s => { s with output := s.output ++ [data] }
  | .runtimeEnds, s => { s with runtimeEnded := true }
  | .expire, s => { s with timedOut := true }
  | .select out clientIn runtimeIn, s =>
      { s with phase := if out then .flushing clientIn runtimeIn else .pinging clientIn runtimeIn }
  | .selectRaises, s =>
      { s with phase := if s.timedOut then .pinging false false else .closing }
  | .flush k, s =>
      match s.phase with
      | .flushing clientIn runtimeIn =>
          { s with client := s.client.sendFrames [] k, phase := .pinging clientIn runtimeIn }
      | _ => s
  | .keepAlive, s =>
      match s.phase with
      | .pinging clientIn runtimeIn => { s with phase := .checking clientIn runtimeIn }
      | _ => s
  | .check, s => stepCheck cfg s
  | .receive messages closed, s =>
      match s.phase with
      | .receiving runtimeIn => { s with phase := .relaying messages closed runtimeIn }
      | _ => s
  | .next, s => stepNext cfg s
  | .put, s => stepPut s
  | .putTimesOut, s => stepPutTimesOut s
  | .recvData, s => stepRecvData s
  | .recvEnds, s => stepRecvEnds cfg s
  | .toClient k, s =>
      { s with client := s.client.sendFrames s.phase.frames k, phase := .selecting }
  | .endWith k, s =>
      { s with client := s.client.sendFrames s.phase.frames k, phase := .draining }
  | .clientRaises gone, s =>
      { s with client := s.client.raises s.phase.frames gone, phase := .closing }
  | .drain k, s => { s with client := s.client.sendFrames [] k }
  | .drained, s | .giveUp, s => { s with phase := .closing }
  | .close, s =>
      { s with queue := if s.queue.length < stdinQueue then s.queue ++ [none] else s.queue,
               runtimeEnded := true, phase := .finished }
  | .get, s => stepGet s
  | .sendBinary, s => { s with writer := .getting }
  | .sendBinaryRaises, s => { s with writer := .ended }

end

/-- The main loop is at a call on the client's socket. -/
def Phase.OnClient : Phase → Prop
  | .flushing .. | .pinging .. | .receiving _ | .passing _ | .ending _ | .draining => True
  | _ => False

/-- The runtime has output to be read, or its end. -/
def State.ToRead (s : State) : Prop := s.output ≠ [] ∨ s.runtimeEnded = true

/-- The client has room for it. -/
def State.Room (cfg : Config) (s : State) : Prop := s.client.pending < cfg.streamBufferLimit

/-- What can happen. -/
def Possible (cfg : Config) : Event → State → Prop
  | .runtimeSends _, s | .runtimeEnds, s => s.runtimeEnded = false
  | .expire, s => cfg.timeout.getD 0 ≠ 0 ∧ s.timedOut = false ∧ s.phase ≠ .finished
  | .select out _ runtimeIn, s => s.phase = .selecting ∧ (out = true → s.client.parts ≠ []) ∧
      (runtimeIn = true → s.Room cfg ∧ s.ToRead)
  | .selectRaises, s => s.phase = .selecting
  | .flush _, s => ∃ clientIn runtimeIn, s.phase = .flushing clientIn runtimeIn
  | .keepAlive, s => ∃ clientIn runtimeIn, s.phase = .pinging clientIn runtimeIn
  | .check, s => ∃ clientIn runtimeIn, s.phase = .checking clientIn runtimeIn
  | .receive _ _, s => ∃ runtimeIn, s.phase = .receiving runtimeIn
  | .next, s => ∃ messages closed runtimeIn, s.phase = .relaying messages closed runtimeIn
  | .put, s => s.queue.length < stdinQueue ∧
      ∃ held m messages closed runtimeIn, s.phase = .putting held m messages closed runtimeIn
  | .putTimesOut, s => stdinQueue ≤ s.queue.length ∧
      ∃ m messages closed runtimeIn, s.phase = .putting false m messages closed runtimeIn
  | .recvData, s => s.phase = .reading ∧ s.output ≠ []
  | .recvEnds, s => s.phase = .reading
  | .toClient _, s => ∃ data, s.phase = .passing data
  | .endWith _, s => ∃ status, s.phase = .ending status
  | .clientRaises _, s => s.phase.OnClient
  | .drain _, s => s.phase = .draining
  | .drained, s => s.phase = .draining ∧ s.client.parts = []
  | .giveUp, s => s.phase = .draining ∧ s.client.parts ≠ []
  | .close, s => s.phase = .closing
  | .get, s => s.writer = .getting ∧ s.queue ≠ []
  | .sendBinary, s | .sendBinaryRaises, s => ∃ m, s.writer = .sending m

/-- The session begins. -/
def Begun (s : State) : Prop := s = {}

variable {cfg : Config} {s : State}

/-! ## The stdin queue -/

/-- The main loop waits on the queue. -/
def State.Waiting (s : State) : Prop := stdinQueue ≤ s.queue.length ∧
  ∃ held m messages closed runtimeIn, s.phase = .putting held m messages closed runtimeIn

/-- Unread stdin stops no output. -/
structure Unstopped (cfg : Config) (s : State) : Prop where
  output : s.Waiting → s.ToRead → ¬ s.Room cfg
  writer : s.Waiting → s.writer ≠ .ended

/-- How many of some messages go to the runtime. -/
def offered (cfg : Config) (messages : List Bytes) : Nat :=
  messages.countP fun m => fromClient cfg m = .offer

/-- A read from the client brings no more for the runtime than the queue has room for. -/
def Paced (cfg : Config) : Event → State → Prop
  | .receive messages _, s => s.queue.length + offered cfg messages ≤ stdinQueue
  | _, _ => True

/-- The queue has room for what is left of a read. -/
def Fits (cfg : Config) (s : State) : Prop :=
  match s.phase with
  | .relaying messages _ _ => s.queue.length + offered cfg messages ≤ stdinQueue
  | .putting _ _ messages _ _ => s.queue.length + offered cfg messages < stdinQueue
  | _ => True

theorem Fits.of_phase {s' : State} (h : Fits cfg s) (hphase : s'.phase = s.phase)
    (hqueue : s'.queue.length ≤ s.queue.length) : Fits cfg s' := by
  unfold Fits at h ⊢
  rw [hphase]
  split
  case h_1 hs => rw [hs] at h; exact Nat.le_trans (Nat.add_le_add_right hqueue _) h
  case h_2 hs => rw [hs] at h; exact Nat.lt_of_le_of_lt (Nat.add_le_add_right hqueue _) h
  case h_3 => trivial

theorem fits_toRuntime {s : State} {runtimeIn : Bool} (h : s.phase = Phase.toRuntime runtimeIn) :
    Fits cfg s := by
  unfold Fits
  rw [h]
  cases runtimeIn <;> trivial

theorem fits_next (h : Fits cfg s)
    (hpossible : ∃ messages closed runtimeIn, s.phase = .relaying messages closed runtimeIn) :
    Fits cfg (stepNext cfg s) := by
  obtain ⟨messages, closed, runtimeIn, hphase⟩ := hpossible
  simp only [Fits, hphase] at h
  cases messages with
  | nil =>
      cases closed with
      | true => simp [stepNext, hphase, Fits]
      | false =>
          simp only [stepNext, hphase]
          exact fits_toRuntime rfl
  | cons m messages =>
      simp only [offered, List.countP_cons] at h
      simp only [stepNext, hphase]
      split
      case h_1 => exact Nat.le_trans (Nat.add_le_add_left (Nat.le_add_right _ _) _) h
      case h_2 => trivial
      case h_3 hm =>
        simp only [hm, decide_true, if_true] at h
        exact h

theorem fits_step (e : Event) (h : Fits cfg s) (hpossible : Possible cfg e s) (hpaced : Paced cfg e s) :
    Fits cfg (step cfg e s) := by
  cases e with
  | runtimeSends data => exact h.of_phase rfl (Nat.le_refl _)
  | runtimeEnds => exact h.of_phase rfl (Nat.le_refl _)
  | expire => exact h.of_phase rfl (Nat.le_refl _)
  | select out clientIn runtimeIn => cases out <;> trivial
  | selectRaises =>
      cases ht : s.timedOut <;> simp [step, Fits, ht]
  | flush k =>
      obtain ⟨clientIn, runtimeIn, hphase⟩ := hpossible
      simp [step, Fits, hphase]
  | keepAlive =>
      obtain ⟨clientIn, runtimeIn, hphase⟩ := hpossible
      simp [step, Fits, hphase]
  | check =>
      obtain ⟨clientIn, runtimeIn, hphase⟩ := hpossible
      simp only [step, stepCheck, hphase]
      split
      · trivial
      · split
        · trivial
        · exact fits_toRuntime rfl
  | receive messages closed =>
      obtain ⟨runtimeIn, hphase⟩ := hpossible
      simp only [step, hphase]
      exact hpaced
  | next => exact fits_next h hpossible
  | put =>
      obtain ⟨-, held, m, messages, closed, runtimeIn, hphase⟩ := hpossible
      simp only [Fits, hphase] at h
      simp only [step, stepPut, hphase, Fits, List.length_append, List.length_singleton]
      omega
  | putTimesOut =>
      obtain ⟨-, m, messages, closed, runtimeIn, hphase⟩ := hpossible
      simp only [Fits, hphase] at h
      simp only [step, stepPutTimesOut, hphase, Fits]
      exact h
  | recvData =>
      obtain ⟨hphase, -⟩ := hpossible
      simp only [step, stepRecvData]
      split
      · exact h
      · trivial
  | recvEnds =>
      simp only [step, stepRecvEnds]
      split
      · trivial
      · split <;> trivial
  | toClient k => trivial
  | endWith k => trivial
  | clientRaises gone => trivial
  | drain k => exact h.of_phase rfl (Nat.le_refl _)
  | drained => trivial
  | giveUp => trivial
  | close => trivial
  | get =>
      simp only [step, stepGet]
      split
      case h_1 => exact h
      case h_2 rest hq => exact h.of_phase rfl (by simp [hq])
      case h_3 m rest hq => exact h.of_phase rfl (by simp [hq])
  | sendBinary => exact h.of_phase rfl (Nat.le_refl _)
  | sendBinaryRaises => exact h.of_phase rfl (Nat.le_refl _)

theorem Fits.not_waiting (h : Fits cfg s) : ¬ s.Waiting := by
  rintro ⟨hfull, held, m, messages, closed, runtimeIn, hphase⟩
  simp only [Fits, hphase] at h
  omega

/-- In every run whose reads from the client fit the queue, the main loop never waits on it. -/
theorem unstopped_of_paced (cfg : Config) (s : State)
    (h : Reached Begun (step cfg) (fun e s => Possible cfg e s ∧ Paced cfg e s) s) :
    Unstopped cfg s := by
  have hfits : Fits cfg s := by
    refine Reached.invariant h (fun s hs => ?_) fun e s hok hs => fits_step e hs hok.1 hok.2
    cases hs
    trivial
  exact ⟨fun hwaiting => absurd hwaiting hfits.not_waiting,
    fun hwaiting => absurd hwaiting hfits.not_waiting⟩

/-- A runtime that speaks v5, and a command that has a stdin and a deadline. -/
def interactive : Config :=
  { protocol := v5, stdin := true, timeout := some 10, streamBufferLimit := 1, dump := fun _ => [] }

/-- The client writes one frame, which the runtime takes, while there is output to read. -/
def written : List Event :=
  [.runtimeSends [1, 104], .select false true true, .keepAlive, .check, .receive [[0, 97]] false,
   .next, .put, .get, .sendBinary, .next, .recvData, .toClient 1]

theorem unstopped_written : Unstopped interactive (steps (step interactive) written {}) ∧
    (steps (step interactive) written {}).client.taken = [[1, 104]] := by
  have hbegun : Reached Begun (step interactive)
      (fun e s => Possible interactive e s ∧ Paced interactive e s) {} := .init rfl
  have hfits : 0 + offered interactive [[0, 97]] ≤ stdinQueue := by decide
  refine ⟨unstopped_of_paced interactive _ (hbegun.steps ?_), rfl⟩
  refine ⟨⟨rfl, trivial⟩, ⟨⟨rfl, nofun, fun _ => ⟨Nat.zero_lt_one, .inl nofun⟩⟩, trivial⟩,
    ⟨⟨_, _, rfl⟩, trivial⟩, ⟨⟨_, _, rfl⟩, trivial⟩, ⟨⟨_, rfl⟩, hfits⟩, ⟨⟨_, _, _, rfl⟩, trivial⟩,
    ⟨⟨by decide, _, _, _, _, _, rfl⟩, trivial⟩, ⟨⟨rfl, nofun⟩, trivial⟩, ⟨⟨_, rfl⟩, trivial⟩,
    ⟨⟨_, _, _, rfl⟩, trivial⟩, ⟨⟨rfl, nofun⟩, trivial⟩, ⟨⟨_, rfl⟩, trivial⟩, trivial⟩

/-- The main loop puts on the queue what it has room for. -/
theorem reached_fill {m : Bytes} {closed runtimeIn : Bool} (n : Nat) (rest : List Bytes)
    (hm : fromClient cfg m = .offer) (h : Reached Begun (step cfg) (Possible cfg) s)
    (hphase : s.phase = .relaying (List.replicate n m ++ rest) closed runtimeIn)
    (hroom : s.queue.length + n ≤ stdinQueue) :
    Reached Begun (step cfg) (Possible cfg)
      { s with queue := s.queue ++ List.replicate n (some m),
               phase := .relaying rest closed runtimeIn } := by
  induction n generalizing s with
  | zero =>
      rw [List.replicate_zero, List.append_nil]
      rw [List.replicate_zero, List.nil_append] at hphase
      rw [← hphase]
      exact h
  | succ n ih =>
      have hnext : step cfg .next s =
          { s with phase := .putting false m (List.replicate n m ++ rest) closed runtimeIn } := by
        simp [step, stepNext, hphase, List.replicate_succ, hm]
      have h' := h.step Event.next ⟨_, _, _, hphase⟩
      rw [hnext] at h'
      have hput := h'.step Event.put ⟨by show s.queue.length < _; omega, _, _, _, _, _, rfl⟩
      have hfill := ih hput rfl (by simp only [step, stepPut, List.length_append, List.length_singleton]; omega)
      simpa [step, stepPut, List.replicate_succ] using hfill

/-- The client writes 66 frames at once. -/
def flood : List Event :=
  [.select false true false, .keepAlive, .check, .receive (List.replicate 66 [0]) false]

/-- A command that reads nothing of its stdin, and writes. -/
def unread : State :=
  { phase := .putting false [0] [] false false, queue := List.replicate 64 (some [0]),
    writer := .sending [0], output := [[1, 104]] }

theorem unread_stdin_stops_output :
    Reached Begun (step interactive) (Possible interactive) unread ∧ ¬ Unstopped interactive unread := by
  have hbegun : Reached Begun (step interactive) (Possible interactive) {} := .init rfl
  have hallowed : Allowed (step interactive) (Possible interactive) flood {} :=
    ⟨⟨rfl, nofun, nofun⟩, ⟨_, _, rfl⟩, ⟨_, _, rfl⟩, ⟨_, rfl⟩, trivial⟩
  have hone := reached_fill 1 (List.replicate 65 [0]) rfl (hbegun.steps hallowed) rfl (by decide)
  -- The writer takes the first frame, which the runtime does not.
  have htaken := hone.step Event.get ⟨rfl, nofun⟩
  have hall := reached_fill 64 [[0]] rfl htaken rfl (by decide)
  have hputting := hall.step Event.next ⟨_, _, _, rfl⟩
  refine ⟨hputting.step (Event.runtimeSends [1, 104]) rfl, fun h => ?_⟩
  exact h.output ⟨by decide, _, _, _, _, _, rfl⟩ (.inl nofun) Nat.zero_lt_one

/-! ## How a session ends -/

/-- `select` raises only once the deadline has passed.  The runtime sends nothing after its Status;
from there on the deadline does not pass, and the client asks for nothing that is refused, until the
runtime's end is read; and no Status is read once the deadline has passed.  A call on the client's
socket raises when its connection has failed, and the client takes what is left for it. -/
def Orderly (cfg : Config) : Event → State → Prop
  | .selectRaises, s => s.timedOut = true
  | .expire, s => s.statusSeen = true → s.phase = .draining ∨ s.phase = .closing
  | .recvData, s => s.statusSeen = false ∧
      ∀ data ∈ s.output.head?, isStatus data = true → s.timedOut = false
  | .next, s => ∀ m messages closed runtimeIn, s.phase = .relaying (m :: messages) closed runtimeIn →
      fromClient cfg m = .refuse → s.statusSeen = false
  | .clientRaises gone, _ => gone = true
  | .giveUp, _ => False
  | _, _ => True

/-- While the loop goes on: a Status was passed on, the last frame of all, and the deadline has not
passed; or none was. -/
def Said (s : State) : Prop :=
  (s.statusSeen = true ∧ Told s.client.handed ∧ s.timedOut = false) ∨
    (s.statusSeen = false ∧ Quiet s.client.handed)

/-- What the client was told, by where the main loop is. -/
def Telling (s : State) : Prop :=
  match s.phase with
  | .passing data => Quiet s.client.handed ∧ s.statusSeen = isStatus data ∧
      (isStatus data = true → s.timedOut = false)
  | .ending status => Quiet s.client.handed ∧ isStatus status = true
  | .draining => EndsWithStatus s.client.handed ∧ (s.client.connected = true → Told s.client.handed)
  | .closing | .finished => Ended s.client
  | _ => Said s

/-- In the loop, at no frame. -/
def Phase.Going : Phase → Prop
  | .passing _ | .ending _ | .draining | .closing | .finished => False
  | _ => True

theorem telling_going (h : s.phase.Going) : Telling s = Said s := by
  unfold Telling
  cases hphase : s.phase <;> simp only [hphase, Phase.Going] at h ⊢

theorem going_toRuntime (runtimeIn : Bool) : (Phase.toRuntime runtimeIn).Going := by
  cases runtimeIn <;> trivial

/-- A step that says nothing, in the loop. -/
theorem Telling.goes {s' : State} (h : Telling s) (hgoing : s.phase.Going) (hgoing' : s'.phase.Going)
    (hsaid : Said s → Said s') : Telling s' := by
  rw [telling_going hgoing]  at h
  rw [telling_going hgoing']
  exact hsaid h

theorem Said.quiet (h : Said s) (htimed : s.timedOut = true) : Quiet s.client.handed := by
  rcases h with ⟨-, -, hnot⟩ | ⟨-, hquiet⟩
  · cases htimed.symm.trans hnot
  · exact hquiet

theorem Said.quiet_of_unseen (h : Said s) (hunseen : s.statusSeen = false) : Quiet s.client.handed := by
  rcases h with ⟨hseen, -⟩ | ⟨-, hquiet⟩
  · cases hunseen.symm.trans hseen
  · exact hquiet

theorem Said.endsWithStatus (h : Said s) : EndsWithStatus s.client.handed := by
  rcases h with ⟨-, htold, -⟩ | ⟨-, hquiet⟩
  · exact htold.endsWithStatus
  · exact hquiet.endsWithStatus

theorem telling_next (h : Telling s) (horderly : Orderly cfg .next s)
    (hpossible : ∃ messages closed runtimeIn, s.phase = .relaying messages closed runtimeIn) :
    Telling (stepNext cfg s) := by
  obtain ⟨messages, closed, runtimeIn, hphase⟩ := hpossible
  have hgoing : s.phase.Going := by rw [hphase]; trivial
  have hsaid : Said s := telling_going hgoing ▸ h
  cases messages with
  | nil =>
      cases closed with
      | true =>
          simp only [stepNext, hphase, Telling]
          exact ⟨hsaid.endsWithStatus, nofun⟩
      | false =>
          simp only [stepNext, hphase]
          exact h.goes hgoing (going_toRuntime runtimeIn) id
  | cons m messages =>
      simp only [stepNext, hphase]
      split
      case h_1 => exact h.goes hgoing trivial id
      case h_2 hm => exact ⟨hsaid.quiet_of_unseen (horderly _ _ _ _ hphase hm), rfl⟩
      case h_3 => exact h.goes hgoing trivial id

/-- A call on the client's socket raises, and its connection has failed. -/
theorem ended_of_raises {frames : List Bytes} (c : Client) (h : EndsWithStatus (c.handed ++ frames)) :
    Ended (c.raises frames true) := by
  refine ⟨?_, fun hconnected => ?_⟩
  · rw [Client.handed_raises]
    exact h
  · rw [Client.connected_raises] at hconnected
    cases hconnected

theorem telling_clientRaises (h : Telling s) (hpossible : s.phase.OnClient) :
    Ended (s.client.raises s.phase.frames true) := by
  refine ended_of_raises _ ?_
  unfold Telling at h
  cases hphase : s.phase <;> simp only [hphase, Phase.OnClient, Phase.frames, List.append_nil] at *
  case passing data =>
    obtain ⟨hquiet, -, -⟩ := h
    cases hdata : isStatus data with
    | true => exact (hquiet.told hdata).endsWithStatus
    | false => exact (hquiet.snoc hdata).endsWithStatus
  case ending status => exact (h.1.told h.2).endsWithStatus
  case draining => exact h.1
  all_goals exact h.endsWithStatus

theorem telling_expire (h : Telling s)
    (horderly : s.statusSeen = true → s.phase = .draining ∨ s.phase = .closing) :
    Telling { s with timedOut := true } := by
  unfold Telling at h ⊢
  have hsaid : Said s → s.phase.Going → Said { s with timedOut := true } := by
    intro hsaid hgoing
    rcases hsaid with ⟨hseen, -⟩ | ⟨hunseen, hquiet⟩
    · rcases horderly hseen with hphase | hphase <;> simp [hphase, Phase.Going] at hgoing
    · exact .inr ⟨hunseen, hquiet⟩
  cases hphase : s.phase <;> simp only [hphase] at h horderly hsaid ⊢
  case passing data =>
    refine ⟨h.1, h.2.1, fun hdata => ?_⟩
    rcases horderly (h.2.1.trans hdata) with hno | hno <;> cases hno
  case ending status => exact h
  case draining => exact h
  case closing => exact h
  case finished => exact h
  all_goals exact hsaid h trivial

theorem telling_step (e : Event) (h : Telling s) (hpossible : Possible cfg e s)
    (horderly : Orderly cfg e s) : Telling (step cfg e s) := by
  cases e with
  | runtimeSends data => exact h
  | runtimeEnds => exact h
  | expire => exact telling_expire h horderly
  | select out clientIn runtimeIn =>
      refine h.goes (by rw [hpossible.1]; trivial) ?_ id
      cases out <;> trivial
  | selectRaises =>
      have hphase : s.phase = .selecting := hpossible
      have htimed : s.timedOut = true := horderly
      refine h.goes (by rw [hphase]; trivial) ?_ id
      simp only [step, htimed, if_true]
      trivial
  | flush k =>
      obtain ⟨clientIn, runtimeIn, hphase⟩ := hpossible
      simp only [step, hphase]
      refine h.goes (by rw [hphase]; trivial) trivial fun hsaid => ?_
      unfold Said
      simp only [Client.handed_sendFrames, List.append_nil]
      exact hsaid
  | keepAlive =>
      obtain ⟨clientIn, runtimeIn, hphase⟩ := hpossible
      simp only [step, hphase]
      exact h.goes (by rw [hphase]; trivial) trivial id
  | check =>
      obtain ⟨clientIn, runtimeIn, hphase⟩ := hpossible
      have hgoing : s.phase.Going := by rw [hphase]; trivial
      simp only [step, stepCheck, hphase]
      split
      case isTrue htimed => exact ⟨(telling_going hgoing ▸ h : Said s).quiet htimed, rfl⟩
      case isFalse =>
        split
        · exact h.goes hgoing trivial id
        · exact h.goes hgoing (going_toRuntime runtimeIn) id
  | receive messages closed =>
      obtain ⟨runtimeIn, hphase⟩ := hpossible
      simp only [step, hphase]
      exact h.goes (by rw [hphase]; trivial) trivial id
  | next => exact telling_next h horderly hpossible
  | put =>
      obtain ⟨-, held, m, messages, closed, runtimeIn, hphase⟩ := hpossible
      simp only [step, stepPut, hphase]
      exact h.goes (by rw [hphase]; trivial) trivial id
  | putTimesOut =>
      obtain ⟨-, m, messages, closed, runtimeIn, hphase⟩ := hpossible
      simp only [step, stepPutTimesOut, hphase]
      exact h.goes (by rw [hphase]; trivial) trivial id
  | recvData =>
      obtain ⟨hphase, -⟩ := hpossible
      have hsaid : Said s := telling_going (by rw [hphase]; trivial) ▸ h
      simp only [step, stepRecvData]
      split
      case h_1 => exact h
      case h_2 data output houtput =>
        refine ⟨hsaid.quiet_of_unseen horderly.1, ?_, ?_⟩
        · show (s.statusSeen || isStatus data) = _
          rw [horderly.1, Bool.false_or]
        · exact horderly.2 data (by rw [houtput]; rfl)
  | recvEnds =>
      have hphase : s.phase = .reading := hpossible
      have hsaid : Said s := telling_going (by rw [hphase]; trivial) ▸ h
      simp only [step, stepRecvEnds]
      split
      case isTrue htimed => exact ⟨hsaid.quiet htimed, rfl⟩
      case isFalse =>
        split
        case isTrue hseen =>
          rcases hsaid with ⟨-, htold, -⟩ | ⟨hunseen, -⟩
          · exact ⟨htold.endsWithStatus, fun _ => htold⟩
          · cases hseen.symm.trans hunseen
        case isFalse hunseen => exact ⟨hsaid.quiet_of_unseen (Bool.not_eq_true _ ▸ hunseen), rfl⟩
  | toClient k =>
      obtain ⟨data, hphase⟩ := hpossible
      simp only [Telling, hphase] at h
      obtain ⟨hquiet, hseen, htimed⟩ := h
      simp only [step, hphase, Phase.frames]
      show Said _
      simp only [Said, Client.handed_sendFrames]
      cases hdata : isStatus data with
      | true => exact .inl ⟨hseen.trans hdata, hquiet.told hdata, htimed hdata⟩
      | false => exact .inr ⟨hseen.trans hdata, hquiet.snoc hdata⟩
  | endWith k =>
      obtain ⟨status, hphase⟩ := hpossible
      simp only [Telling, hphase] at h
      have htold := h.1.told h.2
      simp only [step, hphase, Phase.frames, Telling, Client.handed_sendFrames]
      exact ⟨htold.endsWithStatus, fun _ => htold⟩
  | clientRaises gone =>
      cases show gone = true from horderly
      exact telling_clientRaises h hpossible
  | drain k =>
      have hphase : s.phase = .draining := hpossible
      simp only [Telling, hphase] at h
      simp only [step, Telling, hphase, Client.handed_sendFrames, List.append_nil,
        Client.connected_sendFrames]
      exact h
  | drained =>
      obtain ⟨hphase, hparts⟩ := hpossible
      simp only [Telling, hphase] at h
      have hall : s.client.handed = s.client.taken := by
        rw [Client.handed, hparts, List.append_nil]
      exact ⟨h.1, fun hconnected => hall ▸ (h.2 hconnected).exists_mem⟩
  | giveUp => exact horderly.elim
  | close =>
      have hphase : s.phase = .closing := hpossible
      simp only [Telling, hphase] at h
      exact h
  | get =>
      simp only [step, stepGet]
      split <;> exact h
  | sendBinary => exact h
  | sendBinaryRaises => exact h

/-- In every orderly run the client is told once how the command ended, and nothing after. -/
theorem telling_of_orderly
    (h : Reached Begun (step cfg) (fun e s => Possible cfg e s ∧ Orderly cfg e s) s) : Telling s := by
  refine Reached.invariant h (fun s hs => ?_) fun e s hok hs => telling_step e hs hok.1 hok.2
  cases hs
  exact .inr ⟨rfl, quiet_nil⟩

theorem Telling.endsWithStatus (h : Telling s) : EndsWithStatus s.client.handed := by
  unfold Telling at h
  cases hphase : s.phase <;> simp only [hphase] at h
  case passing data => exact h.1.endsWithStatus
  case ending status => exact h.1.endsWithStatus
  case draining => exact h.1
  case closing => exact h.last
  case finished => exact h.last
  all_goals exact h.endsWithStatus

end CriExec

end Zun
