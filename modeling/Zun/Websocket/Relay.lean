import Zun.Effect.Run

/-!
# The relay of a console session

`do_websocket_proxy`, `_handle_ins_outs` and `_send_buffer` of `zun/websocket/websocketproxy.py`.
The relay waits in `select`, and then handles what is ready in a fixed order: it sends to the
client, reads from the client, sends to the target and reads from the target.

What the client has sent is unread, in `tqueue`, in the hand of `_send_buffer` or with the target.
What the target has sent is unread, in `cqueue`, in the buffer of websockify or with the client.
websockify takes all frames it is given, sends what the client's socket takes and keeps the rest.

The sides send and close at any moment.  A step is one call on a socket.
-/

namespace Zun

open Effect

namespace Relay

abbrev Bytes := List UInt8

/-- What `select` says, less what was handled. -/
structure Ready where
  clientOut : Bool := false
  clientIn : Bool := false
  targetOut : Bool := false
  targetIn : Bool := false
deriving DecidableEq

inductive Phase where
  /-- In `_handle_ins_outs`, or in `select` when nothing is left. -/
  | handling (r : Ready)
  /-- In `_send_buffer`, with what is left of a payload. -/
  | sending (rest : Bytes) (targetIn : Bool)
  /-- An exception has ended the relay, with what was in its hand. -/
  | ended (lost : Bytes)
deriving DecidableEq

structure State where
  phase : Phase := .handling {}
  /-- The messages of the client that are not read. -/
  fromClient : List Bytes := []
  /-- The client has closed in order.  The close comes after its messages. -/
  clientClosed : Bool := false
  fromTarget : List Bytes := []
  targetClosed : Bool := false
  tqueue : List Bytes := []
  cqueue : List Bytes := []
  /-- What websockify has not sent yet. -/
  pending : Bytes := []
  /-- All that the client has sent. -/
  clientSent : Bytes := []
  targetSent : Bytes := []
  /-- What the target has been handed. -/
  toTarget : Bytes := []
  toClient : Bytes := []
  /-- The connection of the client has failed. -/
  clientGone : Bool := false
  targetGone : Bool := false
deriving DecidableEq

inductive Event where
  | clientSends (m : Bytes)
  | clientCloses
  | targetSends (m : Bytes)
  | targetCloses
  | select (r : Ready)
  /-- `select` raises: one of the sockets is none any more. -/
  | selectError
  /-- `send_frames`, of which the client's socket takes so many bytes. -/
  | flush (k : Nat)
  | flushFails
  /-- `recv_frames`, with so many messages, and with the close or without. -/
  | receive (n : Nat) (close : Bool)
  | receiveFails
  /-- The next turn of the loop over `tqueue`. -/
  | nextPayload
  /-- `target.send` takes so many bytes. -/
  | send (n : Nat)
  /-- `target.send` answers `EAGAIN`. -/
  | again
  | sendFails
  | recv
  | recvFails
deriving DecidableEq

/-- What is left to handle. -/
def State.left (s : State) : Ready :=
  match s.phase with
  | .handling r => r
  | .sending _ targetIn => { targetOut := true, targetIn }
  | .ended _ => {}

def Phase.inHand : Phase → Bytes
  | .handling _ => []
  | .sending rest _ | .ended rest => rest

def step : Event → State → State
  | .clientSends m, s =>
      { s with fromClient := s.fromClient ++ [m], clientSent := s.clientSent ++ m }
  | .clientCloses, s => { s with clientClosed := true }
  | .targetSends m, s =>
      { s with fromTarget := s.fromTarget ++ [m], targetSent := s.targetSent ++ m }
  | .targetCloses, s => { s with targetClosed := true }
  | .select r, s => { s with phase := .handling r }
  | .selectError, s => { s with phase := .ended [], clientGone := true, targetGone := true }
  | .flush k, s =>
      let all := s.pending ++ s.cqueue.flatten
      { s with toClient := s.toClient ++ all.take k, pending := all.drop k, cqueue := [],
               phase := .handling { s.left with clientOut := false } }
  | .flushFails, s => { s with phase := .ended [], clientGone := true }
  | .receive n close, s =>
      { s with tqueue := s.tqueue ++ s.fromClient.take n, fromClient := s.fromClient.drop n,
               phase := if close then .ended [] else .handling { s.left with clientIn := false } }
  | .receiveFails, s => { s with phase := .ended [], clientGone := true }
  | .nextPayload, s =>
      match s.tqueue with
      | [] => { s with phase := .handling { s.left with targetOut := false } }
      | [] :: rest => { s with tqueue := rest }
      | payload :: rest => { s with tqueue := rest, phase := .sending payload s.left.targetIn }
  | .send n, s =>
      let rest := s.phase.inHand.drop n
      { s with toTarget := s.toTarget ++ s.phase.inHand.take n,
               phase := if rest = [] then .handling s.left else .sending rest s.left.targetIn }
  -- What is left is to go back to the head of `tqueue`, which is a list and has no `appendleft`.
  | .again, s => { s with phase := .ended s.phase.inHand }
  | .sendFails, s => { s with phase := .ended s.phase.inHand, targetGone := true }
  | .recv, s =>
      match s.fromTarget with
      | [] => { s with phase := .ended [] }
      | m :: rest =>
          -- An empty message is taken for the end.
          if m = [] then { s with fromTarget := rest, phase := .ended [] }
          else { s with fromTarget := rest, cqueue := s.cqueue ++ [m],
                        phase := .handling { s.left with targetIn := false } }
  | .recvFails, s => { s with phase := .ended [], targetGone := true }

/-- The relay has ended. -/
def State.over (s : State) : Prop := ∃ lost, s.phase = .ended lost

/-- The relay is at a call of `_handle_ins_outs`. -/
def State.At (s : State) (p : Ready → Prop) : Prop := ∃ r, s.phase = .handling r ∧ p r

/-- What can happen. -/
def Possible : Event → State → Prop
  | .clientSends _, s | .clientCloses, s =>
      ¬ s.over ∧ s.clientClosed = false ∧ s.clientGone = false
  | .targetSends _, s | .targetCloses, s =>
      ¬ s.over ∧ s.targetClosed = false ∧ s.targetGone = false
  | .select r, s => s.phase = .handling {} ∧
      (r.clientOut = true → s.cqueue ≠ [] ∨ s.pending ≠ []) ∧ (r.targetOut = true → s.tqueue ≠ [])
  | .selectError, s => s.phase = .handling {}
  | .flush _, s | .flushFails, s => s.At fun r => r.clientOut = true
  | .receive n close, s => (s.At fun r => r.clientOut = false ∧ r.clientIn = true) ∧
      n ≤ s.fromClient.length ∧ (close = true → s.clientClosed = true ∧ n = s.fromClient.length)
  | .receiveFails, s => (s.At fun r => r.clientOut = false ∧ r.clientIn = true) ∧
      s.clientClosed = false
  | .nextPayload, s =>
      s.At fun r => r.clientOut = false ∧ r.clientIn = false ∧ r.targetOut = true
  | .send n, s => 0 < n ∧ ∃ rest targetIn, s.phase = .sending rest targetIn
  | .again, s | .sendFails, s => ∃ rest targetIn, s.phase = .sending rest targetIn
  | .recv, s => (s.At fun r => r = { targetIn := true }) ∧
      (s.fromTarget = [] → s.targetClosed = true)
  | .recvFails, s => (s.At fun r => r = { targetIn := true }) ∧ s.targetClosed = false

/-- The relay begins. -/
def Begun (s : State) : Prop := s = {}

/-- Nothing of the client's is on its way. -/
def State.ClientDrained (s : State) : Prop := s.fromClient.flatten = [] ∧ s.tqueue.flatten = []

/-- Nothing of the target's is on its way. -/
def State.TargetDrained (s : State) : Prop :=
  s.fromTarget.flatten = [] ∧ s.cqueue.flatten = [] ∧ s.pending = []

/-- A close is read when nothing of the side that closes is on its way; no send to the target
answers `EAGAIN`, and the target sends no empty message; and a send that fails does not fail on a
side that has closed and has something on its way. -/
def Orderly : Event → State → Prop
  | .receive _ true, s => s.ClientDrained
  | .recv, s =>
      match s.fromTarget with
      | [] => s.TargetDrained
      | m :: _ => m ≠ []
  | .again, _ => False
  | .sendFails, s => s.targetClosed = true → s.TargetDrained
  | .flushFails, s => s.clientClosed = true → s.ClientDrained
  | _, _ => True

/-- Nothing is reordered or made up, and nothing of a side that has closed is lost while the other
is connected. -/
structure Faithful (s : State) : Prop where
  toTarget : s.toTarget <+: s.clientSent
  toClient : s.toClient <+: s.targetSent
  fromClient : s.over → s.clientClosed = true → s.targetClosed = false → s.targetGone = false →
    s.toTarget = s.clientSent
  fromTarget : s.over → s.targetClosed = true → s.clientClosed = false → s.clientGone = false →
    s.toClient = s.targetSent

/-! ## What is where -/

/-- Everything that was sent is in its place, in order. -/
structure Conserved (s : State) : Prop where
  client : s.toTarget ++ (s.phase.inHand ++ (s.tqueue.flatten ++ s.fromClient.flatten)) = s.clientSent
  target : s.toClient ++ (s.pending ++ (s.cqueue.flatten ++ s.fromTarget.flatten)) = s.targetSent

variable {s : State}

/-- The relay is in the hand of no payload. -/
theorem State.At.inHand {p : Ready → Prop} (h : s.At p) : s.phase.inHand = [] := by
  obtain ⟨r, hr, -⟩ := h
  rw [hr]
  rfl

theorem conserved_step (e : Event) (h : Conserved s) (hpossible : Possible e s) :
    Conserved (step e s) := by
  have hc := h.client
  have ht := h.target
  cases e with
  | clientSends m =>
      refine ⟨?_, ht⟩
      show _ = s.clientSent ++ m
      rw [← hc]
      simp [step]
  | clientCloses => exact ⟨hc, ht⟩
  | targetSends m =>
      refine ⟨hc, ?_⟩
      show _ = s.targetSent ++ m
      rw [← ht]
      simp [step]
  | targetCloses => exact ⟨hc, ht⟩
  | select r =>
      obtain ⟨hphase, -⟩ := hpossible
      rw [hphase] at hc
      exact ⟨hc, ht⟩
  | selectError =>
      rw [show s.phase = _ from hpossible] at hc
      exact ⟨hc, ht⟩
  | flush k =>
      have hnone := State.At.inHand hpossible
      rw [hnone] at hc
      refine ⟨hc, ?_⟩
      show _ = s.targetSent
      rw [← ht]
      simp only [step, List.flatten_nil, List.nil_append, List.append_assoc]
      rw [← List.append_assoc (List.take _ _), List.take_append_drop, List.append_assoc]
  | flushFails =>
      rw [State.At.inHand hpossible] at hc
      exact ⟨hc, ht⟩
  | receive n close =>
      have hnone := State.At.inHand hpossible.1
      rw [hnone] at hc
      refine ⟨?_, ht⟩
      have hhand : (step (.receive n close) s).phase.inHand = [] := by
        cases close <;> rfl
      show _ = s.clientSent
      rw [hhand, ← hc]
      simp only [step, List.nil_append, List.flatten_append, List.append_assoc]
      rw [← List.flatten_append, List.take_append_drop]
  | receiveFails =>
      rw [State.At.inHand hpossible.1] at hc
      exact ⟨hc, ht⟩
  | nextPayload =>
      have hnone := State.At.inHand hpossible
      rw [hnone] at hc
      simp only [step]
      split
      case h_1 hq => exact ⟨hc, ht⟩
      case h_2 rest hq =>
        refine ⟨?_, ht⟩
        rw [hq] at hc
        show _ ++ (s.phase.inHand ++ _) = _
        rw [hnone]
        exact hc
      case h_3 payload rest hne hq =>
        refine ⟨?_, ht⟩
        rw [hq] at hc
        rw [← hc]
        simp [Phase.inHand]
  | send n =>
      refine ⟨?_, ht⟩
      have hhand : (step (.send n) s).phase.inHand = s.phase.inHand.drop n := by
        simp only [step]
        split
        case isTrue hnil => rw [hnil]; rfl
        case isFalse => rfl
      show _ = s.clientSent
      rw [hhand, ← hc]
      simp only [step, List.append_assoc]
      rw [← List.append_assoc (List.take _ _), List.take_append_drop]
  | again => exact ⟨hc, ht⟩
  | sendFails => exact ⟨hc, ht⟩
  | recv =>
      have hnone := State.At.inHand hpossible.1
      rw [hnone] at hc
      simp only [step]
      split
      · exact ⟨hc, ht⟩
      case h_2 m rest hm =>
        rw [hm] at ht
        split
        case isTrue hnil =>
          rw [hnil] at ht
          exact ⟨hc, ht⟩
        case isFalse =>
          refine ⟨hc, ?_⟩
          rw [← ht]
          simp
  | recvFails =>
      rw [State.At.inHand hpossible.1] at hc
      exact ⟨hc, ht⟩

/-! ## How the relay ends -/

theorem Conserved.client_drained (h : Conserved s) (hdrained : s.ClientDrained)
    (hhand : s.phase.inHand = []) : s.toTarget = s.clientSent := by
  rw [← h.client, hhand, hdrained.1, hdrained.2]
  simp

theorem Conserved.target_drained (h : Conserved s) (hdrained : s.TargetDrained) :
    s.toClient = s.targetSent := by
  rw [← h.target, hdrained.1, hdrained.2.1, hdrained.2.2]
  simp

/-- What is lost when the relay ends is not of a side that has closed. -/
structure Settled (s : State) : Prop where
  client : s.over → s.clientClosed = true → s.targetClosed = false → s.targetGone = false →
    s.toTarget = s.clientSent
  target : s.over → s.targetClosed = true → s.clientClosed = false → s.clientGone = false →
    s.toClient = s.targetSent

/-- A relay that goes on has lost nothing. -/
theorem settled_of_handling {r : Ready} (h : s.phase = .handling r) : Settled s := by
  have hnot : ¬ s.over := by
    rintro ⟨lost, hlost⟩
    cases h.symm.trans hlost
  exact ⟨fun hover => absurd hover hnot, fun hover => absurd hover hnot⟩

theorem settled_step (e : Event) (h : Conserved s) (hpossible : Possible e s)
    (horderly : Orderly e s) : Settled (step e s) := by
  cases e with
  | clientSends m =>
      exact ⟨fun hover => absurd hover hpossible.1, fun hover => absurd hover hpossible.1⟩
  | clientCloses =>
      exact ⟨fun hover => absurd hover hpossible.1, fun hover => absurd hover hpossible.1⟩
  | targetSends m =>
      exact ⟨fun hover => absurd hover hpossible.1, fun hover => absurd hover hpossible.1⟩
  | targetCloses =>
      exact ⟨fun hover => absurd hover hpossible.1, fun hover => absurd hover hpossible.1⟩
  | select r => exact settled_of_handling rfl
  | selectError => exact ⟨fun _ _ _ hgone => absurd hgone nofun, fun _ _ _ hgone => absurd hgone nofun⟩
  | flush k => exact settled_of_handling rfl
  | flushFails =>
      refine ⟨fun _ hclosed _ _ => ?_, fun _ _ _ hgone => absurd hgone nofun⟩
      exact h.client_drained (horderly hclosed) (State.At.inHand hpossible)
  | receive n close =>
      cases close with
      | false => exact settled_of_handling rfl
      | true =>
          refine ⟨fun _ _ _ _ => ?_, fun _ _ hopen _ => ?_⟩
          · exact h.client_drained horderly (State.At.inHand hpossible.1)
          · cases (hpossible.2.2 rfl).1.symm.trans hopen
  | receiveFails =>
      refine ⟨fun _ hclosed _ _ => ?_, fun _ _ _ hgone => absurd hgone nofun⟩
      cases hpossible.2.symm.trans hclosed
  | nextPayload =>
      simp only [step]
      split
      · exact settled_of_handling rfl
      case h_2 =>
        obtain ⟨r, hr, -⟩ := hpossible
        exact settled_of_handling hr
      · exact ⟨fun hover => absurd hover nofun, fun hover => absurd hover nofun⟩
  | send n =>
      simp only [step]
      split
      · exact settled_of_handling rfl
      · exact ⟨fun hover => absurd hover nofun, fun hover => absurd hover nofun⟩
  | again => exact horderly.elim
  | sendFails =>
      refine ⟨fun _ _ _ hgone => absurd hgone nofun, fun _ hclosed _ _ => ?_⟩
      exact h.target_drained (horderly hclosed)
  | recv =>
      simp only [step]
      split
      case h_1 hnil =>
        simp only [Orderly, hnil] at horderly
        refine ⟨fun _ _ hopen _ => ?_, fun _ _ _ _ => h.target_drained horderly⟩
        cases (hpossible.2 hnil).symm.trans hopen
      case h_2 m rest hm =>
        simp only [Orderly, hm] at horderly
        rw [if_neg horderly]
        exact settled_of_handling rfl
  | recvFails =>
      refine ⟨fun _ _ _ hgone => absurd hgone nofun, fun _ hclosed _ _ => ?_⟩
      cases hpossible.2.symm.trans hclosed

/-- In every run, what a side is handed is at every moment the beginning of what the other has
sent; and in one whose closes and failures come in order, everything of a side that has closed is
handed over before the relay ends. -/
theorem faithful_of_orderly (s : State)
    (h : Reached Begun step (fun e s => Possible e s ∧ Orderly e s) s) : Faithful s := by
  have hboth : Conserved s ∧ Settled s := by
    refine Reached.invariant (I := fun s => Conserved s ∧ Settled s) h (fun s hs => ?_)
      fun e s hok hs => ?_
    · cases hs
      exact ⟨⟨rfl, rfl⟩, settled_of_handling rfl⟩
    · exact ⟨conserved_step e hs.1 hok.1, settled_step e hs.1 hok.1 hok.2⟩
  exact ⟨⟨_, hboth.1.client⟩, ⟨_, hboth.1.target⟩, hboth.2.client, hboth.2.target⟩

/-- In every run everything that a side has sent is in one place, in order: handed over, in the hand of the relay,
queued, or unread. -/
theorem conserved_of_reached (h : Reached Begun step Possible s) : Conserved s := by
  refine h.invariant (fun s hs => ?_) fun e s hpossible hs => conserved_step e hs hpossible
  cases hs
  exact ⟨rfl, rfl⟩

/-- The target answers in the middle of a message, and cannot take more of it. -/
theorem conserved_pushedBack :
    Conserved (steps step [.clientSends [1, 2], .select { clientIn := true }, .receive 1 false,
      .select { targetOut := true }, .nextPayload, .send 1, .targetSends [3], .again] {}) := by
  have hbegun : Reached Begun step Possible {} := .init rfl
  refine conserved_of_reached (hbegun.steps ?_)
  exact ⟨⟨nofun, rfl, rfl⟩, ⟨rfl, nofun, nofun⟩, ⟨⟨_, rfl, rfl, rfl⟩, by decide, nofun⟩, ⟨rfl, nofun, nofun⟩,
    ⟨_, rfl, rfl, rfl, rfl⟩, ⟨by decide, _, _, rfl⟩, ⟨nofun, rfl, rfl⟩, ⟨_, _, rfl⟩, trivial⟩

/-- The client sends a message and closes, and the close is read once the message is sent. -/
def flushed : List Event :=
  [.clientSends [1, 2], .clientCloses, .select { clientIn := true }, .receive 1 false,
   .select { targetOut := true, clientIn := true }, .receive 0 false, .nextPayload, .send 1, .send 1,
   .nextPayload, .select { clientIn := true }, .receive 0 true]

theorem faithful_flushed :
    Faithful (steps step flushed {}) ∧ (steps step flushed {}).phase = .ended [] ∧
      (steps step flushed {}).toTarget = [1, 2] := by
  have hbegun : Reached Begun step (fun e s => Possible e s ∧ Orderly e s) {} := .init rfl
  refine ⟨faithful_of_orderly _ (hbegun.steps ?_), rfl, rfl⟩
  refine ⟨⟨⟨nofun, rfl, rfl⟩, trivial⟩, ⟨⟨nofun, rfl, rfl⟩, trivial⟩, ⟨⟨rfl, nofun, nofun⟩, trivial⟩,
    ⟨⟨⟨_, rfl, rfl, rfl⟩, by decide, nofun⟩, trivial⟩, ⟨⟨rfl, nofun, nofun⟩, trivial⟩,
    ⟨⟨⟨_, rfl, rfl, rfl⟩, by decide, nofun⟩, trivial⟩, ⟨⟨_, rfl, rfl, rfl, rfl⟩, trivial⟩,
    ⟨⟨by decide, _, _, rfl⟩, trivial⟩, ⟨⟨by decide, _, _, rfl⟩, trivial⟩,
    ⟨⟨_, rfl, rfl, rfl, rfl⟩, trivial⟩, ⟨⟨rfl, nofun, nofun⟩, trivial⟩,
    ⟨⟨⟨_, rfl, rfl, rfl⟩, by decide, fun _ => ⟨rfl, rfl⟩⟩, rfl, rfl⟩, trivial⟩

/-- The close comes in the same read as the last message. -/
def closedAtOnce : List Event :=
  [.clientSends [1, 2], .clientCloses, .select { clientIn := true }, .receive 1 true]

theorem last_message_lost :
    Reached Begun step Possible (steps step closedAtOnce {}) ∧
      ¬ Faithful (steps step closedAtOnce {}) := by
  have hbegun : Reached Begun step Possible {} := .init rfl
  refine ⟨hbegun.steps ⟨⟨nofun, rfl, rfl⟩, ⟨nofun, rfl, rfl⟩, ⟨rfl, nofun, nofun⟩,
    ⟨⟨_, rfl, rfl, rfl⟩, by decide, fun _ => ⟨rfl, rfl⟩⟩, trivial⟩, fun h => ?_⟩
  have hlost := h.fromClient ⟨[], rfl⟩ rfl rfl rfl
  exact absurd hlost (by decide)

end Relay

end Zun
