import Mathlib.Data.List.Flatten
import Zun.Websocket.DockerExec

/-!
# What a streamed exec on a docker daemon holds

Output is read only while less than `stream_buffer_limit` is queued for the client, so what is queued
is bounded by the limit and one read.  Nothing of the kind is done for stdin: the client's socket is
always read, and what it sends is held until the daemon takes it.
-/

namespace Zun

open Effect Channel

namespace DockerExec

/-- The loop of `relay` is not over. -/
def State.Relaying (s : State) : Prop :=
  s.phase ≠ .draining ∧ s.phase ≠ .closing ∧ s.phase ≠ .finished

/-- The bytes of output that are queued for the client. -/
def State.queued (s : State) : Nat := (s.client.parts.filter fun f => !isStatus f).flatten.length

/-- What comes in is of a bounded size: the client's messages, and what a read yields. -/
def Sized (messageSize readYield : Nat) : Event → State → Prop
  | .receive messages _, _ => ∀ m ∈ messages, m.length ≤ messageSize
  | .read data, s | .start data, s => (s.frames.feed data).2.flatten.length ≤ readYield
  | _, _ => True

/-- In every run what is held is bounded in both directions. -/
def Bounded (cfg : Config) (messageSize readYield : Nat) : Prop :=
  (∀ s, Reached Begun (step cfg) (fun e s => Possible cfg e s ∧ Sized messageSize readYield e s) s →
    s.queued ≤ cfg.streamBufferLimit + readYield ∧
      (s.Relaying → s.client.pending ≤ cfg.streamBufferLimit + readYield)) ∧
  ∃ bound, ∀ s,
    Reached Begun (step cfg) (fun e s => Possible cfg e s ∧ Sized messageSize readYield e s) s →
      s.stdin.length ≤ bound

/-! ## What is queued for the client -/

section

variable {frames parts : List Bytes}

theorem length_flatten_le (h : parts.Sublist frames) : parts.flatten.length ≤ frames.flatten.length :=
  h.flatten.length_le

theorem pending_sendFrames (c : Client) (frames : List Bytes) (k : Nat) :
    (c.sendFrames frames k).pending ≤ c.pending + frames.flatten.length := by
  have hsub := length_flatten_le (List.drop_sublist k (c.parts ++ frames))
  rw [List.flatten_append, List.length_append] at hsub
  exact hsub

theorem queued_le_pending (s : State) : s.queued ≤ s.client.pending :=
  length_flatten_le List.filter_sublist

end

section

variable {limit readYield : Nat} {s : State} {r : Ready}

/-- How much is queued, by where the main loop is. -/
def Room (limit readYield : Nat) (s : State) : Prop :=
  match s.phase with
  | .starting => s.client.parts = []
  | .expiring r | .flushing r | .pinging r | .receiving r | .writing r | .closingStdin r =>
      s.client.pending ≤ limit + readYield ∧ (r.runtimeIn = true → s.client.pending ≤ limit)
  | .reading => s.client.pending ≤ limit
  | .passing frames => s.client.pending ≤ limit ∧ frames.flatten.length ≤ readYield ∧ Quiet frames
  | .selecting | .finishing => s.client.pending ≤ limit + readYield
  | .ending status => s.client.pending ≤ limit + readYield ∧ isStatus status = true
  | .draining | .closing | .finished => True

structure Slow (limit readYield : Nat) (s : State) : Prop where
  frames : s.frames.Output
  queued : s.queued ≤ limit + readYield
  room : Room limit readYield s

theorem Room.pending (h : Room limit readYield s) (hrelaying : s.Relaying) :
    s.client.pending ≤ limit + readYield := by
  obtain ⟨hdrain, hclosing, hfinished⟩ := hrelaying
  unfold Room at h
  cases hphase : s.phase <;> simp only [hphase] at h hdrain hclosing hfinished
  case starting => simp [Client.pending, h]
  case selecting => exact h
  case reading => omega
  case passing => omega
  case finishing => exact h
  case ending => exact h.1
  case draining => exact absurd rfl hdrain
  case closing => exact absurd rfl hclosing
  case finished => exact absurd rfl hfinished
  all_goals exact h.1

/-- A state of the loop. -/
theorem Slow.of_room (hframes : s.frames.Output) (hrelaying : s.Relaying)
    (hroom : Room limit readYield s) : Slow limit readYield s :=
  ⟨hframes, Nat.le_trans (queued_le_pending s) (hroom.pending hrelaying), hroom⟩

/-- Stdin is none of what is queued. -/
theorem Slow.setStdin (h : Slow limit readYield s) (stdin : Bytes) (closeStdin : Bool) :
    Slow limit readYield { s with stdin, closeStdin } := ⟨h.frames, h.queued, h.room⟩

theorem Slow.toRead (h : Slow limit readYield s) (hall : s.client.pending ≤ limit + readYield)
    (hread : r.runtimeIn = true → s.client.pending ≤ limit) :
    Slow limit readYield { s with phase := r.toRead } := by
  refine ⟨h.frames, h.queued, ?_⟩
  unfold Ready.toRead
  cases hr : r.runtimeIn with
  | false => exact hall
  | true => exact hread hr

theorem Slow.toCloseStdin (h : Slow limit readYield s) (hall : s.client.pending ≤ limit + readYield)
    (hread : r.runtimeIn = true → s.client.pending ≤ limit) :
    Slow limit readYield (s.toCloseStdin r) := by
  unfold State.toCloseStdin
  split
  · exact ⟨h.frames, h.queued, hall, hread⟩
  · exact h.toRead hall hread

theorem Slow.toWrite (h : Slow limit readYield s) (hall : s.client.pending ≤ limit + readYield)
    (hread : r.runtimeIn = true → s.client.pending ≤ limit) :
    Slow limit readYield (s.toWrite r) := by
  unfold State.toWrite
  split
  · exact ⟨h.frames, h.queued, hall, hread⟩
  · exact h.toCloseStdin hall hread

end

section

variable {cfg : Config} {messageSize readYield : Nat} {s : State}

/-- The end of the loop, with a Status at most that is handed over with it. -/
theorem Slow.ended (h : Slow cfg.streamBufferLimit readYield s) {s' : State} (frames : List Bytes)
    (hphase : Room cfg.streamBufferLimit readYield s') (hframes : s'.frames = s.frames)
    (hparts : s'.client.parts.Sublist (s.client.parts ++ frames))
    (hstatus : ∀ f ∈ frames, isStatus f = true) : Slow cfg.streamBufferLimit readYield s' := by
  refine ⟨by rw [hframes]; exact h.frames, ?_, hphase⟩
  have hnone : frames.filter (fun f => !isStatus f) = [] :=
    List.filter_eq_nil_iff.mpr fun f hf => by simp [hstatus f hf]
  have hsub := hparts.filter fun f => !isStatus f
  rw [List.filter_append, hnone, List.append_nil] at hsub
  exact Nat.le_trans (length_flatten_le hsub) h.queued

theorem slow_step (e : Event) (h : Slow cfg.streamBufferLimit readYield s)
    (hpossible : Possible cfg e s) (hsized : Sized messageSize readYield e s) :
    Slow cfg.streamBufferLimit readYield (step cfg e s) := by
  have hroom := h.room
  cases e with
  | startRaises running =>
      have hphase : s.phase = .starting := hpossible
      simp only [Room, hphase] at hroom
      refine ⟨h.frames, h.queued, ?_, rfl⟩
      simp [step, Client.pending, hroom]
  | start head =>
      have hphase : s.phase = .starting := hpossible
      simp only [Room, hphase] at hroom
      obtain ⟨hframes, hquiet⟩ := s.frames.feed_output head h.frames
      refine ⟨hframes, h.queued, ?_, hsized, hquiet⟩
      simp [step, Client.pending, hroom]
  | expire => exact ⟨h.frames, h.queued, hroom⟩
  | select r =>
      simp only [Room, hpossible.1] at hroom
      exact ⟨h.frames, h.queued, hroom, fun hr => Nat.le_of_lt (hpossible.2.2.2 hr)⟩
  | selectRaises => exact ⟨h.frames, h.queued, trivial⟩
  | graceOver =>
      obtain ⟨-, r, hphase⟩ := hpossible
      simp only [Room, hphase] at hroom
      exact ⟨h.frames, h.queued, hroom.1, rfl⟩
  | inTime =>
      obtain ⟨r, hphase⟩ := hpossible
      simp only [Room, hphase] at hroom
      simp only [step, hphase]
      refine ⟨h.frames, h.queued, ?_⟩
      cases r.clientOut <;> exact hroom
  | flush k =>
      obtain ⟨r, hphase⟩ := hpossible
      simp only [Room, hphase] at hroom
      have hpending := pending_sendFrames s.client [] k
      simp only [List.flatten_nil, List.length_nil, Nat.add_zero] at hpending
      have hnext : Room cfg.streamBufferLimit readYield (step cfg (.flush k) s) := by
        simp only [step, hphase]
        exact ⟨Nat.le_trans hpending hroom.1, fun hr => Nat.le_trans hpending (hroom.2 hr)⟩
      refine h.ended [] hnext (by simp [step, hphase]) ?_ (by simp)
      simp only [step, hphase]
      exact List.drop_sublist k _
  | keepAlive =>
      obtain ⟨r, hphase⟩ := hpossible
      simp only [Room, hphase] at hroom
      simp only [step, hphase]
      split
      · exact ⟨h.frames, h.queued, hroom⟩
      · exact h.toWrite hroom.1 hroom.2
  | receive messages closed =>
      obtain ⟨r, hphase⟩ := hpossible
      simp only [Room, hphase] at hroom
      obtain ⟨stdin, closeStdin, hfold⟩ := foldl_fromClient cfg messages s
      simp only [step, stepReceive, hphase, hfold]
      cases closed with
      | true => exact ⟨h.frames, h.queued, trivial⟩
      | false => exact (h.setStdin stdin closeStdin).toWrite hroom.1 hroom.2
  | write n =>
      obtain ⟨-, r, hphase⟩ := hpossible
      simp only [Room, hphase] at hroom
      simp only [step, hphase]
      exact (h.setStdin (s.stdin.drop n) s.closeStdin).toCloseStdin hroom.1 hroom.2
  | writeRaises => exact ⟨h.frames, h.queued, trivial⟩
  | closeStdin =>
      obtain ⟨r, hphase⟩ := hpossible
      simp only [Room, hphase] at hroom
      simp only [step, hphase]
      exact (h.setStdin s.stdin false).toRead hroom.1 hroom.2
  | closeStdinRaises => exact ⟨h.frames, h.queued, trivial⟩
  | read data =>
      simp only [Room, hpossible.2] at hroom
      obtain ⟨hframes, hquiet⟩ := s.frames.feed_output data h.frames
      exact ⟨hframes, h.queued, hroom, hsized, hquiet⟩
  | readNothing =>
      have hphase : s.phase = .reading := hpossible
      simp only [Room, hphase] at hroom
      exact ⟨h.frames, h.queued, Nat.le_trans hroom (Nat.le_add_right ..)⟩
  | readEnd =>
      have hphase : s.phase = .reading := hpossible
      simp only [Room, hphase] at hroom
      exact ⟨h.frames, h.queued, Nat.le_trans hroom (Nat.le_add_right ..)⟩
  | readBroken =>
      have hphase : s.phase = .reading := hpossible
      simp only [Room, hphase] at hroom
      exact ⟨h.frames, h.queued, Nat.le_trans hroom (Nat.le_add_right ..), rfl⟩
  | finish code =>
      have hphase : s.phase = .finishing := hpossible
      simp only [Room, hphase] at hroom
      refine ⟨h.frames, h.queued, hroom, ?_⟩
      split
      · rfl
      · cases code <;> simp [finishStatus]
  | toClient k =>
      obtain ⟨frames, hphase⟩ := hpossible
      simp only [Room, hphase] at hroom
      have hpending := pending_sendFrames s.client frames k
      have hrelaying : (step cfg (.toClient k) s).Relaying := by simp [State.Relaying, step]
      refine .of_room h.frames hrelaying ?_
      simp only [step, hphase, Phase.frames, Room]
      omega
  | endWith k =>
      obtain ⟨status, hphase⟩ := hpossible
      simp only [Room, hphase] at hroom
      refine h.ended [status] trivial rfl ?_ (by simp [hroom.2])
      simp only [step, hphase, Phase.frames]
      exact List.drop_sublist k _
  | clientRaises gone =>
      cases hphase : s.phase with
      | passing frames =>
          simp only [Room, hphase] at hroom
          refine ⟨h.frames, ?_, trivial⟩
          have hall : (s.client.raises frames gone).pending = s.client.pending + frames.flatten.length := by
            simp [Client.pending, Client.raises]
          have hqueued := queued_le_pending (step cfg (.clientRaises gone) s)
          simp only [step, hphase, Phase.frames, hall] at hqueued ⊢
          omega
      | ending status =>
          simp only [Room, hphase] at hroom
          refine h.ended [status] trivial rfl ?_ (by simp [hroom.2])
          simp [step, hphase, Phase.frames, Client.raises]
      | _ =>
          refine h.ended [] trivial rfl ?_ (by simp)
          simp [step, hphase, Phase.frames, Client.raises]
  | drain k =>
      have hphase : s.phase = .draining := hpossible
      have hnext : Room cfg.streamBufferLimit readYield (step cfg (.drain k) s) := by
        simp [Room, step, hphase]
      exact h.ended [] hnext rfl (List.drop_sublist k _) (by simp)
  | drained => exact ⟨h.frames, h.queued, trivial⟩
  | giveUp => exact ⟨h.frames, h.queued, trivial⟩
  | close => exact ⟨h.frames, h.queued, trivial⟩

end

/-! ## What is held for the daemon -/

section

variable {cfg : Config} {messageSize readYield : Nat} {s : State} {r : Ready}

theorem stdin_toCloseStdin : (s.toCloseStdin r).stdin = s.stdin := by
  unfold State.toCloseStdin
  split <;> rfl

theorem stdin_toWrite : (s.toWrite r).stdin = s.stdin := by
  unfold State.toWrite
  split
  · rfl
  · exact stdin_toCloseStdin

/-- Messages that carry nothing, or come to a command without stdin, add nothing to it. -/
theorem stdin_foldl_fromClient (messages : List Bytes)
    (h : cfg.stdin = false ∨ ∀ m ∈ messages, m.length ≤ 1) (s : State) :
    (messages.foldl (fromClient cfg) s).stdin = s.stdin := by
  induction messages generalizing s with
  | nil => rfl
  | cons m messages ih =>
      have hrest : cfg.stdin = false ∨ ∀ m ∈ messages, m.length ≤ 1 :=
        h.imp_right fun h m' hm' => h m' (by simp [hm'])
      rw [List.foldl_cons, ih hrest]
      cases m with
      | nil => rfl
      | cons c data =>
          rcases h with hstdin | hsize
          · rw [fromClient, if_pos hstdin]
          · have hdata : data = [] := by
              have := hsize (c :: data) (by simp)
              rw [List.length_cons] at this
              exact List.length_eq_zero_iff.mp (by omega)
            rw [hdata, fromClient]
            split
            · rfl
            · split
              · exact List.append_nil _
              · split <;> rfl

theorem stdin_step (e : Event) (hcfg : cfg.stdin = false ∨ messageSize ≤ 1) (h : s.stdin = [])
    (hsized : Sized messageSize readYield e s) : (step cfg e s).stdin = [] := by
  cases e with
  | inTime =>
      simp only [step]
      split <;> exact h
  | flush k =>
      simp only [step]
      split <;> exact h
  | keepAlive =>
      simp only [step]
      split
      · split
        · exact h
        · rw [stdin_toWrite, h]
      · exact h
  | receive messages closed =>
      have hfold := stdin_foldl_fromClient messages
        (hcfg.imp_right fun hsize m hm => Nat.le_trans (hsized m hm) hsize) s
      simp only [step, stepReceive]
      split
      · split
        · rw [hfold, h]
        · rw [stdin_toWrite, hfold, h]
      · exact h
  | write n =>
      simp only [step]
      split
      · rw [stdin_toCloseStdin, h]
        exact List.drop_nil
      · exact h
  | closeStdin =>
      simp only [step]
      split <;> exact h
  | _ => exact h

end

/-! ## The bound -/

section

variable {cfg : Config} {messageSize readYield : Nat}

/-- The states of the runs whose messages and reads have these sizes. -/
def States (cfg : Config) (messageSize readYield : Nat) : State → Prop :=
  Reached Begun (step cfg) (fun e s => Possible cfg e s ∧ Sized messageSize readYield e s)

theorem slow_of_states {s : State} (h : States cfg messageSize readYield s) :
    Slow cfg.streamBufferLimit readYield s := by
  refine Reached.invariant h (fun s hs => ?_) fun e s hok hs => slow_step e hs hok.1 hok.2
  cases hs
  exact ⟨Frames.output_fresh, Nat.zero_le _, rfl⟩

theorem stdin_of_states {s : State} (hcfg : cfg.stdin = false ∨ messageSize ≤ 1)
    (h : States cfg messageSize readYield s) : s.stdin = [] := by
  refine Reached.invariant (I := fun s => s.stdin = []) h (fun s hs => ?_)
    fun e s hok hs => stdin_step e hcfg hs hok.2
  cases hs
  rfl

/-- A turn of the loop in which only the client has something: a byte of stdin. -/
def clientWrites : List Event :=
  [.select { clientIn := true }, .inTime, .keepAlive, .receive [[0, 97]] false]

/-- The daemon takes nothing, and the client goes on. -/
theorem exists_stdin (readYield : Nat) (hstdin : cfg.stdin = true) (hsize : 1 < messageSize) (n : Nat) :
    ∃ s, States cfg messageSize readYield s ∧ s.phase = .selecting ∧ s.closeStdin = false ∧
      s.stdin.length = n := by
  induction n with
  | zero =>
      have hbegun : States cfg messageSize readYield {} := .init rfl
      have hfeed : Frames.fresh.feed [] = (Frames.fresh, []) := by rw [Frames.feed, dif_pos rfl]
      have hrun : Allowed (step cfg) (fun e s => Possible cfg e s ∧ Sized messageSize readYield e s)
          [.start [], .toClient 0] {} := by
        refine ⟨⟨rfl, ?_⟩, ⟨⟨[], ?_⟩, trivial⟩, trivial⟩
        · show (Frames.fresh.feed []).2.flatten.length ≤ readYield
          rw [hfeed]
          exact Nat.zero_le _
        · show Phase.passing (Frames.fresh.feed []).2 = _
          rw [hfeed]
      exact ⟨_, Reached.steps hbegun hrun, rfl, rfl, rfl⟩
  | succ n ih =>
      obtain ⟨s, hs, hphase, hclose, hlen⟩ := ih
      have hreceive : stepReceive cfg [[0, 97]] false { s with phase := .receiving { clientIn := true } } =
          { s with phase := .selecting, stdin := s.stdin ++ [97] } := by
        simp [stepReceive, fromClient, hstdin, Channel.stdin, State.toWrite, State.toCloseStdin,
          Ready.toRead]
      have hrun : Allowed (step cfg) (fun e s => Possible cfg e s ∧ Sized messageSize readYield e s)
          clientWrites s := by
        have hselect : Possible cfg (.select { clientIn := true }) s := by simp [Possible, hphase]
        refine ⟨⟨hselect, trivial⟩, ⟨⟨_, rfl⟩, trivial⟩, ⟨⟨_, rfl⟩, trivial⟩, ⟨⟨_, rfl⟩, ?_⟩, trivial⟩
        simp [Sized]
        omega
      have hend : steps (step cfg) clientWrites s =
          { s with phase := .selecting, stdin := s.stdin ++ [97] } := hreceive
      refine ⟨_, Reached.steps hs hrun, ?_⟩
      rw [hend]
      exact ⟨rfl, hclose, by simp [hlen]⟩

theorem unbounded_of_stdin (hstdin : cfg.stdin = true) (hsize : 1 < messageSize) :
    ¬Bounded cfg messageSize readYield := by
  rintro ⟨-, bound, hbound⟩
  obtain ⟨s, hs, -, -, hlen⟩ := exists_stdin readYield hstdin hsize (bound + 1)
  have := hbound s hs
  omega

/-- What is held is bounded exactly when the command has no stdin to be written to. -/
theorem bounded_iff (cfg : Config) (messageSize readYield : Nat) :
    Bounded cfg messageSize readYield ↔ cfg.stdin = false ∨ messageSize ≤ 1 := by
  constructor
  · intro h
    by_contra hcfg
    rw [not_or, Bool.not_eq_false, Nat.not_le] at hcfg
    exact unbounded_of_stdin hcfg.1 hcfg.2 h
  · intro hcfg
    refine ⟨fun s hs => ?_, 0, fun s hs => ?_⟩
    · have hslow := slow_of_states hs
      exact ⟨hslow.queued, hslow.room.pending⟩
    · rw [stdin_of_states hcfg hs]
      exact Nat.le_refl 0

/-- An exec with a stdin, under the limit that is set when none is. -/
def withStdin : Config :=
  { stdin := true, timeout := none, streamBufferLimit := 1048576, dump := fun _ => [] }

theorem not_bounded : ¬Bounded withStdin 65536 131072 := unbounded_of_stdin rfl (by decide)

end

end DockerExec

end Zun
