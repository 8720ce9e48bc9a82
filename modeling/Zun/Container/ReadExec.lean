import Zun.Container.ExecOutput
import Zun.Websocket.DockerExec

/-!
# The output of an exec that is waited for

`read_exec_output` of `zun/container/docker/utils.py`.  It takes docker's multiplexed stream apart as
it comes, as `_DockerFrames` does for a streamed exec.  What each of them has yet to give, of what
is still to come, is `resume`: the rest of the frame, then the frames one by one.  No cut of the
stream changes it.
-/

namespace Zun

open Channel (Bytes)
open ExecOutput

namespace ReadExec

/-- What the loop of `read_exec_output` keeps from one `recv` to the next. -/
structure Reader where
  output : Output
  header : Bytes := []
  /-- `None` before the first header. -/
  stream : Option UInt8 := none
  left : Nat := 0
  header_lt : header.length < 8

def Reader.start (limit : Option Nat) : Reader :=
  { output := .fresh limit, header := [], header_lt := Nat.succ_pos 7 }

/-- What is done with the data of a `recv`. -/
def Reader.feed (r : Reader) (data : Bytes) : Reader :=
  if hdata : data = [] then r
  else if hleft : r.left = 0 then
    let need := 8 - r.header.length
    let header := r.header ++ data.take need
    if hheader : header.length < 8 then { r with header, header_lt := hheader }
    else
      ({ r with header := [], stream := some (header.headD 0),
                left := DockerExec.bigEndian (header.drop 4), header_lt := by decide } : Reader).feed
        (data.drop need)
  else
    let chunk := data.take r.left
    ({ r with output := r.output.feed (r.stream.elim 0 UInt8.toNat) chunk,
              left := r.left - chunk.length } : Reader).feed (data.drop chunk.length)
termination_by data.length
decreasing_by
  · have := r.header_lt
    have := List.length_pos_iff.mpr hdata
    simp only [List.length_drop]
    omega
  · have := List.length_pos_iff.mpr hdata
    simp only [List.length_drop, List.length_take]
    omega

/-- What comes of a `recv`. -/
inductive Recv where
  | data (bytes : Bytes)
  /-- The deadline is over before it. -/
  | late
  | raises (error : String)
deriving DecidableEq

/-- The loop, up to the end of the connection. -/
def Reader.readAll (timeout : Nat) (r : Reader) : List Recv → Except String Output
  | [] => .ok r.output
  | .late :: _ => .error s!"exec did not finish in {timeout}s"
  | .raises error :: _ => .error error
  | .data bytes :: rest =>
      if bytes = [] then .ok r.output else (r.feed bytes).readAll timeout rest

/-- `head` was read already, with the headers of the answer. -/
def readExecOutput (timeout : Nat) (limit : Option Nat) (head : Bytes) (recvs : List Recv) :
    Except String Output :=
  if head = [] then (Reader.start limit).readAll timeout recvs
  else ((Reader.start limit).feed head).readAll timeout recvs

/-! ## Frame by frame -/

/-- The frames of a whole stream: a header of eight bytes, then the payload.  The last frame may be
cut short. -/
def splitFrames (data : Bytes) : List (UInt8 × Bytes) :=
  if _h : data.length < 8 then []
  else
    let length := DockerExec.bigEndian ((data.take 8).drop 4)
    (data.headD 0, (data.drop 8).take length) :: splitFrames ((data.drop 8).drop length)
termination_by data.length
decreasing_by
  simp only [List.length_drop]
  omega

/-- The bytes that the frames of a whole stream carry. -/
def payload (data : Bytes) : List Tagged :=
  (splitFrames data).flatMap fun f => f.2.map (streamOf f.1.toNat, ·)

/-- What is yet to come of the bytes, in the middle of a frame or of a header. -/
def resume (header : Bytes) (s : Stream) (left : Nat) (rest : Bytes) : List Tagged :=
  (rest.take left).map (s, ·) ++ payload (header ++ rest.drop left)

section

variable {header data rest : Bytes} {s : Stream} {left : Nat}

theorem payload_short (h : data.length < 8) : payload data = [] := by
  rw [payload, splitFrames, dif_pos h]
  rfl

theorem payload_frame (h : header.length = 8) (rest : Bytes) :
    payload (header ++ rest) =
      resume [] (streamOf (header.headD 0).toNat) (DockerExec.bigEndian (header.drop 4)) rest := by
  have hlen : ¬(header ++ rest).length < 8 := by simp [h]
  have htake : (header ++ rest).take 8 = header := by rw [← h, List.take_left]
  have hdrop : (header ++ rest).drop 8 = rest := by rw [← h, List.drop_left]
  have hhead : (header ++ rest).headD 0 = header.headD 0 := by
    cases header with
    | nil => cases h
    | cons b header => rfl
  rw [payload, splitFrames, dif_neg hlen, htake, hdrop, hhead, List.flatMap_cons]
  rfl

theorem resume_zero : resume header s 0 rest = payload (header ++ rest) := rfl

@[simp] theorem resume_nil (h : header.length < 8) : resume header s left [] = [] := by
  simp [resume, payload_short h]

/-- A header that is not whole yet. -/
theorem resume_short (h : (header ++ data.take (8 - header.length)).length < 8) (t : Stream) :
    resume header t 0 (data ++ rest) = resume (header ++ data.take (8 - header.length)) t 0 rest := by
  have htake : data.take (8 - header.length) = data := by
    rw [List.length_append, List.length_take] at h
    exact List.take_of_length_le (by omega)
  rw [htake, resume_zero, resume_zero, List.append_assoc]

/-- A header that is whole. -/
theorem resume_header (h : (header ++ data.take (8 - header.length)).length = 8) (t : Stream) :
    resume header t 0 (data ++ rest) =
      resume [] (streamOf ((header ++ data.take (8 - header.length)).headD 0).toNat)
        (DockerExec.bigEndian ((header ++ data.take (8 - header.length)).drop 4))
        (data.drop (8 - header.length) ++ rest) := by
  rw [resume_zero, ← payload_frame h, List.append_assoc, ← List.append_assoc (data.take _),
    List.take_append_drop]

/-- Some of the payload. -/
theorem resume_chunk :
    resume header s left (data ++ rest) =
      (data.take left).map (s, ·) ++
        resume header s (left - (data.take left).length)
          (data.drop (data.take left).length ++ rest) := by
  by_cases hlen : data.length ≤ left
  · simp only [resume, List.take_of_length_le hlen, List.drop_length, List.nil_append,
      List.take_append, List.drop_append, List.drop_of_length_le hlen, List.map_append,
      List.append_assoc]
  · have htake : (data.take left).length = left := by
      rw [List.length_take]
      omega
    simp only [resume, htake, Nat.sub_self, List.take_zero, List.map_nil, List.nil_append,
      List.drop_zero, List.take_append_of_le_length (Nat.le_of_not_le hlen),
      List.drop_append_of_le_length (Nat.le_of_not_le hlen)]

end

/-! ## `read_exec_output` -/

/-- What a reader has yet to keep. -/
def Reader.resume (r : Reader) (rest : Bytes) : List Tagged :=
  ReadExec.resume r.header (streamOf (r.stream.elim 0 UInt8.toNat)) r.left rest

theorem Reader.feed_spec (r : Reader) (data : Bytes) :
    ∃ bytes, (r.feed data).output = r.output.keepAll bytes ∧
      ∀ rest, r.resume (data ++ rest) = bytes ++ (r.feed data).resume rest := by
  induction r, data using Reader.feed.induct with
  | case1 r =>
      rw [feed, dif_pos rfl]
      exact ⟨[], rfl, fun rest => rfl⟩
  | case2 r data hdata hleft need header hheader =>
      rw [feed, dif_neg hdata, dif_pos hleft]
      simp only [header, need] at hheader
      simp only [dif_pos hheader]
      refine ⟨[], rfl, fun rest => ?_⟩
      show ReadExec.resume r.header _ r.left (data ++ rest) = ReadExec.resume _ _ r.left rest
      rw [hleft, resume_short hheader]
  | case3 r data hdata hleft need header hheader ih =>
      rw [feed, dif_neg hdata, dif_pos hleft]
      simp only [header, need] at hheader ih
      simp only [dif_neg hheader]
      obtain ⟨bytes, houtput, hresume⟩ := ih
      refine ⟨bytes, houtput, fun rest => ?_⟩
      have hwhole : (r.header ++ data.take (8 - r.header.length)).length = 8 := by
        have := r.header_lt
        rw [List.length_append, List.length_take] at hheader ⊢
        omega
      rw [← hresume, resume, hleft, resume_header hwhole]
      rfl
  | case4 r data hdata hleft chunk ih =>
      rw [feed, dif_neg hdata, dif_neg hleft]
      obtain ⟨bytes, houtput, hresume⟩ := ih
      refine ⟨(data.take r.left).map (streamOf (r.stream.elim 0 UInt8.toNat), ·) ++ bytes, ?_,
        fun rest => ?_⟩
      · rw [houtput, Output.keepAll_append, ← Output.keep_eq]
        rfl
      · rw [List.append_assoc, ← hresume, resume, resume_chunk]
        rfl

theorem Reader.readAll_spec (timeout : Nat) (r : Reader) (chunks : List Bytes)
    (h : ∀ c ∈ chunks, c ≠ []) :
    r.readAll timeout (chunks.map .data ++ [.data []]) =
      .ok (r.output.keepAll (r.resume chunks.flatten)) := by
  induction chunks generalizing r with
  | nil =>
      rw [List.flatten_nil, resume, resume_nil r.header_lt]
      simp [readAll]
  | cons c chunks ih =>
      obtain ⟨bytes, houtput, hresume⟩ := r.feed_spec c
      rw [List.map_cons, List.cons_append, readAll, if_neg (h c (by simp)),
        ih _ fun c' hc' => h c' (by simp [hc']), houtput, List.flatten_cons, hresume,
        Output.keepAll_append]

theorem readExecOutput_spec (timeout : Nat) (limit : Option Nat) (head : Bytes)
    (chunks : List Bytes) (h : ∀ c ∈ chunks, c ≠ []) :
    readExecOutput timeout limit head (chunks.map .data ++ [.data []]) =
      .ok ((Output.fresh limit).keepAll (payload (head ++ chunks.flatten))) := by
  unfold readExecOutput
  by_cases hhead : head = []
  · subst hhead
    rw [if_pos rfl, Reader.readAll_spec timeout _ chunks h]
    rfl
  · obtain ⟨bytes, houtput, hresume⟩ := (Reader.start limit).feed_spec head
    rw [if_neg hhead, Reader.readAll_spec timeout _ chunks h, houtput, ← Output.keepAll_append,
      ← hresume]
    rfl

/-! ## `_DockerFrames` -/

/-- The frames of what is fed one after the other. -/
def feedAll (d : DockerExec.Frames) : List Bytes → List Bytes
  | [] => []
  | c :: chunks => (d.feed c).2 ++ feedAll (d.feed c).1 chunks

/-- The channel that a stream is passed on as. -/
def channel : Stream → UInt8
  | .stdout => Channel.stdout
  | .stderr => Channel.stderr

theorem channel_streamOf (stream : UInt8) :
    channel (streamOf stream.toNat) = DockerExec.channelOf stream := by
  unfold streamOf DockerExec.channelOf
  by_cases h : stream = 2
  · subst h
    rfl
  · have hne : stream.toNat ≠ 2 := fun heq => h (UInt8.toNat_inj.mp heq)
    rw [if_neg h, if_neg hne]
    rfl

/-- The bytes of frames, each with its channel. -/
def carried (frames : List Bytes) : List (UInt8 × UInt8) :=
  frames.flatMap fun
    | [] => []
    | c :: data => data.map (c, ·)

theorem carried_append (frames frames' : List Bytes) :
    carried (frames ++ frames') = carried frames ++ carried frames' := List.flatMap_append

/-- Bytes as they are passed on. -/
def onChannels (bytes : List Tagged) : List (UInt8 × UInt8) := bytes.map fun b => (channel b.1, b.2)

theorem onChannels_append (bytes bytes' : List Tagged) :
    onChannels (bytes ++ bytes') = onChannels bytes ++ onChannels bytes' := List.map_append

theorem carried_frame (s : Stream) (data : Bytes) :
    carried [Channel.frame (channel s) data] = onChannels (data.map (s, ·)) := by
  simp [carried, onChannels, Channel.frame, Function.comp_def]

theorem feed_spec (d : DockerExec.Frames) (data : Bytes) (s : Stream) (hs : d.stream = channel s) :
    ∃ t, (d.feed data).1.stream = channel t ∧
      ∀ rest, onChannels (resume d.header s d.left (data ++ rest)) =
        carried (d.feed data).2 ++
          onChannels (resume (d.feed data).1.header t (d.feed data).1.left rest) := by
  induction d, data using DockerExec.Frames.feed.induct generalizing s with
  | case1 d =>
      rw [DockerExec.Frames.feed, dif_pos rfl]
      exact ⟨s, hs, fun rest => rfl⟩
  | case2 d data hdata hleft need header hheader =>
      rw [DockerExec.Frames.feed, dif_neg hdata, dif_pos hleft]
      simp only [header, need] at hheader
      simp only [dif_pos hheader]
      refine ⟨s, hs, fun rest => ?_⟩
      rw [hleft, resume_short hheader]
      rfl
  | case3 d data hdata hleft need header hheader ih =>
      rw [DockerExec.Frames.feed, dif_neg hdata, dif_pos hleft]
      simp only [header, need] at hheader ih
      simp only [dif_neg hheader]
      have hwhole : (d.header ++ data.take (8 - d.header.length)).length = 8 := by
        have := d.header_lt
        rw [List.length_append, List.length_take] at hheader ⊢
        omega
      obtain ⟨t, ht, hresume⟩ := ih _ (channel_streamOf _).symm
      refine ⟨t, ht, fun rest => ?_⟩
      rw [hleft, resume_header hwhole, hresume]
  | case4 d data hdata hleft chunk ih =>
      rw [DockerExec.Frames.feed, dif_neg hdata, dif_neg hleft]
      obtain ⟨t, ht, hresume⟩ := ih s hs
      refine ⟨t, ht, fun rest => ?_⟩
      rw [resume_chunk, onChannels_append, hresume, ← List.append_assoc, ← carried_frame, ← hs,
        ← carried_append]
      rfl

theorem feedAll_spec (d : DockerExec.Frames) (s : Stream) (hs : d.stream = channel s)
    (chunks : List Bytes) :
    carried (feedAll d chunks) = onChannels (resume d.header s d.left chunks.flatten) := by
  induction chunks generalizing d s with
  | nil =>
      rw [List.flatten_nil, resume_nil d.header_lt]
      rfl
  | cons c chunks ih =>
      obtain ⟨t, ht, hresume⟩ := feed_spec d c s hs
      rw [feedAll, carried_append, ih _ t ht, List.flatten_cons, hresume]

/-! ## The same however it is cut -/

/-- What an output has, in the order of writing. -/
def order (o : Output) : List Tagged := o.taken fun s => (o.kept s).length

/-- Nothing is left out when there are no more bytes than that. -/
theorem sift_of_le (bytes : List Tagged) {n : Stream → Nat}
    (hn : ∀ s, (bytesOf s bytes).length ≤ n s) : sift n bytes = bytes := by
  induction bytes generalizing n with
  | nil => rfl
  | cons b bytes ih =>
      have hb := hn b.1
      rw [bytesOf_cons, if_pos rfl, List.length_cons] at hb
      rw [sift, if_pos (by omega), ih]
      intro s
      by_cases hs : s = b.1
      · subst hs
        rw [Function.update_self]
        omega
      · have := hn s
        rw [bytesOf_cons, if_neg (Ne.symm hs)] at this
        rw [Function.update_of_ne hs]
        exact this

/-- An output without a limit has all that it was fed. -/
theorem order_keepAll (bytes : List Tagged) : order ((Output.fresh none).keepAll bytes) = bytes := by
  have hkept (s : Stream) : ((Output.fresh none).keepAll bytes).kept s = bytesOf s bytes := by
    rw [(Prefix.keepAll none bytes).kept, Output.limit_keepAll]
    rfl
  rw [order, Output.taken_keepAll none _ (by simp)]
  exact sift_of_le bytes fun s => Nat.le_of_eq (by rw [hkept])

/-- Both readers of the daemon's stream give the bytes that its frames carry, in their order, on the
stream or the channel of their frame. -/
theorem same_however_cut (timeout : Nat) (head : Bytes) (chunks : List Bytes)
    (h : ∀ c ∈ chunks, c ≠ []) :
    carried (feedAll .fresh (head :: chunks)) = onChannels (payload (head ++ chunks.flatten)) ∧
      ∃ o, readExecOutput timeout none head (chunks.map .data ++ [.data []]) = .ok o ∧
        order o = payload (head ++ chunks.flatten) ∧
        ∀ s, o.kept s = bytesOf s (payload (head ++ chunks.flatten)) := by
  constructor
  · rw [feedAll_spec _ .stdout rfl, List.flatten_cons]
    rfl
  · refine ⟨_, readExecOutput_spec timeout none head chunks h, order_keepAll _, fun s => ?_⟩
    rw [(Prefix.keepAll none _).kept, Output.limit_keepAll]
    rfl

/-- A header in two pieces, and a frame that the end cuts short. -/
theorem same_cut_short :
    carried (feedAll .fresh [[2, 0, 0], [0, 0, 0, 0, 3, 7], [8]]) = [(2, 7), (2, 8)] := by
  have hcut := (same_however_cut 1 [2, 0, 0] [[0, 0, 0, 0, 3, 7], [8]] (by simp)).1
  have hpayload : onChannels (payload ([2, 0, 0] ++ [[0, 0, 0, 0, 3, 7], [8]].flatten)) =
      [(2, 7), (2, 8)] := by decide +kernel
  rw [hcut, hpayload]

end ReadExec

end Zun
