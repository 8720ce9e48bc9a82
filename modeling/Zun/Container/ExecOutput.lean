import Mathlib.Data.List.Induction
import Mathlib.Logic.Function.Basic
import Zun.Data.Base64
import Zun.Data.Utf8
import Zun.Websocket.Channel

/-!
# What a command run and waited for wrote

`zun/container/exec_output.py`.  Each stream is kept up to a limit, and the order of writing as runs
into what is kept.  A write is the writes of its bytes one after the other (`feed_append`), so what
holds after one byte more holds however the streams were cut.
-/

namespace Zun

open Channel (Bytes)

namespace ExecOutput

inductive Stream where
  | stdout
  | stderr
deriving DecidableEq

/-- `_NAMES`. -/
def Stream.name : Stream → String
  | .stdout => "stdout"
  | .stderr => "stderr"

/-- `STDERR if stream == STDERR else STDOUT`. -/
def streamOf (stream : Nat) : Stream := if stream = 2 then .stderr else .stdout

/-- The bytes of a stream from `start` to `stop`. -/
structure Run where
  stream : Stream
  start : Nat
  stop : Nat
deriving DecidableEq

@[ext] structure Output where
  /-- Nothing for `float('inf')`. -/
  limit : Option Nat
  kept : Stream → Bytes := fun _ => []
  runs : List Run := []
  truncated : Stream → Bool := fun _ => false

/-- What fits where `room` is left. -/
def cut (room : Option Nat) (data : Bytes) : Bytes :=
  match room with
  | none => data
  | some n => data.take n

/-- `len(data) > room`. -/
def Exceeds (room : Option Nat) (data : Bytes) : Prop := ∃ n ∈ room, n < data.length

instance (room : Option Nat) (data : Bytes) : Decidable (Exceeds room data) :=
  match room with
  | none => .isFalse (by simp [Exceeds])
  | some n => decidable_of_iff (n < data.length) (by simp [Exceeds])

/-- The last run goes on when it is of the same stream. -/
def addRun (runs : List Run) (stream : Stream) (start stop : Nat) : List Run :=
  match runs.getLast? with
  | some last =>
      if last.stream = stream then runs.dropLast ++ [{ last with stop }]
      else runs ++ [⟨stream, start, stop⟩]
  | none => runs ++ [⟨stream, start, stop⟩]

/-- `feed`, of a stream that is one of the two. -/
def Output.keep (o : Output) (s : Stream) (data : Bytes) : Output :=
  if data = [] then o
  else
    let room := o.limit.map (· - (o.kept s).length)
    let o := if Exceeds room data then { o with truncated := Function.update o.truncated s true } else o
    let data := cut room data
    if data = [] then o
    else
      { o with kept := Function.update o.kept s (o.kept s ++ data),
               runs := addRun o.runs s (o.kept s).length (o.kept s ++ data).length }

def Output.feed (o : Output) (stream : Nat) (data : Bytes) : Output := o.keep (streamOf stream) data

/-- Writes, one after the other. -/
def Output.feedAll (o : Output) (writes : List (Nat × Bytes)) : Output :=
  writes.foldl (fun o w => o.feed w.1 w.2) o

/-- `_usable_length`. -/
def usableLength (data : Bytes) (truncated : Bool) : Nat :=
  if truncated = false then data.length
  else
    match Utf8.decode data with
    | .ok _ => data.length
    | .error e =>
        if e.reason = "unexpected end of data" ∧ e.stop = data.length then e.start else data.length

/-- `_text`. -/
def text (data : Bytes) (truncated : Bool) : Except Utf8.DecodeError (List Char) :=
  Utf8.decode (data.take (usableLength data truncated))

/-- What of a stream `combined` has. -/
def Output.usable (o : Output) (s : Stream) : Nat := usableLength (o.kept s) (o.truncated s)

/-- What `combined` joins, with the streams it is of. -/
def Output.parts (o : Output) : List (Stream × Bytes) :=
  (o.runs.filter fun r => r.start < o.usable r.stream).map fun r =>
    (r.stream, ((o.kept r.stream).take (min r.stop (o.usable r.stream))).drop r.start)

def Output.combined (o : Output) : Bytes := o.parts.flatMap (·.2)

/-- What `combined` has of one stream. -/
def Output.combinedOf (o : Output) (s : Stream) : Bytes :=
  (o.parts.filter (·.1 = s)).flatMap (·.2)

/-- What a compute node answers.  Another node's answer may lack any of it. -/
structure Wire where
  b64 : Stream → Option (List Char)
  outputB64 : Option (List Char)
  outputTruncated : Option (List String)

/-- `as_wire`. -/
def Output.asWire (o : Output) : Wire :=
  { b64 := fun s => some (Base64.encode (o.kept s)),
    outputB64 := some (Base64.encode o.combined),
    outputTruncated := some (([.stderr, .stdout].filter o.truncated).map Stream.name) }

/-- A stream as a caller reads it. -/
structure Field where
  value : List Char
  encoding : String
deriving DecidableEq

structure ClientFields where
  field : Stream → Field
  outputTruncated : List String
  outputReplaced : List String
  output : List Char

/-- A stream that is no text is in base64. -/
def fieldOf (data : Bytes) (truncated : Bool) : Field :=
  match text data truncated with
  | .ok value => { value, encoding := "utf-8" }
  | .error _ => { value := Base64.encode data, encoding := "base64" }

/-- `client_fields`.  Nothing when what came is not base64. -/
def clientFields (w : Wire) : Option ClientFields := do
  let truncated := w.outputTruncated.getD []
  let stdout ← Base64.decode ((w.b64 .stdout).getD [])
  let stderr ← Base64.decode ((w.b64 .stderr).getD [])
  let output ← Base64.decode (w.outputB64.getD [])
  let field : Stream → Field
    | .stdout => fieldOf stdout (truncated.contains "stdout")
    | .stderr => fieldOf stderr (truncated.contains "stderr")
  return { field, outputTruncated := truncated,
           outputReplaced :=
             ([.stdout, .stderr].filter fun s => (field s).encoding = "base64").map Stream.name,
           output := Utf8.decodeReplace output }

/-! ## A byte at a time -/

theorem addRun_addRun (runs : List Run) (s : Stream) (a b c : Nat) :
    addRun (addRun runs s a b) s b c = addRun runs s a c := by
  unfold addRun
  cases hlast : runs.getLast? with
  | none => simp
  | some last =>
      by_cases hs : last.stream = s
      · simp [hs]
      · simp [hs]

/-- There is room for one byte more. -/
def Output.Room (o : Output) (s : Stream) : Prop := ∀ n ∈ o.limit, (o.kept s).length < n

instance (o : Output) (s : Stream) : Decidable (o.Room s) :=
  match h : o.limit with
  | none => .isTrue (by simp [Output.Room, h])
  | some n => decidable_of_iff ((o.kept s).length < n) (by simp [Output.Room, h])

/-- One byte more of a stream. -/
def Output.keepByte (o : Output) (s : Stream) (b : UInt8) : Output :=
  if o.Room s then
    { o with kept := Function.update o.kept s (o.kept s ++ [b]),
             runs := addRun o.runs s (o.kept s).length ((o.kept s).length + 1) }
  else { o with truncated := Function.update o.truncated s true }

@[simp] theorem Output.keep_nil (o : Output) (s : Stream) : o.keep s [] = o := if_pos rfl

theorem Output.keep_cons (o : Output) (s : Stream) (b : UInt8) (data : Bytes) :
    o.keep s (b :: data) = (o.keepByte s b).keep s data := by
  by_cases hroom : o.Room s
  · rw [keepByte, if_pos hroom]
    cases hlimit : o.limit with
    | none =>
        cases data with
        | nil => simp [keep, cut, Exceeds, hlimit]
        | cons c data => simp [keep, cut, Exceeds, hlimit, addRun_addRun, Nat.add_assoc, Nat.add_comm]
    | some n =>
        have hn : (o.kept s).length < n := hroom n hlimit
        obtain ⟨k, hk⟩ : ∃ k, n - (o.kept s).length = k + 1 := ⟨n - (o.kept s).length - 1, by omega⟩
        have hk' : n - ((o.kept s).length + 1) = k := by omega
        cases data with
        | nil => simp [keep, cut, Exceeds, hlimit, hk]
        | cons c data =>
            cases k with
            | zero => simp [keep, cut, Exceeds, hlimit, hk, hk']
            | succ k =>
                by_cases hlong : k < data.length
                · simp [keep, cut, Exceeds, hlimit, hk, hk', hlong, addRun_addRun]
                · simp [keep, cut, Exceeds, hlimit, hk, hk', hlong, addRun_addRun]
  · rw [keepByte, if_neg hroom]
    obtain ⟨n, hlimit, hn⟩ : ∃ n, o.limit = some n ∧ n ≤ (o.kept s).length := by
      simpa [Room] using hroom
    have hzero : n - (o.kept s).length = 0 := by omega
    cases data with
    | nil => simp [keep, cut, Exceeds, hlimit, hzero]
    | cons c data => simp [keep, cut, Exceeds, hlimit, hzero]

/-- A byte of one of the streams. -/
abbrev Tagged := Stream × UInt8

/-- The bytes that were written, in the order of writing. -/
def tagged (writes : List (Nat × Bytes)) : List Tagged :=
  writes.flatMap fun w => w.2.map (streamOf w.1, ·)

/-- What is kept of bytes in the order of writing. -/
def Output.keepAll (o : Output) (bytes : List Tagged) : Output :=
  bytes.foldl (fun o b => o.keepByte b.1 b.2) o

@[simp] theorem Output.keepAll_nil (o : Output) : o.keepAll [] = o := rfl

@[simp] theorem Output.keepAll_append (o : Output) (bytes bytes' : List Tagged) :
    o.keepAll (bytes ++ bytes') = (o.keepAll bytes).keepAll bytes' := List.foldl_append

theorem Output.keep_eq (o : Output) (s : Stream) (data : Bytes) :
    o.keep s data = o.keepAll (data.map (s, ·)) := by
  induction data generalizing o with
  | nil => simp
  | cons b data ih =>
      rw [keep_cons, ih]
      rfl

/-- Cuts between the writes of one stream make no difference. -/
theorem Output.feedAll_eq (o : Output) (writes : List (Nat × Bytes)) :
    o.feedAll writes = o.keepAll (tagged writes) := by
  induction writes generalizing o with
  | nil => rfl
  | cons w writes ih =>
      show (o.feed w.1 w.2).feedAll writes = o.keepAll (w.2.map (streamOf w.1, ·) ++ tagged writes)
      rw [ih, feed, keep_eq, keepAll_append]

/-! ## What is kept -/

/-- The bytes of one stream. -/
def bytesOf (s : Stream) (bytes : List Tagged) : Bytes := (bytes.filter (·.1 = s)).map (·.2)

/-- All that was written to a stream. -/
def written (s : Stream) (writes : List (Nat × Bytes)) : Bytes :=
  (writes.filter fun w => streamOf w.1 = s).flatMap (·.2)

@[simp] theorem bytesOf_nil (s : Stream) : bytesOf s [] = [] := rfl

@[simp] theorem bytesOf_append (s : Stream) (bytes bytes' : List Tagged) :
    bytesOf s (bytes ++ bytes') = bytesOf s bytes ++ bytesOf s bytes' := by
  simp [bytesOf]

theorem bytesOf_cons (s : Stream) (b : Tagged) (bytes : List Tagged) :
    bytesOf s (b :: bytes) = if b.1 = s then b.2 :: bytesOf s bytes else bytesOf s bytes := by
  by_cases hs : b.1 = s <;> simp [bytesOf, hs]

theorem bytesOf_map (s t : Stream) (data : Bytes) :
    bytesOf s (data.map (t, ·)) = if t = s then data else [] := by
  by_cases hs : t = s <;> simp [bytesOf, hs, List.filter_map, Function.comp_def]

theorem bytesOf_tagged (s : Stream) (writes : List (Nat × Bytes)) :
    bytesOf s (tagged writes) = written s writes := by
  induction writes with
  | nil => rfl
  | cons w writes ih =>
      show bytesOf s (w.2.map (streamOf w.1, ·) ++ tagged writes) = written s (w :: writes)
      rw [bytesOf_append, bytesOf_map, ih]
      by_cases hs : streamOf w.1 = s <;> simp [written, hs]

/-- An output that has taken nothing. -/
def Output.fresh (limit : Option Nat) : Output := { limit }

section

variable {o : Output} {s : Stream} {b : UInt8}

@[simp] theorem Output.limit_keepByte : (o.keepByte s b).limit = o.limit := by
  unfold keepByte
  split <;> rfl

@[simp] theorem Output.limit_keepAll (bytes : List Tagged) : (o.keepAll bytes).limit = o.limit := by
  induction bytes generalizing o with
  | nil => rfl
  | cons b bytes ih => exact (ih (o := o.keepByte b.1 b.2)).trans limit_keepByte

theorem Output.kept_keepByte (t : Stream) :
    (o.keepByte s b).kept t = if s = t ∧ o.Room s then o.kept t ++ [b] else o.kept t := by
  by_cases hroom : o.Room s
  · by_cases ht : s = t
    · subst ht
      simp [keepByte, hroom]
    · simp [keepByte, hroom, ht, Function.update_of_ne (Ne.symm ht)]
  · simp [keepByte, hroom]

theorem Output.truncated_keepByte (t : Stream) :
    (o.keepByte s b).truncated t = if s = t ∧ ¬o.Room s then true else o.truncated t := by
  by_cases hroom : o.Room s
  · simp [keepByte, hroom]
  · by_cases ht : s = t
    · subst ht
      simp [keepByte, hroom]
    · simp [keepByte, hroom, ht, Function.update_of_ne (Ne.symm ht)]

end

section

variable {limit : Option Nat} {data : Bytes}

theorem cut_append_singleton (b : UInt8) :
    cut limit (data ++ [b]) =
      if ∀ n ∈ limit, (cut limit data).length < n then cut limit data ++ [b] else cut limit data := by
  cases limit with
  | none => simp [cut]
  | some n =>
      by_cases hlen : data.length < n
      · rw [if_pos (by simp [cut]; omega)]
        simp only [cut, List.take_of_length_le (Nat.le_of_lt hlen)]
        exact List.take_of_length_le (by simp; omega)
      · rw [if_neg (by simp [cut]; omega)]
        exact List.take_append_of_le_length (by omega)

theorem exceeds_append_singleton (b : UInt8) :
    Exceeds limit (data ++ [b]) ↔ ¬∀ n ∈ limit, (cut limit data).length < n := by
  cases limit with
  | none => simp [Exceeds]
  | some n =>
      have hcut : (cut (some n) data).length = min n data.length := by simp [cut]
      simp only [Exceeds, Option.mem_some_iff, exists_eq_left', forall_eq', hcut, List.length_append,
        List.length_singleton]
      omega

theorem Exceeds.append (h : Exceeds limit data) (b : UInt8) : Exceeds limit (data ++ [b]) := by
  obtain ⟨n, hn, hlen⟩ := h
  exact ⟨n, hn, by simp; omega⟩

end

/-- What is kept of each stream, and which ones lost bytes. -/
structure Prefix (o : Output) (bytes : List Tagged) : Prop where
  kept : ∀ s, o.kept s = cut o.limit (bytesOf s bytes)
  truncated : ∀ s, o.truncated s = true ↔ Exceeds o.limit (bytesOf s bytes)

theorem Prefix.fresh (limit : Option Nat) : Prefix (.fresh limit) [] := by
  constructor
  · intro s
    cases limit <;> simp [Output.fresh, cut]
  · simp [Output.fresh, Exceeds]

theorem Prefix.keepByte {o : Output} {bytes : List Tagged} (h : Prefix o bytes) (s : Stream)
    (b : UInt8) : Prefix (o.keepByte s b) (bytes ++ [(s, b)]) := by
  have hroom : o.Room s ↔ ∀ n ∈ o.limit, (cut o.limit (bytesOf s bytes)).length < n := by
    rw [← h.kept s]
    rfl
  constructor
  · intro t
    rw [Output.kept_keepByte, Output.limit_keepByte, bytesOf_append, bytesOf_cons]
    by_cases ht : s = t
    · subst ht
      simp only [true_and, ↓reduceIte, bytesOf_nil]
      rw [cut_append_singleton, h.kept s]
      simp only [hroom]
    · simp [ht, h.kept t]
  · intro t
    rw [Output.truncated_keepByte, Output.limit_keepByte, bytesOf_append, bytesOf_cons]
    by_cases ht : s = t
    · subst ht
      simp only [true_and, ↓reduceIte, bytesOf_nil]
      rw [exceeds_append_singleton, ← hroom]
      by_cases hfull : o.Room s
      · simp only [hfull, not_true, ↓reduceIte, iff_false]
        intro htrunc
        have := ((h.truncated s).mp htrunc).append b
        rw [exceeds_append_singleton, ← hroom] at this
        exact this hfull
      · simp [hfull]
    · simp [ht, h.truncated t]

/-- A property of what was written that holds at first and after one byte more. -/
theorem Output.keepAll_induction (limit : Option Nat) {P : Output → List Tagged → Prop}
    (hfresh : P (.fresh limit) [])
    (hbyte : ∀ o bytes s b, o.limit = limit → P o bytes → P (o.keepByte s b) (bytes ++ [(s, b)]))
    (bytes : List Tagged) : P ((fresh limit).keepAll bytes) bytes := by
  induction bytes using List.reverseRecOn with
  | nil => exact hfresh
  | append_singleton bytes b ih =>
      rw [keepAll_append]
      exact hbyte _ _ _ _ (by simp [fresh]) ih

theorem Prefix.keepAll (limit : Option Nat) (bytes : List Tagged) :
    Prefix ((Output.fresh limit).keepAll bytes) bytes :=
  Output.keepAll_induction limit (P := Prefix) (.fresh limit) (fun _ _ s b _ h => h.keepByte s b) bytes

/-! ## The order of writing -/

/-- Of each stream its first bytes, so many of them, in the order they have. -/
def sift (n : Stream → Nat) : List Tagged → List Tagged
  | [] => []
  | b :: bytes =>
      if 0 < n b.1 then b :: sift (Function.update n b.1 (n b.1 - 1)) bytes else sift n bytes

theorem bytesOf_sift (s : Stream) (n : Stream → Nat) (bytes : List Tagged) :
    bytesOf s (sift n bytes) = (bytesOf s bytes).take (n s) := by
  induction bytes generalizing n with
  | nil => simp [sift]
  | cons b bytes ih =>
      by_cases hn : 0 < n b.1
      · rw [sift, if_pos hn, bytesOf_cons, bytesOf_cons, ih]
        by_cases hs : b.1 = s
        · subst hs
          obtain ⟨k, hk⟩ : ∃ k, n b.1 = k + 1 := ⟨n b.1 - 1, by omega⟩
          simp [hk]
        · simp [hs, Function.update_of_ne (Ne.symm hs)]
      · rw [sift, if_neg hn, bytesOf_cons, ih]
        by_cases hs : b.1 = s
        · subst hs
          have hzero : n b.1 = 0 := by omega
          simp [hzero]
        · simp [hs]

theorem sift_append (n : Stream → Nat) (bytes bytes' : List Tagged) :
    sift n (bytes ++ bytes') =
      sift n bytes ++ sift (fun s => n s - (bytesOf s bytes).length) bytes' := by
  induction bytes generalizing n with
  | nil => simp [sift]
  | cons b bytes ih =>
      have hcount (m : Stream → Nat) (hm : m b.1 = n b.1 - 1) (hm' : ∀ s, s ≠ b.1 → m s = n s) :
          (fun s => m s - (bytesOf s bytes).length) =
            fun s => n s - (bytesOf s (b :: bytes)).length := by
        funext s
        rw [bytesOf_cons]
        by_cases hs : b.1 = s
        · subst hs
          simp only [hm, ↓reduceIte, List.length_cons]
          omega
        · simp [hs, hm' s (Ne.symm hs)]
      by_cases hn : 0 < n b.1
      · rw [List.cons_append, sift, sift, if_pos hn, if_pos hn, ih,
          hcount _ (Function.update_self ..) fun s hs => Function.update_of_ne hs .., List.cons_append]
      · rw [List.cons_append, sift, sift, if_neg hn, if_neg hn, ih,
          hcount n (by omega) fun _ _ => rfl]

theorem sift_append_singleton (n : Stream → Nat) (bytes : List Tagged) (s : Stream) (b : UInt8) :
    sift n (bytes ++ [(s, b)]) =
      sift n bytes ++ if (bytesOf s bytes).length < n s then [(s, b)] else [] := by
  rw [sift_append]
  by_cases hlen : (bytesOf s bytes).length < n s
  · simp [sift, hlen, Nat.sub_pos_of_lt hlen]
  · simp [sift, hlen, Nat.sub_eq_zero_of_le (Nat.le_of_not_lt hlen)]

/-- The runs again, each stream up to a bound. -/
def Output.taken (o : Output) (n : Stream → Nat) : List Tagged :=
  o.runs.flatMap fun r =>
    (((o.kept r.stream).take (min r.stop (n r.stream))).drop r.start).map (r.stream, ·)

/-- The runs are of what is kept, and the last one ends where its stream does. -/
structure Runs (o : Output) : Prop where
  stop : ∀ r ∈ o.runs, r.stop ≤ (o.kept r.stream).length
  start : ∀ r ∈ o.runs, r.start ≤ r.stop
  last : ∀ r, o.runs.getLast? = some r → r.stop = (o.kept r.stream).length

section

variable {data : Bytes} {b : UInt8} {start stop n : Nat}

theorem slice_append (h : stop ≤ data.length) :
    ((data ++ [b]).take (min stop n)).drop start = (data.take (min stop n)).drop start := by
  rw [List.take_append_of_le_length (by omega)]

/-- A run that goes to the end has one byte more. -/
theorem slice_append_last (h : start ≤ data.length) :
    ((data ++ [b]).take (min (data.length + 1) n)).drop start =
      (data.take (min data.length n)).drop start ++ if data.length < n then [b] else [] := by
  by_cases hn : data.length < n
  · rw [if_pos hn, Nat.min_eq_left (by omega), Nat.min_eq_left (by omega), List.take_length,
      List.take_of_length_le (by simp), List.drop_append_of_le_length h]
  · rw [if_neg hn, Nat.min_eq_right (by omega), Nat.min_eq_right (by omega),
      List.take_append_of_le_length (by omega), List.append_nil]

end

theorem Runs.fresh (limit : Option Nat) : Runs (.fresh limit) := by
  constructor <;> simp [Output.fresh]

/-- What a byte with room does to the runs. -/
theorem addRun_cases (runs : List Run) (s : Stream) (a b : Nat) :
    (∃ init last, runs = init ++ [last] ∧ last.stream = s ∧
      addRun runs s a b = init ++ [⟨s, last.start, b⟩]) ∨ addRun runs s a b = runs ++ [⟨s, a, b⟩] := by
  unfold addRun
  cases hlast : runs.getLast? with
  | none => exact .inr rfl
  | some last =>
      by_cases hs : last.stream = s
      · subst hs
        refine .inl ⟨runs.dropLast, last, ?_, rfl, by simp⟩
        exact (List.dropLast_append_getLast? last hlast).symm
      · exact .inr (if_neg hs)

/-- Runs before one that goes to the end of its stream. -/
theorem Runs.of_concat {o : Output} {init : List Run} {r : Run} (hruns : o.runs = init ++ [r])
    (hinit : ∀ r ∈ init, r.stop ≤ (o.kept r.stream).length ∧ r.start ≤ r.stop)
    (hstart : r.start ≤ r.stop) (hlast : r.stop = (o.kept r.stream).length) : Runs o := by
  constructor
  · intro r' hr'
    rw [hruns, List.mem_append, List.mem_singleton] at hr'
    rcases hr' with hr' | rfl
    · exact (hinit r' hr').1
    · exact Nat.le_of_eq hlast
  · intro r' hr'
    rw [hruns, List.mem_append, List.mem_singleton] at hr'
    rcases hr' with hr' | rfl
    · exact (hinit r' hr').2
    · exact hstart
  · intro r' hr'
    rw [hruns, List.getLast?_concat] at hr'
    injection hr' with hr'
    rw [← hr', hlast]

/-- What does not change when there is no room. -/
theorem Output.keepByte_full {o : Output} {s : Stream} (b : UInt8) (h : ¬o.Room s) :
    (o.keepByte s b).kept = o.kept ∧ (o.keepByte s b).runs = o.runs := by
  simp [keepByte, h]

theorem Output.runs_keepByte {o : Output} {s : Stream} (b : UInt8) (h : o.Room s) :
    (o.keepByte s b).runs = addRun o.runs s (o.kept s).length ((o.kept s).length + 1) := by
  simp [keepByte, h]

theorem Runs.keepByte {o : Output} (h : Runs o) (s : Stream) (b : UInt8) : Runs (o.keepByte s b) := by
  by_cases hroom : o.Room s
  · have hself : ((o.keepByte s b).kept s).length = (o.kept s).length + 1 := by
      rw [Output.kept_keepByte, if_pos ⟨rfl, hroom⟩, List.length_append, List.length_singleton]
    have hold (r : Run) (hr : r ∈ o.runs) :
        r.stop ≤ ((o.keepByte s b).kept r.stream).length ∧ r.start ≤ r.stop := by
      have hstop := h.stop r hr
      refine ⟨?_, h.start r hr⟩
      rw [Output.kept_keepByte]
      split
      · simp
        omega
      · exact hstop
    have hruns := Output.runs_keepByte b hroom
    rcases addRun_cases o.runs s (o.kept s).length ((o.kept s).length + 1) with
      ⟨init, last, hinit, hs, hadd⟩ | hadd
    · have hmem : last ∈ o.runs := by rw [hinit]; simp
      have hlast := h.last last (by rw [hinit]; simp)
      have hstart := h.start last hmem
      rw [hs] at hlast
      rw [hadd] at hruns
      refine .of_concat hruns (fun r hr => hold r (by rw [hinit]; simp [hr])) ?_ hself.symm
      show last.start ≤ (o.kept s).length + 1
      omega
    · rw [hadd] at hruns
      exact .of_concat hruns hold (Nat.le_succ _) hself.symm
  · obtain ⟨hkept, hruns⟩ := Output.keepByte_full b hroom
    constructor
    · rw [hruns, hkept]
      exact h.stop
    · rw [hruns]
      exact h.start
    · rw [hruns, hkept]
      exact h.last

/-- A byte that is kept comes last. -/
theorem Runs.taken_keepByte {o : Output} (h : Runs o) (s : Stream) (b : UInt8) (n : Stream → Nat) :
    (o.keepByte s b).taken n =
      o.taken n ++ if o.Room s ∧ (o.kept s).length < n s then [(s, b)] else [] := by
  by_cases hroom : o.Room s
  · have hself : (o.keepByte s b).kept s = o.kept s ++ [b] := by
      rw [Output.kept_keepByte, if_pos ⟨rfl, hroom⟩]
    have hruns := Output.runs_keepByte b hroom
    -- The runs before are as they were.
    have hold (runs : List Run) (hsub : ∀ r ∈ runs, r ∈ o.runs) :
        (runs.flatMap fun r => ((((o.keepByte s b).kept r.stream).take
            (min r.stop (n r.stream))).drop r.start).map (r.stream, ·)) =
          runs.flatMap fun r =>
            (((o.kept r.stream).take (min r.stop (n r.stream))).drop r.start).map (r.stream, ·) := by
      refine List.flatMap_congr fun r hr => ?_
      rw [Output.kept_keepByte]
      split
      · rw [slice_append (h.stop r (hsub r hr))]
      · rfl
    have hcond : (if o.Room s ∧ (o.kept s).length < n s then [(s, b)] else []) =
        (if (o.kept s).length < n s then [b] else []).map (s, ·) := by
      by_cases hlen : (o.kept s).length < n s <;> simp [hroom, hlen]
    rw [hcond, Output.taken, Output.taken, hruns]
    rcases addRun_cases o.runs s (o.kept s).length ((o.kept s).length + 1) with
      ⟨init, last, hinit, hs, hadd⟩ | hadd
    · have hlast := h.last last (by rw [hinit]; simp)
      have hstart := h.start last (by rw [hinit]; simp)
      subst hs
      rw [hadd, hinit, List.flatMap_append, List.flatMap_append,
        hold init fun r hr => by rw [hinit]; simp [hr], List.append_assoc]
      congr 1
      simp only [List.flatMap_singleton, hself]
      rw [slice_append_last (by omega), List.map_append, hlast]
    · rw [hadd, List.flatMap_append, hold o.runs fun r hr => hr]
      congr 1
      simp only [List.flatMap_singleton, hself]
      have hnone : ((o.kept s).take (min (o.kept s).length (n s))).drop (o.kept s).length = [] :=
        List.drop_of_length_le (by simp only [List.length_take]; omega)
      rw [slice_append_last (Nat.le_refl _), hnone, List.nil_append]
  · obtain ⟨hkept, hruns⟩ := Output.keepByte_full b hroom
    simp [Output.taken, hkept, hruns, hroom]

/-- The runs have the bytes in the order of writing. -/
theorem Output.taken_keepAll (limit : Option Nat) (n : Stream → Nat)
    (hn : ∀ s, ∀ l ∈ limit, n s ≤ l) (bytes : List Tagged) :
    ((fresh limit).keepAll bytes).taken n = sift n bytes := by
  have hall := keepAll_induction limit
    (P := fun o bytes => (Runs o ∧ Prefix o bytes) ∧ o.taken n = sift n bytes)
    ⟨⟨.fresh limit, .fresh limit⟩, by simp [taken, fresh, sift]⟩ ?_ bytes
  · exact hall.2
  · rintro o bytes s b hlimit ⟨⟨hruns, hrun⟩, htaken⟩
    refine ⟨⟨hruns.keepByte s b, hrun.keepByte s b⟩, ?_⟩
    rw [hruns.taken_keepByte, htaken, sift_append_singleton]
    congr 1
    have hcond : (o.Room s ∧ (o.kept s).length < n s) ↔ (bytesOf s bytes).length < n s := by
      unfold Room
      rw [hrun.kept s, hlimit]
      cases limit with
      | none => simp [cut]
      | some l =>
          have := hn s l rfl
          simp only [cut, List.length_take, Option.mem_some_iff, forall_eq']
          omega
    simp only [hcond]

/-! ## What a caller reads -/

/-- What `_usable_length` leaves out is a character that the end cuts, and then what is left is
text. -/
theorem usableLength_cases (data : Bytes) (truncated : Bool) :
    usableLength data truncated = data.length ∨
      (truncated = true ∧ usableLength data truncated < data.length ∧
        Utf8.Whole (data.take (usableLength data truncated)) ∧
        Utf8.first (data.drop (usableLength data truncated)) = none ∧
        Utf8.fault (data.drop (usableLength data truncated)) = .endOfData) := by
  cases truncated with
  | false => exact .inl rfl
  | true =>
      unfold usableLength
      rw [if_neg (by decide)]
      cases hdec : Utf8.decode data with
      | ok text => exact .inl rfl
      | error e =>
          obtain ⟨-, hlt, hwhole, hnone, hreason, -⟩ := Utf8.stops_of_decode hdec
          simp only [Nat.sub_zero] at hlt hwhole hnone hreason
          by_cases hcut : e.reason = "unexpected end of data" ∧ e.stop = data.length
          · simp only [if_pos hcut]
            refine .inr ⟨trivial, hlt, hwhole, hnone, ?_⟩
            rw [hcut.1] at hreason
            cases hfault : Utf8.fault (data.drop e.start) with
            | startByte => simp [hfault, Utf8.Fault.reason] at hreason
            | continuation n => simp [hfault, Utf8.Fault.reason] at hreason
            | endOfData => rfl
          · simp only [if_neg hcut, true_or]

theorem usableLength_le (data : Bytes) (truncated : Bool) :
    usableLength data truncated ≤ data.length := by
  rcases usableLength_cases data truncated with h | ⟨-, h, -⟩ <;> omega

/-- The bytes that a field stands for. -/
def Field.bytes (f : Field) : Option Bytes :=
  if f.encoding = "utf-8" then some (Utf8.encode f.value) else Base64.decode f.value

/-- A caller reads the usable part, in whichever way. -/
theorem bytes_fieldOf (data : Bytes) (truncated : Bool) :
    (fieldOf data truncated).bytes = some (data.take (usableLength data truncated)) := by
  unfold fieldOf
  cases htext : text data truncated with
  | ok value => simp [Field.bytes, Utf8.encode_of_decode htext]
  | error e =>
      -- What has lost a partial character is text.
      have hall : usableLength data truncated = data.length := by
        rcases usableLength_cases data truncated with h | ⟨-, -, hwhole, -⟩
        · exact h
        · obtain ⟨value, hvalue⟩ := Utf8.whole_iff_decode.mp hwhole
          rw [text, hvalue] at htext
          cases htext
      simp [Field.bytes, Base64.decode_encode, hall]

theorem encoding_fieldOf (data : Bytes) (truncated : Bool) :
    (fieldOf data truncated).encoding = "base64" ↔
      ¬Utf8.Whole (data.take (usableLength data truncated)) := by
  rw [Utf8.whole_iff_decode]
  unfold fieldOf text
  cases Utf8.decode (data.take (usableLength data truncated)) with
  | ok value => simp
  | error e => simp

section

variable (o : Output)

/-- `combined` is the runs up to what is usable. -/
theorem Output.parts_eq_taken :
    (o.parts.flatMap fun p => p.2.map (p.1, ·)) = o.taken o.usable := by
  unfold parts taken
  rw [List.flatMap_map]
  induction o.runs with
  | nil => rfl
  | cons r runs ih =>
      by_cases hr : r.start < o.usable r.stream
      · rw [List.filter_cons_of_pos (by simpa using hr), List.flatMap_cons, List.flatMap_cons, ih]
      · rw [List.filter_cons_of_neg (by simpa using hr), List.flatMap_cons, ih,
          List.drop_of_length_le (by simp only [List.length_take]; omega)]
        rfl

theorem Output.combined_eq : o.combined = (o.taken o.usable).map (·.2) := by
  rw [← parts_eq_taken, combined, List.map_flatMap]
  simp [Function.comp_def]

theorem Output.combinedOf_eq (s : Stream) : o.combinedOf s = bytesOf s (o.taken o.usable) := by
  rw [← parts_eq_taken, combinedOf]
  induction o.parts with
  | nil => rfl
  | cons p parts ih =>
      rw [List.flatMap_cons, bytesOf_append, bytesOf_map, ← ih]
      by_cases hs : p.1 = s <;> simp [hs]

/-- The streams that `as_wire` names are those that lost bytes. -/
theorem Output.contains_truncated (s : Stream) :
    ((([.stderr, .stdout].filter o.truncated).map Stream.name).contains s.name) = o.truncated s := by
  cases hout : o.truncated .stdout <;> cases herr : o.truncated .stderr <;> cases s <;>
    simp [Stream.name, hout, herr]

/-- What the API makes of what a compute node sends. -/
theorem Output.clientFields_asWire :
    ∃ fields, clientFields o.asWire = some fields ∧
      (∀ s, fields.field s = fieldOf (o.kept s) (o.truncated s)) ∧
      fields.outputReplaced =
        ([.stdout, .stderr].filter fun s => (fields.field s).encoding = "base64").map Stream.name ∧
      fields.output = Utf8.decodeReplace o.combined := by
  have hout := o.contains_truncated .stdout
  have herr := o.contains_truncated .stderr
  simp only [Stream.name] at hout herr
  refine ⟨_, by simp only [clientFields, asWire, Option.getD_some, Base64.decode_encode, bind,
    Option.bind_some, pure]; rfl, fun s => ?_, rfl, rfl⟩
  cases s with
  | stdout => simp only [hout]
  | stderr => simp only [herr]

end

/-! ## An output is an honest prefix -/

/-- What is left of the writes of a command. -/
def Output.of (limit : Option Nat) (writes : List (Nat × Bytes)) : Output :=
  (fresh limit).feedAll writes

section

variable (limit : Option Nat) (writes : List (Nat × Bytes))

theorem Output.of_eq : of limit writes = (fresh limit).keepAll (tagged writes) := feedAll_eq ..

theorem Output.kept_of (s : Stream) : (of limit writes).kept s = cut limit (written s writes) := by
  rw [of_eq, (Prefix.keepAll limit (tagged writes)).kept, bytesOf_tagged, limit_keepAll]
  rfl

theorem Output.truncated_of (s : Stream) :
    (of limit writes).truncated s = true ↔ Exceeds limit (written s writes) := by
  rw [of_eq, (Prefix.keepAll limit (tagged writes)).truncated, bytesOf_tagged, limit_keepAll]
  rfl

theorem Output.usable_le (o : Output) (s : Stream) : o.usable s ≤ (o.kept s).length :=
  usableLength_le ..

theorem length_cut_le {room : Option Nat} {n : Nat} (h : n ∈ room) (data : Bytes) :
    (cut room data).length ≤ n := by
  rw [Option.mem_def.mp h]
  exact List.length_take_le ..

/-- What is usable, in the order of writing. -/
theorem Output.taken_of :
    (of limit writes).taken (of limit writes).usable =
      sift (of limit writes).usable (tagged writes) := by
  have hle : ∀ s, ∀ l ∈ limit, (of limit writes).usable s ≤ l := by
    intro s l hl
    have hkept := length_cut_le hl (written s writes)
    rw [← kept_of limit writes s] at hkept
    exact Nat.le_trans (usable_le _ s) hkept
  have htaken := taken_keepAll limit (of limit writes).usable hle (tagged writes)
  rw [← of_eq] at htaken
  exact htaken

theorem Output.combinedOf_of (s : Stream) :
    (of limit writes).combinedOf s =
      ((of limit writes).kept s).take ((of limit writes).usable s) := by
  have hle := (of limit writes).usable_le s
  rw [combinedOf_eq, taken_of, bytesOf_sift, bytesOf_tagged, kept_of]
  rw [kept_of] at hle
  cases limit with
  | none => rfl
  | some n =>
      simp only [cut, List.length_take] at hle ⊢
      rw [List.take_take, Nat.min_eq_left (by omega)]

theorem length_eq_bytesOf (bytes : List Tagged) :
    bytes.length = (bytesOf .stdout bytes).length + (bytesOf .stderr bytes).length := by
  induction bytes with
  | nil => rfl
  | cons b bytes ih =>
      obtain ⟨s, b⟩ := b
      cases s <;> simp [bytesOf_cons, ih] <;> omega

theorem Output.length_combined_le :
    (of limit writes).combined.length ≤
      ((of limit writes).kept .stdout).length + ((of limit writes).kept .stderr).length := by
  have hof (s : Stream) : (bytesOf s ((of limit writes).taken (of limit writes).usable)).length ≤
      ((of limit writes).kept s).length := by
    rw [← combinedOf_eq, combinedOf_of, List.length_take]
    omega
  have hout := hof .stdout
  have herr := hof .stderr
  rw [combined_eq, List.length_map, length_eq_bytesOf]
  omega

end

/-- How many characters a reply has. -/
def Wire.size (w : Wire) : Nat :=
  ((w.b64 .stdout).getD []).length + ((w.b64 .stderr).getD []).length +
    (w.outputB64.getD []).length + (String.join (w.outputTruncated.getD [])).length

/-- What is left of some writes is their first bytes, and says what it lacks. -/
structure Honest (limit : Option Nat) (writes : List (Nat × Bytes)) (o : Output) : Prop where
  kept : ∀ s, o.kept s = cut limit (written s writes)
  truncated : ∀ s, s.name ∈ o.asWire.outputTruncated.getD [] ↔ Exceeds limit (written s writes)
  /-- Writes of the same bytes in the same order, cut otherwise. -/
  cuts : ∀ writes', tagged writes' = tagged writes → .of limit writes' = o
  /-- What a caller reads of a stream is what `combined` has of it.  Some bytes less are kept of a
  stream that was truncated inside a character. -/
  fields : ∃ fields, clientFields o.asWire = some fields ∧
    ∀ s, (fields.field s).bytes = some (o.combinedOf s) ∧
      ∃ lost, o.kept s = o.combinedOf s ++ lost ∧ lost.length ≤ 3 ∧
        (lost ≠ [] → Exceeds limit (written s writes) ∧ Utf8.first lost = none ∧
          Utf8.fault lost = .endOfData)
  size : 3 * o.asWire.size ≤ 4 * (2 * ((o.kept .stdout).length + (o.kept .stderr).length)) + 60

theorem length_truncated_le (o : Output) :
    (String.join (o.asWire.outputTruncated.getD [])).length ≤ 12 := by
  cases hout : o.truncated .stdout <;> cases herr : o.truncated .stderr <;>
    simp [Output.asWire, Stream.name, hout, herr] <;> decide

end ExecOutput

end Zun
