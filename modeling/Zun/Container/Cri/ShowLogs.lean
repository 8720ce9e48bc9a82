import Mathlib.Data.List.Basic
import Mathlib.Data.List.Forall2
import Mathlib.Data.Nat.Basic
import Mathlib.Order.Lattice

/-!
# Reading the logs of a CRI container

`show_logs` of `zun/container/cri/driver.py`, on the bytes of the files the runtime wrote.  A record is
`<stamp> <stream> <P|F> <text>`.  A line that is too long for the runtime is several records, all of them
`P` but the last, and the records of one stream come between those of the other.

The reader keeps one partial line for both streams, and drops records that are too old one by one.  What
it shows are lines as long as each partial record belongs to the line that ends next, and as no line has
records on both sides of `since`.
-/

namespace Zun

namespace ShowLogs

abbrev Bytes := List UInt8

def newline : UInt8 := 10

def space : UInt8 := 32

/-! ## The reader -/

/-- `for raw in fd`. -/
def splitLines : Bytes → List Bytes
  | [] => []
  | b :: bs =>
      if b = newline then [b] :: splitLines bs
      else
        match splitLines bs with
        | [] => [[b]]
        | l :: ls => (b :: l) :: ls

/-- The bytes before the first space, and those after it. -/
def cut : Bytes → Option (Bytes × Bytes)
  | [] => none
  | b :: bs => if b = space then some ([], bs) else (cut bs).map fun p => (b :: p.1, p.2)

/-- What `_parse_log_line` makes of a line, with the raw stamp beside it. -/
structure Parsed (τ : Type) where
  rawStamp : Bytes
  stamp : Option τ
  stream : Bytes
  isPartial : Bool
  text : Bytes

variable {τ : Type}

/-- `_parse_log_line`. -/
def parseLogLine (parseStamp : Bytes → Option τ) (raw : Bytes) : Option (Parsed τ) := do
  let (rawStamp, rest) ← cut raw
  let (stream, rest) ← cut rest
  let (tag, text) ← cut rest
  return ⟨rawStamp, parseStamp rawStamp, stream, tag.head? = some 80, text⟩

def stdoutName : Bytes := [115, 116, 100, 111, 117, 116]

def stderrName : Bytes := [115, 116, 100, 101, 114, 114]

/-- The arguments of `show_logs`, parsed. -/
structure Options (τ : Type) where
  stdout : Bool := true
  stderr : Bool := true
  timestamps : Bool := false
  tail : Option Int := none
  since : Option τ := none

variable [LinearOrder τ]

/-- The stamp is before `since`. -/
def Options.old (o : Options τ) (stamp : Option τ) : Bool :=
  match o.since, stamp with
  | some since, some stamp => decide (stamp < since)
  | _, _ => false

/-- The record is passed over. -/
def Options.skips (o : Options τ) (p : Parsed τ) : Bool :=
  (p.stream = stdoutName && !o.stdout) || (p.stream = stderrName && !o.stderr) || o.old p.stamp

/-- `text.rstrip(b'\n')`. -/
def stripEnd (text : Bytes) : Bytes := (text.reverse.dropWhile (· = newline)).reverse

/-- What the loop keeps from one line to the next. -/
structure Reading where
  lines : List Bytes := []
  /-- The variable `partial`. -/
  pieces : List Bytes := []
  partialStamp : Bytes := []

/-- A turn of the loop. -/
def Reading.read (parseStamp : Bytes → Option τ) (o : Options τ) (s : Reading) (raw : Bytes) : Reading :=
  match parseLogLine parseStamp raw with
  | none => s
  | some p =>
      if o.skips p then s
      else if p.isPartial then
        { s with pieces := s.pieces ++ [stripEnd p.text], partialStamp := p.rawStamp }
      else
        let line := (s.pieces ++ [p.text]).flatten
        { s with
          lines := s.lines ++
            [if o.timestamps = true ∧ p.stamp.isSome = true then p.rawStamp ++ space :: line else line]
          pieces := [] }

/-- The lines, with what has no end yet. -/
def Reading.finish (o : Options τ) (s : Reading) : List Bytes :=
  if s.pieces = [] then s.lines
  else
    let line := s.pieces.flatten ++ [newline]
    s.lines ++ [if o.timestamps = true then s.partialStamp ++ space :: line else line]

/-- `lines[-tail:]`, for a `tail` that is not negative. -/
def lastLines (tail : Option Int) (lines : List Bytes) : List Bytes :=
  match tail with
  | some tail => if 0 ≤ tail then lines.drop (lines.length - tail.toNat) else lines
  | none => lines

/-- `show_logs`.  A file is `none` if it went after it was listed. -/
def showLogs (parseStamp : Bytes → Option τ) (o : Options τ) (files : List (Option Bytes)) : Bytes :=
  let raws := (files.filterMap id).flatMap splitLines
  (lastLines o.tail ((raws.foldl (Reading.read parseStamp o) {}).finish o)).flatten

/-! ## The writer -/

inductive Stream where
  | stdout
  | stderr
deriving DecidableEq

def Stream.name : Stream → Bytes
  | .stdout => stdoutName
  | .stderr => stderrName

/-- A record of the runtime's. -/
structure Record where
  stamp : Bytes
  stream : Stream
  isPartial : Bool
  text : Bytes
deriving DecidableEq

/-- A text has no newline, and a stamp no space either. -/
structure Record.Plain (r : Record) : Prop where
  stamp : space ∉ r.stamp ∧ newline ∉ r.stamp
  text : newline ∉ r.text

def Record.encode (r : Record) : Bytes :=
  r.stamp ++ space :: (r.stream.name ++ space :: (if r.isPartial then 80 else 70) :: space :: r.text) ++
    [newline]

/-- A line as it was written: with the stamp of its last record. -/
structure Line where
  stamp : Bytes
  stream : Stream
  text : Bytes
deriving DecidableEq

/-- The lines of the records, each when its last record comes, given what each stream has begun. -/
def linesFrom (begun : Stream → Bytes) : List Record → List Line
  | [] => []
  | r :: rs =>
      if r.isPartial then
        linesFrom (fun s => if s = r.stream then begun s ++ r.text else begun s) rs
      else
        ⟨r.stamp, r.stream, begun r.stream ++ r.text⟩ ::
          linesFrom (fun s => if s = r.stream then [] else begun s) rs

/-- The lines that were written. -/
def written (rs : List Record) : List Line := linesFrom (fun _ => []) rs

/-- The record that ends what the stream has begun. -/
def endOf (s : Stream) (rs : List Record) : Option Record :=
  rs.find? fun r => !r.isPartial && r.stream = s

/-- Every line that was begun is ended. -/
def Ended : List Record → Prop
  | [] => True
  | r :: rs => (r.isPartial = true → endOf r.stream rs ≠ none) ∧ Ended rs

def Options.chooses (o : Options τ) : Stream → Bool
  | .stdout => o.stdout
  | .stderr => o.stderr

/-- The bytes of a line, as they are shown. -/
def Line.render (parseStamp : Bytes → Option τ) (timestamps : Bool) (l : Line) : Bytes :=
  if timestamps = true ∧ (parseStamp l.stamp).isSome = true then l.stamp ++ space :: (l.text ++ [newline])
  else l.text ++ [newline]
/-! ## Bytes -/

theorem splitLines_cons {b : UInt8} (hb : b ≠ newline) {bs l : Bytes} {ls : List Bytes}
    (h : splitLines bs = l :: ls) : splitLines (b :: bs) = (b :: l) :: ls := by
  simp [splitLines, hb, h]

theorem splitLines_line {l : Bytes} (hl : newline ∉ l) (rest : Bytes) :
    splitLines (l ++ newline :: rest) = (l ++ [newline]) :: splitLines rest := by
  induction l with
  | nil => simp [splitLines]
  | cons b l ih =>
      rw [List.mem_cons, not_or] at hl
      exact splitLines_cons (Ne.symm hl.1) (ih hl.2)

/-- Lines that end where they should are read back. -/
theorem splitLines_flatten {ls : List Bytes} (h : ∀ l ∈ ls, newline ∉ l) :
    splitLines (ls.map (· ++ [newline])).flatten = ls.map (· ++ [newline]) := by
  induction ls with
  | nil => rfl
  | cons l ls ih =>
      obtain ⟨hl, hls⟩ := List.forall_mem_cons.mp h
      have hcons : ((l :: ls).map (· ++ [newline])).flatten =
          l ++ newline :: (ls.map (· ++ [newline])).flatten := by simp
      rw [hcons, splitLines_line hl, ih hls, List.map_cons]

theorem cut_append {a : Bytes} (ha : space ∉ a) (rest : Bytes) : cut (a ++ space :: rest) = some (a, rest) := by
  induction a with
  | nil => simp [cut]
  | cons b a ih =>
      rw [List.mem_cons, not_or] at ha
      simp [cut, Ne.symm ha.1, ih ha.2]

theorem stripEnd_line {text : Bytes} (h : newline ∉ text) : stripEnd (text ++ [newline]) = text := by
  have hdrop : ∀ l : Bytes, newline ∉ l → l.dropWhile (· = newline) = l := by
    intro l hl
    cases l with
    | nil => rfl
    | cons b l =>
        rw [List.mem_cons, not_or] at hl
        simp [Ne.symm hl.1]
  simp [stripEnd, hdrop text.reverse (by simpa using h)]

/-! ## Records -/

section

variable {parseStamp : Bytes → Option τ} {o : Options τ} {r : Record} {rs : List Record}

theorem Stream.name_plain (s : Stream) : space ∉ s.name ∧ newline ∉ s.name := by
  cases s <;> decide

omit [LinearOrder τ] in
theorem parseLogLine_encode (h : r.Plain) : parseLogLine parseStamp r.encode =
    some ⟨r.stamp, parseStamp r.stamp, r.stream.name, r.isPartial, r.text ++ [newline]⟩ := by
  have htag : ∀ tag : UInt8, tag ≠ space → cut (tag :: space :: (r.text ++ [newline])) =
      some ([tag], r.text ++ [newline]) := by
    intro tag htag
    have hmem : space ∉ [tag] := by simpa using htag.symm
    exact cut_append hmem _
  have hencode : r.encode = r.stamp ++ space :: (r.stream.name ++ space ::
      ((if r.isPartial then 80 else 70) :: space :: (r.text ++ [newline]))) := by simp [Record.encode]
  rw [hencode]
  cases r.isPartial with
  | true =>
      simp [parseLogLine, cut_append h.stamp.1, cut_append r.stream.name_plain.1, htag 80 (by decide)]
  | false =>
      simp [parseLogLine, cut_append h.stamp.1, cut_append r.stream.name_plain.1, htag 70 (by decide)]

/-- What a record is without its newline. -/
theorem Record.encode_line (h : r.Plain) : ∃ l, newline ∉ l ∧ r.encode = l ++ [newline] := by
  refine ⟨_, ?_, rfl⟩
  have htag : newline ≠ if r.isPartial then (80 : UInt8) else 70 := by cases r.isPartial <;> decide
  have hspace : newline ≠ space := by decide
  simp [h.stamp.2, h.text, r.stream.name_plain.2, htag, hspace]

theorem splitLines_encode (h : ∀ r ∈ rs, r.Plain) :
    splitLines (rs.flatMap Record.encode) = rs.map Record.encode := by
  induction rs with
  | nil => rfl
  | cons r rs ih =>
      obtain ⟨hr, hrs⟩ := List.forall_mem_cons.mp h
      obtain ⟨l, hl, hencode⟩ := Record.encode_line hr
      rw [List.flatMap_cons, hencode, List.append_assoc, List.singleton_append, splitLines_line hl, ih hrs,
        List.map_cons, hencode]

/-- The record is shown. -/
def Options.keeps (o : Options τ) (parseStamp : Bytes → Option τ) (stamp : Bytes) (s : Stream) : Bool :=
  o.chooses s && !o.old (parseStamp stamp)

/-- The records that are shown. -/
def Options.kept (o : Options τ) (parseStamp : Bytes → Option τ) (rs : List Record) : List Record :=
  rs.filter fun r => o.keeps parseStamp r.stamp r.stream

theorem skips_encode : o.skips ⟨r.stamp, parseStamp r.stamp, r.stream.name, r.isPartial, r.text ++ [newline]⟩ =
    !o.keeps parseStamp r.stamp r.stream := by
  have hne : stdoutName ≠ stderrName := by decide
  cases hs : r.stream <;>
    simp [Options.skips, Options.keeps, Options.chooses, Stream.name, hne, hne.symm]

/-- The lines the reader ends, given what it has begun. -/
def joined (begun : Bytes) : List Record → List Line
  | [] => []
  | r :: rs =>
      if r.isPartial then joined (begun ++ r.text) rs
      else ⟨r.stamp, r.stream, begun ++ r.text⟩ :: joined [] rs

/-- What the reader has begun at the end. -/
def leftover (pieces : List Bytes) : List Record → List Bytes
  | [] => pieces
  | r :: rs => if r.isPartial then leftover (pieces ++ [r.text]) rs else leftover [] rs

/-- The loop, in terms of records. -/
theorem foldl_read (parseStamp : Bytes → Option τ) (o : Options τ) (h : ∀ r ∈ rs, r.Plain) (s : Reading) :
    ((rs.map Record.encode).foldl (Reading.read parseStamp o) s).lines =
        s.lines ++ (joined s.pieces.flatten (o.kept parseStamp rs)).map (Line.render parseStamp o.timestamps) ∧
      ((rs.map Record.encode).foldl (Reading.read parseStamp o) s).pieces =
        leftover s.pieces (o.kept parseStamp rs) := by
  induction rs generalizing s with
  | nil => simp [Options.kept, joined, leftover]
  | cons r rs ih =>
      obtain ⟨hr, hrs⟩ := List.forall_mem_cons.mp h
      rw [List.map_cons, List.foldl_cons]
      obtain ⟨hlines, hpieces⟩ := ih hrs (s.read parseStamp o r.encode)
      rw [hlines, hpieces]
      simp only [Reading.read, parseLogLine_encode hr, skips_encode, Options.kept, List.filter_cons]
      cases o.keeps parseStamp r.stamp r.stream with
      | false => simp
      | true =>
          cases hp : r.isPartial with
          | true => simp [hp, joined, leftover, stripEnd_line hr.text]
          | false =>
              simp [hp, joined, leftover, Line.render]

end

/-! ## Lines that are whole -/

/-- The stream of the record that ends a line next. -/
def nextEnd (rs : List Record) : Option Stream := (rs.find? fun r => !r.isPartial).map (·.stream)

/-- A partial record is shown if and only if its line's end is, and then that is the next end shown. -/
def Apart (keeps : Bytes → Stream → Bool) : List Record → Prop
  | [] => True
  | r :: rs =>
      (r.isPartial = true →
        (endOf r.stream rs).map (fun e => keeps e.stamp e.stream) = some (keeps r.stamp r.stream) ∧
        (keeps r.stamp r.stream = true →
          nextEnd (rs.filter fun r => keeps r.stamp r.stream) = some r.stream)) ∧
      Apart keeps rs

/-- A partial record belongs to the line that ends next. -/
def Near : List Record → Prop
  | [] => True
  | r :: rs => (r.isPartial = true → nextEnd rs = some r.stream) ∧ Near rs

theorem nextEnd_cons (r : Record) (rs : List Record) :
    nextEnd (r :: rs) = if r.isPartial then nextEnd rs else some r.stream := by
  cases hp : r.isPartial <;> simp [nextEnd, hp]

section

variable {keeps : Bytes → Stream → Bool} {rs : List Record}

theorem Apart.near (h : Apart keeps rs) : Near (rs.filter fun r => keeps r.stamp r.stream) := by
  induction rs with
  | nil => trivial
  | cons r rs ih =>
      rw [List.filter_cons]
      cases hr : keeps r.stamp r.stream with
      | false => exact ih h.2
      | true => exact ⟨fun hp => (h.1 hp).2 hr, ih h.2⟩

/-- The reader's one line is that of the stream that ends next. -/
theorem joined_eq_linesFrom (h : Near rs) {begun : Bytes} {begins : Stream → Bytes}
    (hbegun : nextEnd rs = none → begun = [])
    (hbegins : ∀ s, begins s = if nextEnd rs = some s then begun else []) :
    joined begun rs = linesFrom begins rs := by
  induction rs generalizing begun begins with
  | nil => rfl
  | cons r rs ih =>
      rw [nextEnd_cons] at hbegun hbegins
      cases hp : r.isPartial with
      | true =>
          have hnext := h.1 hp
          simp only [hp, if_true, hnext] at hbegins
          simp only [joined, linesFrom, hp, if_true]
          refine ih h.2 (fun hnone => ?_) fun s => ?_
          · rw [hnext] at hnone
            cases hnone
          · rw [hnext]
            by_cases hs : s = r.stream
            · simp [hs, hbegins]
            · simp [hs, hbegins, Ne.symm hs]
      | false =>
          simp only [hp, Bool.false_eq_true, if_false, Option.some.injEq] at hbegins
          simp only [joined, linesFrom, hp, Bool.false_eq_true, if_false]
          have hrest : joined [] rs = linesFrom (fun s => if s = r.stream then [] else begins s) rs := by
            refine ih h.2 (fun _ => rfl) fun s => ?_
            by_cases hs : s = r.stream
            · simp [hs]
            · simp [hs, hbegins, Ne.symm hs]
          rw [hrest, hbegins, if_pos rfl]

theorem leftover_of_near (h : Near rs) {pieces : List Bytes} (hpieces : nextEnd rs = none → pieces = []) :
    leftover pieces rs = [] := by
  induction rs generalizing pieces with
  | nil => exact hpieces rfl
  | cons r rs ih =>
      rw [nextEnd_cons] at hpieces
      cases hp : r.isPartial with
      | true =>
          simp only [leftover, hp, if_true]
          refine ih h.2 fun hnone => ?_
          rw [h.1 hp] at hnone
          cases hnone
      | false =>
          simp only [leftover, hp, Bool.false_eq_true, if_false]
          exact ih h.2 fun _ => rfl

theorem endOf_cons (s : Stream) (r : Record) (rs : List Record) :
    endOf s (r :: rs) = if r.isPartial = false ∧ r.stream = s then some r else endOf s rs := by
  cases hp : r.isPartial <;> by_cases hs : r.stream = s <;> simp [endOf, hp, hs]

/-- The lines of the records that are shown are the lines that are shown. -/
theorem linesFrom_filter (h : Apart keeps rs) {begins begun : Stream → Bytes}
    (hbegun : ∀ s, begun s = if (endOf s rs).any (fun e => keeps e.stamp e.stream) then begins s else []) :
    linesFrom begun (rs.filter fun r => keeps r.stamp r.stream) =
      (linesFrom begins rs).filter fun l => keeps l.stamp l.stream := by
  induction rs generalizing begins begun with
  | nil => rfl
  | cons r rs ih =>
      rw [List.filter_cons]
      cases hp : r.isPartial with
      | true =>
          have hend := (h.1 hp).1
          have hsame : ∀ s, endOf s (r :: rs) = endOf s rs := fun s => by simp [endOf_cons, hp]
          simp only [hsame] at hbegun
          cases hr : keeps r.stamp r.stream with
          | true =>
              simp only [linesFrom, hp, if_true]
              refine ih h.2 fun s => ?_
              by_cases hs : s = r.stream
              · subst hs
                obtain ⟨e, he, hkeeps⟩ := Option.map_eq_some_iff.mp hend
                simp [hbegun, he, hkeeps, hr]
              · simp [hs, hbegun]
          | false =>
              simp only [linesFrom, hp, if_true, Bool.false_eq_true, if_false]
              refine ih h.2 fun s => ?_
              by_cases hs : s = r.stream
              · subst hs
                obtain ⟨e, he, hkeeps⟩ := Option.map_eq_some_iff.mp hend
                simp [hbegun, he, hkeeps, hr]
              · simp [hs, hbegun]
      | false =>
          have hown : endOf r.stream (r :: rs) = some r := by simp [endOf_cons, hp]
          have hother : ∀ s, s ≠ r.stream → endOf s (r :: rs) = endOf s rs := fun s hs => by
            simp [endOf_cons, Ne.symm hs]
          have hrest : ∀ begun' : Stream → Bytes, (∀ s, s ≠ r.stream → begun' s = begun s) →
              begun' r.stream = [] →
              linesFrom begun' (rs.filter fun r => keeps r.stamp r.stream) =
                (linesFrom (fun s => if s = r.stream then [] else begins s) rs).filter
                  fun l => keeps l.stamp l.stream := by
            intro begun' hne hself
            refine ih h.2 fun s => ?_
            by_cases hs : s = r.stream
            · subst hs
              simp [hself]
            · simp [hs, hne s hs, hbegun, hother s hs]
          cases hr : keeps r.stamp r.stream with
          | true =>
              have hbegin : begun r.stream = begins r.stream := by simp [hbegun, hown, hr]
              simp only [linesFrom, hp, Bool.false_eq_true, if_false, if_true, List.filter_cons, hr, hbegin]
              rw [hrest _ (fun s hs => by simp [hs]) (by simp)]
          | false =>
              have hempty : begun r.stream = [] := by simp [hbegun, hown, hr]
              simp only [linesFrom, hp, Bool.false_eq_true, if_false, List.filter_cons, hr]
              exact hrest begun (fun _ _ => rfl) hempty

end

/-! ## What is shown -/

/-- What the runtime has written, but for the texts: every line is ended. -/
structure Log where
  records : List Record
  ended : Ended records
  plain : ∀ r ∈ records, space ∉ r.stamp ∧ newline ∉ r.stamp

/-- The two records are of the same shape. -/
structure Record.Like (r r' : Record) : Prop where
  stamp : r'.stamp = r.stamp
  stream : r'.stream = r.stream
  isPartial : r'.isPartial = r.isPartial

/-- The files hold the log, with some texts. -/
structure Log.Fills (log : Log) (files : List (List Record)) : Prop where
  like : List.Forall₂ Record.Like log.records files.flatten
  text : ∀ r ∈ files.flatten, newline ∉ r.text

/-- The bytes of the files. -/
def encodeFiles (files : List (List Record)) : List (Option Bytes) :=
  files.map fun file => some (file.flatMap Record.encode)

/-- The lines of the chosen streams. -/
def Options.chosen (o : Options τ) (rs : List Record) : List Line :=
  (written rs).filter fun l => o.chooses l.stream

/-- What is shown is lines of the chosen streams, and all of them unless `since` or `tail` is given. -/
def Right (parseStamp : Bytes → Option τ) (o : Options τ) (rs : List Record) (out : Bytes) : Prop :=
  ∃ ls, List.Sublist ls (o.chosen rs) ∧ (o.since = none → o.tail = none → ls = o.chosen rs) ∧
    out = (ls.map (Line.render parseStamp o.timestamps)).flatten

section

variable {parseStamp : Bytes → Option τ} {o : Options τ} {files : List (List Record)}
  {keeps : Bytes → Stream → Bool} {rs rs' : List Record}

theorem nextEnd_like (h : List.Forall₂ Record.Like rs rs') : nextEnd rs' = nextEnd rs := by
  induction h with
  | nil => rfl
  | cons hr _ ih => rw [nextEnd_cons, nextEnd_cons, hr.isPartial, hr.stream, ih]

theorem endOf_like (h : List.Forall₂ Record.Like rs rs') (s : Stream) :
    (endOf s rs').map (fun e => keeps e.stamp e.stream) = (endOf s rs).map fun e => keeps e.stamp e.stream := by
  induction h with
  | nil => rfl
  | cons hr _ ih =>
      rw [endOf_cons, endOf_cons, hr.isPartial, hr.stream]
      split
      · simp [hr.stamp, hr.stream]
      · exact ih

theorem filter_like (h : List.Forall₂ Record.Like rs rs') :
    List.Forall₂ Record.Like (rs.filter fun r => keeps r.stamp r.stream)
      (rs'.filter fun r => keeps r.stamp r.stream) := by
  induction h with
  | nil => exact .nil
  | cons hr _ ih =>
      rw [List.filter_cons, List.filter_cons, hr.stamp, hr.stream]
      split
      · exact .cons hr ih
      · exact ih

theorem Apart.like (h : Apart keeps rs) (hlike : List.Forall₂ Record.Like rs rs') : Apart keeps rs' := by
  induction hlike with
  | nil => trivial
  | cons hr hrs ih =>
      refine ⟨fun hp => ?_, ih h.2⟩
      rw [hr.isPartial] at hp
      obtain ⟨hend, hnext⟩ := h.1 hp
      rw [hr.stamp, hr.stream, endOf_like hrs, nextEnd_like (filter_like hrs)]
      exact ⟨hend, hnext⟩

theorem Log.Fills.plain {log : Log} (h : log.Fills files) : ∀ r ∈ files.flatten, r.Plain := by
  have hstamp : ∀ {rs rs' : List Record}, List.Forall₂ Record.Like rs rs' →
      (∀ r ∈ rs, space ∉ r.stamp ∧ newline ∉ r.stamp) →
      ∀ r ∈ rs', space ∉ r.stamp ∧ newline ∉ r.stamp := by
    intro rs rs' hlike
    induction hlike with
    | nil => exact fun _ => nofun
    | cons hr _ ih =>
        intro hrs
        obtain ⟨hhead, htail⟩ := List.forall_mem_cons.mp hrs
        rw [← hr.stamp] at hhead
        exact List.forall_mem_cons.mpr ⟨hhead, ih htail⟩
  exact fun r hr => ⟨hstamp h.like log.plain r hr, h.text r hr⟩

theorem splitLines_encodeFiles (h : ∀ r ∈ files.flatten, r.Plain) :
    ((encodeFiles files).filterMap id).flatMap splitLines = files.flatten.map Record.encode := by
  induction files with
  | nil => rfl
  | cons file files ih =>
      rw [List.flatten_cons] at h
      obtain ⟨hfile, hfiles⟩ := List.forall_mem_append.mp h
      have hrest := ih hfiles
      simp only [encodeFiles, List.map_cons, List.filterMap_cons, id, List.flatMap_cons, List.flatten_cons,
        List.map_append] at hrest ⊢
      rw [splitLines_encode hfile, hrest]

/-- What the reader has at the end. -/
theorem showLogs_encodeFiles (parseStamp : Bytes → Option τ) (o : Options τ) (h : ∀ r ∈ files.flatten, r.Plain) : ∃ stamp,
    showLogs parseStamp o (encodeFiles files) = (lastLines o.tail (Reading.finish o
      ⟨(joined [] (o.kept parseStamp files.flatten)).map (Line.render parseStamp o.timestamps),
        leftover [] (o.kept parseStamp files.flatten), stamp⟩)).flatten := by
  obtain ⟨hlines, hpieces⟩ := foldl_read parseStamp o h {}
  refine ⟨((files.flatten.map Record.encode).foldl (Reading.read parseStamp o) {}).partialStamp, ?_⟩
  rw [showLogs, splitLines_encodeFiles h]
  generalize (files.flatten.map Record.encode).foldl (Reading.read parseStamp o) {} = s at hlines hpieces ⊢
  obtain ⟨lines, pieces, stamp⟩ := s
  subst hlines hpieces
  rfl

theorem lastLines_sublist (tail : Option Int) (lines : List Line) (f : Line → Bytes) :
    ∃ ls, List.Sublist ls lines ∧ (tail = none → ls = lines) ∧ lastLines tail (lines.map f) = ls.map f := by
  cases tail with
  | none => exact ⟨lines, List.Sublist.refl _, fun _ => rfl, rfl⟩
  | some tail =>
      by_cases htail : 0 ≤ tail
      · refine ⟨lines.drop (lines.length - tail.toNat), List.drop_sublist _ _, nofun, ?_⟩
        simp [lastLines, htail, List.map_drop]
      · exact ⟨lines, List.Sublist.refl _, nofun, by simp [lastLines, htail]⟩

/-- Lines that are apart are shown whole. -/
theorem right_of_apart (h : ∀ r ∈ files.flatten, r.Plain)
    (hapart : Apart (o.keeps parseStamp) files.flatten) :
    Right parseStamp o files.flatten (showLogs parseStamp o (encodeFiles files)) := by
  obtain ⟨stamp, hshow⟩ := showLogs_encodeFiles parseStamp o h
  have hleft : leftover [] (o.kept parseStamp files.flatten) = [] :=
    leftover_of_near hapart.near fun _ => rfl
  have hjoined : joined [] (o.kept parseStamp files.flatten) =
      (written files.flatten).filter fun l => o.keeps parseStamp l.stamp l.stream := by
    have hnear : joined [] (o.kept parseStamp files.flatten) =
        linesFrom (fun _ => []) (o.kept parseStamp files.flatten) :=
      joined_eq_linesFrom hapart.near (fun _ => rfl) fun s => by simp
    rw [hnear]
    exact linesFrom_filter hapart fun s => by simp
  rw [hleft, hjoined] at hshow
  obtain ⟨ls, hls, hall, hlast⟩ := lastLines_sublist o.tail
    ((written files.flatten).filter fun l => o.keeps parseStamp l.stamp l.stream)
    (Line.render parseStamp o.timestamps)
  refine ⟨ls, hls.trans ?_, fun hsince htail => (hall htail).trans ?_, ?_⟩
  · refine List.monotone_filter_right _ fun l hl => ?_
    simp only [Options.keeps, Bool.and_eq_true] at hl
    exact hl.1
  · refine List.filter_congr fun l _ => ?_
    simp [Options.keeps, Options.old, hsince]
  · rw [hshow, Reading.finish, if_pos rfl, hlast]

end

/-! ## Lines that are not -/

/-- The record without its text. -/
def Record.blank (r : Record) : Record := { r with text := [] }

/-- What the reader has, line by line, but for the ends. -/
def shown (pieces : List Bytes) : List Record → List Bytes
  | [] => if pieces = [] then [] else [pieces.flatten]
  | r :: rs => if r.isPartial then shown (pieces ++ [r.text]) rs else (pieces.flatten ++ r.text) :: shown [] rs

section

variable {keeps : Bytes → Stream → Bool} {rs c : List Record}

theorem shown_eq (pieces : List Bytes) (rs : List Record) : shown pieces rs =
    (joined pieces.flatten rs).map (·.text) ++
      if leftover pieces rs = [] then [] else [(leftover pieces rs).flatten] := by
  induction rs generalizing pieces with
  | nil => rfl
  | cons r rs ih => cases hp : r.isPartial <;> simp [shown, joined, leftover, hp, ih]

/-- Records without texts end lines without texts. -/
theorem linesFrom_blank {begins : Stream → Bytes} {rs : List Record}
    (hbegins : ∀ r ∈ rs, r.isPartial = false → begins r.stream = []) {l : Line}
    (hl : l ∈ linesFrom begins (rs.map Record.blank ++ c)) : l.text = [] ∨ l ∈ linesFrom begins c := by
  induction rs with
  | nil => exact .inr hl
  | cons r rs ih =>
      obtain ⟨hr, hrs⟩ := List.forall_mem_cons.mp hbegins
      cases hp : r.isPartial with
      | true =>
          have hsame : (fun s => if s = r.stream then begins s ++ [] else begins s) = begins := by
            funext s
            simp
          simp only [List.map_cons, List.cons_append, linesFrom, Record.blank, hp, if_true, hsame] at hl
          exact ih hrs hl
      | false =>
          have hempty := hr hp
          have hsame : (fun s => if s = r.stream then [] else begins s) = begins := by
            funext s
            by_cases hs : s = r.stream
            · simp [hs, hempty]
            · simp [hs]
          simp only [List.map_cons, List.cons_append, linesFrom, Record.blank, hp, Bool.false_eq_true,
            if_false, hsame, hempty, List.append_nil, List.mem_cons] at hl
          obtain rfl | hl := hl
          · exact .inl rfl
          · exact ih hrs hl

/-- The reader comes through records without texts with nothing. -/
theorem shown_blank {pieces : List Bytes} (rs c : List Record) (hpieces : pieces.flatten = []) : ∃ pieces' : List Bytes,
    pieces'.flatten = [] ∧ ∀ t ∈ shown pieces' c, t ∈ shown pieces (rs.map Record.blank ++ c) := by
  induction rs generalizing pieces with
  | nil => exact ⟨pieces, hpieces, fun _ ht => ht⟩
  | cons r rs ih =>
      cases hp : r.isPartial with
      | true =>
          obtain ⟨pieces', hempty, hmem⟩ := @ih (pieces ++ [[]]) (by simpa using hpieces)
          exact ⟨pieces', hempty, fun t ht => by simpa [shown, Record.blank, hp] using hmem t ht⟩
      | false =>
          obtain ⟨pieces', hempty, hmem⟩ := @ih [] rfl
          exact ⟨pieces', hempty, fun t ht => by
            simpa [shown, Record.blank, hp] using Or.inr (hmem t ht)⟩

/-- What is begun goes to the end that comes next. -/
theorem mem_shown_of_end (pieces : List Bytes) (rs c : List Record) (hend : nextEnd rs ≠ none) :
    pieces.flatten ∈ shown pieces (rs.map Record.blank ++ c) := by
  induction rs generalizing pieces with
  | nil => exact absurd rfl hend
  | cons r rs ih =>
      rw [nextEnd_cons] at hend
      cases hp : r.isPartial with
      | true =>
          have hrest := ih (pieces ++ [[]]) (by simpa [hp] using hend)
          simpa [shown, Record.blank, hp] using hrest
      | false => simp [shown, Record.blank, hp]

/-- Or it is shown at the end of all. -/
theorem mem_shown_of_blank {pieces : List Bytes} (rs : List Record) (hpieces : pieces ≠ []) :
    pieces.flatten ∈ shown pieces (rs.map Record.blank) := by
  induction rs generalizing pieces with
  | nil => simp [shown, hpieces]
  | cons r rs ih =>
      cases hp : r.isPartial with
      | true =>
          have hrest := @ih (pieces ++ [[]]) (by simp)
          simpa [shown, Record.blank, hp] using hrest
      | false => simp [shown, Record.blank, hp]

theorem filter_blank (rs : List Record) : (rs.map Record.blank).filter (fun r => keeps r.stamp r.stream) =
    (rs.filter fun r => keeps r.stamp r.stream).map Record.blank := by
  rw [List.filter_map]
  rfl

/-- Where the lines are not apart: a partial record that is not shown with its line. -/
theorem exists_of_not_apart (h : ¬ Apart keeps rs) : ∃ a p b, rs = a ++ p :: b ∧ p.isPartial = true ∧
    ¬ ((endOf p.stream b).map (fun e => keeps e.stamp e.stream) = some (keeps p.stamp p.stream) ∧
      (keeps p.stamp p.stream = true →
        nextEnd (b.filter fun r => keeps r.stamp r.stream) = some p.stream)) := by
  induction rs with
  | nil => exact absurd trivial h
  | cons r rs ih =>
      by_cases hr : Apart keeps rs
      · have hhead : ¬ (r.isPartial = true →
            (endOf r.stream rs).map (fun e => keeps e.stamp e.stream) = some (keeps r.stamp r.stream) ∧
            (keeps r.stamp r.stream = true →
              nextEnd (rs.filter fun r => keeps r.stamp r.stream) = some r.stream)) :=
          fun hhead => h ⟨hhead, hr⟩
        exact ⟨[], r, rs, rfl, Classical.not_imp.mp hhead⟩
      · obtain ⟨a, p, b, rfl, hp⟩ := ih hr
        exact ⟨r :: a, p, b, rfl, hp⟩

theorem Ended.endOf {a b : List Record} {p : Record} (h : Ended (a ++ p :: b)) (hp : p.isPartial = true) :
    endOf p.stream b ≠ none := by
  induction a with
  | nil => exact h.1 hp
  | cons r a ih => exact ih h.2

end

section

variable {keeps : Bytes → Stream → Bool} {p f : Record} {a b b' : List Record}

/-- The log with a text in one partial record and in its line's end. -/
def marked (a : List Record) (p : Record) (b : List Record) (f : Record) (b' : List Record) : List Record :=
  a.map Record.blank ++ { p with text := [66] } :: (b.map Record.blank ++
    { f with text := [65] } :: b'.map Record.blank)

/-- One line has a text, of two bytes. -/
theorem written_marked (hp : p.isPartial = true) (hf : f.isPartial = false ∧ f.stream = p.stream)
    (hb : ∀ r ∈ b, r.isPartial = false → r.stream ≠ p.stream) {l : Line} (hl : l ∈ written (marked a p b f b')) :
    l.text = [] ∨ l.text = [66, 65] := by
  obtain hempty | hl := linesFrom_blank (fun _ _ _ => rfl) hl
  · exact .inl hempty
  simp only [linesFrom, hp, if_true, List.nil_append] at hl
  obtain hempty | hl := linesFrom_blank (fun r hr hend => if_neg (hb r hr hend)) hl
  · exact .inl hempty
  simp only [linesFrom, hf.1, hf.2, Bool.false_eq_true, if_false, if_true, List.mem_cons] at hl
  obtain rfl | hl := hl
  · exact .inr rfl
  have hrest : ∀ s, (if s = p.stream then ([] : Bytes) else if s = p.stream then [66] else []) = [] := by
    intro s
    by_cases hs : s = p.stream <;> simp [hs]
  simp only [hrest] at hl
  rw [← List.append_nil (b'.map Record.blank)] at hl
  obtain hempty | hl := linesFrom_blank (fun _ _ _ => rfl) hl
  · exact .inl hempty
  · cases hl

theorem nextEnd_append_of_none {a b : List Record} (h : nextEnd a = none) : nextEnd (a ++ b) = nextEnd b := by
  induction a with
  | nil => rfl
  | cons r a ih =>
      rw [nextEnd_cons] at h
      rw [List.cons_append, nextEnd_cons]
      cases hp : r.isPartial with
      | true => simpa [hp] using ih (by simpa [hp] using h)
      | false => simp [hp] at h

/-- But the reader shows one of the bytes by itself. -/
theorem shown_marked (hp : p.isPartial = true) (hf : f.isPartial = false ∧ f.stream = p.stream)
    (hnot : ¬ (keeps f.stamp f.stream = keeps p.stamp p.stream ∧ (keeps p.stamp p.stream = true →
      nextEnd ((b ++ f :: b').filter fun r => keeps r.stamp r.stream) = some p.stream))) :
    ∃ t, (t = [66] ∨ t = [65]) ∧
      t ∈ shown [] ((marked a p b f b').filter fun r => keeps r.stamp r.stream) := by
  cases hkp : keeps p.stamp p.stream with
  | false =>
      -- the line's end is shown, and its beginning is not
      have hkf : keeps f.stamp f.stream = true := by simpa [hkp] using hnot
      obtain ⟨pieces, hempty, hmem⟩ := shown_blank ((a ++ b).filter fun r => keeps r.stamp r.stream)
        ({ f with text := [65] } :: (b'.filter fun r => keeps r.stamp r.stream).map Record.blank)
        (List.flatten_nil (α := UInt8))
      refine ⟨[65], .inr rfl, ?_⟩
      have hhead := hmem [65] (by simp [shown, hf.1, hempty])
      simpa [marked, filter_blank, hkp, hkf] using hhead
  | true =>
      refine ⟨[66], .inl rfl, ?_⟩
      have hmarked : ∀ c, (∀ pieces : List Bytes, pieces.flatten = [] → [66] ∈ shown (pieces ++ [[66]]) c) →
          [66] ∈ shown [] ((a.filter fun r => keeps r.stamp r.stream).map Record.blank ++
            { p with text := [66] } :: c) := by
        intro c hc
        obtain ⟨pieces, hempty, hmem⟩ := shown_blank
          (a.filter fun r => keeps r.stamp r.stream) ({ p with text := [66] } :: c)
          (List.flatten_nil (α := UInt8))
        exact hmem [66] (by simpa [shown, hp] using hc pieces hempty)
      cases hkf : keeps f.stamp f.stream with
      | false =>
          have hrest := hmarked (((b ++ b').filter fun r => keeps r.stamp r.stream).map Record.blank)
            fun pieces hempty => by
              have hflat : (pieces ++ [[66]]).flatten = [66] := by rw [List.flatten_append, hempty]; rfl
              have hmem := mem_shown_of_blank ((b ++ b').filter fun r => keeps r.stamp r.stream)
                (List.append_ne_nil_of_right_ne_nil pieces (List.cons_ne_nil [66] []))
              rwa [hflat] at hmem
          simpa [marked, filter_blank, hkp, hkf] using hrest
      | true =>
          -- another line ends first
          have hend : nextEnd (b.filter fun r => keeps r.stamp r.stream) ≠ none := by
            intro hnone
            refine hnot ⟨by rw [hkf, hkp], fun _ => ?_⟩
            rw [List.filter_append, List.filter_cons_of_pos (by simpa using hkf),
              nextEnd_append_of_none hnone, nextEnd_cons, hf.1, hf.2]
            rfl
          have hrest := hmarked ((b.filter fun r => keeps r.stamp r.stream).map Record.blank ++
            { f with text := [65] } :: (b'.filter fun r => keeps r.stamp r.stream).map Record.blank)
            fun pieces hempty => by
              have hflat : (pieces ++ [[66]]).flatten = [66] := by rw [List.flatten_append, hempty]; rfl
              have hmem := mem_shown_of_end (pieces ++ [[66]]) (b.filter fun r => keeps r.stamp r.stream)
                ({ f with text := [65] } ::
                  (b'.filter fun r => keeps r.stamp r.stream).map Record.blank) hend
              rwa [hflat] at hmem
          simpa [marked, filter_blank, hkp, hkf] using hrest

theorem shown_plain {pieces : List Bytes} {rs : List Record} (hpieces : ∀ t ∈ pieces, newline ∉ t)
    (hrs : ∀ r ∈ rs, newline ∉ r.text) : ∀ t ∈ shown pieces rs, newline ∉ t := by
  induction rs generalizing pieces with
  | nil =>
      by_cases hnil : pieces = []
      · simp [shown, hnil]
      · simpa [shown, hnil] using hpieces
  | cons r rs ih =>
      obtain ⟨hr, hrs⟩ := List.forall_mem_cons.mp hrs
      cases hp : r.isPartial with
      | true =>
          have hmore : ∀ t ∈ pieces ++ [r.text], newline ∉ t := by
            simpa [or_imp, forall_and] using ⟨hpieces, hr⟩
          simpa [shown, hp] using ih hmore hrs
      | false =>
          have hline : newline ∉ pieces.flatten ++ r.text := by
            simpa [hr] using hpieces
          simpa [shown, hp] using ⟨by simpa using hline, ih (by simp) hrs⟩

end

/-! ## Which logs are shown as they were written -/

section

variable {parseStamp : Bytes → Option τ} {o : Options τ} {files : List (List Record)} {rs : List Record}

/-- What is shown without stamps. -/
theorem showLogs_shown (h : ∀ r ∈ files.flatten, r.Plain) (htimestamps : o.timestamps = false)
    (htail : o.tail = none) : showLogs parseStamp o (encodeFiles files) =
      ((shown [] (o.kept parseStamp files.flatten)).map (· ++ [newline])).flatten := by
  obtain ⟨stamp, hshow⟩ := showLogs_encodeFiles parseStamp o h
  have hrender : Line.render parseStamp false = fun l => l.text ++ [newline] := by
    funext l
    simp [Line.render]
  rw [hshow, shown_eq, htail, lastLines, Reading.finish, htimestamps, hrender]
  by_cases hleft : leftover [] (o.kept parseStamp files.flatten) = [] <;>
    simp [hleft, Function.comp_def]

theorem Record.like_blank (rs : List Record) : List.Forall₂ Record.Like rs (rs.map Record.blank) := by
  induction rs with
  | nil => exact .nil
  | cons r rs ih => exact .cons ⟨rfl, rfl, rfl⟩ ih

theorem fills_marked {log : Log} {a b b' : List Record} {p f : Record}
    (hlog : log.records = a ++ p :: (b ++ f :: b')) : log.Fills [marked a p b f b'] := by
  constructor
  · rw [hlog, List.flatten_singleton, marked]
    exact List.rel_append (Record.like_blank a) (.cons ⟨rfl, rfl, rfl⟩
      (List.rel_append (Record.like_blank b) (.cons ⟨rfl, rfl, rfl⟩ (Record.like_blank b'))))
  · have h65 : newline ∉ [(65 : UInt8)] := by decide
    have h66 : newline ∉ [(66 : UInt8)] := by decide
    simp [marked, Record.blank, or_imp, forall_and, h65, h66]

/-- The reader shows the lines of the chosen streams whole, whatever is in them, if and only if every
partial record is shown or not as its line's end is, and is followed by that end. -/
theorem right_iff_apart (log : Log) (parseStamp : Bytes → Option τ) (o : Options τ) :
    (∀ (files : List (List Record)) (timestamps : Bool) (tail : Option Int), log.Fills files →
      Right parseStamp { o with timestamps := timestamps, tail := tail } files.flatten
        (showLogs parseStamp { o with timestamps := timestamps, tail := tail } (encodeFiles files))) ↔
    Apart (o.keeps parseStamp) log.records := by
  constructor
  · intro hright
    by_contra hapart
    obtain ⟨a, p, c, hlog, hp, hnot⟩ := exists_of_not_apart hapart
    obtain ⟨f, hf⟩ := Option.ne_none_iff_exists'.mp (Ended.endOf (hlog ▸ log.ended) hp)
    rw [hf] at hnot
    obtain ⟨hend, b, b', rfl, hb⟩ := List.find?_eq_some_iff_append.mp hf
    have hend : f.isPartial = false ∧ f.stream = p.stream := by simpa using hend
    have hb : ∀ r ∈ b, r.isPartial = false → r.stream ≠ p.stream := fun r hr hpart => by
      simpa [hpart] using hb r hr
    have hfills := fills_marked hlog
    obtain ⟨ls, hls, -, hout⟩ := hright _ false none hfills
    rw [showLogs_shown hfills.plain rfl rfl] at hout
    rw [List.flatten_singleton] at hls hout
    have htexts : ∀ t ∈ ls.map (·.text), t = [] ∨ t = [66, 65] := by
      intro t ht
      obtain ⟨l, hl, rfl⟩ := List.mem_map.mp ht
      exact written_marked hp hend hb (List.mem_of_mem_filter (hls.subset hl))
    have hrender : ls.map (Line.render parseStamp false) = (ls.map (·.text)).map (· ++ [newline]) := by
      rw [List.map_map]
      refine List.map_congr_left fun l _ => ?_
      simp [Line.render]
    -- what is shown, line by line
    have hlines := congrArg splitLines hout
    have hplain : ∀ t ∈ ls.map (·.text), newline ∉ t := by
      intro t ht
      obtain rfl | rfl := htexts t ht <;> decide
    have hfill : ∀ r ∈ marked a p b f b', newline ∉ r.text := by simpa using hfills.text
    have hshown : ∀ t ∈ shown [] (Options.kept { o with timestamps := false, tail := none } parseStamp
        (marked a p b f b')), newline ∉ t :=
      shown_plain (by simp) fun r hr => hfill r (List.mem_of_mem_filter hr)
    rw [hrender, splitLines_flatten hshown, splitLines_flatten hplain] at hlines
    have heq := List.map_injective_iff.mpr (List.append_left_injective [newline]) hlines
    obtain ⟨t, ht, hmem⟩ := shown_marked (a := a) hp hend (by simpa using hnot)
    have hmem : t ∈ ls.map (·.text) := heq ▸ hmem
    obtain rfl | rfl := ht <;> simpa using htexts _ hmem
  · intro hapart files timestamps tail hfills
    exact right_of_apart hfills.plain (hapart.like hfills.like)

end

/-- One stream's line is shown with the beginning of the other's. -/
theorem not_right : ¬ ∀ (files : List (List Record)) (o : Options Nat), (∀ r ∈ files.flatten, r.Plain) →
    Ended files.flatten → Right (fun _ => some 0) o files.flatten
      (showLogs (fun _ => some 0) o (encodeFiles files)) := by
  intro h
  obtain ⟨ls, -, hall, hout⟩ := h
    [[⟨[48], .stdout, true, [65]⟩, ⟨[49], .stderr, false, [66]⟩, ⟨[50], .stdout, false, [67]⟩]] {}
    (by simp only [List.flatten_singleton, List.forall_mem_cons]
        exact ⟨⟨by decide, by decide⟩, ⟨by decide, by decide⟩, ⟨by decide, by decide⟩, nofun⟩)
    ⟨by decide, by decide, by decide, trivial⟩
  rw [hall rfl rfl] at hout
  revert hout
  decide


end ShowLogs

end Zun
