import Mathlib.Data.List.Basic

/-!
# UTF-8

The text that bytes are, and what stops a decoder where they are none: the reason, and the bytes at
fault, as the standard library has them.  Bytes are `Whole` when they are characters from one end to
the other.  A character's first byte is in no other place of a character, so whole bytes can be cut
before it.
-/

namespace Utf8

open String (utf8EncodeChar)

def encode (text : List Char) : List UInt8 := text.flatMap utf8EncodeChar

/-- The character that the bytes begin with. -/
def first (data : List UInt8) : Option Char := data.toByteArray.utf8DecodeChar? 0

/-! ## What stops a decoder -/

inductive Fault where
  | startByte
  /-- So many bytes begin a character, and the next one does not go on with it. -/
  | continuation (bytes : Nat)
  | endOfData
deriving DecidableEq

def Fault.reason : Fault → String
  | .startByte => "invalid start byte"
  | .continuation _ => "invalid continuation byte"
  | .endOfData => "unexpected end of data"

def continues (b : UInt8) : Bool := 0x80 ≤ b && b < 0xC0

/-- `b` can come after the first byte `a`. -/
def second (a b : UInt8) : Bool :=
  continues b && !(a == 0xE0 && b < 0xA0) && !(a == 0xED && 0xA0 ≤ b) && !(a == 0xF0 && b < 0x90) &&
    !(a == 0xF4 && 0x90 ≤ b)

/-- What is wrong with bytes that begin with no character. -/
def fault : List UInt8 → Fault
  | [] => .endOfData
  | a :: rest =>
      if a < 0xC2 ∨ 0xF5 ≤ a then .startByte
      else
        match rest with
        | [] => .endOfData
        | b :: rest =>
            if second a b = false then .continuation 1
            else
              match rest with
              | [] => .endOfData
              | c :: rest =>
                  if continues c = false then .continuation 2
                  else if rest = [] then .endOfData
                  else .continuation 3

/-- How many bytes are at fault. -/
def Fault.size (data : List UInt8) : Fault → Nat
  | .startByte => 1
  | .continuation bytes => bytes
  | .endOfData => data.length

theorem size_fault_pos {data : List UInt8} (hdata : data ≠ []) : 0 < (fault data).size data := by
  cases data with
  | nil => exact absurd rfl hdata
  | cons a rest =>
      simp only [fault]
      split
      · simp [Fault.size]
      · cases rest with
        | nil => simp [Fault.size]
        | cons b rest =>
            cases hb : second a b with
            | false => simp [hb, Fault.size]
            | true =>
                cases rest with
                | nil => simp [hb, Fault.size]
                | cons c rest =>
                    cases hc : continues c with
                    | false => simp [hb, hc, Fault.size]
                    | true => cases rest <;> simp [hb, hc, Fault.size]

/-- A character that the end cuts has three bytes at most. -/
theorem length_le_of_endOfData {data : List UInt8} (h : fault data = .endOfData) :
    data.length ≤ 3 := by
  cases data with
  | nil => simp
  | cons a rest =>
      simp only [fault] at h
      split at h
      · cases h
      · cases rest with
        | nil => simp
        | cons b rest =>
            simp only at h
            split at h
            · cases h
            · cases rest with
              | nil => simp
              | cons c rest =>
                  simp only at h
                  split at h
                  · cases h
                  · split at h
                    next hrest => simp [hrest]
                    next => cases h

/-! ## Decoding -/

structure DecodeError where
  start : Nat
  stop : Nat
  reason : String
deriving DecidableEq

/-- What is decoded from the place `start` on. -/
def decodeFrom (start : Nat) (data : List UInt8) : Except DecodeError (List Char) :=
  if data = [] then .ok []
  else
    match first data with
    | some c =>
        match decodeFrom (start + c.utf8Size) (data.drop c.utf8Size) with
        | .ok text => .ok (c :: text)
        | .error e => .error e
    | none =>
        .error { start, stop := start + (fault data).size data, reason := (fault data).reason }
termination_by data.length
decreasing_by
  have := List.length_pos_iff.mpr ‹data ≠ []›
  have := c.utf8Size_pos
  simp only [List.length_drop]
  omega

/-- `decode('utf-8')`. -/
def decode (data : List UInt8) : Except DecodeError (List Char) := decodeFrom 0 data

/-- The character that stands for bytes at fault. -/
def replacement : Char := '\uFFFD'

/-- `decode('utf-8', 'replace')`. -/
def decodeReplace (data : List UInt8) : List Char :=
  if data = [] then []
  else
    match first data with
    | some c => c :: decodeReplace (data.drop c.utf8Size)
    | none => replacement :: decodeReplace (data.drop ((fault data).size data))
termination_by data.length
decreasing_by
  · have := List.length_pos_iff.mpr ‹data ≠ []›
    have := c.utf8Size_pos
    simp only [List.length_drop]
    omega
  · have := List.length_pos_iff.mpr ‹data ≠ []›
    have := size_fault_pos ‹data ≠ []›
    simp only [List.length_drop]
    omega

/-! ## What is whole -/

@[simp] theorem encode_nil : encode [] = [] := rfl

@[simp] theorem encode_cons (c : Char) (text : List Char) :
    encode (c :: text) = utf8EncodeChar c ++ encode text := rfl

@[simp] theorem first_append (c : Char) (rest : List UInt8) :
    first (utf8EncodeChar c ++ rest) = some c := by
  simp [first, List.toByteArray_append, ByteArray.utf8DecodeChar?_utf8EncodeChar_append]

theorem eq_of_first {data : List UInt8} {c : Char} (h : first data = some c) :
    data = utf8EncodeChar c ++ data.drop c.utf8Size := by
  obtain ⟨rest, hrest⟩ := ByteArray.exists_of_utf8DecodeChar?_eq_some h
  have hdata : data = utf8EncodeChar c ++ rest.data.toList := by
    have := congrArg (·.data.toList) hrest
    simpa using this
  rw [hdata, List.drop_left' (String.length_utf8EncodeChar c)]

theorem utf8EncodeChar_ne_nil (c : Char) : utf8EncodeChar c ≠ [] := by
  have := c.utf8Size_pos
  rw [← List.length_pos_iff, String.length_utf8EncodeChar]
  exact this

def Whole (data : List UInt8) : Prop := ∃ text, encode text = data

variable {data data' : List UInt8}

@[simp] theorem whole_nil : Whole [] := ⟨[], rfl⟩

theorem whole_cons_iff {c : Char} : Whole (utf8EncodeChar c ++ data) ↔ Whole data := by
  constructor
  · rintro ⟨text, htext⟩
    cases text with
    | nil => exact absurd (List.append_eq_nil_iff.mp htext.symm).1 (utf8EncodeChar_ne_nil c)
    | cons c' text =>
        simp only [encode_cons] at htext
        have hc : some c' = some c := by
          rw [← first_append c' (encode text), htext, first_append]
        injection hc with hc
        subst hc
        exact ⟨text, List.append_cancel_left htext⟩
  · rintro ⟨text, rfl⟩
    exact ⟨c :: text, rfl⟩

/-- What comes after whole bytes is whole when all of it is. -/
theorem Whole.append_iff (h : Whole data) : Whole (data ++ data') ↔ Whole data' := by
  obtain ⟨text, rfl⟩ := h
  induction text with
  | nil => simp
  | cons c text ih => rw [encode_cons, List.append_assoc, whole_cons_iff, ih]

/-- Whole bytes begin with a character's first byte. -/
theorem Whole.isFirst {b : UInt8} (h : Whole (b :: data)) : b.IsUTF8FirstByte := by
  obtain ⟨text, htext⟩ := h
  cases text with
  | nil => cases htext
  | cons c text =>
      have hlength : 0 < (utf8EncodeChar c ++ encode text).length := by simp [← encode_cons, htext]
      have hb : b = (utf8EncodeChar c ++ encode text)[0] := by simp [← encode_cons, htext]
      rw [List.getElem_append_left (List.length_pos_iff.mpr (utf8EncodeChar_ne_nil c))] at hb
      rw [hb, UInt8.isUTF8FirstByte_getElem_utf8EncodeChar]

/-- Whole bytes can be cut before a character's first byte. -/
theorem Whole.of_append_isFirst {b : UInt8} (h : Whole (data ++ b :: data'))
    (hb : b.IsUTF8FirstByte) : Whole data := by
  obtain ⟨text, htext⟩ := h
  induction text generalizing data with
  | nil => exact absurd htext.symm (by simp)
  | cons c text ih =>
      rw [encode_cons] at htext
      by_cases hlen : (utf8EncodeChar c).length ≤ data.length
      · obtain ⟨rest, rfl⟩ : utf8EncodeChar c <+: data :=
          List.prefix_of_prefix_length_le ⟨_, htext⟩ ⟨_, rfl⟩ hlen
        rw [whole_cons_iff]
        rw [List.append_assoc] at htext
        exact ih (List.append_cancel_left htext)
      · -- `b` is in the character, so it is its first byte.
        have hlt : data.length < (utf8EncodeChar c).length := by omega
        have hget : (utf8EncodeChar c)[data.length] = b := by
          have hdata : (utf8EncodeChar c ++ encode text)[data.length]? = some b := by simp [htext]
          rw [List.getElem?_append_left hlt, List.getElem?_eq_getElem hlt] at hdata
          injection hdata
        rw [← hget, UInt8.isUTF8FirstByte_getElem_utf8EncodeChar] at hb
        rw [List.length_eq_zero_iff.mp hb]
        exact whole_nil

/-! ## What is decoded -/

theorem decodeFrom_encode (start : Nat) (text : List Char) :
    decodeFrom start (encode text) = .ok text := by
  induction text generalizing start with
  | nil => simp [decodeFrom]
  | cons c text ih =>
      rw [decodeFrom, if_neg (by simp), encode_cons, first_append]
      simp only [List.drop_left' (String.length_utf8EncodeChar c), ih]

theorem decode_encode (text : List Char) : decode (encode text) = .ok text :=
  decodeFrom_encode 0 text

/-- Where a decoder stops: the bytes before it are whole, and no character begins there. -/
structure Stops (data : List UInt8) (start : Nat) (e : DecodeError) : Prop where
  le : start ≤ e.start
  lt : e.start - start < data.length
  whole : Whole (data.take (e.start - start))
  none : first (data.drop (e.start - start)) = none
  reason : e.reason = (fault (data.drop (e.start - start))).reason
  stop : e.stop = e.start + (fault (data.drop (e.start - start))).size (data.drop (e.start - start))

theorem decodeFrom_spec (start : Nat) (data : List UInt8) :
    (∃ text, decodeFrom start data = .ok text ∧ encode text = data) ∨
      ∃ e, decodeFrom start data = .error e ∧ Stops data start e := by
  induction start, data using decodeFrom.induct with
  | case1 start => exact .inl ⟨[], by simp [decodeFrom], rfl⟩
  | case2 start data hdata c hc text htext ih =>
      have heq := eq_of_first hc
      rw [decodeFrom, if_neg hdata, hc]
      simp only [htext]
      rcases ih with ⟨text', htext', henc⟩ | ⟨e, he, -⟩
      · rw [htext] at htext'
        injection htext' with htext'
        subst htext'
        refine .inl ⟨c :: text, rfl, ?_⟩
        rw [encode_cons, henc, ← heq]
      · rw [htext] at he
        cases he
  | case3 start data hdata c hc e he ih =>
      have heq := eq_of_first hc
      rw [decodeFrom, if_neg hdata, hc]
      simp only [he]
      rcases ih with ⟨text, htext, -⟩ | ⟨e', he', hstops⟩
      · rw [he] at htext
        cases htext
      · rw [he] at he'
        injection he' with he'
        subst he'
        refine .inr ⟨e, rfl, ?_⟩
        obtain ⟨hle, hlt, hwhole, hnone, hreason, hstop⟩ := hstops
        have hsub : e.start - start = c.utf8Size + (e.start - (start + c.utf8Size)) := by omega
        have hdrop : data.drop (e.start - start) =
            (data.drop c.utf8Size).drop (e.start - (start + c.utf8Size)) := by
          rw [List.drop_drop, hsub]
        refine ⟨by omega, ?_, ?_, ?_, ?_, ?_⟩
        · rw [List.length_drop] at hlt
          omega
        · have htake : data.take (e.start - start) =
              utf8EncodeChar c ++ (data.drop c.utf8Size).take (e.start - (start + c.utf8Size)) := by
            rw [hsub]
            conv => lhs; rw [heq]
            rw [← String.length_utf8EncodeChar c, List.take_length_add_append]
          rw [htake, whole_cons_iff]
          exact hwhole
        · rw [hdrop, hnone]
        · rw [hdrop, hreason]
        · rw [hdrop, hstop]
  | case4 start data hdata hnone =>
      rw [decodeFrom, if_neg hdata, hnone]
      refine .inr ⟨_, rfl, ?_⟩
      have := List.length_pos_iff.mpr hdata
      constructor <;> simp [hnone, this]

theorem encode_of_decode {text : List Char} (h : decode data = .ok text) : encode text = data := by
  rcases decodeFrom_spec 0 data with ⟨text', htext', henc⟩ | ⟨e, he, -⟩
  · rw [decode, htext'] at h
    injection h with h
    rw [← h, henc]
  · rw [decode, he] at h
    cases h

theorem stops_of_decode {e : DecodeError} (h : decode data = .error e) : Stops data 0 e := by
  rcases decodeFrom_spec 0 data with ⟨text, htext, -⟩ | ⟨e', he', hstops⟩
  · rw [decode, htext] at h
    cases h
  · rw [decode, he'] at h
    injection h with h
    rw [← h]
    exact hstops

theorem whole_iff_decode : Whole data ↔ ∃ text, decode data = .ok text := by
  constructor
  · rintro ⟨text, rfl⟩
    exact ⟨text, decode_encode text⟩
  · rintro ⟨text, htext⟩
    exact ⟨text, encode_of_decode htext⟩

/-- Nothing is replaced in whole bytes. -/
theorem decodeReplace_encode (text : List Char) : decodeReplace (encode text) = text := by
  induction text with
  | nil => simp [decodeReplace]
  | cons c text ih =>
      rw [decodeReplace, if_neg (by simp), encode_cons, first_append]
      simp only [List.drop_left' (String.length_utf8EncodeChar c), ih]

/-- Only whole bytes come back from their text when bytes are replaced. -/
theorem encode_decodeReplace_iff : encode (decodeReplace data) = data ↔ Whole data := by
  constructor
  · intro h
    exact ⟨_, h⟩
  · rintro ⟨text, rfl⟩
    rw [decodeReplace_encode]

end Utf8
