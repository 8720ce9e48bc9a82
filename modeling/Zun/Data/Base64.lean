/-!
# Base64

Three bytes are four digits, and `=` fills the last four up.  The decoder goes through the
characters as the standard library's does when it does not validate: what is no digit is left out,
and enough `=` end the text.
-/

namespace Base64

def alphabet : List Char :=
  "ABCDEFGHIJKLMNOPQRSTUVWXYZabcdefghijklmnopqrstuvwxyz0123456789+/".toList

def digit (n : Nat) : Char := alphabet.getD n '='

def value (c : Char) : Option Nat := alphabet.idxOf? c

def encode : List UInt8 → List Char
  | [] => []
  | [a] => [digit (a.toNat / 4), digit (a.toNat % 4 * 16), '=', '=']
  | [a, b] =>
      [digit (a.toNat / 4), digit (a.toNat % 4 * 16 + b.toNat / 16), digit (b.toNat % 16 * 4), '=']
  | a :: b :: c :: rest =>
      digit (a.toNat / 4) :: digit (a.toNat % 4 * 16 + b.toNat / 16) ::
        digit (b.toNat % 16 * 4 + c.toNat / 64) :: digit (c.toNat % 64) :: encode rest

/-- The digits of the four so far, the bits that no byte has yet, and the `=` that were read.
Nothing when the text ends inside a byte. -/
def decodeFrom (quad left pads : Nat) : List Char → Option (List UInt8)
  | [] => if quad = 0 then some [] else none
  | c :: rest =>
      if c = '=' then
        if quad < 2 then decodeFrom quad left pads rest
        else if 4 ≤ quad + (pads + 1) then some []
        else decodeFrom quad left (pads + 1) rest
      else
        match value c with
        | none => decodeFrom quad left pads rest
        | some v =>
            if quad = 0 then decodeFrom 1 v 0 rest
            else if quad = 1 then
              (decodeFrom 2 (v % 16) 0 rest).map (UInt8.ofNat (left * 4 + v / 16) :: ·)
            else if quad = 2 then
              (decodeFrom 3 (v % 4) 0 rest).map (UInt8.ofNat (left * 16 + v / 4) :: ·)
            else (decodeFrom 0 0 0 rest).map (UInt8.ofNat (left * 64 + v) :: ·)

def decode : List Char → Option (List UInt8) := decodeFrom 0 0 0

theorem value_digit {n : Nat} (hn : n < 64) : value (digit n) = some n := by
  have hall : ∀ n : Fin 64, value (digit n) = some n.val := by decide +kernel
  exact hall ⟨n, hn⟩

theorem digit_ne_pad {n : Nat} (hn : n < 64) : digit n ≠ '=' := by
  have hall : ∀ n : Fin 64, digit n ≠ '=' := by decide +kernel
  exact hall ⟨n, hn⟩

section

variable {n left pads : Nat} {rest : List Char}

/-! ## One digit -/

theorem decodeFrom_zero (hn : n < 64) :
    decodeFrom 0 left pads (digit n :: rest) = decodeFrom 1 n 0 rest := by
  simp [decodeFrom, digit_ne_pad hn, value_digit hn]

theorem decodeFrom_one (hn : n < 64) :
    decodeFrom 1 left pads (digit n :: rest) =
      (decodeFrom 2 (n % 16) 0 rest).map (UInt8.ofNat (left * 4 + n / 16) :: ·) := by
  simp [decodeFrom, digit_ne_pad hn, value_digit hn]

theorem decodeFrom_two (hn : n < 64) :
    decodeFrom 2 left pads (digit n :: rest) =
      (decodeFrom 3 (n % 4) 0 rest).map (UInt8.ofNat (left * 16 + n / 4) :: ·) := by
  simp [decodeFrom, digit_ne_pad hn, value_digit hn]

theorem decodeFrom_three (hn : n < 64) :
    decodeFrom 3 left pads (digit n :: rest) =
      (decodeFrom 0 0 0 rest).map (UInt8.ofNat (left * 64 + n) :: ·) := by
  simp [decodeFrom, digit_ne_pad hn, value_digit hn]

end

theorem ofNat_eq {a : UInt8} {n : Nat} (h : n = a.toNat) : UInt8.ofNat n = a := by
  rw [h]
  exact UInt8.ofNat_toNat

/-- What was encoded is decoded as it was. -/
theorem decode_encode (data : List UInt8) : decode (encode data) = some data := by
  induction data using encode.induct with
  | case1 => rfl
  | case2 a =>
      have ha := a.toNat_lt
      rw [encode, decode, decodeFrom_zero (by omega), decodeFrom_one (by omega)]
      have hpads : decodeFrom 2 (a.toNat % 4 * 16 % 16) 0 ['=', '='] = some [] := by simp [decodeFrom]
      simp only [hpads, Option.map_some, Option.some.injEq, List.cons.injEq, and_true]
      exact ofNat_eq (by omega)
  | case3 a b =>
      have ha := a.toNat_lt
      have hb := b.toNat_lt
      rw [encode, decode, decodeFrom_zero (by omega), decodeFrom_one (by omega),
        decodeFrom_two (by omega)]
      have hpads : decodeFrom 3 (b.toNat % 16 * 4 % 4) 0 ['='] = some [] := by simp [decodeFrom]
      simp only [hpads, Option.map_some, Option.some.injEq, List.cons.injEq, and_true]
      exact ⟨ofNat_eq (by omega), ofNat_eq (by omega)⟩
  | case4 a b c rest ih =>
      have ha := a.toNat_lt
      have hb := b.toNat_lt
      have hc := c.toNat_lt
      rw [encode, decode, decodeFrom_zero (by omega), decodeFrom_one (by omega),
        decodeFrom_two (by omega), decodeFrom_three (by omega), ← decode, ih]
      simp only [Option.map_some, Option.some.injEq, List.cons.injEq, and_true]
      exact ⟨ofNat_eq (by omega), ofNat_eq (by omega), ofNat_eq (by omega)⟩

/-- Three bytes cost four characters, and the last one or two cost four as well. -/
theorem length_encode (data : List UInt8) : (encode data).length = (data.length + 2) / 3 * 4 := by
  induction data using encode.induct with
  | case1 => rfl
  | case2 a => simp [encode]
  | case3 a b => simp [encode]
  | case4 a b c rest ih =>
      simp only [encode, List.length_cons, ih]
      omega

theorem length_encode_le (data : List UInt8) : 3 * (encode data).length ≤ 4 * data.length + 8 := by
  rw [length_encode]
  omega

end Base64
