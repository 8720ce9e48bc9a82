import Mathlib.Algebra.GroupWithZero.Nat
import Zun.Data.Strings

/-!
# IP networks

What the text of an address or of a network names, in either family: an address, and how many of its leading bits
count.  The grammar is that of the standard library's `ipaddress`, for prefix lengths that are written as numbers.
-/

namespace Zun

namespace IpNetwork

open Strings

inductive Family where
  | v4 | v6
deriving DecidableEq

/-- The bits of an address. -/
def Family.width : Family → Nat
  | v4 => 32
  | v6 => 128

structure Network where
  family : Family
  address : Nat
  prefixLength : Nat
  address_lt : address < 2 ^ family.width
  prefixLength_le : prefixLength ≤ family.width

/-- The addresses of a network have the bits that count in common. -/
def Network.Has (n : Network) (a : Nat) : Prop :=
  a < 2 ^ n.family.width ∧
    a / 2 ^ (n.family.width - n.prefixLength) = n.address / 2 ^ (n.family.width - n.prefixLength)

/-- It has one address. -/
def Network.Single (n : Network) : Prop := ∃ a, n.Has a ∧ ∀ b, n.Has b → b = a

/-- A network has one address when all bits count, and only then. -/
theorem Network.single_iff (n : Network) : n.Single ↔ n.prefixLength = n.family.width := by
  have hself : n.Has n.address := ⟨n.address_lt, rfl⟩
  constructor
  · rintro ⟨a, -, hone⟩
    by_contra hne
    have hlt : n.prefixLength < n.family.width := lt_of_le_of_ne n.prefixLength_le hne
    obtain ⟨k, hk⟩ : ∃ k, n.family.width - n.prefixLength = k + 1 :=
      ⟨n.family.width - n.prefixLength - 1, by omega⟩
    -- the addresses with the last bit turned
    have hlow := Nat.div_mul_le_self n.address 2
    have hwidth : ∃ w, 2 ^ n.family.width = 2 * w := ⟨2 ^ (n.family.width - 1), by
      rw [← Nat.pow_succ', Nat.succ_eq_add_one, Nat.sub_add_cancel (by omega)]⟩
    obtain ⟨w, hw⟩ := hwidth
    have hlt' := n.address_lt
    have heven : n.Has (n.address / 2 * 2) := by
      refine ⟨by omega, ?_⟩
      rw [hk, Nat.pow_succ', ← Nat.div_div_eq_div_mul, ← Nat.div_div_eq_div_mul, Nat.mul_div_cancel _ (by decide)]
    have hodd : n.Has (n.address / 2 * 2 + 1) := by
      refine ⟨by omega, ?_⟩
      rw [hk, Nat.pow_succ', ← Nat.div_div_eq_div_mul, ← Nat.div_div_eq_div_mul]
      congr 1
      omega
    have := (hone _ heven).trans (hone _ hodd).symm
    omega
  · intro heq
    refine ⟨n.address, hself, fun b hb => ?_⟩
    simpa only [heq, Nat.sub_self, Nat.pow_zero, Nat.div_one] using hb.2

/-! ## Numbers -/

def digitValue (c : Char) : Nat := c.toNat - '0'.toNat

/-- A number in decimal digits. -/
def decimal (l : List Char) : Option Nat :=
  if l ≠ [] && l.all Char.isDigit then some (l.foldl (fun n c => 10 * n + digitValue c) 0) else none

/-- A number up to 255, with no zero before it. -/
def octet (l : List Char) : Option Nat := do
  let n ← decimal l
  if l.length ≤ 3 && (l = ['0'] || l.head? ≠ some '0') && n ≤ 255 then some n else none

/-- One to four hexadecimal digits. -/
def hextet (l : List Char) : Option Nat := do
  let digits ← l.mapM hexValue
  if l ≠ [] && l.length ≤ 4 then some (digits.foldl (fun n d => 16 * n + d) 0) else none

/-! ## Addresses -/

/-- Four octets. -/
def v4Address (l : List Char) : Option Nat :=
  match l.splitOn '.' with
  | [a, b, c, d] => do
      let a ← octet a
      let b ← octet b
      let c ← octet c
      let d ← octet d
      some (((a * 256 + b) * 256 + c) * 256 + d)
  | _ => none

/-- What is before the first two colons in a row, and what is after them. -/
def cutAtGap : List Char → Option (List Char × List Char)
  | ':' :: ':' :: rest => some ([], rest)
  | c :: rest => (cutAtGap rest).map fun (left, right) => (c :: left, right)
  | [] => none

/-- Hextets; the last two of an address may be written as four octets. -/
def hextets (dotted : Bool) : List (List Char) → Option (List Nat)
  | [] => some []
  | [last] =>
      if dotted && last.contains '.' then (v4Address last).map fun n => [n / 65536, n % 65536]
      else (hextet last).map fun n => [n]
  | group :: groups => do
      let n ← hextet group
      let ns ← hextets dotted groups
      some (n :: ns)

def side (dotted : Bool) (l : List Char) : Option (List Nat) :=
  if l = [] then some [] else hextets dotted (l.splitOn ':')

def ofHextets (ns : List Nat) : Nat := ns.foldl (fun n h => 65536 * n + h) 0

/-- Eight hextets, of which a gap stands for one or more that are zero. -/
def v6Address (l : List Char) : Option Nat :=
  match cutAtGap l with
  | none => do
      let ns ← side true l
      if ns.length = 8 then some (ofHextets ns) else none
  | some (left, right) => do
      let high ← side false left
      let low ← side true right
      if high.length + low.length ≤ 7 then
        some (ofHextets (high ++ List.replicate (8 - (high.length + low.length)) 0 ++ low))
      else none

def isAddressChar (c : Char) : Bool := (hexValue c).isSome || c = '.' || c = ':' || c = '/'

def address (s : String) : Option (Family × Nat) :=
  match v4Address s.toList with
  | some n => some (.v4, n)
  | none => (v6Address s.toList).map fun n => (.v6, n)

def ofPrefix (family : Family) (address prefixLength : Nat) : Option Network :=
  if h : address < 2 ^ family.width ∧ prefixLength ≤ family.width then
    some ⟨family, address, prefixLength, h.1, h.2⟩
  else none

/-- The network that a text names: an address, and behind a slash its prefix length. -/
def parse (s : String) : Option Network :=
  if s.toList.all isAddressChar then
    match partition '/' s with
    | (text, false, _) => (address text).bind fun (family, n) => ofPrefix family n family.width
    | (text, true, length) => (address text).bind fun (family, n) =>
        (decimal length.toList).bind fun bits => ofPrefix family n bits
  else none

variable {s : String} {n : Network}

theorem ofPrefix_eq_some {family : Family} {address bits : Nat} (h : ofPrefix family address bits = some n) :
    n.family = family ∧ n.prefixLength = bits := by
  unfold ofPrefix at h
  split at h
  · obtain rfl := Option.some.inj h
    exact ⟨rfl, rfl⟩
  · cases h

/-- What is parsed is an address, which all bits count of, or an address, a slash and a number. -/
theorem parse_cases (h : parse s = some n) : (∀ c ∈ s.toList, isAddressChar c = true) ∧
    ('/' ∉ s.toList ∧ n.prefixLength = n.family.width ∨
      ∃ text length, s = text ++ "/" ++ length ∧ '/' ∉ text.toList ∧
        (∀ c ∈ length.toList, c.isDigit = true) ∧ decimal length.toList = some n.prefixLength) := by
  unfold parse at h
  split at h
  · next hchars =>
    refine ⟨List.all_eq_true.mp hchars, ?_⟩
    rcases partition_cases '/' s with ⟨hpart, hslash⟩ | ⟨text, length, hpart, hs, hslash⟩
    · rw [hpart] at h
      obtain ⟨⟨family, a⟩, -, h⟩ := Option.bind_eq_some_iff.mp h
      obtain ⟨hfamily, hbits⟩ := ofPrefix_eq_some h
      exact .inl ⟨hslash, by rw [hbits, hfamily]⟩
    · rw [hpart] at h
      obtain ⟨⟨family, a⟩, -, h⟩ := Option.bind_eq_some_iff.mp h
      obtain ⟨bits, hdecimal, h⟩ := Option.bind_eq_some_iff.mp h
      obtain ⟨-, hbits⟩ := ofPrefix_eq_some h
      refine .inr ⟨text, length, hs, hslash, ?_, by rw [hdecimal, hbits]⟩
      unfold decimal at hdecimal
      split at hdecimal
      · next hall => exact List.all_eq_true.mp (Bool.and_eq_true_iff.mp hall).2
      · cases hdecimal
  · cases h

end IpNetwork

end Zun
