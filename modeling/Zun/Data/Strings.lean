import Mathlib.Data.List.TakeWhile

/-!
# Strings as Python has them

`str.strip`, `str.split`, `str.partition` and `str.upper`, `shlex.split`, and `json.loads` of a list of strings.
A reader of the last two is one function over the characters, with what it has seen so far as a mode.

A Python string may hold half of a surrogate pair and a `String` may not: where JSON escapes one, the character
that stands for an unreadable one is put.
-/

namespace Strings

/-! ## `str` -/

/-- `str.isspace` of one character. -/
def isspace (c : Char) : Bool :=
  [0x9, 0xa, 0xb, 0xc, 0xd, 0x1c, 0x1d, 0x1e, 0x1f, 0x20, 0x85, 0xa0, 0x1680, 0x2000, 0x2001, 0x2002, 0x2003,
    0x2004, 0x2005, 0x2006, 0x2007, 0x2008, 0x2009, 0x200a, 0x2028, 0x2029, 0x202f, 0x205f, 0x3000].contains c.toNat

/-- `str.strip`. -/
def strip (s : String) : String :=
  String.ofList (((s.toList.dropWhile isspace).reverse.dropWhile isspace).reverse)

/-- `str.split`, at white space. -/
def split (s : String) : List String :=
  ((s.toList.splitOnP isspace).filter (· ≠ [])).map String.ofList

/-- `str.partition` at one character: what is before the first one, whether there is one, and what is after. -/
def partition (sep : Char) (s : String) : String × Bool × String :=
  match s.toList.dropWhile (· ≠ sep) with
  | [] => (s, false, "")
  | _ :: after => (String.ofList (s.toList.takeWhile (· ≠ sep)), true, String.ofList after)

/-- `str.split` at one character. -/
def splitOn (sep : Char) (s : String) : List String := (s.toList.splitOn sep).map String.ofList

/-- `str.split` at the first of such characters. -/
def splitOnce (sep : Char) (s : String) : List String :=
  match partition sep s with
  | (k, true, v) => [k, v]
  | (k, false, _) => [k]

/-- `str.upper` of one character.  Of those outside ASCII, the ones whose upper case is of ASCII letters alone are
here; the others are left as they are. -/
def upperChar (c : Char) : List Char :=
  match c with
  | 'ß' => ['S', 'S']
  | 'ı' => ['I']
  | 'ſ' => ['S']
  | 'ﬀ' => ['F', 'F']
  | 'ﬁ' => ['F', 'I']
  | 'ﬂ' => ['F', 'L']
  | 'ﬃ' => ['F', 'F', 'I']
  | 'ﬄ' => ['F', 'F', 'L']
  | 'ﬅ' => ['S', 'T']
  | 'ﬆ' => ['S', 'T']
  | c => [c.toUpper]

/-- `str.upper`. -/
def upper (s : String) : String := String.ofList (s.toList.flatMap upperChar)

theorem notMem_takeWhile_ne {α : Type} [DecidableEq α] (a : α) (l : List α) :
    a ∉ l.takeWhile (· ≠ a) := by
  intro h
  have := List.mem_takeWhile_imp h
  simp at this

/-- What is before the first separator has none. -/
theorem notMem_partition (sep : Char) (s : String) : sep ∉ (partition sep s).1.toList := by
  unfold partition
  split
  · next h =>
    simp only [List.dropWhile_eq_nil_iff] at h
    intro hmem
    simpa using h sep hmem
  · simpa using notMem_takeWhile_ne sep s.toList

/-- What was put together with a separator comes apart at it. -/
theorem partition_append {sep : Char} {k : String} (v : String) (h : sep ∉ k.toList) :
    partition sep (k ++ String.singleton sep ++ v) = (k, true, v) := by
  have hne : ∀ c ∈ k.toList, decide (c ≠ sep) = true := by
    intro c hc
    have : c ≠ sep := fun heq => h (heq ▸ hc)
    simpa using this
  have hlist : (k ++ String.singleton sep ++ v).toList = k.toList ++ sep :: v.toList := by simp
  unfold partition
  rw [hlist, List.dropWhile_append_of_pos hne, List.takeWhile_append_of_pos hne]
  simp

/-- What comes apart is put together with a separator, and there is none before it. -/
theorem partition_cases (sep : Char) (s : String) :
    partition sep s = (s, false, "") ∧ sep ∉ s.toList ∨
      ∃ k v, partition sep s = (k, true, v) ∧ s = k ++ String.singleton sep ++ v ∧ sep ∉ k.toList := by
  cases hdrop : s.toList.dropWhile (· ≠ sep) with
  | nil =>
      refine .inl ⟨by simp only [partition, hdrop], fun hmem => ?_⟩
      simpa using List.dropWhile_eq_nil_iff.mp hdrop sep hmem
  | cons c rest =>
      have hc : c = sep := by
        have hhead := List.head?_dropWhile_not (fun c => decide (c ≠ sep)) s.toList
        rw [hdrop] at hhead
        simpa using hhead
      have hlist := List.takeWhile_append_dropWhile (p := fun c => decide (c ≠ sep)) (l := s.toList)
      rw [hdrop, hc] at hlist
      refine .inr ⟨String.ofList (s.toList.takeWhile (· ≠ sep)), String.ofList rest,
        by simp only [partition, hdrop], ?_, ?_⟩
      · rw [← String.toList_inj, String.toList_append, String.toList_append, String.toList_ofList,
          String.toList_ofList, String.toList_singleton, List.append_assoc]
        exact hlist.symm
      · simpa using notMem_takeWhile_ne sep s.toList

/-- Lists are put together in one way, when what was put between them is not in the second one. -/
theorem append_cons_inj_of_notMem {α : Type} {a : α} {x x' z z' : List α} (hz : a ∉ z) (hz' : a ∉ z')
    (h : x ++ a :: z = x' ++ a :: z') : x = x' ∧ z = z' := by
  rcases List.append_eq_append_iff.mp h with ⟨c, rfl, hc⟩ | ⟨c, rfl, hc⟩
  · cases c with
    | nil => exact ⟨by simp, (List.cons.inj hc).2⟩
    | cons b c =>
        obtain ⟨-, rfl⟩ := List.cons.inj hc
        exact absurd (by simp) hz
  · cases c with
    | nil => exact ⟨by simp, (List.cons.inj hc).2.symm⟩
    | cons b c =>
        obtain ⟨-, rfl⟩ := List.cons.inj hc
        exact absurd (by simp) hz'

/-! ## `shlex.split` -/

inductive ShlexError where
  | noClosingQuotation
  | noEscapedCharacter
deriving DecidableEq

/-- Where `shlex.read_token` is: between tokens, in one, in quotes in one, or behind a backslash, with the quotes it
goes back to. -/
inductive ShlexMode where
  | blank
  | word
  | quotes (q : Char)
  | escape (back : Option Char)

def shlexSpace (c : Char) : Bool := c = ' ' || c = '\t' || c = '\r' || c = '\n'

def isQuote (c : Char) : Bool := c = '\'' || c = '"'

/-- The tokens of what is left, with the characters of the one that was begun and whether it has had quotes. -/
def shlexTokens : ShlexMode → List Char → Bool → List Char → Except ShlexError (List String)
  | .blank, _, _, [] => .ok []
  | .blank, _, _, c :: cs =>
      if shlexSpace c then shlexTokens .blank [] false cs
      else if c = '\\' then shlexTokens (.escape none) [] false cs
      else if isQuote c then shlexTokens (.quotes c) [] false cs
      else shlexTokens .word [c] false cs
  | .word, token, quoted, [] => .ok (if token.isEmpty && !quoted then [] else [String.ofList token])
  | .word, token, quoted, c :: cs =>
      if shlexSpace c then
        if token.isEmpty && !quoted then shlexTokens .blank [] false cs
        else (String.ofList token :: ·) <$> shlexTokens .blank [] false cs
      else if isQuote c then shlexTokens (.quotes c) token quoted cs
      else if c = '\\' then shlexTokens (.escape none) token quoted cs
      else shlexTokens .word (token ++ [c]) quoted cs
  | .quotes _, _, _, [] => .error .noClosingQuotation
  | .quotes q, token, _, c :: cs =>
      if c = q then shlexTokens .word token true cs
      else if c = '\\' && q = '"' then shlexTokens (.escape (some q)) token true cs
      else shlexTokens (.quotes q) (token ++ [c]) true cs
  | .escape _, _, _, [] => .error .noEscapedCharacter
  | .escape none, token, quoted, c :: cs => shlexTokens .word (token ++ [c]) quoted cs
  | .escape (some q), token, quoted, c :: cs =>
      -- within quotes only they and the backslash are escaped
      if c ≠ '\\' && c ≠ q then shlexTokens (.quotes q) (token ++ ['\\', c]) quoted cs
      else shlexTokens (.quotes q) (token ++ [c]) quoted cs

/-- `shlex.split`. -/
def shlexSplit (s : String) : Except ShlexError (List String) := shlexTokens .blank [] false s.toList

/-! ## `json.loads` -/

inductive JsonMode where
  /-- After the opening bracket. -/
  | first
  /-- After a comma. -/
  | element
  | string
  /-- Behind a backslash. -/
  | escape
  /-- So many digits of a code are missing, and the others are worth so much. -/
  | code (missing value : Nat)
  /-- After an element. -/
  | after
  /-- After the closing bracket. -/
  | done

def jsonSpace (c : Char) : Bool := c = ' ' || c = '\t' || c = '\n' || c = '\r'

def hexValue (c : Char) : Option Nat :=
  if '0' ≤ c ∧ c ≤ '9' then some (c.toNat - '0'.toNat)
  else if 'a' ≤ c ∧ c ≤ 'f' then some (c.toNat - 'a'.toNat + 10)
  else if 'A' ≤ c ∧ c ≤ 'F' then some (c.toNat - 'A'.toNat + 10)
  else none

/-- The code of the character that an escape stands for. -/
def escaped : Char → Option Nat
  | '"' => some 0x22
  | '\\' => some 0x5c
  | '/' => some 0x2f
  | 'b' => some 8
  | 'f' => some 0xc
  | 'n' => some 0xa
  | 'r' => some 0xd
  | 't' => some 9
  | _ => none

/-- The characters of codes, those of a surrogate pair together. -/
def ofCodes : List Nat → List Char
  | [] => []
  | [u] => [Char.ofNat (if 0xd800 ≤ u && u < 0xe000 then 0xfffd else u)]
  | u :: v :: us =>
      if 0xd800 ≤ u && u < 0xdc00 && 0xdc00 ≤ v && v < 0xe000 then
        Char.ofNat (0x10000 + (u - 0xd800) * 0x400 + (v - 0xdc00)) :: ofCodes us
      else Char.ofNat (if 0xd800 ≤ u && u < 0xe000 then 0xfffd else u) :: ofCodes (v :: us)

/-- The strings of a list, with the codes of the one that was begun and those before it. -/
def jsonStrings : JsonMode → List Nat → List String → List Char → Option (List String)
  | .done, _, strings, [] => some strings
  | _, _, _, [] => none
  | .first, codes, strings, c :: cs =>
      if jsonSpace c then jsonStrings .first codes strings cs
      else if c = '"' then jsonStrings .string [] strings cs
      else if c = ']' then jsonStrings .done [] strings cs
      else none
  | .element, codes, strings, c :: cs =>
      if jsonSpace c then jsonStrings .element codes strings cs
      else if c = '"' then jsonStrings .string [] strings cs
      else none
  | .string, codes, strings, c :: cs =>
      if c = '"' then jsonStrings .after [] (strings ++ [String.ofList (ofCodes codes)]) cs
      else if c = '\\' then jsonStrings .escape codes strings cs
      else if c.toNat < 0x20 then none
      else jsonStrings .string (codes ++ [c.toNat]) strings cs
  | .escape, codes, strings, c :: cs =>
      if c = 'u' then jsonStrings (.code 4 0) codes strings cs
      else match escaped c with
        | some u => jsonStrings .string (codes ++ [u]) strings cs
        | none => none
  | .code missing value, codes, strings, c :: cs =>
      match hexValue c with
      | none => none
      | some d =>
          if missing ≤ 1 then jsonStrings .string (codes ++ [value * 16 + d]) strings cs
          else jsonStrings (.code (missing - 1) (value * 16 + d)) codes strings cs
  | .after, codes, strings, c :: cs =>
      if jsonSpace c then jsonStrings .after codes strings cs
      else if c = ',' then jsonStrings .element codes strings cs
      else if c = ']' then jsonStrings .done codes strings cs
      else none
  | .done, codes, strings, c :: cs => if jsonSpace c then jsonStrings .done codes strings cs else none

/-- `json.loads` of a text that begins with a bracket, if what it gives is a list of strings. -/
def jsonLoads (s : String) : Option (List String) :=
  match s.toList with
  | '[' :: cs => jsonStrings .first [] [] cs
  | _ => none

example : shlexSplit "A=1 'B c'=\"d \\\" e\" f\\ g" = .ok ["A=1", "B c=d \" e", "f g"] := by decide +kernel

example : jsonLoads "[\"sh\", \"-c\" ,\"\\u0041\\ud83d\\ude00\"] " = some ["sh", "-c", "A😀"] := by decide +kernel

end Strings
